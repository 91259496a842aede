import Camstream.Lib.Stun
import Camstream.Webrtc.IceLite

namespace Camstream.Proofs.ErrorResponse
open Lib Webrtc

/-- A message of which an ERROR-CODE gives the code. -/
def Decodes (code : UInt16) (sent : Bytes) : Prop :=
  ∃ type id list, sent = Stun.message type id (Stun.attributes list) ∧
    ∃ a ∈ list, a.type = 0x0009 ∧ Stun.errorCode a.value = some code.toNat

/-- What the builder has made of `out`: `response`, of which `responseLen` bytes are sent. -/
structure Complete (tid : Bytes) (code : UInt16) (out response : Bytes) (responseLen : Nat) :
    Prop where
  inside : responseLen ≤ out.length
  /-- No byte that is sent comes from the buffer of the caller. -/
  written : ∀ out' : Bytes, out'.length = out.length →
    (stunBuildErrorResponse tid code out').map (fun built => built.1.take built.2) =
      some (response.take responseLen)
  decodes : Decodes code (response.take responseLen)

/-- SOFTWARE and ERROR-CODE as they are sent, with the four bytes behind them. -/
def softwareAttribute : Stun.Attribute :=
  ⟨0x8022, stunSoftware, [0, 0, 0], by decide, by decide, by decide⟩

def codeAttribute (code : UInt16) (behind : Bytes) (h : behind.length = 4) : Stun.Attribute :=
  ⟨0x0009, [0, (code / 100).toUInt8] ++ writeBe16 (code % 100) ++ behind, [], by simp [h],
    Stun.no_padding, by simp [h]⟩

/-- The class stands in the second byte, and what decodes is the number alone. -/
theorem codeAttribute_decodes (code : UInt16) {behind : Bytes} (h : behind.length = 4) :
    Stun.errorCode (codeAttribute code behind h).value = some (code.toNat % 100) := by
  have hnumber : (code % 100).toNat = code.toNat % 100 := UInt16.toNat_mod _ _
  have hsmall : code.toNat % 100 < 100 := Nat.mod_lt _ (by decide)
  have hhigh : byteAt (codeAttribute code behind h).value 2 = 0 := by
    change ((code % 100) >>> 8).toUInt8 = 0
    rw [← UInt8.toNat_inj, UInt16.toNat_toUInt8, UInt16.toNat_shiftRight, hnumber]
    change (code.toNat % 100) >>> 8 % 256 = 0
    rw [Nat.shiftRight_eq_div_pow, Nat.div_eq_of_lt (by omega)]
  have hlow : (byteAt (codeAttribute code behind h).value 3).toNat = code.toNat % 100 := by
    change (code % 100).toUInt8.toNat = _
    rw [UInt16.toNat_toUInt8, hnumber, Nat.mod_eq_of_lt (by omega)]
  rw [Stun.errorCode, if_pos (by simp [codeAttribute]), hhigh, hlow]
  simp

section Built
variable {tid out response : Bytes} {code : UInt16} {responseLen : Nat}

/-- The code attribute up to where the builder stops. -/
def codeStart (code : UInt16) : Bytes :=
  writeBe16 0x0009 ++ writeBe16 8 ++ [0, (code / 100).toUInt8] ++ writeBe16 (code % 100)

theorem built_eq (htid : tid.length = 12)
    (h : stunBuildErrorResponse tid code out = some (response, responseLen)) :
    44 ≤ out.length ∧ responseLen = 48 ∧ response.length = out.length ∧
      (response.take 48).drop 20 =
        softwareAttribute.encode ++ (codeStart code ++ (out.drop 44).take 4) := by
  unfold stunBuildErrorResponse at h
  split at h
  · cases h
  · rename_i hroom
    simp only [Option.some.injEq, Prod.mk.injEq] at h
    obtain ⟨rfl, rfl⟩ := h
    refine ⟨by omega, rfl, ?_, ?_⟩
    · simp [htid, stunSoftware]
      omega
    · have hfront : ([0x01, 0x11] ++ writeBe16 28 ++ [0x21, 0x12, 0xA4, 0x42] ++ tid).length = 20 := by
        simp [htid]
      have hcode : (codeStart code).length = 8 := rfl
      have hsoft : softwareAttribute.encode.length = 16 := rfl
      rw [List.drop_take, List.append_assoc, List.append_assoc, List.drop_left' hfront]
      change (softwareAttribute.encode ++ (codeStart code ++ out.drop 44)).take 28 = _
      rw [List.take_append, List.take_append, hsoft, hcode, List.take_of_length_le (by rw [hsoft]; omega),
        List.take_of_length_le (by rw [hcode]; omega)]

theorem code_start_reads (code : UInt16) (rest : Bytes) :
    readBe16 (codeStart code ++ rest) 2 = 8 := by
  have hread := readBe16_append_right (writeBe16 0x0009)
    (writeBe16 8 ++ ([0, (code / 100).toUInt8] ++ writeBe16 (code % 100) ++ rest)) 0
  rw [readBe16_writeBe16] at hread
  exact hread

/-- The number never is the code. -/
theorem not_decodes (htid : tid.length = 12) (hcode : 100 ≤ code)
    (h : stunBuildErrorResponse tid code out = some (response, responseLen)) :
    ¬ Decodes code (response.take responseLen) := by
  obtain ⟨hroom, rfl, hlen, hbody⟩ := built_eq htid h
  rintro ⟨type, id, list, hsent, a, ha, htype, hvalue⟩
  rw [hsent, Stun.message, List.drop_left' (Stun.header_length _ _ _)] at hbody
  cases list with
  | nil => cases ha
  | cons b list =>
    rw [Stun.attributes_cons] at hbody
    obtain ⟨rfl, hrest⟩ := Stun.encode_inj hbody
    have hmem : a ∈ list := by
      rcases List.mem_cons.mp ha with rfl | hmem
      · exact absurd htype (by decide)
      · exact hmem
    cases list with
    | nil => cases hmem
    | cons b list =>
      rw [Stun.attributes_cons] at hrest
      obtain ⟨-, hsize, -⟩ := Stun.encode_reads b (Stun.attributes list)
      rw [hrest, code_start_reads] at hsize
      have hall := congrArg List.length hrest
      have hbehind : ((out.drop 44).take 4).length = 4 := by
        have hstart : (codeStart code).length = 8 := rfl
        rw [List.length_append, List.length_append, Stun.encode_length, hstart] at hall
        have := List.length_take_le 4 (out.drop 44)
        omega
      have hcodeAttribute : b.encode ++ Stun.attributes list =
          (codeAttribute code _ hbehind).encode ++ Stun.attributes [] := by
        rw [hrest]
        simp [Stun.Attribute.encode, codeAttribute, codeStart, hbehind, Stun.attributes]
      obtain ⟨rfl, hnone⟩ := Stun.encode_inj hcodeAttribute
      obtain rfl := Stun.attributes_inj hnone
      obtain rfl := List.mem_singleton.mp hmem
      rw [codeAttribute_decodes, Option.some.injEq] at hvalue
      have hcode : 100 ≤ code.toNat := UInt16.le_iff_toNat_le.mp hcode
      omega

/-- The last four bytes that are sent are those of the caller, as far as it has them. -/
theorem sent_leftover (htid : tid.length = 12)
    (h : stunBuildErrorResponse tid code out = some (response, responseLen)) :
    (response.take responseLen).drop 44 = (out.drop 44).take 4 := by
  obtain ⟨-, rfl, -, hbody⟩ := built_eq htid h
  have hfront : (softwareAttribute.encode ++ codeStart code).length = 24 := rfl
  have hsplit : (response.take 48).drop 44 = ((response.take 48).drop 20).drop 24 := by
    rw [List.drop_drop]
  rw [hsplit, hbody, ← List.append_assoc, List.drop_left' hfront]

/-- What is sent depends on the buffer of the caller, or reaches behind it. -/
theorem not_written (htid : tid.length = 12)
    (h : stunBuildErrorResponse tid code out = some (response, responseLen))
    (hlen : 44 < out.length) : ¬ ∀ out' : Bytes, out'.length = out.length →
      (stunBuildErrorResponse tid code out').map (fun built => built.1.take built.2) =
        some (response.take responseLen) := by
  intro hall
  have hsame : ∀ b, ((List.replicate out.length b).drop 44).take 4 = (out.drop 44).take 4 := by
    intro b
    obtain ⟨⟨response', responseLen'⟩, hbuilt, hsent⟩ :=
      Option.map_eq_some_iff.mp (hall (List.replicate out.length b) List.length_replicate)
    rw [← sent_leftover htid hbuilt, ← sent_leftover htid h, ← hsent]
  have hbyte := (hsame 0).trans (hsame 1).symm
  rw [List.drop_replicate, List.drop_replicate, List.take_replicate, List.take_replicate,
    List.replicate_inj] at hbyte
  rcases hbyte.2 with hzero | hzero
  · omega
  · exact absurd hzero (by decide)

end Built

/-- No error response is complete. -/
theorem error_response_never (tid : Vector UInt8 12) {code : UInt16} (out : Bytes)
    {response : Bytes} {responseLen : Nat} (hlow : 300 ≤ code) (_hhigh : code ≤ 699)
    (h : stunBuildErrorResponse tid.toList code out = some (response, responseLen)) :
    ¬ Complete tid.toList code out response responseLen := by
  intro hcomplete
  have hcode : 100 ≤ code := UInt16.le_iff_toNat_le.mpr
    (Nat.le_trans (by decide) (UInt16.le_iff_toNat_le.mp hlow))
  exact not_decodes (by simp) hcode h hcomplete.decodes

theorem error_response_never_401 : ∃ response responseLen,
    stunBuildErrorResponse (Vector.replicate 12 7).toList 401 (List.replicate 48 0) =
      some (response, responseLen) ∧
    ¬ Complete (Vector.replicate 12 7).toList 401 (List.replicate 48 0) response responseLen := by
  have hbuilt : (stunBuildErrorResponse (Vector.replicate 12 7).toList 401
      (List.replicate 48 0)).isSome = true := by
    decide
  obtain ⟨⟨response, responseLen⟩, h⟩ := Option.isSome_iff_exists.mp hbuilt
  exact ⟨response, responseLen, h, error_response_never (Vector.replicate 12 7)
    (List.replicate 48 0) (by decide) (by decide) h⟩

/-- The response to a rejected check ends with four bytes of the stack and decodes as 1. -/
theorem leaked_bytes : ∃ response,
    stunBuildErrorResponse (List.replicate 12 7) 401 (List.replicate 128 0xAA) =
      some (response, 48) ∧
    (response.take 48).drop 36 =
      [0, 9, 0, 8, 0, 4, 0, 1, 0xAA, 0xAA, 0xAA, 0xAA] ∧
    ¬ Complete (List.replicate 12 7) 401 (List.replicate 128 0xAA) response 48 := by
  have hbuilt : ((stunBuildErrorResponse (List.replicate 12 7) 401 (List.replicate 128 0xAA)).map
      fun built => ((built.1.take 48).drop 36, built.2)) =
      some ([0, 9, 0, 8, 0, 4, 0, 1, 0xAA, 0xAA, 0xAA, 0xAA], 48) := by
    decide +kernel
  obtain ⟨⟨response, responseLen⟩, h, hbytes⟩ := Option.map_eq_some_iff.mp hbuilt
  simp only [Prod.mk.injEq] at hbytes
  obtain ⟨hbytes, rfl⟩ := hbytes
  refine ⟨response, h, hbytes, ?_⟩
  intro hcomplete
  exact not_decodes (List.length_replicate) (by decide) h hcomplete.decodes

end Camstream.Proofs.ErrorResponse
