import Camstream.Webrtc.Certificate
import Camstream.Proofs.Fingerprint

namespace Camstream.Proofs.FingerprintText
open Lib Webrtc Fingerprint

/-- Bytes spelled as pairs of hexadecimal digits, with colons before, between or behind the
pairs, or without. -/
inductive Spelling : Bytes → Bytes → Prop
  | nil : Spelling [] []
  | colon {md text : Bytes} (rest : Spelling md text) : Spelling md (58 :: text)
  | pair {md text : Bytes} (a b : UInt8) (high : isHexByte a = true) (low : isHexByte b = true)
      (rest : Spelling md text) :
      Spelling (UInt8.ofNat (digitValue a * 16 + digitValue b) :: md) (a :: b :: text)

theorem Spelling.append {md md' text text' : Bytes} (h : Spelling md text)
    (h' : Spelling md' text') : Spelling (md ++ md') (text ++ text') := by
  induction h with
  | nil => exact h'
  | colon rest ih => exact .colon ih
  | pair a b high low rest ih => exact .pair a b high low ih

theorem hex_apart {c : UInt8} (h : isHexByte c = true) : c ≠ 58 ∧ c ≠ 0 := by
  constructor
  · rintro rfl
    cases h
  · rintro rfl
    cases h

/-- A spelling is a C string. -/
theorem Spelling.clean {md text : Bytes} (h : Spelling md text) : 0 ∉ text := by
  induction h with
  | nil => exact List.not_mem_nil
  | colon rest ih =>
    rw [List.mem_cons, not_or]
    exact ⟨by decide, ih⟩
  | pair a b high low rest ih =>
    rw [List.mem_cons, List.mem_cons, not_or, not_or]
    exact ⟨(hex_apart high).2.symm, (hex_apart low).2.symm, ih⟩

/-- Every spelling is read back. -/
theorem Spelling.read {md text : Bytes} (h : Spelling md text) :
    hexBytes (text.filter (· ≠ 58)) = some md := by
  induction h with
  | nil => rfl
  | colon rest ih => exact ih
  | @pair md text a b high low rest ih =>
    have hkeep : (a :: b :: text).filter (· ≠ 58) = a :: b :: text.filter (· ≠ 58) := by
      simp [(hex_apart high).1, (hex_apart low).1]
    rw [hkeep, hexBytes, if_pos (Bool.and_eq_true_iff.mpr ⟨high, low⟩), ih]
    rfl

/-- Behind a token and a space a spelling names its digest. -/
theorem Spelling.digestOf {digest : Digest} {body : Bytes} (h : Spelling digest.bytes body)
    {token : Bytes} (htoken : 32 ∉ token) :
    digestOf (token ++ 32 :: body) = some digest.bytes := by
  have hall : ∀ c ∈ token, decide (c ≠ 32) = true := fun c hc =>
    decide_eq_true fun heq => htoken (heq ▸ hc)
  have hbehind : ((token ++ 32 :: body).dropWhile (· ≠ 32)).tail = body := by
    rw [List.dropWhile_append_of_pos hall]
    rfl
  unfold Fingerprint.digestOf
  rw [if_pos (by simp), hbehind]
  dsimp only
  rw [h.read, Option.filter_some, if_pos (decide_eq_true digest.length_eq)]

/-- The digits that are printed are in upper case already. -/
theorem hexDigit_upper : ∀ n : Fin 16,
    foldHexCase (hexDigit (UInt8.ofNat n)) = hexDigit (UInt8.ofNat n) := by
  decide

theorem hexUpper_spelling (byte : UInt8) : Spelling [byte] (hexUpper [byte]) := by
  have hbyte := byte.toNat_lt
  obtain ⟨hhigh, hlow⟩ := byte_digits byte
  have hupper : foldHexCase (hexDigit (byte >>> 4)) = hexDigit (byte >>> 4) ∧
      foldHexCase (hexDigit (byte &&& 15)) = hexDigit (byte &&& 15) := by
    rw [hhigh, hlow]
    exact ⟨hexDigit_upper ⟨byte.toNat / 16, by omega⟩, hexDigit_upper ⟨byte.toNat % 16, by omega⟩⟩
  obtain ⟨⟨ha, hb⟩, hvalue⟩ := (hexPair_eq _ _ byte).mp hupper
  have hspelled := Spelling.pair _ _ ha hb .nil
  rwa [hvalue] at hspelled

/-- The text of the first `n` bytes as it is printed. -/
def printedBytes (md : Bytes) (n : Nat) : Bytes := (List.range n).flatMap (fingerprintByte md)

theorem printedBytes_succ (md : Bytes) (n : Nat) :
    printedBytes md (n + 1) = printedBytes md n ++ fingerprintByte md n := by
  unfold printedBytes
  rw [List.range_succ, List.flatMap_append, List.flatMap_singleton]

theorem fingerprintByte_spelling (md : Bytes) (i : Nat) :
    Spelling [byteAt md i] (fingerprintByte md i) := by
  have hspelled := hexUpper_spelling (byteAt md i)
  unfold fingerprintByte
  split
  · exact .colon hspelled
  · exact hspelled

theorem printedBytes_spelling (md : Bytes) {n : Nat} (h : n ≤ md.length) :
    Spelling (md.take n) (printedBytes md n) := by
  induction n with
  | zero => exact .nil
  | succ n ih =>
    have hbyte : md.take (n + 1) = md.take n ++ [byteAt md n] := by
      rw [List.take_add_one, List.getElem?_eq_getElem (by omega), byteAt, List.getD_eq_getElem?_getD,
        List.getElem?_eq_getElem (by omega)]
      rfl
    rw [hbyte, printedBytes_succ]
    exact (ih (by omega)).append (fingerprintByte_spelling md n)

theorem fingerprintByte_length (md : Bytes) (i : Nat) :
    (fingerprintByte md i).length = if i = 0 then 2 else 3 := by
  unfold fingerprintByte
  rw [List.length_append, hexUpper_length]
  by_cases hi : i = 0
  · rw [if_neg (by omega), if_pos hi]
    rfl
  · rw [if_pos hi, if_neg hi]
    rfl

theorem printedBytes_length (md : Bytes) (n : Nat) : (printedBytes md n).length = 3 * n - 1 := by
  induction n with
  | zero => rfl
  | succ n ih =>
    rw [printedBytes_succ, List.length_append, ih, fingerprintByte_length]
    split <;> omega

/-- What is in `g_fingerprint`: this text and its NUL, with the offset behind the text. -/
structure Printed (text : Bytes) (out : UInt64 × Bytes) : Prop where
  offset : out.1.toNat = text.length
  bytes : StartsWith 128 out.2 text

theorem Printed.print {text : Bytes} {out : UInt64 × Bytes} (h : Printed text out) (piece : Bytes)
    (hfit : text.length + piece.length < 128) :
    ∃ out', printFingerprint out piece = some out' ∧ Printed (text ++ piece) out' ∧
      text ++ piece ++ [0] <+: out'.2 := by
  have hoffset := h.offset
  have hsize : fingerprintSize.toNat = 128 := rfl
  have hroom : (fingerprintSize - out.1).toNat = 128 - text.length := by
    rw [UInt64.toNat_sub_of_le _ _ (UInt64.le_iff_toNat_le.mpr (by omega)), hoffset, hsize]
  obtain ⟨buffer, hprinted, hlength, hfront⟩ := vsnprintf_front h.bytes hoffset.symm
    (show out.1.toNat + (fingerprintSize - out.1).toNat = 128 by omega) (by omega)
    (show piece.length < 2 ^ 31 by omega)
  rw [← List.append_assoc] at hfront
  refine ⟨(out.1 + UInt64.ofInt piece.length, buffer), ?_, ⟨?_, hlength, ?_⟩, hfront⟩
  · rw [printFingerprint, hprinted]
    rfl
  · have hsum : (UInt64.ofInt (piece.length : Int)).toNat = piece.length := by
      simp [UInt64.ofInt]
      omega
    rw [UInt64.toNat_add, hsum, hoffset, List.length_append]
    omega
  · exact (List.prefix_append _ _).trans hfront

/-- The text that a digest is printed as. -/
def fingerprintText (digest : Digest) : Bytes := ascii "sha-256" ++ 32 :: printedBytes digest.bytes 32

theorem generateCertificate_prints (digest : Digest) {fingerprint : Bytes}
    (hsize : fingerprint.length = 128) :
    ∃ out, generateCertificate ⟨true, true, true, some digest⟩ fingerprint = some (0, out) ∧
      StartsWith 128 out (fingerprintText digest ++ [0]) := by
  have hempty : Printed [] (0, fingerprint) := ⟨rfl, hsize, List.nil_prefix⟩
  obtain ⟨first, hfirst, hprinted⟩ := hempty.print (ascii "sha-256 ") (by decide)
  obtain ⟨last, hlast, hdone, hnul⟩ := @forRange_invariant _ digest.bytes.length
    (fun i out => printFingerprint out (fingerprintByte digest.bytes i)) first
    (fun i out => Printed (ascii "sha-256 " ++ printedBytes digest.bytes i) out ∧
      ascii "sha-256 " ++ printedBytes digest.bytes i ++ [0] <+: out.2)
    hprinted (by
      intro i hi out hout
      have hfit : (ascii "sha-256 " ++ printedBytes digest.bytes i).length +
          (fingerprintByte digest.bytes i).length < 128 := by
        have hbytes := digest.length_eq
        rw [List.length_append, printedBytes_length, fingerprintByte_length,
          show (ascii "sha-256 ").length = 8 from rfl]
        split <;> omega
      have hturn := hout.1.print _ hfit
      rwa [List.append_assoc, ← printedBytes_succ] at hturn)
  rw [digest.length_eq] at hnul
  refine ⟨last.2, ?_, hdone.bytes.length, hnul⟩
  unfold generateCertificate
  simp only [not_true_eq_false, if_false, hfirst, Option.bind_eq_bind, Option.bind_some, hlast]
  rfl

theorem fingerprintText_spelling (digest : Digest) :
    Spelling digest.bytes (printedBytes digest.bytes 32) := by
  have hspelled := printedBytes_spelling digest.bytes digest.length_eq.ge
  rwa [List.take_of_length_le digest.length_eq.le] at hspelled

/-- A spelling of a digest is equal to that digest and to no other; and the text of the own
certificate is a spelling of its digest in a buffer that has room for it. -/
theorem fingerprint_text_exact :
    (∀ (digest digest' : Digest) (token body : Bytes), 32 ∉ token → Spelling digest.bytes body →
      (fingerprintHexEqual (token ++ 32 :: body) digest'.bytes = true ↔ digest = digest')) ∧
    ∀ (digest : Digest) (fingerprint : Bytes), fingerprint.length = 128 →
      ∃ out body, generateCertificate ⟨true, true, true, some digest⟩ fingerprint = some (0, out) ∧
        out.length = 128 ∧ (cString out).length < 128 ∧
        cString out = ascii "sha-256" ++ 32 :: body ∧ Spelling digest.bytes body ∧
        digestOf (cString out) = some digest.bytes := by
  constructor
  · intro digest digest' token body htoken hspelled
    rw [fingerprintHexEqual_iff, hspelled.digestOf htoken, Option.some_inj]
    constructor
    · intro h
      cases digest
      cases digest'
      cases h
      rfl
    · intro h
      rw [h]
  · intro digest fingerprint hsize
    obtain ⟨out, hout, hlength, rest, hrest⟩ := generateCertificate_prints digest hsize
    have hspelled := fingerprintText_spelling digest
    have hclean : 0 ∉ fingerprintText digest := by
      unfold fingerprintText
      rw [List.mem_append, List.mem_cons, not_or, not_or]
      exact ⟨by decide, by decide, hspelled.clean⟩
    have htext : cString out = fingerprintText digest := by
      rw [← hrest, List.append_assoc, cString_append hclean]
      exact List.append_nil _
    refine ⟨out, printedBytes digest.bytes 32, hout, hlength, ?_, htext, hspelled, ?_⟩
    · have hbytes : (printedBytes digest.bytes 32).length = 95 := printedBytes_length digest.bytes 32
      rw [htext, fingerprintText, List.length_append, List.length_cons, hbytes]
      decide
    · rw [htext]
      exact hspelled.digestOf (by decide)

theorem zeroBytes_length : (List.replicate 32 (0 : UInt8)).length = 32 := List.length_replicate

def zeroDigest : Digest := ⟨List.replicate 32 0, zeroBytes_length⟩

theorem fingerprint_text_zero :
    fingerprintHexEqual (fingerprintText zeroDigest) zeroDigest.bytes = true ∧
      ∃ out, generateCertificate ⟨true, true, true, some zeroDigest⟩ (List.replicate 128 0) =
        some (0, out) := by
  obtain ⟨hequal, hmade⟩ := fingerprint_text_exact
  obtain ⟨out, -, hout, -⟩ := hmade zeroDigest (List.replicate 128 0) rfl
  refine ⟨?_, out, hout⟩
  exact (hequal zeroDigest zeroDigest (ascii "sha-256") (printedBytes zeroDigest.bytes 32) (by decide)
    (fingerprintText_spelling zeroDigest)).mpr rfl

end Camstream.Proofs.FingerprintText
