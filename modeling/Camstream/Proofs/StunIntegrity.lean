import Camstream.Lib.Stun
import Camstream.Proofs.StunAuth

namespace Camstream.Proofs.StunIntegrity
open Lib Webrtc StunAuth

theorem padded_value (a : Stun.Attribute) :
    a.value.length + a.padding.length = paddedLength a.value.length := by
  have hpadded := a.padded
  have haligned := a.aligned
  unfold paddedLength
  omega

theorem encode_padded (a : Stun.Attribute) :
    a.encode.length = 4 + paddedLength a.value.length := by
  rw [Stun.encode_length, padded_value]

/-- The walk meets an attribute that stands behind `front`. -/
theorem find_here (wanted stop : Nat) (front rest : Bytes) (a : Stun.Attribute)
    (hstop : front.length + a.encode.length ≤ stop) :
    findAttribute (front ++ (a.encode ++ rest)) wanted stop front.length =
      if a.type.toNat = wanted then some (front.length + 4, a.value.length)
      else findAttribute (front ++ (a.encode ++ rest)) wanted stop
        (front.length + a.encode.length) := by
  obtain ⟨htype, hlength, -⟩ := Stun.encode_reads a rest
  have hread : readBe16 (front ++ (a.encode ++ rest)) front.length = a.type.toNat := by
    rw [← htype]
    exact readBe16_append_right front _ 0
  have hsize : readBe16 (front ++ (a.encode ++ rest)) (front.length + 2) = a.value.length := by
    rw [readBe16_append_right, hlength]
  have hroom := Stun.encode_length a
  rw [find_step wanted (by omega) (by rw [hsize]; omega), hread, hsize, encode_padded]

/-- It passes over a list of attributes of other types. -/
theorem find_past {wanted stop : Nat} {list : List Stun.Attribute} (front rest : Bytes)
    (hother : ∀ a ∈ list, a.type.toNat ≠ wanted)
    (hstop : front.length + (Stun.attributes list).length ≤ stop) :
    findAttribute (front ++ (Stun.attributes list ++ rest)) wanted stop front.length =
      findAttribute (front ++ (Stun.attributes list ++ rest)) wanted stop
        (front.length + (Stun.attributes list).length) := by
  induction list generalizing front with
  | nil => rfl
  | cons a list ih =>
    have hne := hother a (by simp)
    rw [Stun.attributes_cons, List.length_append] at hstop ⊢
    rw [List.append_assoc, find_here wanted stop front _ a (by omega), if_neg hne]
    have hrest := ih (front ++ a.encode) (fun x hx => hother x (by simp [hx]))
      (by rw [List.length_append]; omega)
    rw [List.append_assoc, List.length_append] at hrest
    rw [hrest, Nat.add_assoc]

/-- What `stun_find_attribute` finds in a message. -/
theorem find_in_message {wanted : Nat} (type : UInt16) (id : Vector UInt8 16)
    {before after : List Stun.Attribute} {a : Stun.Attribute}
    (hother : ∀ x ∈ before, x.type.toNat ≠ wanted) (ha : a.type.toNat = wanted)
    (hfits : (Stun.attributes (before ++ a :: after)).length < 65536) :
    stunFindAttribute (Stun.message type id (Stun.attributes (before ++ a :: after))) wanted =
      some (20 + (Stun.attributes before).length + 4, a.value.length) := by
  unfold stunFindAttribute Stun.message
  rw [Stun.header_reads type id _ hfits, List.length_append, Stun.header_length,
    if_neg (by simp [stunHeaderSize])]
  dsimp only
  rw [if_neg (by simp only [stunHeaderSize]; omega)]
  set head := Stun.header type (Stun.attributes (before ++ a :: after)).length id with hhead
  have hlen : head.length = 20 := Stun.header_length _ _ _
  rw [Stun.attributes_append, Stun.attributes_cons, List.length_append, List.length_append]
  have hskip := @find_past wanted
    (stunHeaderSize + ((Stun.attributes before).length +
      (a.encode.length + (Stun.attributes after).length))) before head
    (a.encode ++ Stun.attributes after) hother (by simp only [stunHeaderSize]; omega)
  have hfound := find_here wanted
    (stunHeaderSize + ((Stun.attributes before).length +
      (a.encode.length + (Stun.attributes after).length))) (head ++ Stun.attributes before)
    (Stun.attributes after) a (by rw [List.length_append]; simp only [stunHeaderSize]; omega)
  rw [if_pos ha, List.length_append, List.append_assoc, hlen] at hfound
  rw [hlen] at hskip
  exact hskip.trans hfound

theorem other_type {list : List Stun.Attribute} {type : UInt16} (h : ∀ a ∈ list, a.type ≠ type) :
    ∀ a ∈ list, a.type.toNat ≠ type.toNat :=
  fun a ha heq => h a ha (UInt16.toNat_inj.mp heq)

theorem patch_header (type : UInt16) (length length' : Nat) (id : Vector UInt8 16) (rest : Bytes) :
    patchLength (Stun.header type length id ++ rest) length' =
      Stun.header type length' id ++ rest := by
  simp only [Stun.header, patchLength, writeBe16, List.append_assoc]
  rfl

section Signed
variable (m : Stun.SignedMessage)

/-- The message up to MESSAGE-INTEGRITY, that attribute, and what follows it. -/
theorem bytes_split : m.bytes =
    (Stun.header m.type (Stun.attributes (m.before ++ Stun.messageIntegrity m.mi :: m.after)).length
      m.id ++ Stun.attributes m.before) ++
      ((Stun.messageIntegrity m.mi).encode ++ Stun.attributes m.after) := by
  rw [Stun.SignedMessage.bytes, Stun.message, List.append_assoc]
  congr 1
  rw [Stun.attributes_append, Stun.attributes_cons]

/-- The scratch copy holds the text under the MAC. -/
theorem scratch_integrityText :
    patchLength (m.bytes.take (20 + (Stun.attributes m.before).length))
      (20 + (Stun.attributes m.before).length + 24 - 20) = m.integrityText := by
  have hmi : (Stun.attributes [Stun.messageIntegrity m.mi]).length = 24 := by
    simp [Stun.attributes, Stun.encode_length, Stun.messageIntegrity]
  rw [bytes_split, List.take_left' (by rw [List.length_append, Stun.header_length]), patch_header,
    Stun.SignedMessage.integrityText, Stun.attributes_append, List.length_append, hmi]
  congr 2
  omega

theorem value_at :
    (m.bytes.drop (20 + (Stun.attributes m.before).length + 4)).take 20 = m.mi.toList := by
  obtain ⟨-, -, hvalue⟩ :=
    Stun.encode_reads (Stun.messageIntegrity m.mi) (Stun.attributes m.after)
  have hlen : (Stun.messageIntegrity m.mi).value.length = 20 := by simp [Stun.messageIntegrity]
  rw [hlen] at hvalue
  rw [bytes_split, ← List.drop_drop,
    List.drop_left' (by rw [List.length_append, Stun.header_length]), hvalue]
  rfl

/-- The check passes exactly when MESSAGE-INTEGRITY is the MAC of the text before it. -/
theorem verify_iff (hmac : HmacSha1) {password : Bytes} (hpassword : password ≠ []) :
    stunVerifyMi hmac m.bytes password = true ↔
      m.mi.toList = hmac.mac password m.integrityText := by
  have htype : (0x0008 : UInt16).toNat = stunAttrMessageIntegrity := rfl
  have hfind : stunFindAttribute m.bytes stunAttrMessageIntegrity =
      some (20 + (Stun.attributes m.before).length + 4, 20) := by
    rw [Stun.SignedMessage.bytes, ← htype,
      find_in_message m.type m.id (other_type m.unsigned) rfl m.fits]
    simp [Stun.messageIntegrity]
  have hlen : 20 + (Stun.attributes m.before).length + 24 ≤ m.bytes.length := by
    have hmi : (Stun.messageIntegrity m.mi).encode.length = 24 := by
      simp [Stun.encode_length, Stun.messageIntegrity]
    rw [bytes_split]
    simp only [List.length_append, Stun.header_length, hmi]
    omega
  have hne : password.isEmpty = false := by simpa using hpassword
  unfold stunVerifyMi
  have hroom : ¬ m.bytes.length < stunHeaderSize + 24 := by
    simp only [stunHeaderSize]
    omega
  rw [hne, hfind, decide_eq_false hroom, Bool.false_or, if_neg Bool.false_ne_true]
  dsimp only
  rw [if_neg (by simp), if_neg (by simp only [stunHeaderSize]; omega), Nat.add_sub_cancel,
    stunHeaderSize, scratch_integrityText, value_at, beq_iff_eq]
  exact eq_comm

end Signed

/-- MESSAGE-INTEGRITY is verified as RFC 5389 has it, whatever attributes follow it. -/
theorem integrity_by_rfc (hmac : HmacSha1) (m : Stun.SignedMessage) {password : Bytes}
    (hpassword : password ≠ []) :
    (stunVerifyMi hmac m.bytes password = true ↔
      m.mi.toList = hmac.mac password m.integrityText) ∧
    ∀ after fits, stunVerifyMi hmac ({ m with after, fits } : Stun.SignedMessage).bytes password =
      stunVerifyMi hmac m.bytes password := by
  refine ⟨verify_iff m hmac hpassword, ?_⟩
  intro after fits
  rw [Bool.eq_iff_iff, verify_iff m hmac hpassword,
    verify_iff { m with after, fits } hmac hpassword]
  rfl

/-- A request with SOFTWARE, MESSAGE-INTEGRITY and a FINGERPRINT. -/
def signedRequest : Stun.SignedMessage where
  type := 1
  id := Vector.replicate 16 7
  before := [⟨0x8022, [99, 97, 109], [0], by decide, by decide, by decide⟩]
  mi := Vector.replicate 20 0
  after := [⟨0x8028, [1, 2, 3, 4], [], by decide, by decide, by decide⟩]
  unsigned := by simp
  fits := by decide

theorem integrity_by_rfc_signed : stunVerifyMi zeroHmac signedRequest.bytes [112] = true :=
  (integrity_by_rfc zeroHmac signedRequest (List.cons_ne_nil 112 [])).1.mpr rfl

end Camstream.Proofs.StunIntegrity
