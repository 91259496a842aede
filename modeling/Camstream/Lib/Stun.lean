import Camstream.Lib.Crc32

namespace Camstream.Lib.Stun
open Lib

/-! STUN messages by RFC 5389: a header of 20 bytes and attributes in whole words. -/

/-- An attribute with the bytes that fill its last word (section 15). -/
@[ext] structure Attribute where
  type : UInt16
  value : Bytes
  padding : Bytes
  short : value.length < 65536
  padded : padding.length < 4
  aligned : (value.length + padding.length) % 4 = 0

def Attribute.encode (a : Attribute) : Bytes :=
  writeBe16 a.type ++ writeBe16 (UInt16.ofNat a.value.length) ++ a.value ++ a.padding

def attributes (list : List Attribute) : Bytes := list.flatMap Attribute.encode

/-- The message type, the length behind the header, the cookie and the transaction id. -/
def header (type : UInt16) (length : Nat) (id : Vector UInt8 16) : Bytes :=
  writeBe16 type ++ writeBe16 (UInt16.ofNat length) ++ id.toList

def message (type : UInt16) (id : Vector UInt8 16) (body : Bytes) : Bytes :=
  header type body.length id ++ body

theorem no_padding : ([] : Bytes).length < 4 := by simp

def messageIntegrity (mi : Vector UInt8 20) : Attribute :=
  ⟨0x0008, mi.toList, [], by simp, no_padding, by simp⟩

/-- A message with MESSAGE-INTEGRITY between other attributes. -/
structure SignedMessage where
  type : UInt16
  id : Vector UInt8 16
  before : List Attribute
  mi : Vector UInt8 20
  after : List Attribute
  unsigned : ∀ a ∈ before, a.type ≠ 0x0008
  fits : (attributes (before ++ messageIntegrity mi :: after)).length < 65536

def SignedMessage.bytes (m : SignedMessage) : Bytes :=
  message m.type m.id (attributes (m.before ++ messageIntegrity m.mi :: m.after))

/-- The text under the MAC (section 15.4): all before MESSAGE-INTEGRITY, with a length that
ends behind it. -/
def SignedMessage.integrityText (m : SignedMessage) : Bytes :=
  header m.type (attributes (m.before ++ [messageIntegrity m.mi])).length m.id ++
    attributes m.before

def magicCookie : UInt32 := 0x2112A442

/-- The address and port in an XOR-MAPPED-ADDRESS of family IPv4 (section 15.2). -/
def xorMappedAddress (value : Bytes) : Option (UInt32 × UInt16) :=
  if value.length = 8 ∧ byteAt value 1 = 0x01 then
    some (UInt32.ofNat (readBe32 value 4) ^^^ magicCookie,
      UInt16.ofNat (readBe16 value 2) ^^^ (magicCookie >>> 16).toUInt16)
  else none

/-- The value of FINGERPRINT behind a text (section 15.5). -/
def fingerprint (text : Bytes) : UInt32 := Crc32.crc32 text ^^^ 0x5354554E

/-- The code in an ERROR-CODE: hundreds in the low three bits of the third byte, the rest in
the fourth (section 15.6). -/
def errorCode (value : Bytes) : Option Nat :=
  if 4 ≤ value.length then
    some ((byteAt value 2 &&& 7).toNat * 100 + (byteAt value 3).toNat)
  else none

@[simp] theorem header_length (type : UInt16) (length : Nat) (id : Vector UInt8 16) :
    (header type length id).length = 20 := by
  simp [header]

theorem encode_length (a : Attribute) :
    a.encode.length = 4 + (a.value.length + a.padding.length) := by
  simp only [Attribute.encode, List.length_append, writeBe16_length]
  omega

theorem attributes_append (front back : List Attribute) :
    attributes (front ++ back) = attributes front ++ attributes back := List.flatMap_append

theorem attributes_cons (a : Attribute) (list : List Attribute) :
    attributes (a :: list) = a.encode ++ attributes list := List.flatMap_cons

/-- What the first attribute of a buffer says about itself. -/
theorem encode_reads (a : Attribute) (rest : Bytes) :
    readBe16 (a.encode ++ rest) 0 = a.type.toNat ∧
      readBe16 (a.encode ++ rest) 2 = a.value.length ∧
      ((a.encode ++ rest).drop 4).take a.value.length = a.value := by
  have hlength : (UInt16.ofNat a.value.length).toNat = a.value.length :=
    UInt16.toNat_ofNat_of_lt' a.short
  simp only [Attribute.encode, List.append_assoc]
  refine ⟨readBe16_writeBe16 _ _, ?_, ?_⟩
  · have hread := readBe16_append_right (writeBe16 a.type)
      (writeBe16 (UInt16.ofNat a.value.length) ++ (a.value ++ (a.padding ++ rest))) 0
    rw [readBe16_writeBe16, hlength] at hread
    exact hread
  · change (a.value ++ (a.padding ++ rest)).take a.value.length = a.value
    exact List.take_left

/-- An attribute is told from what follows it. -/
theorem encode_inj {a b : Attribute} {rest rest' : Bytes}
    (h : a.encode ++ rest = b.encode ++ rest') : a = b ∧ rest = rest' := by
  obtain ⟨htype, hlength, hvalue⟩ := encode_reads a rest
  obtain ⟨htype', hlength', hvalue'⟩ := encode_reads b rest'
  rw [h] at htype hlength hvalue
  have hlen : a.value.length = b.value.length := hlength.symm.trans hlength'
  have hval : a.value = b.value := by rw [← hvalue, ← hvalue', hlen]
  have hpad : a.padding.length = b.padding.length := by
    have := a.padded
    have := a.aligned
    have := b.padded
    have := b.aligned
    omega
  obtain ⟨hencode, hrest⟩ := List.append_inj h (by rw [encode_length, encode_length]; omega)
  have hpadding := (List.append_inj hencode (by simp [hlen])).2
  exact ⟨Attribute.ext (UInt16.toNat_inj.mp (htype.symm.trans htype')) hval hpadding, hrest⟩

/-- A body has one list of attributes at most. -/
theorem attributes_inj {list list' : List Attribute} (h : attributes list = attributes list') :
    list = list' := by
  induction list generalizing list' with
  | nil =>
    cases list' with
    | nil => rfl
    | cons b list' =>
      have hlen := congrArg List.length h
      rw [attributes_cons, List.length_append, encode_length] at hlen
      simp only [attributes, List.flatMap_nil, List.length_nil] at hlen
      omega
  | cons a list ih =>
    cases list' with
    | nil =>
      have hlen := congrArg List.length h
      rw [attributes_cons, List.length_append, encode_length] at hlen
      simp only [attributes, List.flatMap_nil, List.length_nil] at hlen
      omega
    | cons b list' =>
      obtain ⟨rfl, hrest⟩ := encode_inj h
      rw [ih hrest]

theorem header_reads (type : UInt16) {length : Nat} (id : Vector UInt8 16) (rest : Bytes)
    (h : length < 65536) : readBe16 (header type length id ++ rest) 2 = length := by
  rw [header, List.append_assoc, List.append_assoc]
  have hread := readBe16_append_right (writeBe16 type)
    (writeBe16 (UInt16.ofNat length) ++ (id.toList ++ rest)) 0
  rw [readBe16_writeBe16, UInt16.toNat_ofNat_of_lt' h] at hread
  exact hread

end Camstream.Lib.Stun
