import Camstream.Proofs.StunIntegrity

namespace Camstream.Proofs.BindingResponse
open Lib Webrtc StunAuth StunIntegrity

theorem crc32Stun_eq (data : Bytes) : crc32Stun data = Crc32.crc32 data :=
  Crc32.crc32_byTable data

/-- XOR-MAPPED-ADDRESS, as the builder writes it. -/
def mappedAddress (addr : UInt32) (port : UInt16) : Stun.Attribute where
  type := 0x0020
  value := [0, 0x01] ++ writeBe16 (port ^^^ 0x2112) ++ writeBe32 (addr ^^^ stunMagicCookie)
  padding := []
  short := by simp
  padded := Stun.no_padding
  aligned := by simp

theorem xorMappedAddress_encode (addr : UInt32) (port : UInt16) :
    xorMappedAddress addr port = (mappedAddress addr port).encode := by
  simp [xorMappedAddress, mappedAddress, Stun.Attribute.encode, writeBe16, writeBe32]

/-- The masks undo each other. -/
theorem mapped_decodes (addr : UInt32) (port : UInt16) :
    Stun.xorMappedAddress (mappedAddress addr port).value = some (addr, port) := by
  have hport : readBe16 (mappedAddress addr port).value 2 = (port ^^^ 0x2112).toNat :=
    readBe16_writeBe16 _ (writeBe32 (addr ^^^ stunMagicCookie))
  have haddr : readBe32 (mappedAddress addr port).value 4 = (addr ^^^ stunMagicCookie).toNat := by
    have h := readBe32_writeBe32 (addr ^^^ stunMagicCookie) []
    rw [List.append_nil] at h
    exact h
  rw [Stun.xorMappedAddress, if_pos ⟨rfl, rfl⟩, hport, haddr, UInt32.ofNat_toNat,
    UInt16.ofNat_toNat]
  have hmask : (Stun.magicCookie >>> 16).toUInt16 = 0x2112 := by decide
  rw [hmask, UInt16.xor_assoc, UInt16.xor_self, UInt16.xor_zero, UInt32.xor_assoc]
  simp [stunMagicCookie, Stun.magicCookie]

def fingerprintAttribute (text : Bytes) : Stun.Attribute where
  type := 0x8028
  value := writeBe32 (Stun.fingerprint text)
  padding := []
  short := by simp
  padded := Stun.no_padding
  aligned := by simp

theorem requestId_size {request : Bytes} (h : stunHeaderSize ≤ request.length) :
    ((request.drop 4).take 16).toArray.size = 16 := by
  rw [List.size_toArray, List.length_take, List.length_drop]
  simp only [stunHeaderSize] at h
  omega

/-- The cookie and the transaction id of a request. -/
def requestId (request : Bytes) (h : stunHeaderSize ≤ request.length) : Vector UInt8 16 :=
  ⟨((request.drop 4).take 16).toArray, requestId_size h⟩

theorem requestId_toList {request : Bytes} (h : stunHeaderSize ≤ request.length) :
    (requestId request h).toList = (request.drop 4).take 16 := by
  simp [requestId, Vector.toList]

/-- The parts of the response: XOR-MAPPED-ADDRESS, a MAC, and FINGERPRINT over a text. -/
def response (id : Vector UInt8 16) (addr : UInt32) (port : UInt16) (mac : Vector UInt8 20)
    (text : Bytes) : Stun.SignedMessage where
  type := 0x0101
  id
  before := [mappedAddress addr port]
  mi := mac
  after := [fingerprintAttribute text]
  unsigned := by simp [mappedAddress]
  fits := by
    simp [Stun.attributes, Stun.encode_length, mappedAddress, Stun.messageIntegrity,
      fingerprintAttribute]

/-- The text under the MAC as the builder leaves it in its buffer, with any payload length. -/
def buildStart (id : Vector UInt8 16) (addr : UInt32) (port : UInt16) (payload : UInt16) : Bytes :=
  [0x01, 0x01] ++ writeBe16 payload ++ id.toList ++ xorMappedAddress addr port

def macOf (hmac : HmacSha1) (localPwd text : Bytes) : Vector UInt8 20 :=
  ⟨(hmac.mac localPwd text).toArray, by rw [List.size_toArray, hmac.length_mac]⟩

/-- What FINGERPRINT covers. -/
def covered (id : Vector UInt8 16) (addr : UInt32) (port : UInt16) (mac : Vector UInt8 20) : Bytes :=
  buildStart id addr port 44 ++ (Stun.messageIntegrity mac).encode

theorem response_bytes (id : Vector UInt8 16) (addr : UInt32) (port : UInt16)
    (mac : Vector UInt8 20) (text : Bytes) :
    (response id addr port mac text).bytes =
      covered id addr port mac ++ (fingerprintAttribute text).encode := by
  have hlength : (Stun.attributes ([mappedAddress addr port] ++
      Stun.messageIntegrity mac :: [fingerprintAttribute text])).length = 44 := by
    simp [Stun.attributes, Stun.encode_length, mappedAddress, Stun.messageIntegrity,
      fingerprintAttribute]
  rw [Stun.SignedMessage.bytes, response, Stun.message, hlength, Stun.header, covered, buildStart,
    xorMappedAddress_encode]
  simp [Stun.attributes, List.append_assoc]
  rfl

theorem response_integrityText (id : Vector UInt8 16) (addr : UInt32) (port : UInt16)
    (mac : Vector UInt8 20) (text : Bytes) :
    (response id addr port mac text).integrityText = buildStart id addr port 36 := by
  have hlength : (Stun.attributes ([mappedAddress addr port] ++
      [Stun.messageIntegrity mac])).length = 36 := by
    simp [Stun.attributes, Stun.encode_length, mappedAddress, Stun.messageIntegrity]
  rw [Stun.SignedMessage.integrityText, response, hlength, Stun.header, buildStart,
    xorMappedAddress_encode]
  simp [Stun.attributes]
  rfl

/-- The builder writes a signed message with the address, the MAC of its own text, and a
FINGERPRINT over all before it. -/
theorem built_eq (hmac : HmacSha1) (localPwd : Bytes) {request : Bytes} (addr : UInt32)
    (port : UInt16) {capacity : Nat} (hrequest : stunHeaderSize ≤ request.length)
    (hcapacity : 64 ≤ capacity) :
    stunBuildBindingResponse hmac localPwd request (.inet addr port) capacity =
      let id := requestId request hrequest
      let mac := macOf hmac localPwd (buildStart id addr port 36)
      some (response id addr port mac (covered id addr port mac)).bytes := by
  dsimp only
  rw [response_bytes]
  unfold stunBuildBindingResponse
  dsimp only
  rw [if_neg (by omega)]
  have hid := requestId_toList hrequest
  have hintegrity : ∀ text, (Stun.messageIntegrity (macOf hmac localPwd text)).encode =
      writeBe16 0x0008 ++ writeBe16 20 ++ hmac.mac localPwd text := by
    intro text
    simp [Stun.Attribute.encode, Stun.messageIntegrity, macOf, Vector.toList, hmac.length_mac]
  have hprint : ∀ text, (fingerprintAttribute text).encode =
      writeBe16 0x8028 ++ writeBe16 4 ++ writeBe32 (crc32Stun text ^^^ 0x5354554E) := by
    intro text
    rw [crc32Stun_eq]
    simp [Stun.Attribute.encode, fingerprintAttribute, Stun.fingerprint]
  have hmac : (12 + 24 : UInt16) = 36 := rfl
  have hall : (36 + 8 : UInt16) = 44 := rfl
  simp only [covered, buildStart, hid, hintegrity, hprint, List.append_assoc, hmac, hall]

/-- Every request is answered with a message that the check passes, whose FINGERPRINT is
that of all before it and whose XOR-MAPPED-ADDRESS is the address of the peer. -/
theorem response_verifies (hmac : HmacSha1) {localPwd request : Bytes} (addr : UInt32)
    (port : UInt16) {capacity : Nat} (hpwd : localPwd ≠ [])
    (hrequest : stunHeaderSize ≤ request.length) (hcapacity : 64 ≤ capacity) :
    ∃ (m : Stun.SignedMessage) (mapped print : Stun.Attribute) (text : Bytes),
      stunBuildBindingResponse hmac localPwd request (.inet addr port) capacity = some m.bytes ∧
      m.bytes.length = 64 ∧ m.type = 0x0101 ∧
      (m.bytes.drop 4).take 16 = (request.drop 4).take 16 ∧
      stunVerifyMi hmac m.bytes localPwd = true ∧
      m.before = [mapped] ∧ m.after = [print] ∧
      (print.type = 0x8028 ∧ m.bytes = text ++ print.encode ∧
        print.value = writeBe32 (Stun.fingerprint text)) ∧
      mapped.type = 0x0020 ∧ Stun.xorMappedAddress mapped.value = some (addr, port) := by
  have hbuilt := built_eq hmac localPwd addr port hrequest hcapacity
  set id := requestId request hrequest
  set mac := macOf hmac localPwd (buildStart id addr port 36)
  refine ⟨_, _, _, _, hbuilt, ?_, rfl, ?_, ?_, rfl, rfl, ⟨rfl, response_bytes _ _ _ _ _, rfl⟩, rfl,
    mapped_decodes addr port⟩
  · rw [response_bytes]
    simp [covered, buildStart, xorMappedAddress_encode, Stun.encode_length, mappedAddress,
      Stun.messageIntegrity, fingerprintAttribute]
  · rw [response_bytes, covered, buildStart]
    simp only [List.append_assoc]
    change (id.toList ++ _).take 16 = _
    rw [List.take_left' (by simp), requestId_toList]
  · rw [verify_iff _ hmac hpwd, response_integrityText]
    simp [response, macOf, Vector.toList]

theorem response_verifies_bare : ∃ m : Stun.SignedMessage,
    stunBuildBindingResponse zeroHmac [112] bareRequest (.inet 0xC0000201 32853) 128 =
      some m.bytes ∧ stunVerifyMi zeroHmac m.bytes [112] = true := by
  obtain ⟨m, _, _, _, hbuilt, _, _, _, hverified, _⟩ := response_verifies zeroHmac 0xC0000201 32853
    (List.cons_ne_nil 112 []) (by decide : stunHeaderSize ≤ bareRequest.length)
    (by decide : 64 ≤ 128)
  exact ⟨m, hbuilt, hverified⟩

end Camstream.Proofs.BindingResponse
