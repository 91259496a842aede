import Camstream.Lib.Bytes

namespace Camstream.Webrtc
open Lib

def stunMagicCookie : UInt32 := 0x2112A442
def stunHeaderSize : Nat := 20

def stunAttrUsername : Nat := 0x0006
def stunAttrMessageIntegrity : Nat := 0x0008

inductive RtcPacketClass
  | stun | dtls | rtp | other
deriving Repr, DecidableEq

/-- RFC 7983 demultiplexing by the first byte. -/
def rtcClassifyPacket (buf : Bytes) : RtcPacketClass :=
  if buf.length < 1 then .other
  else if byteAt buf 0 ≤ 3 then .stun
  else if byteAt buf 0 ≥ 20 ∧ byteAt buf 0 ≤ 63 then .dtls
  else if byteAt buf 0 ≥ 128 then .rtp
  else .other

/-- The part of a `sockaddr_storage` that is looked at. -/
inductive SockAddr
  | inet (addr : UInt32) (port : UInt16)
  | other (family : UInt16)
deriving Repr, DecidableEq

/-- `HMAC(EVP_sha1(), ...)`: 20 bytes for every key and message. -/
structure HmacSha1 where
  mac : Bytes → Bytes → Bytes
  length_mac : ∀ key message, (mac key message).length = 20

/-- Attribute length with its padding: `(attr_len + 3) & ~3u`. -/
def paddedLength (attrLen : Nat) : Nat := (attrLen + 3) / 4 * 4

/-- The attribute walk from `offset` to `stop`: offset and length of the value
of the first attribute of the wanted type. -/
def findAttribute (buf : Bytes) (wanted stop offset : Nat) : Option (Nat × Nat) :=
  if offset + 4 ≤ stop then
    let type := readBe16 buf offset
    let attrLen := readBe16 buf (offset + 2)
    if offset + 4 + attrLen > stop then none
    else if type = wanted then some (offset + 4, attrLen)
    else findAttribute buf wanted stop (offset + (4 + paddedLength attrLen))
  else none
termination_by stop - offset

def stunFindAttribute (buf : Bytes) (wanted : Nat) : Option (Nat × Nat) :=
  if buf.length < stunHeaderSize then none
  else
    let messageLen := readBe16 buf 2
    if messageLen + stunHeaderSize > buf.length then none
    else findAttribute buf wanted (stunHeaderSize + messageLen) stunHeaderSize

/-- Type, cookie and length of the header are those of a STUN message. -/
def stunHeaderIs (type : Nat) (buf : Bytes) : Bool :=
  decide (stunHeaderSize ≤ buf.length) && readBe16 buf 0 == type &&
    readBe32 buf 4 == stunMagicCookie.toNat &&
    decide (readBe16 buf 2 + stunHeaderSize ≤ buf.length)

def stunIsBindingRequest (buf : Bytes) : Bool := stunHeaderIs 0x0001 buf

def stunIsBindingIndication (buf : Bytes) : Bool := stunHeaderIs 0x0011 buf

/-- The transaction id `stun_is_binding_request` copies out. -/
def stunTid (buf : Bytes) : Bytes := (buf.drop 8).take 12

/-- `<ufrag>:<anything>`, or `<up to the first colon>:<ufrag>`. -/
def usernameNames (username localUfrag : Bytes) : Bool :=
  let ufragLen := localUfrag.length
  if decide (username.length > ufragLen) && byteAt username ufragLen == 58 &&
      username.take ufragLen == localUfrag then true
  else
    match username.dropWhile (· ≠ 58) with
    | [] => false
    | _ :: second => second == localUfrag

def stunUsernameMatches (buf localUfrag : Bytes) : Bool :=
  if localUfrag.isEmpty then false
  else
    match stunFindAttribute buf stunAttrUsername with
    | none => false
    | some (username, usernameLen) =>
      usernameNames ((buf.drop username).take usernameLen) localUfrag

/-- The message with another length field. -/
def patchLength (message : Bytes) (length : Nat) : Bytes :=
  message.take 2 ++ writeBe16 (UInt16.ofNat length) ++ message.drop 4

/-- The scratch copy is never refused memory here. -/
def stunVerifyMi (hmac : HmacSha1) (buf password : Bytes) : Bool :=
  if password.isEmpty || decide (buf.length < stunHeaderSize + 24) then false
  else
    match stunFindAttribute buf stunAttrMessageIntegrity with
    | none => false
    | some (mi, miLen) =>
      let miHeader := mi - 4
      if miLen ≠ 20 then false
      else if miHeader < stunHeaderSize ∨ buf.length < miHeader + 24 then false
      else
        let scratch := patchLength (buf.take miHeader) (miHeader + 24 - stunHeaderSize)
        hmac.mac password scratch == (buf.drop mi).take 20

/-- One bit of the reflected CRC. -/
def crc32Bit (crc : UInt32) : UInt32 :=
  if crc &&& 1 ≠ 0 then (crc >>> 1) ^^^ 0xEDB88320 else crc >>> 1

/-- Entry of `g_crc32_table`. -/
def crc32Entry (i : UInt32) : UInt32 := crc32Bit^[8] i

def crc32Stun (data : Bytes) : UInt32 :=
  data.foldl (fun crc b => crc32Entry ((crc ^^^ b.toUInt32) &&& 0xFF) ^^^ (crc >>> 8)) 0xFFFFFFFF
    ^^^ 0xFFFFFFFF

def xorMappedAddress (addr : UInt32) (port : UInt16) : Bytes :=
  writeBe16 0x0020 ++ writeBe16 8 ++ [0, 0x01] ++ writeBe16 (port ^^^ 0x2112) ++
    writeBe32 (addr ^^^ stunMagicCookie)

/-- Binding response: XOR-MAPPED-ADDRESS, MESSAGE-INTEGRITY, FINGERPRINT. -/
def stunBuildBindingResponse (hmac : HmacSha1) (localPwd request : Bytes) (peer : SockAddr)
    (outCapacity : Nat) : Option Bytes :=
  match peer with
  | .other _ => none
  | .inet addr port =>
    if request.length < stunHeaderSize ∨ outCapacity < 64 then none
    else
      let start (payload : UInt16) :=
        [0x01, 0x01] ++ writeBe16 payload ++ (request.drop 4).take 16 ++ xorMappedAddress addr port
      let mi := writeBe16 0x0008 ++ writeBe16 20 ++ hmac.mac localPwd (start (12 + 24))
      let message := start (12 + 24 + 8) ++ mi
      some (message ++ writeBe16 0x8028 ++ writeBe16 4 ++
        writeBe32 (crc32Stun message ^^^ 0x5354554E))

/-- `"camstream"`. -/
def stunSoftware : Bytes := [99, 97, 109, 115, 116, 114, 101, 97, 109]

/-- Binding error response: the buffer afterwards and `out_len`. The last four
of the 48 bytes keep what `out` held before. -/
def stunBuildErrorResponse (tid : Bytes) (errorCode : UInt16) (out : Bytes) :
    Option (Bytes × Nat) :=
  if out.length < 44 then none
  else
    some ([0x01, 0x11] ++ writeBe16 28 ++ [0x21, 0x12, 0xA4, 0x42] ++ tid ++
      (writeBe16 0x8022 ++ writeBe16 9 ++ stunSoftware ++ [0, 0, 0]) ++
      (writeBe16 0x0009 ++ writeBe16 8 ++ [0, (errorCode / 100).toUInt8] ++
        writeBe16 (errorCode % 100)) ++ out.drop 44, stunHeaderSize + 28)

end Camstream.Webrtc
