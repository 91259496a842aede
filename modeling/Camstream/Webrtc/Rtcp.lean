import Camstream.Lib.Bytes

namespace Camstream.Webrtc
open Lib

def rtcpMaxNackSeqs : Nat := 128

def rtcpHeaderSize : Nat := 8
def rtcpReportBlockSize : Nat := 24
def rtcpSenderInfoSize : Nat := 20

/-- What a compound packet asks for. `nack_seqs` is the length of `nackSeq`. -/
structure RtcpFeedback where
  pli : Nat
  fir : Nat
  bye : Bool
  nackSeq : List UInt16
  hasRr : Bool
  rrSsrc : UInt32
  rrFractionLost : UInt8
  rrHighestSeq : UInt32
  rrJitter : UInt32
  rrLastSr : UInt32
  rrDelaySinceSr : UInt32
deriving Repr, DecidableEq

/-- `memset(feedback, 0, ...)`. -/
def rtcpNoFeedback : RtcpFeedback := ⟨0, 0, false, [], false, 0, 0, 0, 0, 0, 0⟩

/-- Seconds since 1900 and the 32 bit fraction of a wall clock time. -/
def ntpTime (wallUs : UInt64) : UInt64 × UInt32 :=
  (wallUs / 1000000 + 2208988800, (((wallUs % 1000000) <<< 32) / 1000000).toUInt32)

def rtcpBuildSenderReport (ssrc : UInt32) (ntpWallUs : UInt64)
    (rtpTs packetCount octetCount : UInt32) : Bytes :=
  [0x80, 200] ++ writeBe16 6 ++ writeBe32 ssrc ++ writeBe32 (ntpTime ntpWallUs).1.toUInt32 ++
    writeBe32 (ntpTime ntpWallUs).2 ++ writeBe32 rtpTs ++ writeBe32 packetCount ++
    writeBe32 octetCount

/-- Round trip time from LSR and DLSR; the difference is a signed 32 bit one. -/
def rtcpRttMs (nowNtpMsw rrLastSr rrDelaySinceSr : UInt32) : Int :=
  if rrLastSr = 0 then -1
  else
    let elapsed := (nowNtpMsw - rrLastSr - rrDelaySinceSr).toInt32.toInt
    if elapsed < 0 then
      if elapsed > -(65536 / 100) then 0 else -1
    else (elapsed * 1000 + 32768) / 65536

/-- The report blocks of an SR or RR, from the `i`-th of `count` on. -/
def parseReports (body : Bytes) (mediaSsrc : UInt32) (first count i : Nat)
    (feedback : RtcpFeedback) : RtcpFeedback :=
  if i < count then
    let pos := first + i * rtcpReportBlockSize
    if pos + rtcpReportBlockSize > body.length then feedback
    else if feedback.hasRr && feedback.rrSsrc == mediaSsrc then feedback
    else
      parseReports body mediaSsrc first count (i + 1) { feedback with
        hasRr := true
        rrSsrc := UInt32.ofNat (readBe32 body pos)
        rrFractionLost := byteAt body (pos + 4)
        rrHighestSeq := UInt32.ofNat (readBe32 body (pos + 8))
        rrJitter := UInt32.ofNat (readBe32 body (pos + 12))
        rrLastSr := UInt32.ofNat (readBe32 body (pos + 16))
        rrDelaySinceSr := UInt32.ofNat (readBe32 body (pos + 20)) }
  else feedback
termination_by count - i

/-- One more requested sequence number, while there is room for it. -/
def addNack (seqs : List UInt16) (seq : UInt16) : List UInt16 :=
  if seqs.length < rtcpMaxNackSeqs then seqs ++ [seq] else seqs

/-- The packet id and the sequence numbers its bitmask names. -/
def nackEntry (pid mask : Nat) (seqs : List UInt16) : List UInt16 :=
  (List.range 16).foldl
    (fun seqs bit => if mask.testBit bit then addNack seqs (UInt16.ofNat (pid + bit + 1)) else seqs)
    (addNack seqs (UInt16.ofNat pid))

/-- The FCI entries of a Generic NACK, from position `i` of the packet on. -/
def parseNacks (body : Bytes) (i : Nat) (seqs : List UInt16) : List UInt16 :=
  if i + 4 ≤ body.length ∧ seqs.length < rtcpMaxNackSeqs then
    parseNacks body (i + 4) (nackEntry (readBe16 body i) (readBe16 body (i + 2)) seqs)
  else seqs
termination_by body.length - i

/-- One packet of the compound. -/
def parsePacket (body : Bytes) (mediaSsrc : UInt32) (feedback : RtcpFeedback) : RtcpFeedback :=
  let countOrFmt := (byteAt body 0 &&& 0x1F).toNat
  match (byteAt body 1).toNat with
  | 200 =>
    parseReports body mediaSsrc (rtcpHeaderSize + rtcpSenderInfoSize) countOrFmt 0 feedback
  | 201 => parseReports body mediaSsrc rtcpHeaderSize countOrFmt 0 feedback
  | 203 => { feedback with bye := true }
  | 205 =>
    if countOrFmt ≠ 1 then feedback
    else { feedback with nackSeq := parseNacks body 12 feedback.nackSeq }
  | 206 =>
    if countOrFmt = 1 then { feedback with pli := feedback.pli + 1 }
    else if countOrFmt = 4 then { feedback with fir := feedback.fir + 1 }
    else feedback
  | _ => feedback

/-- The packets of the compound from `offset` on, up to the first that is not a
complete version 2 packet. -/
def parsePackets (buffer : Bytes) (mediaSsrc : UInt32) (offset : Nat) (feedback : RtcpFeedback) :
    RtcpFeedback :=
  if offset + 4 ≤ buffer.length then
    let packetLen := (readBe16 buffer (offset + 2) + 1) * 4
    if byteAt buffer offset >>> 6 ≠ 2 then feedback
    else if offset + packetLen > buffer.length ∨ packetLen < 4 then feedback
    else
      parsePackets buffer mediaSsrc (offset + packetLen)
        (parsePacket ((buffer.drop offset).take packetLen) mediaSsrc feedback)
  else feedback
termination_by buffer.length - offset

def rtcpParse (buffer : Bytes) (mediaSsrc : UInt32) : RtcpFeedback :=
  parsePackets buffer mediaSsrc 0 rtcpNoFeedback

end Camstream.Webrtc
