import Camstream.Lib.Checked
import Camstream.Webrtc.SessionApi

namespace Camstream.Webrtc.Checked
open Lib

/-! The functions that read a datagram, access by access. The outer option is none when one
of them leaves its buffer. -/

def rtcClassifyPacket (buf : Bytes) : Option RtcPacketClass :=
  if buf.length < 1 then some .other
  else do
    let first ← load buf 0
    pure (if first ≤ 3 then .stun
      else if first ≥ 20 ∧ first ≤ 63 then .dtls
      else if first ≥ 128 then .rtp
      else .other)

def findAttribute (buf : Bytes) (wanted stop offset : Nat) : Option (Option (Nat × Nat)) :=
  if _h : offset + 4 ≤ stop then do
    let type ← loadBe16 buf offset
    let attrLen ← loadBe16 buf (offset + 2)
    if offset + 4 + attrLen > stop then pure none
    else if type = wanted then pure (some (offset + 4, attrLen))
    else findAttribute buf wanted stop (offset + (4 + paddedLength attrLen))
  else some none
termination_by stop - offset

def stunFindAttribute (buf : Bytes) (wanted : Nat) : Option (Option (Nat × Nat)) :=
  if buf.length < stunHeaderSize then some none
  else do
    let messageLen ← loadBe16 buf 2
    if messageLen + stunHeaderSize > buf.length then pure none
    else findAttribute buf wanted (stunHeaderSize + messageLen) stunHeaderSize

/-- The transaction id of a binding request, none for any other message. -/
def stunIsBindingRequest (buf : Bytes) : Option (Option Bytes) :=
  if buf.length < stunHeaderSize then some none
  else do
    let type ← loadBe16 buf 0
    let messageLen ← loadBe16 buf 2
    let cookie ← loadBe32 buf 4
    if type ≠ 0x0001 then pure none
    else if cookie ≠ stunMagicCookie.toNat then pure none
    else if messageLen + stunHeaderSize > buf.length then pure none
    else do
      let tid ← loadRange buf 8 12
      pure (some tid)

def stunIsBindingIndication (buf : Bytes) : Option Bool :=
  if buf.length < stunHeaderSize then some false
  else do
    let type ← loadBe16 buf 0
    let messageLen ← loadBe16 buf 2
    let cookie ← loadBe32 buf 4
    pure (type == 0x0011 && cookie == stunMagicCookie.toNat &&
      decide (messageLen + stunHeaderSize ≤ buf.length))

/-- The return value and `out` afterwards. -/
def stunCopyUsername (buf out : Bytes) : Option (Int × Bytes) :=
  if out.length = 0 then some (-1, out)
  else do
    let out ← storeRange out 0 [0]
    match ← stunFindAttribute buf stunAttrUsername with
    | none => pure (-1, out)
    | some (username, usernameLen) =>
      let usernameLen := if usernameLen ≥ out.length then out.length - 1 else usernameLen
      let text ← loadRange buf username usernameLen
      let out ← storeRange out 0 text
      let out ← storeRange out usernameLen [0]
      pure (0, out)

/-- The comparison with `<ufrag>:<anything>`, which stops at the first difference. -/
def ufragFirst (buf : Bytes) (username usernameLen : Nat) (localUfrag : Bytes) : Option Bool :=
  if usernameLen > localUfrag.length then do
    let colon ← load buf (username + localUfrag.length)
    if colon = 58 then do
      let front ← loadRange buf username localUfrag.length
      pure (front == localUfrag)
    else pure false
  else some false

/-- The comparison with `<up to the first colon>:<ufrag>`. -/
def ufragSecond (buf : Bytes) (username usernameLen : Nat) (localUfrag : Bytes) : Option Bool := do
  let name ← loadRange buf username usernameLen
  match name.findIdx? (· = 58) with
  | none => pure false
  | some colon =>
    if usernameLen - (colon + 1) = localUfrag.length then do
      let second ← loadRange buf (username + (colon + 1)) localUfrag.length
      pure (second == localUfrag)
    else pure false

def stunUsernameMatches (buf localUfrag : Bytes) : Option Bool :=
  if localUfrag.isEmpty then some false
  else do
    match ← stunFindAttribute buf stunAttrUsername with
    | none => pure false
    | some (username, usernameLen) =>
      if ← ufragFirst buf username usernameLen localUfrag then pure true
      else ufragSecond buf username usernameLen localUfrag

/-- The scratch copy has 512 bytes on the stack, or as many as it needs on the heap. -/
def stunVerifyMi (hmac : HmacSha1) (buf password : Bytes) : Option Bool :=
  if password.isEmpty || decide (buf.length < stunHeaderSize + 24) then some false
  else do
    match ← stunFindAttribute buf stunAttrMessageIntegrity with
    | none => pure false
    | some (mi, miLen) =>
      let miHeader := mi - 4
      if miLen ≠ 20 then pure false
      else if miHeader < stunHeaderSize ∨ buf.length < miHeader + 24 then pure false
      else do
        let scratch := List.replicate (if miHeader > 512 then miHeader else 512) 0
        let covered ← loadRange buf 0 miHeader
        let scratch ← storeRange scratch 0 covered
        let scratch ← storeRange scratch 2
          (writeBe16 (UInt16.ofNat (miHeader + 24 - stunHeaderSize)))
        let hashed ← loadRange scratch 0 miHeader
        let value ← loadRange buf mi 20
        pure (hmac.mac password hashed == value)

/-- `out` afterwards and `out_len`, none for a return value of -1. -/
def stunBuildBindingResponse (hmac : HmacSha1) (localPwd request : Bytes) (peer : SockAddr)
    (out : Bytes) : Option (Option (Bytes × Nat)) :=
  match peer with
  | .other _ => some none
  | .inet addr port =>
    if request.length < stunHeaderSize ∨ out.length < 64 then some none
    else do
      let out ← storeRange out 0 [0x01, 0x01]
      let out ← storeRange out 4 (← loadRange request 4 16)
      let out ← storeRange out 20 (writeBe16 0x0020)
      let out ← storeRange out 22 (writeBe16 8)
      let out ← storeRange out 24 [0, 0x01]
      let out ← storeRange out 26 (writeBe16 (port ^^^ 0x2112))
      let out ← storeRange out 28 (writeBe32 (addr ^^^ stunMagicCookie))
      let out ← storeRange out 32 (writeBe16 0x0008)
      let out ← storeRange out 34 (writeBe16 20)
      let out ← storeRange out 2 (writeBe16 (12 + 24))
      let out ← storeRange out 36 (hmac.mac localPwd (← loadRange out 0 32))
      let out ← storeRange out 56 (writeBe16 0x8028)
      let out ← storeRange out 58 (writeBe16 4)
      let out ← storeRange out 2 (writeBe16 (12 + 24 + 8))
      let out ← storeRange out 60 (writeBe32 (crc32Stun (← loadRange out 0 56) ^^^ 0x5354554E))
      pure (some (out, 64))

def stunBuildErrorResponse (tid : Bytes) (errorCode : UInt16) (out : Bytes) :
    Option (Option (Bytes × Nat)) :=
  if out.length < 44 then some none
  else do
    let out ← storeRange out 0 (List.replicate 44 0)
    let out ← storeRange out 0 [0x01, 0x11]
    let out ← storeRange out 4 [0x21, 0x12, 0xA4, 0x42]
    let out ← storeRange out 8 (← loadRange tid 0 12)
    let out ← storeRange out 20 (writeBe16 0x8022)
    let out ← storeRange out 22 (writeBe16 9)
    let out ← storeRange out 24 stunSoftware
    let out ← storeRange out 36 (writeBe16 0x0009)
    let out ← storeRange out 38 (writeBe16 8)
    let out ← storeRange out 40 [0, (errorCode / 100).toUInt8]
    let out ← storeRange out 42 (writeBe16 (errorCode % 100))
    let out ← storeRange out 2 (writeBe16 28)
    pure (some (out, stunHeaderSize + 28))

/-- A write to `nack_seq[128]`. -/
def storeNack (seqs : List UInt16) (seq : UInt16) : Option (List UInt16) :=
  if seqs.length < rtcpMaxNackSeqs then some (seqs ++ [seq]) else none

def parseReports (body : Bytes) (mediaSsrc : UInt32) (first count i : Nat)
    (feedback : RtcpFeedback) : Option RtcpFeedback :=
  if _h : i < count then
    let pos := first + i * rtcpReportBlockSize
    if pos + rtcpReportBlockSize > body.length then some feedback
    else do
      let blockSsrc ← loadBe32 body pos
      if feedback.hasRr && feedback.rrSsrc == mediaSsrc then pure feedback
      else do
        let rrFractionLost ← load body (pos + 4)
        let rrHighestSeq ← loadBe32 body (pos + 8)
        let rrJitter ← loadBe32 body (pos + 12)
        let rrLastSr ← loadBe32 body (pos + 16)
        let rrDelaySinceSr ← loadBe32 body (pos + 20)
        parseReports body mediaSsrc first count (i + 1) { feedback with
          hasRr := true
          rrSsrc := UInt32.ofNat blockSsrc
          rrFractionLost
          rrHighestSeq := UInt32.ofNat rrHighestSeq
          rrJitter := UInt32.ofNat rrJitter
          rrLastSr := UInt32.ofNat rrLastSr
          rrDelaySinceSr := UInt32.ofNat rrDelaySinceSr }
  else some feedback
termination_by count - i

/-- The write behind the check of `nack_seqs`. -/
def addNack (seqs : List UInt16) (seq : UInt16) : Option (List UInt16) :=
  if seqs.length < rtcpMaxNackSeqs then storeNack seqs seq else some seqs

def nackEntry (pid mask : Nat) (seqs : List UInt16) : Option (List UInt16) := do
  let seqs ← addNack seqs (UInt16.ofNat pid)
  (List.range 16).foldlM (fun seqs bit =>
    if mask.testBit bit then addNack seqs (UInt16.ofNat (pid + bit + 1)) else some seqs) seqs

def parseNacks (body : Bytes) (i : Nat) (seqs : List UInt16) : Option (List UInt16) :=
  if _h : i + 4 ≤ body.length ∧ seqs.length < rtcpMaxNackSeqs then do
    let pid ← loadBe16 body i
    let mask ← loadBe16 body (i + 2)
    let seqs ← nackEntry pid mask seqs
    parseNacks body (i + 4) seqs
  else some seqs
termination_by body.length - i

def parsePacket (body : Bytes) (mediaSsrc : UInt32) (feedback : RtcpFeedback) :
    Option RtcpFeedback := do
  let countOrFmt := ((← load body 0) &&& 0x1F).toNat
  match (← load body 1).toNat with
  | 200 =>
    parseReports body mediaSsrc (rtcpHeaderSize + rtcpSenderInfoSize) countOrFmt 0 feedback
  | 201 => parseReports body mediaSsrc rtcpHeaderSize countOrFmt 0 feedback
  | 203 => pure { feedback with bye := true }
  | 205 =>
    if countOrFmt ≠ 1 then pure feedback
    else do
      let nackSeq ← parseNacks body 12 feedback.nackSeq
      pure { feedback with nackSeq }
  | 206 =>
    if countOrFmt = 1 then pure { feedback with pli := feedback.pli + 1 }
    else if countOrFmt = 4 then pure { feedback with fir := feedback.fir + 1 }
    else pure feedback
  | _ => pure feedback

/-- A packet is handed on as the part of the buffer that it has. -/
def parsePackets (buffer : Bytes) (mediaSsrc : UInt32) (offset : Nat) (feedback : RtcpFeedback) :
    Option RtcpFeedback :=
  if _h : offset + 4 ≤ buffer.length then do
    let version ← load buffer offset
    if version >>> 6 ≠ 2 then pure feedback
    else do
      let words ← loadBe16 buffer (offset + 2)
      let packetLen := (words + 1) * 4
      if offset + packetLen > buffer.length ∨ packetLen < 4 then pure feedback
      else do
        let body ← loadRange buffer offset packetLen
        let feedback ← parsePacket body mediaSsrc feedback
        parsePackets buffer mediaSsrc (offset + packetLen) feedback
  else some feedback
termination_by buffer.length - offset

def rtcpParse (buffer : Bytes) (mediaSsrc : UInt32) : Option RtcpFeedback :=
  parsePackets buffer mediaSsrc 0 rtcpNoFeedback

/-- What `dtls_on_rtcp` does with the feedback it has parsed. -/
def followFeedback (w : Answers) (s : RtcSession) (feedback : RtcpFeedback) : RtcSession :=
  let ssrc := rtpH264Ssrc s.rtp
  if feedback.bye then rtcSessionClose w s
  else
    let s := if feedback.pli > 0 ∨ feedback.fir > 0 then
        rtcSessionRequestIdr w { s with stats := { s.stats with
          pliReceived := s.stats.pliReceived + feedback.pli + feedback.fir } }
      else s
    let s := if feedback.hasRr && feedback.rrSsrc == ssrc then noteReport w s feedback else s
    if feedback.nackSeq.length > 0 then
      handleNacks w { s with stats := { s.stats with
        nacksReceived := s.stats.nacksReceived + feedback.nackSeq.length } } feedback
    else s

def dtlsOnRtcp (w : Answers) (s : RtcSession) (packet : Bytes) : Option RtcSession := do
  let feedback ← rtcpParse packet (rtpH264Ssrc s.rtp)
  pure (followFeedback w s feedback)

def stunSendError (w : Answers) (s : RtcSession) (tid : Bytes) (code : UInt16)
    (source : SockAddr) : Option RtcSession := do
  match ← stunBuildErrorResponse tid code w.stack.toList with
  | some (response, responseLen) =>
    let sent ← loadRange response 0 responseLen
    pure (sessionSendto w s .stun sent source).2
  | none => pure s

def rejectStun (w : Answers) (s : RtcSession) (tid : Bytes) (source : SockAddr) :
    Option RtcSession :=
  stunSendError w { s with stats := { s.stats with stunBad := s.stats.stunBad + 1 } } tid 401 source

def acceptStun (hmac : HmacSha1) (w : Answers) (s : RtcSession) (buffer : Bytes)
    (source : SockAddr) (ip : Bytes) (port : UInt16) : Option RtcSession := do
  let s := followPeer { s with stats := { s.stats with stunOk := s.stats.stunOk + 1 } } source ip port
  let s := if s.state = .new then setState s .ice else s
  match ← stunBuildBindingResponse hmac s.localPwd buffer source w.stack.toList with
  | some (response, responseLen) =>
    let sent ← loadRange response 0 responseLen
    pure (sessionSendto w s .stun sent source).2
  | none => pure s

/-- `username[160]`, as its initialiser leaves it. -/
def usernameBuffer : Bytes := List.replicate 160 0

def handleStun (hmac : HmacSha1) (w : Answers) (s : RtcSession) (buffer : Bytes)
    (source : SockAddr) (ip : Bytes) (port : UInt16) : Option RtcSession := do
  let s := { s with
    stats := { s.stats with stunRx := s.stats.stunRx + 1 }
    lastRxMs := w.rxMs }
  if ← stunIsBindingIndication buffer then pure s
  else
    match ← stunIsBindingRequest buffer with
    | none => pure s
    | some tid =>
      let _ ← stunCopyUsername buffer usernameBuffer
      if !(← stunVerifyMi hmac buffer s.localPwd) then rejectStun w s tid source
      else if !(← stunUsernameMatches buffer s.localUfrag) then rejectStun w s tid source
      else acceptStun hmac w s buffer source ip port

/-- `plain[1500]` takes the datagram. -/
def handleRtcp (w : Answers) (s : RtcSession) (buffer : Bytes) : Option RtcSession :=
  let s := { s with lastRxMs := w.rxMs }
  if buffer.length > 1500 then some s
  else do
    let plain ← storeRange (List.replicate 1500 0) 0 (← loadRange buffer 0 buffer.length)
    let received ← loadRange plain 0 buffer.length
    match dtlsSrtpUnprotectRtcp w s received with
    | some plain => dtlsOnRtcp w s plain
    | none => pure s

def rtcSessionOnUdp (hmac : HmacSha1) (w : Answers) (s : RtcSession) (buffer : Bytes)
    (source : SockAddr) : Option RtcSession :=
  if s.state = .closed then some s
  else do
    let s := { s with stats := { s.stats with datagramsRx := s.stats.datagramsRx + 1 } }
    let (ip, port) := formatPeer source
    match ← rtcClassifyPacket buffer with
    | .stun => handleStun hmac w s buffer source ip port
    | .dtls =>
      pure (if !s.haveRemote then s else dtlsSrtpOnUdp w { s with lastRxMs := w.rxMs } buffer)
    | .rtp =>
      let pt := (← load buffer 1) &&& 0x7F
      if pt ≥ 64 ∧ pt ≤ 95 ∧ s.state = .streaming then handleRtcp w s buffer else pure s
    | .other => pure s

/-- A call into a session. Its datagrams are handled access by access. -/
def step (hmac : HmacSha1) (s : RtcSession) : RtcEvent → Option RtcSession
  | .onUdp w buffer source => rtcSessionOnUdp hmac w s buffer source
  | event => some (s.step hmac event)

def run (hmac : HmacSha1) (s : RtcSession) (events : List RtcEvent) : Option RtcSession :=
  events.foldlM (step hmac) s

end Camstream.Webrtc.Checked
