import Camstream.Webrtc.Sdp
import Camstream.Webrtc.Session

namespace Camstream.Webrtc
open Lib

/-- `%u` of an address octet. -/
def octetText (n : UInt8) : Bytes :=
  if n < 10 then [48 + n]
  else if n < 100 then [48 + n / 10, 48 + n % 10]
  else [48 + n / 100, 48 + n / 10 % 10, 48 + n % 10]

def dot : UInt8 := 46

/-- The dotted form `inet_ntop` writes; it always fits `INET_ADDRSTRLEN`. -/
def inetNtop (addr : UInt32) : Bytes :=
  octetText (addr >>> 24).toUInt8 ++ dot :: (octetText (addr >>> 16).toUInt8 ++
    dot :: (octetText (addr >>> 8).toUInt8 ++ dot :: octetText addr.toUInt8))

def formatPeer (source : SockAddr) : Bytes × UInt16 :=
  match source with
  | .inet addr port => (inetNtop addr, port)
  | .other _ => ([63], 0)

/-- The source of an authenticated check becomes, or stays, the peer. -/
def followPeer (s : RtcSession) (source : SockAddr) (ip : Bytes) (port : UInt16) : RtcSession :=
  if !s.haveRemote then { s with remote := source, haveRemote := true }
  else if (formatPeer s.remote).1 ≠ ip ∨ (formatPeer s.remote).2 ≠ port then
    { s with remote := source, stats := { s.stats with peerMoved := s.stats.peerMoved + 1 } }
  else s

/-- A check that is not acted on: counted and answered with 401. -/
def rejectStun (w : Answers) (s : RtcSession) (buffer : Bytes) (source : SockAddr) : RtcSession :=
  stunSendError w { s with stats := { s.stats with stunBad := s.stats.stunBad + 1 } }
    (stunTid buffer) 401 source

/-- What happens behind both checks of `handle_stun`. -/
def acceptStun (hmac : HmacSha1) (w : Answers) (s : RtcSession) (buffer : Bytes)
    (source : SockAddr) (ip : Bytes) (port : UInt16) : RtcSession :=
  let s := followPeer { s with stats := { s.stats with stunOk := s.stats.stunOk + 1 } } source ip port
  let s := if s.state = .new then setState s .ice else s
  match stunBuildBindingResponse hmac s.localPwd buffer source 128 with
  | some response => (sessionSendto w s .stun response source).2
  | none => s

def handleStun (hmac : HmacSha1) (w : Answers) (s : RtcSession) (buffer : Bytes)
    (source : SockAddr) (ip : Bytes) (port : UInt16) : RtcSession :=
  let s := { s with
    stats := { s.stats with stunRx := s.stats.stunRx + 1 }
    lastRxMs := w.rxMs }
  if stunIsBindingIndication buffer then s
  else if !stunIsBindingRequest buffer then s
  else if !stunVerifyMi hmac buffer s.localPwd then rejectStun w s buffer source
  else if !stunUsernameMatches buffer s.localUfrag then rejectStun w s buffer source
  else acceptStun hmac w s buffer source ip port

/-- Feedback on a streaming session; a datagram over 1500 bytes is dropped. -/
def handleRtcp (w : Answers) (s : RtcSession) (buffer : Bytes) : RtcSession :=
  let s := { s with lastRxMs := w.rxMs }
  if buffer.length > 1500 then s
  else
    match dtlsSrtpUnprotectRtcp w s buffer with
    | some plain => dtlsOnRtcp w s plain
    | none => s

/-- The payload type bits of the second byte, wherever the datagram ends. -/
def isRtcp (w : Answers) (buffer : Bytes) : Bool :=
  let pt := buffer.getD 1 w.behind &&& 0x7F
  decide (pt ≥ 64) && decide (pt ≤ 95)

def rtcSessionOnUdp (hmac : HmacSha1) (w : Answers) (s : RtcSession) (buffer : Bytes)
    (source : SockAddr) : RtcSession :=
  if s.state = .closed then s
  else
    let s := { s with stats := { s.stats with datagramsRx := s.stats.datagramsRx + 1 } }
    let (ip, port) := formatPeer source
    match rtcClassifyPacket buffer with
    | .stun => handleStun hmac w s buffer source ip port
    | .dtls => if !s.haveRemote then s else dtlsSrtpOnUdp w { s with lastRxMs := w.rxMs } buffer
    | .rtp => if isRtcp w buffer && s.state == .streaming then handleRtcp w s buffer else s
    | .other => s

/-- Time since `past`, 0 for a time ahead of `now`. -/
def elapsedMs (now past : UInt64) : UInt64 := if now ≥ past then now - past else 0

/-- The sender report of a tick; none before the first RTP packet. -/
def sendReport (w : Answers) (s : RtcSession) (now : UInt64) : RtcSession :=
  let sr := rtcpBuildSenderReport (rtpH264Ssrc s.rtp) w.wallUs (rtpH264TimestampAt s.rtp w.monoUs)
    (rtpH264PacketCount s.rtp) (rtpH264OctetCount s.rtp)
  let s := if s.stats.framesSent > 0 then
      match dtlsSrtpSendRtcp w s sr with
      | (true, s) => { s with stats := { s.stats with rtcpSent := s.stats.rtcpSent + 1 } }
      | (false, s) => s
    else s
  { s with nextSrMs := now + rtcpSrIntervalMs }

def rtcSessionTick (w : Answers) (s : RtcSession) (now : UInt64) : RtcSession :=
  if s.state = .closed then s
  else if elapsedMs now s.lastRxMs > sessionIdleTimeoutMs then rtcSessionClose w s
  else if s.state = .ice ∧ elapsedMs now s.createdMs > sessionDtlsWatchdogMs then rtcSessionClose w s
  else
    let s := dtlsSrtpTick w s
    if s.state = .streaming ∧ now ≥ s.nextSrMs then sendReport w s now else s

/-- The access unit goes to the packetizer. -/
def handOver (w : Answers) (s : RtcSession) (accessUnit : Bytes) (ptsUs : UInt64)
    (isIdr : Bool) : Int × RtcSession :=
  let s := s.did (.packetize accessUnit isIdr)
  let (packets, rtp, s) := rtpH264Packetize s.rtp accessUnit ptsUs (rtpPacketSink w) s
  let s := { s with rtp }
  (packets, if packets > 0 then
      { s with stats := { s.stats with
          framesSent := s.stats.framesSent + 1
          lastMediaMs := w.mediaMs
          keyframesSent := s.stats.keyframesSent + if isIdr then 1 else 0 } }
    else s)

def rtcSessionSendAccessUnit (w : Answers) (s : RtcSession) (accessUnit : Bytes) (ptsUs : UInt64)
    (isIdr : Bool) : Int × RtcSession :=
  if s.state ≠ .streaming then (0, s)
  else if isIdr then
    handOver w { s with
      idrRequested := false
      stats := { s.stats with waitingKeyframe := false } } accessUnit ptsUs isIdr
  else if s.stats.waitingKeyframe then
    (0, rtcSessionRequestIdr w { s with stats := { s.stats with framesHeld := s.stats.framesHeld + 1 } })
  else handOver w s accessUnit ptsUs isIdr

/-- A call into a session, with what the outside answers during it. -/
inductive RtcEvent
  | onUdp (w : Answers) (buffer : Bytes) (source : SockAddr)
  | tick (w : Answers) (now : UInt64)
  | sendAccessUnit (w : Answers) (accessUnit : Bytes) (ptsUs : UInt64) (isIdr : Bool)
  | close (w : Answers)

/-- What the outside answers during an event. -/
def RtcEvent.answers : RtcEvent → Answers
  | .onUdp w _ _ => w
  | .tick w _ => w
  | .sendAccessUnit w _ _ _ => w
  | .close w => w

def RtcSession.step (hmac : HmacSha1) (s : RtcSession) : RtcEvent → RtcSession
  | .onUdp w buffer source => rtcSessionOnUdp hmac w s buffer source
  | .tick w now => rtcSessionTick w s now
  | .sendAccessUnit w accessUnit ptsUs isIdr =>
    (rtcSessionSendAccessUnit w s accessUnit ptsUs isIdr).2
  | .close w => rtcSessionClose w s

/-- What the server passes to `rtc_session_create`. -/
structure RtcSessionConfig where
  candidateIps : List Bytes
  offer : SdpOffer
  onIdrRequest : Bool
  onClosed : Bool

/-- The letters `generate_credentials` reaches with `raw % 52`. -/
def credentialAlphabet : Bytes := ascii "abcdefghijklmnopqrstuvwxyzABCDEFGHIJKLMNOPQRSTUVWXYZ"

def credentialText (raw : Bytes) : Bytes :=
  raw.map fun (b : UInt8) => byteAt credentialAlphabet (b.toNat % 52)

/-- Random bytes, SSRC, bound port, clock and local certificate at creation. -/
structure CreateAnswers where
  raw : Vector UInt8 32
  ssrc : UInt32
  boundPort : UInt16
  nowMs : UInt64
  localFingerprint : Bytes

/-- The session and its answer; none where `rtc_session_create` fails with all
resources at hand. -/
def rtcSessionCreate (config : RtcSessionConfig) (a : CreateAnswers) (answerCapacity : Nat) :
    Option (RtcSession × Bytes) :=
  let localUfrag := credentialText (a.raw.toList.take 8)
  let localPwd := credentialText ((a.raw.toList.drop 8).take 24)
  if a.ssrc = 0 then none
  else
    let session : RtcSession :=
      { state := .new, localUfrag, localPwd, remote := .other 0, haveRemote := false
        dtls := dtlsSrtpSetExpectedFingerprint dtlsSrtpSessionCreate config.offer.fingerprint
        rtp := rtpH264Reset rtpH264Create a.ssrc (UInt32.ofInt config.offer.h264PayloadType)
        createdMs := a.nowMs, lastRxMs := a.nowMs, lastIdrMs := 0, nextSrMs := 0
        idrRequested := false, stats := rtcSessionNoStats, retx := fun _ => ⟨[], 0, 0⟩
        onIdrRequest := config.onIdrRequest, onClosed := config.onClosed, effects := [] }
    let answerConfig : SdpAnswerConfig :=
      { fingerprint := a.localFingerprint, iceUfrag := localUfrag, icePwd := localPwd
        candidateIps := config.candidateIps, udpPort := a.boundPort, ssrc := a.ssrc }
    (sdpBuildAnswer config.offer answerConfig answerCapacity).map fun answer => (session, answer)

end Camstream.Webrtc
