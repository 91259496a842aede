import Mathlib.Logic.Function.Basic
import Camstream.Webrtc.IceLite
import Camstream.Webrtc.Rtcp
import Camstream.Webrtc.RtpH264
import Camstream.Webrtc.DtlsSrtp

namespace Camstream.Webrtc
open Lib

def sessionIdleTimeoutMs : UInt64 := 15000
def sessionDtlsWatchdogMs : UInt64 := 30000
def idrMinIntervalMs : UInt64 := 400
def rtcpSrIntervalMs : UInt64 := 1000
def retxCacheSize : Nat := 512

inductive RtcSessionState
  | new | ice | dtls | streaming | closed
deriving Repr, DecidableEq

/-- The path on which a datagram leaves through `session_sendto`. -/
inductive SendPath
  | stun
  | dtls
  | rtp
  | rtcp
  | retransmit (sequence : UInt16)
deriving Repr, DecidableEq

/-- What a session does that is seen outside of it, in order. `rtp` is one call
of the packet sink: the sequence number and the protected packet, if any. -/
inductive Effect
  | state (state : RtcSessionState)
  | datagram (path : SendPath) (data : Bytes) (destination : SockAddr)
  | rtp (sequence : UInt16) (protectedPacket : Option Bytes)
  | packetize (accessUnit : Bytes) (isIdr : Bool)
  | idrRequest
  | closed
deriving Repr, DecidableEq

/-- What the clock, the socket, OpenSSL and libsrtp answer during one call of the
session. `sendto` and `protect` are asked with the number of effects so far, so
that every call of theirs may have an answer of its own. -/
structure Answers where
  rxMs : UInt64
  idrMs : UInt64
  srMs : UInt64
  rrMs : UInt64
  mediaMs : UInt64
  monoUs : UInt64
  wallUs : UInt64
  ssl : SslTurn
  timeoutRecords : List Bytes
  shutdownRecords : List Bytes
  sendto : Nat → Bool
  protect : Nat → Bytes → Option Bytes
  protectRtcp : Bytes → Option Bytes
  unprotectRtcp : Bytes → Option Bytes
  /-- The uninitialised response buffer. -/
  stack : Vector UInt8 128
  /-- The byte behind a datagram of length 1. -/
  behind : UInt8

structure RtcSessionStats where
  datagramsRx : Nat
  packetsSent : Nat
  bytesSent : Nat
  retransmissions : Nat
  sendErrors : Nat
  pliReceived : Nat
  nacksReceived : Nat
  rtcpSent : Nat
  stunRx : Nat
  stunOk : Nat
  stunBad : Nat
  peerMoved : Nat
  framesSent : Nat
  keyframesSent : Nat
  framesHeld : Nat
  lastMediaMs : UInt64
  rrReceived : Nat
  lastRrMs : UInt64
  waitingKeyframe : Bool
  rttMs : Int
  fractionLost : UInt8
  jitter : UInt32
deriving Repr, DecidableEq

/-- `calloc`, with the round trip time unknown. -/
def rtcSessionNoStats : RtcSessionStats :=
  ⟨0, 0, 0, 0, 0, 0, 0, 0, 0, 0, 0, 0, 0, 0, 0, 0, 0, 0, false, -1, 0, 0⟩

/-- One slot of the retransmission cache. -/
structure RetxSlot where
  data : Bytes
  len : Nat
  seq : UInt16
deriving Repr, DecidableEq

/-- A session with its DTLS engine and packetizer. `onIdrRequest` and `onClosed`
say whether the server set the hook; `effects` is what was done so far. -/
structure RtcSession where
  state : RtcSessionState
  localUfrag : Bytes
  localPwd : Bytes
  remote : SockAddr
  haveRemote : Bool
  dtls : DtlsSrtp
  rtp : RtpH264
  createdMs : UInt64
  lastRxMs : UInt64
  lastIdrMs : UInt64
  nextSrMs : UInt64
  idrRequested : Bool
  stats : RtcSessionStats
  retx : Nat → RetxSlot
  onIdrRequest : Bool
  onClosed : Bool
  effects : List Effect

def RtcSession.did (s : RtcSession) (effect : Effect) : RtcSession :=
  { s with effects := s.effects ++ [effect] }

/-- Middle 32 bits of the NTP time. -/
def ntpMsw (wallUs : UInt64) : UInt32 :=
  ((((ntpTime wallUs).1 &&& 0xFFFF) <<< 16) ||| ((ntpTime wallUs).2 >>> 16).toUInt64).toUInt32

def setState (s : RtcSession) (state : RtcSessionState) : RtcSession :=
  if s.state = state then s else { s with state }.did (.state state)

/-- `sendto` and its bookkeeping; true for the source's 0. -/
def sessionSendto (w : Answers) (s : RtcSession) (path : SendPath) (data : Bytes)
    (destination : SockAddr) : Bool × RtcSession :=
  let sent := s.did (.datagram path data destination)
  if w.sendto s.effects.length then (true, sent)
  else (false, { sent with stats := { s.stats with sendErrors := s.stats.sendErrors + 1 } })

def stunSendError (w : Answers) (s : RtcSession) (tid : Bytes) (code : UInt16)
    (source : SockAddr) : RtcSession :=
  match stunBuildErrorResponse tid code w.stack.toList with
  | some (response, responseLen) => (sessionSendto w s .stun (response.take responseLen) source).2
  | none => s

/-- The `send_udp` callback. The socket stays open as long as the session lives. -/
def dtlsSendUdp (w : Answers) (path : SendPath) (s : RtcSession) (packet : Bytes) : RtcSession :=
  if s.haveRemote then (sessionSendto w s path packet s.remote).2 else s

/-- OpenSSL writes records through `bio_tx_write`. -/
def writeRecords (w : Answers) (s : RtcSession) (records : List Bytes) : RtcSession :=
  records.foldl (fun s record => if record.isEmpty then s else dtlsSendUdp w .dtls s record) s

/-- Whether a session is open, for the termination of the close callbacks. -/
def RtcSession.openRank (s : RtcSession) : Nat := if s.state = .closed then 0 else 1

theorem sessionSendto_state (w : Answers) (s : RtcSession) (path : SendPath) (data : Bytes)
    (destination : SockAddr) : (sessionSendto w s path data destination).2.state = s.state := by
  unfold sessionSendto
  simp only
  split <;> rfl

theorem dtlsSendUdp_state (w : Answers) (path : SendPath) (s : RtcSession) (packet : Bytes) :
    (dtlsSendUdp w path s packet).state = s.state := by
  unfold dtlsSendUdp
  split
  · exact sessionSendto_state w s path packet s.remote
  · rfl

theorem writeRecords_state (w : Answers) (s : RtcSession) (records : List Bytes) :
    (writeRecords w s records).state = s.state := by
  induction records generalizing s with
  | nil => rfl
  | cons record records ih =>
    simp only [writeRecords, List.foldl_cons] at ih ⊢
    rw [ih]
    split
    · rfl
    · exact dtlsSendUdp_state w .dtls s record

theorem openRank_congr {s t : RtcSession} (h : s.state = t.state) : s.openRank = t.openRank := by
  unfold RtcSession.openRank
  rw [h]

mutual

/-- The session is marked closed before DTLS is torn down, because that calls
back into this function. -/
def rtcSessionClose (w : Answers) (s : RtcSession) : RtcSession :=
  if _h : s.state = .closed then s
  else
    let s := dtlsSrtpClose w (setState s .closed)
    if s.onClosed then s.did .closed else s
termination_by 4 * s.openRank
decreasing_by
  simp [RtcSession.openRank, setState, RtcSession.did, _h]

def dtlsSrtpClose (w : Answers) (s : RtcSession) : RtcSession :=
  dtlsSetState w (if s.dtls.state = .connected then writeRecords w s w.shutdownRecords else s) .closed
termination_by 4 * s.openRank + 3
decreasing_by
  rw [openRank_congr (t := s) (by split; exact writeRecords_state w s _; rfl)]
  omega

def dtlsSetState (w : Answers) (s : RtcSession) (state : DtlsSrtpState) : RtcSession :=
  if s.dtls.state = state then s
  else dtlsOnState w { s with dtls := { s.dtls with state } } state
termination_by 4 * s.openRank + 2
decreasing_by
  simp [RtcSession.openRank]

/-- The `on_state` callback. -/
def dtlsOnState (w : Answers) (s : RtcSession) (state : DtlsSrtpState) : RtcSession :=
  match state with
  | .handshaking => setState s .dtls
  | .failed => rtcSessionClose w s
  | .closed => rtcSessionClose w s
  | .init => s
  | .connected => s
termination_by 4 * s.openRank + 1

end

/-- Rate limited request for a keyframe. -/
def rtcSessionRequestIdr (w : Answers) (s : RtcSession) : RtcSession :=
  if !s.onIdrRequest then s
  else if s.lastIdrMs ≠ 0 ∧ w.idrMs - s.lastIdrMs < idrMinIntervalMs then s
  else { s with lastIdrMs := w.idrMs, idrRequested := true }.did .idrRequest

/-- The `on_connected` callback: delta frames are held back until a keyframe. -/
def dtlsOnConnected (w : Answers) (s : RtcSession) : RtcSession :=
  let s := setState s .streaming
  let s := rtcSessionRequestIdr w { s with stats := { s.stats with waitingKeyframe := true } }
  { s with nextSrMs := w.srMs + rtcpSrIntervalMs }

/-- The end of `pump_ssl`: derive the keys once the handshake is over. -/
def finishHandshake (w : Answers) (s : RtcSession) : RtcSession :=
  if s.dtls.srtpReady || !w.ssl.initFinished then s
  else
    match deriveSrtpKeys s.dtls w.ssl.keys with
    | (false, dtls) =>
      dtlsSetState w { s with dtls := { dtls with
        failureReason := if dtls.failureReason = "" then "SRTP key derivation failed"
          else dtls.failureReason
        handshakeFailures := dtls.handshakeFailures + 1 } } .failed
    | (true, dtls) =>
      dtlsOnConnected w (dtlsSetState w { s with dtls := { dtls with
        failureReason := ""
        handshakesCompleted := dtls.handshakesCompleted + 1 } } .connected)

/-- OpenSSL reads queued datagrams and writes records. -/
def sslTurn (w : Answers) (s : RtcSession) : RtcSession :=
  writeRecords w { s with dtls := { s.dtls with rxq := s.dtls.rxq.drop w.ssl.consumed } }
    w.ssl.records

/-- The first call of `pump_ssl`, up to the result of `SSL_accept`. -/
def startHandshake (w : Answers) (s : RtcSession) : RtcSession :=
  sslTurn w (dtlsSetState w { s with dtls := { s.dtls with
    handshakeStarted := true
    handshakesStarted := s.dtls.handshakesStarted + 1 } } .handshaking)

def failHandshake (w : Answers) (s : RtcSession) (reason : String) (failures : Nat) : RtcSession :=
  dtlsSetState w { s with dtls := { s.dtls with
    failureReason := reason
    handshakeFailures := s.dtls.handshakeFailures + failures } } .failed

def pumpSsl (w : Answers) (s : RtcSession) : RtcSession :=
  if s.dtls.state = .closed ∨ s.dtls.state = .failed then s
  else if !s.dtls.handshakeStarted then
    let s := startHandshake w s
    match w.ssl.result with
    | .progress => finishHandshake w s
    | .want => finishHandshake w s
    | .zero error => failHandshake w s (acceptFailure error) 1
    | .error error => failHandshake w s (acceptFailure error) 1
  else
    let s := sslTurn w s
    match w.ssl.result with
    | .progress => finishHandshake w s
    | .want => finishHandshake w s
    | .zero _ => dtlsSetState w s .closed
    | .error error => failHandshake w s ("SSL_read: error " ++ toString error) 0

/-- The datagram is queued for OpenSSL, with memory for the copy. -/
def dtlsSrtpOnUdp (w : Answers) (s : RtcSession) (packet : Bytes) : RtcSession :=
  if s.dtls.state = .failed ∨ s.dtls.state = .closed then s
  else pumpSsl w { s with dtls := { s.dtls with rxq := rxqPush s.dtls.rxq packet } }

/-- `timeoutRecords` is what `DTLSv1_handle_timeout` writes, if a timer is due. -/
def dtlsSrtpTick (w : Answers) (s : RtcSession) : RtcSession :=
  if s.dtls.state ≠ .handshaking then s else pumpSsl w (writeRecords w s w.timeoutRecords)

/-- The protected packet, if it was protected and handed to the socket. -/
def dtlsSrtpSendRtp (w : Answers) (s : RtcSession) (packet : Bytes) : Option Bytes × RtcSession :=
  if !s.dtls.srtpReady then (none, s)
  else
    match w.protect s.effects.length packet with
    | none => (none, s)
    | some protectedPacket => (some protectedPacket, dtlsSendUdp w .rtp s protectedPacket)

def dtlsSrtpSendRtcp (w : Answers) (s : RtcSession) (packet : Bytes) : Bool × RtcSession :=
  if !s.dtls.srtpReady then (false, s)
  else
    match w.protectRtcp packet with
    | none => (false, s)
    | some protectedPacket => (true, dtlsSendUdp w .rtcp s protectedPacket)

def dtlsSrtpUnprotectRtcp (w : Answers) (s : RtcSession) (packet : Bytes) : Option Bytes :=
  if !s.dtls.srtpReady then none else w.unprotectRtcp packet

/-- `memcpy` of a protected packet into a slot, with its 16 bit length. -/
def RetxSlot.store (slot : RetxSlot) (protectedPacket : Bytes) (sequence : UInt16) : RetxSlot :=
  { data := protectedPacket ++ slot.data.drop protectedPacket.length
    len := protectedPacket.length % 65536
    seq := sequence }

/-- `rtp_packet_sink`: protect, send and remember one packet. -/
def rtpPacketSink (w : Answers) : RtpPacketSink RtcSession := fun s packet _ sequence =>
  if packet.length > rtpMaxPacket + 64 ∨ packet.length < rtpHeaderSize then
    s.did (.rtp sequence none)
  else
    match dtlsSrtpSendRtp w s packet with
    | (none, s) => s.did (.rtp sequence none)
    | (some protectedPacket, s) =>
      let slot := sequence.toNat % retxCacheSize
      { s with
        retx := Function.update s.retx slot ((s.retx slot).store protectedPacket sequence)
        stats := { s.stats with
          packetsSent := s.stats.packetsSent + 1
          bytesSent := s.stats.bytesSent + packet.length } }.did (.rtp sequence (some protectedPacket))

/-- One turn of the loop of `handle_nacks`. -/
def answerNack (w : Answers) (s : RtcSession) (seq : UInt16) : RtcSession :=
  let slot := s.retx (seq.toNat % retxCacheSize)
  if slot.len = 0 ∨ slot.seq ≠ seq then s
  else
    match sessionSendto w s (.retransmit seq) (slot.data.take slot.len) s.remote with
    | (true, s) =>
      { s with stats := { s.stats with retransmissions := s.stats.retransmissions + 1 } }
    | (false, s) => s

def handleNacks (w : Answers) (s : RtcSession) (feedback : RtcpFeedback) : RtcSession :=
  feedback.nackSeq.foldl (answerNack w) s

/-- A report block about our own stream. -/
def noteReport (w : Answers) (s : RtcSession) (feedback : RtcpFeedback) : RtcSession :=
  let rtt := rtcpRttMs (ntpMsw w.wallUs) feedback.rrLastSr feedback.rrDelaySinceSr
  { s with stats := { s.stats with
      rrReceived := s.stats.rrReceived + 1
      lastRrMs := w.rrMs
      fractionLost := feedback.rrFractionLost
      jitter := feedback.rrJitter
      rttMs := if rtt ≥ 0 then rtt else s.stats.rttMs } }

/-- Feedback from the peer, after authentication. -/
def dtlsOnRtcp (w : Answers) (s : RtcSession) (packet : Bytes) : RtcSession :=
  let ssrc := rtpH264Ssrc s.rtp
  let feedback := rtcpParse packet ssrc
  if feedback.bye then rtcSessionClose w s
  else
    let s := if feedback.pli > 0 ∨ feedback.fir > 0 then
        rtcSessionRequestIdr w { s with stats := { s.stats with
          pliReceived := s.stats.pliReceived + feedback.pli + feedback.fir } }
      else s
    let s := if feedback.hasRr && feedback.rrSsrc == ssrc then noteReport w s feedback else s
    if feedback.nackSeq.length > 0 then
      handleNacks w { s with stats := { s.stats with
        nacksReceived := s.stats.nacksReceived + feedback.nackSeq.length } } feedback
    else s

end Camstream.Webrtc
