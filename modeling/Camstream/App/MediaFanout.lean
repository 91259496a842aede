import Camstream.App.SessionTable
import Camstream.Media.AuHistory
import Camstream.Webrtc.SessionApi

namespace Camstream.App
open Lib Media Webrtc

def auRingSlots : Nat := 8
def auSlotCapacity : Nat := 512 * 1024

/-- A session in its slot, with the calls made so far. -/
structure Viewer where
  session : RtcSession
  calls : List RtcEvent

/-- What the main loop shares with the encoder worker, and the sessions. `delivered` records
the units that the ring has handed out. -/
structure FanoutServer where
  ring : AuRing
  sessions : List (Option Viewer)
  auDiscontinuities : Nat
  forceIdr : Bool
  delivered : List AuSlot

def FanoutServer.start (ring : AuRing) : FanoutServer :=
  ⟨ring, List.replicate maxRtcSessions none, 0, false, []⟩

def Viewer.call (hmac : HmacSha1) (viewer : Viewer) (e : RtcEvent) : Viewer :=
  ⟨viewer.session.step hmac e, viewer.calls ++ [e]⟩

/-- `session_on_idr_request` was called. -/
def Viewer.asked (before after : Viewer) : Bool :=
  decide (.idrRequest ∈ after.session.effects.drop before.session.effects.length)

/-- A call into the session of a slot, if there is one. -/
def FanoutServer.call (hmac : HmacSha1) (server : FanoutServer) (slot : Nat) (e : RtcEvent) :
    FanoutServer :=
  match server.sessions[slot]? with
  | some (some viewer) =>
    { server with
      sessions := server.sessions.set slot (some (viewer.call hmac e))
      forceIdr := server.forceIdr || viewer.asked (viewer.call hmac e) }
  | _ => server

/-- The body of the inner loop of `fan_out_access_units`. -/
def offerUnit (hmac : HmacSha1) (unit : AuSlot) (answers : Nat → Answers) (server : FanoutServer)
    (slot : Nat) : FanoutServer :=
  match server.sessions[slot]? with
  | some (some viewer) =>
    if viewer.session.state = .streaming then
      server.call hmac slot
        (.sendAccessUnit (answers slot) unit.bytes unit.info.ptsUs unit.info.isIdr)
    else server
  | _ => server

/-- One turn of the outer loop; the encoder may push before the next one. -/
def fanOutTurn (hmac : HmacSha1) (server : FanoutServer) (answers : Nat → Answers) : FanoutServer :=
  match auRingPop server.ring auSlotCapacity with
  | (none, ring) => { server with ring }
  | (some unit, ring) =>
    (List.range maxRtcSessions).foldl (offerUnit hmac unit answers)
      { server with
        ring
        auDiscontinuities := server.auDiscontinuities + if unit.info.discontinuity then 1 else 0
        forceIdr := server.forceIdr || unit.info.discontinuity
        delivered := server.delivered ++ [unit] }

/-- The part of `handle_offer` behind its checks. `fits` is whether the reply does. -/
def enterSession (server : FanoutServer) (config : RtcSessionConfig) (create : CreateAnswers)
    (fits : Bool) : FanoutServer :=
  match server.sessions.findIdx? Option.isNone with
  | none => server
  | some slot =>
    match rtcSessionCreate config create 8192 with
    | none => server
    | some (session, _) =>
      { server with
        sessions := if fits then server.sessions.set slot (some ⟨session, []⟩) else server.sessions
        forceIdr := true }

inductive FanoutCall
  | push (data : Bytes) (ptsUs : UInt64) (isIdr : Bool)
  | setForceIdr (value : Bool)
  | turn (answers : Nat → Answers)
  | enter (config : RtcSessionConfig) (create : CreateAnswers) (fits : Bool)
  | onUdp (slot : Nat) (w : Answers) (buffer : Bytes) (source : SockAddr)
  | tick (slot : Nat) (w : Answers) (now : UInt64)
  | close (slot : Nat) (w : Answers)
  | closeAll
  | reap

/-- The encoder worker pushes, and takes or puts back the request for a keyframe; all else is
the main loop. -/
def FanoutServer.step (hmac : HmacSha1) (server : FanoutServer) : FanoutCall → FanoutServer
  | .push data ptsUs isIdr => { server with ring := (auRingPush server.ring data ptsUs isIdr).2 }
  | .setForceIdr value => { server with forceIdr := value }
  | .turn answers => fanOutTurn hmac server answers
  | .enter config create fits => enterSession server config create fits
  | .onUdp slot w buffer source => server.call hmac slot (.onUdp w buffer source)
  | .tick slot w now => server.call hmac slot (.tick w now)
  | .close slot w => server.call hmac slot (.close w)
  | .closeAll => { server with sessions := server.sessions.map fun _ => none }
  | .reap => { server with
      sessions := server.sessions.map fun slot => slot.filter (·.session.state ≠ .closed) }

end Camstream.App
