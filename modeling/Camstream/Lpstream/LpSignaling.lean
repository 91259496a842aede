import Camstream.Lpstream.LpSdp

namespace Camstream.Lpstream
open Lib

def lpMaxSessions : Nat := 4
def sanitizedCapacity : Nat := lpSdpMaxInput + 1024
def lpSessionAnswerTimeoutMs : UInt64 := 15000
def lpSessionConnectTimeoutMs : UInt64 := 20000

/-- The states of libpeer. -/
inductive PeerConnectionState
  | closed
  | new
  | checking
  | connected
  | completed
  | failed
  | disconnected
deriving Repr, DecidableEq

/-- The calls of `finish`. -/
inductive EndReason
  | noAnswer
  | connection (state : PeerConnectionState)
  | connectTimeout
  | closed
deriving Repr, DecidableEq

/-- `stateText` is `peer_connection_state_to_string`. -/
def EndReason.text (stateText : PeerConnectionState → Bytes) (reason : EndReason) : Bytes :=
  copyTo 128 <| match reason with
    | .noAnswer => ascii "no answer from the browser within 15 s"
    | .connection state => ascii "connection " ++ stateText state
    | .connectTimeout => ascii ("ICE/DTLS did not complete within 20 s (firewall, or no route " ++
        "between the browser's candidates and the Pi)")
    | .closed => ascii "closed"

/-- How far `session_thread` is: at the head of its loop, in `wait_for_answer` with the local
`now`, at the call of `peer_connection_set_remote_description`, at that of
`peer_connection_loop`, behind the loop, at its end. -/
inductive ThreadPc
  | top
  | waiting (now : UInt64)
  | applying (answer : Bytes)
  | looping
  | leaving
  | gone
deriving Repr, DecidableEq

/-- A session without its frames. `serial` counts the sessions, `applied` records the calls
of `peer_connection_set_remote_description`. -/
structure SignalSession where
  serial : Nat
  id : UInt32
  createdMs : UInt64
  answer : Option Bytes
  answerTaken : Bool
  stop : Bool
  state : PeerConnectionState
  connected : Bool
  finished : Bool
  candidates : Nat
  connectMs : UInt64
  answeredMs : UInt64
  endReason : Option EndReason
  pc : ThreadPc
  applied : List Bytes
deriving Repr, DecidableEq

def createSession (serial : Nat) (id : UInt32) (now : UInt64) : SignalSession :=
  { serial, id, createdMs := now, answer := none, answerTaken := false, stop := false, state := .new
    connected := false, finished := false, candidates := 0, connectMs := 0, answeredMs := 0
    endReason := none, pc := .top, applied := [] }

def SignalSession.finish (s : SignalSession) (reason : EndReason) : SignalSession :=
  { s with endReason := some reason, pc := .leaving }

/-- One step of `session_thread`, up to the next one that others can see. `now` is what the
clock says in it, `state` where a call of libpeer leaves the connection. -/
def sessionThread (s : SignalSession) (now : UInt64) (state : PeerConnectionState) :
    SignalSession :=
  match s.pc with
  | .top =>
    if s.stop then { s with pc := .leaving }
    else
      match s.state with
      | .new => { s with pc := .waiting now }
      | .checking | .connected => { s with pc := .looping }
      | state => s.finish (.connection state)
  | .waiting before =>
    match s.answer with
    | some answer => { s with answer := none, pc := .applying answer }
    | none =>
      if before - s.createdMs > lpSessionAnswerTimeoutMs then s.finish .noAnswer
      else { s with pc := .top }
  | .applying answer =>
    { s with applied := s.applied ++ [answer], state, answeredMs := now, pc := .top }
  | .looping =>
    match state with
    | .connected =>
      { s with
        state
        connectMs := if s.connected then s.connectMs else now - s.answeredMs
        connected := true
        pc := .top }
    | .checking =>
      if now - s.answeredMs > lpSessionConnectTimeoutMs then
        { s with state }.finish .connectTimeout
      else { s with state, pc := .top }
    | state => { s with state, pc := .top }
  | .leaving =>
    { s with endReason := some (s.endReason.getD .closed), finished := true, pc := .gone }
  | .gone => s

def setAnswer (s : SignalSession) (sdp : Bytes) (candidates : Nat) : Option SignalSession :=
  if s.answerTaken ∨ s.stop ∨ s.finished then none
  else some { s with answer := some sdp, answerTaken := true, candidates }

def closeSession (s : SignalSession) : SignalSession := { s with stop := true }

/-- An answer that was taken with the reply 200. -/
structure AcceptedAnswer where
  serial : Nat
  sdp : Bytes
  text : Bytes
deriving Repr, DecidableEq

structure LpSignaling where
  pipelineRunning : Bool
  sessions : List (Option SignalSession)
  nextSessionId : UInt32
  mediaActive : Bool
  created : Nat
  accepted : List AcceptedAnswer
deriving Repr, DecidableEq

def LpSignaling.start : LpSignaling :=
  ⟨false, List.replicate lpMaxSessions none, 0, false, 0, []⟩

/-- `made` is whether `lp_session_create` has what it needs. The second component is the status
of the reply. -/
def handleSessionCreate (server : LpSignaling) (now : UInt64) (made : Bool) : LpSignaling × Nat :=
  if !server.pipelineRunning then (server, 503)
  else
    match server.sessions.findIdx? Option.isNone with
    | none => (server, 503)
    | some slot =>
      let id := server.nextSessionId + 1
      let server := { server with nextSessionId := id, created := server.created + 1 }
      if !made then (server, 500)
      else
        ({ server with
          sessions := server.sessions.set slot (some (createSession server.created id now))
          mediaActive := true }, 200)

/-- The slot of the session. -/
def findSession (server : LpSignaling) (id : Int) : Option Nat :=
  server.sessions.findIdx? fun slot => slot.any fun s => (s.id.toNat : Int) == id

def LpSignaling.put (server : LpSignaling) (slot : Nat) (s : SignalSession) : LpSignaling :=
  { server with sessions := server.sessions.set slot (some s) }

/-- `id` and `sdp` are what mongoose finds in the body, with enough memory for the copies. -/
def handleSessionAnswer (server : LpSignaling) (id : Int) (sdp : Option Bytes) :
    LpSignaling × Nat :=
  match sdp with
  | none => (server, 400)
  | some sdp =>
    if id < 0 then (server, 400)
    else
      match findSession server id with
      | none => (server, 404)
      | some slot =>
        match server.sessions[slot]? with
        | some (some s) =>
          if s.finished then (server, 404)
          else
            match lpSdpSanitizeAnswer sdp sanitizedCapacity with
            | .error _ => (server.put slot (closeSession s), 400)
            | .ok (text, info) =>
              match setAnswer s text info.candidatesKept with
              | none => (server, 409)
              | some s =>
                ({ server.put slot s with
                  accepted := server.accepted ++ [⟨s.serial, sdp, text⟩] }, 200)
        | _ => (server, 404)

def handleSessionClose (server : LpSignaling) (id : Int) : LpSignaling :=
  if id < 0 then server
  else
    match findSession server id with
    | none => server
    | some slot =>
      match server.sessions[slot]? with
      | some (some s) => server.put slot (closeSession s)
      | _ => server

def isLive (slot : Option SignalSession) : Bool := slot.any fun s => !s.finished

/-- The thread of a finished session is joined and the session freed. -/
def reapSessions (server : LpSignaling) : LpSignaling :=
  { server with
    sessions := server.sessions.map fun slot => slot.filter fun s => !s.finished
    mediaActive := server.sessions.any isLive }

/-- The main thread, and in `thread` that of the session in a slot. -/
inductive SignalEvent
  | pipeline (running : Bool)
  | create (now : UInt64) (made : Bool)
  | answer (id : Int) (sdp : Option Bytes)
  | close (id : Int)
  | reap
  | thread (slot : Nat) (now : UInt64) (state : PeerConnectionState)
deriving Repr, DecidableEq

def LpSignaling.step (server : LpSignaling) : SignalEvent → LpSignaling
  | .pipeline running => { server with pipelineRunning := running }
  | .create now made => (handleSessionCreate server now made).1
  | .answer id sdp => (handleSessionAnswer server id sdp).1
  | .close id => handleSessionClose server id
  | .reap => reapSessions server
  | .thread slot now state =>
    match server.sessions[slot]? with
    | some (some s) => server.put slot (sessionThread s now state)
    | _ => server

end Camstream.Lpstream
