import Camstream.App.AppServer
import Camstream.Webrtc.Session

namespace Camstream.App
open Lib Webrtc

def maxRtcSessions : Nat := 8

/-- What the table and the replies need to know of a session. `udpPort` is the port that
was asked for, `boundPort` the one its socket got. -/
structure TableSession where
  id : UInt32
  udpPort : UInt16
  boundPort : UInt16
  state : RtcSessionState
deriving Repr, DecidableEq

structure SessionServer extends ConfigServer where
  sessions : List (Option TableSession)
  sessionsTotal : Nat
  sessionCreateFailures : Nat
  sessionsClosed : Nat
  dtlsReady : Bool
  webrtcRestarts : Nat
deriving DecidableEq

def SessionServer.start (server : ConfigServer) (dtlsReady : Bool) : SessionServer :=
  { server with
    sessions := List.replicate maxRtcSessions none, sessionsTotal := 0, sessionCreateFailures := 0,
    sessionsClosed := 0, dtlsReady, webrtcRestarts := 0 }

def SessionServer.answer (server : SessionServer) (r : ConfigServer × HttpReply) :
    SessionServer × HttpReply :=
  ({ server with toConfigServer := r.1 }, r.2)

def SessionServer.error (server : SessionServer) (status : Nat) (message : Bytes) :
    SessionServer × HttpReply :=
  server.answer (replyError server.toConfigServer status message)

def sessionOnClosed (server : SessionServer) : SessionServer :=
  { server with sessionsClosed := server.sessionsClosed + 1 }

/-- `rtc_session_close` with the hook. -/
def closeSession (session : TableSession) (server : SessionServer) : TableSession × SessionServer :=
  if session.state = .closed then (session, server)
  else ({ session with state := .closed }, sessionOnClosed server)

/-- `rtc_session_destroy`: a session that is open is closed first. -/
def destroySession (session : TableSession) (server : SessionServer) : SessionServer :=
  (closeSession session server).2

def sessionsCloseAll (server : SessionServer) : SessionServer :=
  { server.sessions.foldl (fun server slot =>
      match slot with
      | some session => destroySession session server
      | none => server) server with
    sessions := server.sessions.map fun _ => none }

def isOpen (slot : Option TableSession) : Bool := slot.any fun session => session.state != .closed

def sessionsActive (server : SessionServer) : Nat := server.sessions.countP isOpen

/-- Some session in the table has this id. -/
def idUsed (server : SessionServer) (id : UInt32) : Bool :=
  server.sessions.any fun slot => slot.any (·.id == id)

/-- The loop of `next_session_id` over what `RAND_bytes` yields; none is its failure. -/
def drawId (server : SessionServer) : List (Option UInt32) → Option UInt32
  | [] => none
  | none :: _ => none
  | some candidate :: draws =>
    if candidate = 0 ∨ idUsed server candidate = true then drawId server draws
    else some candidate

def counterId (server : SessionServer) : UInt32 :=
  UInt32.ofNat (server.sessionsTotal + 1) * 2654435761

/-- `draws n` is the outcome of the `n`-th call of `RAND_bytes`. -/
def nextSessionId (server : SessionServer) (draws : Nat → Option UInt32) : UInt32 :=
  (drawId server ((List.range 16).map draws)).getD (counterId server)

def freeSlot (server : SessionServer) : Option Nat := server.sessions.findIdx? Option.isNone

/-- The port of a slot, in the arithmetic of `uint16_t`. -/
def slotPort (server : SessionServer) (slot : Nat) : UInt16 :=
  UInt16.ofNat (server.config.udpBasePort.toNat + slot)

/-- One signaling request: the reply of the checks in front when they refuse it, the
outcomes of `RAND_bytes`, the port the kernel picks for a socket that asks for none, and
the answer of `rtc_session_create`, none when it fails. -/
structure OfferRequest where
  refused : Option (Nat × Bytes)
  draws : Nat → Option UInt32
  kernelPort : UInt16
  created : Option Bytes

def offerReply (session : TableSession) (answer : Bytes) : Option Bytes :=
  jsonFinish (jsonRaw (jsonString (jsonRaw (jsonBegin 12288)
    (ascii "\x7b\"type\":\"answer\",\"session_id\":" ++ decimal session.id.toNat ++
      ascii ",\"udp_port\":" ++ decimal session.udpPort.toNat ++ ascii ",\"sdp\":")) answer)
    (ascii "\x7d"))

/-- The session of an offer in this slot. -/
def offeredSession (server : SessionServer) (request : OfferRequest) (slot : Nat) : TableSession where
  id := nextSessionId server request.draws
  udpPort := slotPort server slot
  boundPort := if slotPort server slot = 0 then request.kernelPort else slotPort server slot
  state := .new

def handleOffer (server : SessionServer) (request : OfferRequest) : SessionServer × HttpReply :=
  match request.refused with
  | some (status, message) => server.error status message
  | none =>
    if server.dtlsReady = false then
      server.error 503 (ascii ("WebRTC unavailable: DTLS is not initialised, see " ++
        "/api/logs and POST /api/webrtc/restart"))
    else
      match freeSlot server with
      | none =>
        server.error 503 (ascii ("session limit reached (8 viewers); close a viewer or " ++
          "use POST /api/webrtc/close"))
      | some slot =>
        let session := offeredSession server request slot
        match request.created with
        | none =>
          { server with sessionCreateFailures := server.sessionCreateFailures + 1 }.error 503
            (ascii ("WebRTC session setup failed (UDP port busy or DTLS " ++
              "unavailable, see /api/logs)"))
        | some answer =>
          let entered := { server with
            sessions := server.sessions.set slot (some session)
            sessionsTotal := server.sessionsTotal + 1 }
          match offerReply session answer with
          | some payload => entered.answer (replyJson entered.toConfigServer 200 payload)
          | none =>
            let destroyed := destroySession session entered
            { destroyed with
              sessions := destroyed.sessions.set slot none
              sessionsTotal := destroyed.sessionsTotal - 1 }.error 500
                (ascii "answer payload overflow")

/-- A session closes: the state in its slot and the hook. -/
def closeSlot (server : SessionServer) (slot : Nat) : SessionServer :=
  match server.sessions[slot]? with
  | some (some session) =>
    let (session, server) := closeSession session server
    { server with sessions := server.sessions.set slot (some session) }
  | _ => server

/-- `handle_close` for a request with this id. -/
def handleClose (server : SessionServer) (id : UInt32) : SessionServer × HttpReply :=
  match server.sessions.findIdx? fun slot => slot.any (·.id == id) with
  | some slot =>
    let server := closeSlot server slot
    server.answer (replyJson server.toConfigServer 200 (ascii "\x7b\"closed\":true\x7d"))
  | none => server.error 404 (ascii "no such session")

/-- `ready` is whether DTLS comes up again. -/
def handleWebrtcRestart (server : SessionServer) (ready : Bool) : SessionServer :=
  { sessionsCloseAll { server with webrtcRestarts := server.webrtcRestarts + 1 } with
    dtlsReady := ready }

def reapSessions (server : SessionServer) : SessionServer :=
  { server with sessions := server.sessions.map fun slot => slot.filter (·.state ≠ .closed) }

/-- What can happen to the table. A session closes in `ends` on a tick or a packet. -/
inductive TableEvent
  | offer (request : OfferRequest)
  | close (id : UInt32)
  | ends (slot : Nat)
  | restart (ready : Bool)
  | reap

def SessionServer.step (server : SessionServer) : TableEvent → SessionServer
  | .offer request => (handleOffer server request).1
  | .close id => (handleClose server id).1
  | .ends slot => closeSlot server slot
  | .restart ready => handleWebrtcRestart server ready
  | .reap => reapSessions server

end Camstream.App
