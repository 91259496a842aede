import Camstream.App.SessionTable
import Camstream.Lib.Lifetimes

namespace Camstream.App
open Lib Webrtc

/-- What WebRTC allocates: the certificate with its key and the context of OpenSSL, once for
the process, and the objects of the session in each slot of the table. -/
inductive RtcPart
  | key
  | cert
  | context
  | session (slot : Nat)
  | cache (slot : Nat)
  | socket (slot : Nat)
  | dtls (slot : Nat)
  | bios (slot : Nat)
  | ssl (slot : Nat)
  | srtpOut (slot : Nat)
  | srtpIn (slot : Nat)
  | packetizer (slot : Nat)
deriving Repr, DecidableEq

def RtcPart.works : RtcPart → List RtcPart
  | .cert => [.key]
  | .context => [.cert, .key]
  | .cache slot | .socket slot | .packetizer slot => [.session slot]
  | .dtls slot => [.session slot, .context]
  | .bios slot | .srtpOut slot | .srtpIn slot => [.dtls slot]
  | .ssl slot => [.bios slot, .dtls slot, .context]
  | _ => []

def RtcPart.Needs (part other : RtcPart) : Prop := other ∈ part.works

/-- What the calls of `dtls_srtp_global_init` yield. -/
structure DtlsWorld where
  srtp : Bool
  key : Bool
  cert : Bool
  signed : Bool
  digested : Bool
  context : Bool
  matching : Bool
  profile : Bool

/-- The globals of `dtls_srtp.c`. -/
structure DtlsGlobals where
  srtpInitialized : Bool
  key : Bool
  cert : Bool
  context : Bool
deriving Repr, DecidableEq

/-- `generate_certificate`, whether it succeeds, and what it opens and closes. -/
def generateCertificateParts (g : DtlsGlobals) (world : DtlsWorld) :
    DtlsGlobals × Bool × List (Life RtcPart) :=
  if world.key = false then ({ g with key := false }, false, [])
  else if world.cert = false then
    ({ g with key := false, cert := false }, false, [.opened .key, .closed .key])
  else
    ({ g with key := true, cert := true }, world.signed && world.digested,
      [.opened .key, .opened .cert])

def dtlsSrtpGlobalInit (g : DtlsGlobals) (world : DtlsWorld) :
    DtlsGlobals × Bool × List (Life RtcPart) :=
  if g.context then (g, true, [])
  else if g.srtpInitialized = false ∧ world.srtp = false then (g, false, [])
  else
    let g := { g with srtpInitialized := true }
    match generateCertificateParts g world with
    | (g, false, life) => (g, false, life)
    | (g, true, life) =>
      if world.context = false then (g, false, life)
      else
        ({ g with context := true }, world.matching && world.profile, life ++ [.opened .context])

def dtlsSrtpGlobalShutdown (g : DtlsGlobals) : DtlsGlobals × List (Life RtcPart) :=
  ({ g with key := false, cert := false, context := false },
    (if g.context then [.closed .context] else []) ++
      (if g.cert then [.closed .cert] else []) ++ if g.key then [.closed .key] else [])

/-- A `DtlsSrtp`, with its two SRTP contexts. -/
structure DtlsParts where
  srtpOut : Bool
  srtpIn : Bool
  srtpReady : Bool
deriving Repr, DecidableEq

/-- The pointers of an `RtcSession`. -/
structure SessionParts where
  cache : Bool
  socket : Bool
  dtls : Option DtlsParts
  packetizer : Bool
deriving Repr, DecidableEq

/-- What the calls of `rtc_session_create` yield. `dtls` is the memory of the `DtlsSrtp`. -/
structure CreateWorld where
  session : Bool
  cache : Bool
  credentials : Bool
  socket : Bool
  dtls : Bool
  bios : Bool
  ssl : Bool
  packetizer : Bool
  ssrc : Bool
  answer : Option Bytes

/-- `dtls_srtp_session_create` in a slot. The two BIOs go together. -/
def dtlsSessionCreate (context : Bool) (slot : Nat) (world : CreateWorld) :
    Option DtlsParts × List (Life RtcPart) :=
  if context = false ∨ world.dtls = false then (none, [])
  else if world.bios = false then (none, [.opened (.dtls slot), .closed (.dtls slot)])
  else if world.ssl = false then
    (none, [.opened (.dtls slot), .opened (.bios slot), .closed (.bios slot),
      .closed (.dtls slot)])
  else
    (some ⟨false, false, false⟩,
      [.opened (.dtls slot), .opened (.bios slot), .opened (.ssl slot)])

/-- The parts that `dtls_srtp_session_destroy` frees; with the `SSL` go its BIOs. -/
def dtlsSessionDestroy (slot : Nat) : Option DtlsParts → List RtcPart
  | none => []
  | some dtls =>
    [.ssl slot, .bios slot] ++ (if dtls.srtpOut then [.srtpOut slot] else []) ++
      (if dtls.srtpIn then [.srtpIn slot] else []) ++ [.dtls slot]

/-- The parts that `session_free` frees. -/
def sessionFree (slot : Nat) (parts : SessionParts) : List RtcPart :=
  (if parts.socket then [.socket slot] else []) ++ dtlsSessionDestroy slot parts.dtls ++
    (if parts.packetizer then [.packetizer slot] else []) ++
    (if parts.cache then [.cache slot] else []) ++ [.session slot]

/-- `rtc_session_create` in a slot. A session without a socket frees its memory by itself. -/
def rtcSessionCreateParts (context : Bool) (slot : Nat) (world : CreateWorld) :
    Option SessionParts × List (Life RtcPart) :=
  if world.session = false then (none, [])
  else if world.cache = false then
    (none, [.opened (.session slot), .closed (.session slot)])
  else
    let parts : SessionParts := ⟨true, false, none, false⟩
    let life : List (Life RtcPart) := [.opened (.session slot), .opened (.cache slot)]
    if world.credentials = false then (none, life ++ (sessionFree slot parts).map .closed)
    else if world.socket = false then
      (none, life ++ [.closed (.cache slot), .closed (.session slot)])
    else
      let parts := { parts with socket := true }
      let life := life ++ [.opened (.socket slot)]
      match dtlsSessionCreate context slot world with
      | (none, dtlsLife) => (none, life ++ dtlsLife ++ (sessionFree slot parts).map .closed)
      | (some dtls, dtlsLife) =>
        let parts := { parts with dtls := some dtls }
        let life := life ++ dtlsLife
        if world.packetizer = false then (none, life ++ (sessionFree slot parts).map .closed)
        else
          let parts := { parts with packetizer := true }
          let life := life ++ [.opened (.packetizer slot)]
          if world.ssrc = false ∨ world.answer = none then
            (none, life ++ (sessionFree slot parts).map .closed)
          else (some parts, life)

/-- What a session that is still open works with when it closes: a session that is connected
shuts its `SSL` down, which sends a last record. -/
def sessionClose (slot : Nat) (parts : SessionParts) : List (Life RtcPart) :=
  match parts.dtls with
  | none => []
  | some dtls =>
    if dtls.srtpReady then [.used (.dtls slot), .used (.ssl slot), .used (.socket slot)]
    else [.used (.dtls slot)]

/-- The parts of WebRTC beside the table of the sessions. -/
structure RtcProcess where
  table : SessionServer
  globals : DtlsGlobals
  parts : Nat → Option SessionParts
  history : List (Life RtcPart)

def RtcProcess.note (p : RtcProcess) (life : List (Life RtcPart)) : RtcProcess :=
  { p with history := p.history ++ life }

/-- The session in the slot is open. -/
def slotOpen (p : RtcProcess) (slot : Nat) : Bool :=
  p.table.sessions[slot]?.any isOpen

/-- `rtc_session_destroy` for the session in a slot: its parts. -/
def destroySlot (p : RtcProcess) (slot : Nat) : RtcProcess :=
  match p.parts slot with
  | none => p
  | some parts =>
    { p with
      parts := Function.update p.parts slot none
      history := p.history ++ ((if slotOpen p slot then sessionClose slot parts else []) ++
        (sessionFree slot parts).map .closed) }

/-- `sessions_close_all`. -/
def closeAllSlots (p : RtcProcess) : RtcProcess :=
  let p := (List.range maxRtcSessions).foldl destroySlot p
  { p with table := sessionsCloseAll p.table }

/-- An offer. What `rtc_session_create` answers decides what the request meets. -/
def offerSession (p : RtcProcess) (request : OfferRequest) (world : CreateWorld) : RtcProcess :=
  match freeSlot p.table with
  | some slot =>
    if request.refused.isSome ∨ p.table.dtlsReady = false then
      { p with table := (handleOffer p.table request).1 }
    else
      let (created, life) := rtcSessionCreateParts p.globals.context slot world
      let request := { request with created := created.bind fun _ => world.answer }
      let p := { p.note life with parts := Function.update p.parts slot created }
      let session := offeredSession p.table request slot
      match created, world.answer.bind (offerReply session) with
      | some _, none =>
        -- The reply does not fit its buffer: the session is destroyed while it is open.
        let entered := { p with
          table := { p.table with sessions := p.table.sessions.set slot (some session) } }
        { destroySlot entered slot with table := (handleOffer p.table request).1 }
      | _, _ => { p with table := (handleOffer p.table request).1 }
  | none => { p with table := (handleOffer p.table request).1 }

/-- The SRTP contexts that a derivation of keys makes, the second one only behind the first. -/
def newContexts (slot : Nat) (out both : Bool) : List RtcPart :=
  (if out then [.srtpOut slot] else []) ++ if both then [.srtpIn slot] else []

/-- `derive_srtp_keys` for the session in a slot; `verified` is the comparison of the
fingerprint. A failure closes the session. -/
def deriveKeys (p : RtcProcess) (slot : Nat) (keys : KeyExport) (verified : Bool) : RtcProcess :=
  match p.parts slot with
  | some parts =>
    match parts.dtls with
    | some dtls =>
      if slotOpen p slot = false ∨ dtls.srtpReady then p
      else
        let out := keys.profileSelected && keys.exported && keys.outboundCreated
        let both := out && keys.inboundCreated
        let dtls := ⟨out, both, both && verified⟩
        let p := { p with
          parts := Function.update p.parts slot (some { parts with dtls := some dtls })
          history := p.history ++
            ([.used (.ssl slot)] ++ (newContexts slot out both).map .opened) }
        if both && verified then p
        else { p with
          table := closeSlot p.table slot
          history := p.history ++ [.used (.dtls slot)] }
    | none => p
  | none => p

/-- A tick, a datagram or an access unit for the session in a slot, which works with all of
its parts. -/
def serveSession (p : RtcProcess) (slot : Nat) : RtcProcess :=
  match p.parts slot with
  | some parts => p.note ((sessionFree slot parts).map .used)
  | none => p

/-- A session closes by itself, or because a request names it. -/
def endSession (p : RtcProcess) (slot : Nat) : RtcProcess :=
  match p.parts slot with
  | some parts =>
    { p with
      table := closeSlot p.table slot
      history := p.history ++ if slotOpen p slot then sessionClose slot parts else [] }
  | none => p

/-- `reap_sessions`: the sessions that are closed are destroyed. -/
def reapSlots (p : RtcProcess) : RtcProcess :=
  let closed := fun slot => !slotOpen p slot
  let p := (List.range maxRtcSessions).foldl
    (fun p slot => if closed slot then destroySlot p slot else p) p
  { p with table := reapSessions p.table }

/-- `handle_webrtc_restart`. -/
def restartWebrtc (p : RtcProcess) (world : DtlsWorld) : RtcProcess :=
  let p := closeAllSlots p
  let (globals, closed) := dtlsSrtpGlobalShutdown p.globals
  let (globals, ready, opened) := dtlsSrtpGlobalInit globals world
  { p with
    table := handleWebrtcRestart p.table ready
    globals
    history := p.history ++ (closed ++ opened) }

inductive RtcProcessEvent
  | offer (request : OfferRequest) (world : CreateWorld)
  | close (slot : Nat)
  | serve (slot : Nat)
  | keys (slot : Nat) (keys : KeyExport) (verified : Bool)
  | restart (world : DtlsWorld)
  | reap

def RtcProcess.step (p : RtcProcess) : RtcProcessEvent → RtcProcess
  | .offer request world => offerSession p request world
  | .close slot => endSession p slot
  | .serve slot => serveSession p slot
  | .keys slot keys verified => deriveKeys p slot keys verified
  | .restart world => restartWebrtc p world
  | .reap => reapSlots p

/-- The process comes up. -/
def RtcProcess.launch (config : ConfigServer) (world : DtlsWorld) : RtcProcess :=
  let (globals, ready, life) := dtlsSrtpGlobalInit ⟨false, false, false, false⟩ world
  ⟨SessionServer.start config ready, globals, fun _ => none, life⟩

/-- The process goes down; DTLS that never came up is left to the operating system. -/
def RtcProcess.shutdown (p : RtcProcess) : RtcProcess :=
  let p := closeAllSlots p
  if p.table.dtlsReady then
    let (globals, closed) := dtlsSrtpGlobalShutdown p.globals
    { p with globals, history := p.history ++ closed }
  else p

end Camstream.App
