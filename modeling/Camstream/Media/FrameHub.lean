import Camstream.Media.FramePool

namespace Camstream.Media
open Lib

structure FrameHubConsumer where
  slot : Option Nat
  active : Bool
deriving Repr, DecidableEq

/-- `consumers` is the linked list, by the names of its members; `consumer` is the
memory they point to. -/
structure FrameHub where
  pool : FramePool
  consumers : List Nat
  consumer : Nat → FrameHubConsumer

def frameHubCreate (bufferCapacity poolCount : Nat) : Option FrameHub :=
  (framePoolCreate bufferCapacity poolCount).map fun pool => ⟨pool, [], fun _ => ⟨none, false⟩⟩

/-- `c` names the new consumer. -/
def frameHubSubscribe (hub : FrameHub) (c : Nat) : FrameHub :=
  { hub with
    consumers := c :: hub.consumers
    consumer := Function.update hub.consumer c ⟨none, true⟩ }

/-- The part of `frame_hub_unsubscribe` under the two locks. -/
def unlinkConsumer (hub : FrameHub) (c : Nat) : FrameHub :=
  if (hub.consumer c).active then
    { hub with
      consumers := hub.consumers.erase c
      consumer := Function.update hub.consumer c { hub.consumer c with active := false } }
  else hub

/-- The rest of it, after the locks: the mailboxed frame is dropped. -/
def dropMailbox (hub : FrameHub) (c : Nat) : Option PoolError × FrameHub :=
  match (hub.consumer c).slot with
  | none => (none, hub)
  | some f =>
    let r := frameUnref hub.pool f
    (r.1, { hub with
      pool := r.2
      consumer := Function.update hub.consumer c { hub.consumer c with slot := none } })

/-- One turn of the loop of `frame_hub_publish` over the mailboxes. -/
def deliver (hub : FrameHub) (f c : Nat) : Option PoolError × FrameHub :=
  if (hub.consumer c).active then
    let pool := frameRef hub.pool f
    let r := match (hub.consumer c).slot with
      | some old => frameUnref pool old
      | none => (none, pool)
    (r.1, { hub with
      pool := r.2
      consumer := Function.update hub.consumer c { hub.consumer c with slot := some f } })
  else (none, hub)

/-- `frame_hub_take`, and `frame_hub_take_wait` at the end of its wait. -/
def frameHubTake (hub : FrameHub) (c : Nat) : Option Nat × FrameHub :=
  ((hub.consumer c).slot,
    { hub with
      consumer := Function.update hub.consumer c { hub.consumer c with slot := none } })

/-- How far a call of `frame_hub_publish` has come. `delivering` holds the hub lock
and has the consumers still to serve. -/
inductive PublishPhase
  | acquired
  | filled
  | delivering (rest : List Nat)
  | unlocked
deriving Repr, DecidableEq

structure Publisher where
  frame : Nat
  data : Bytes
  info : FrameInfo
  phase : PublishPhase
deriving Repr, DecidableEq

/-- The hub with the threads around it: publishes in progress, consumers that
`frame_hub_unsubscribe` has unlinked and not yet dropped, one entry for each frame
that was taken and not yet released, the errors logged and the results returned. -/
structure HubThreads where
  hub : FrameHub
  publishers : List Publisher
  leaving : List Nat
  taken : List Nat
  names : Nat
  errors : List PoolError
  results : List Int

def HubThreads.start (hub : FrameHub) : HubThreads := ⟨hub, [], [], [], 0, [], []⟩

/-- One atomic step of one thread. -/
inductive HubStep
  | acquire (data : Bytes) (info : FrameInfo)
  | fill (i : Nat)
  | lock (i : Nat)
  | deliver (i : Nat)
  | release (i : Nat)
  | subscribe
  | unlink (c : Nat)
  | drop (c : Nat)
  | take (c : Nat)
  | unref (f : Nat)

def Publisher.holdsLock (p : Publisher) : Bool :=
  match p.phase with
  | .delivering _ => true
  | _ => false

def HubThreads.hubLocked (s : HubThreads) : Bool := s.publishers.any Publisher.holdsLock

def HubThreads.setPhase (s : HubThreads) (i : Nat) (p : Publisher) (phase : PublishPhase) :
    HubThreads :=
  { s with publishers := s.publishers.set i { p with phase } }

/-- The copy into the frame and its description, between `frame_pool_acquire` and the
hub lock. -/
def fillFrame (pool : FramePool) (p : Publisher) : FramePool :=
  let pool := copyInto pool p.frame p.data
  { pool with
    frames := Function.update pool.frames p.frame
      { pool.frames p.frame with info := { p.info with size := p.data.length } } }

def HubThreads.publisherStep (s : HubThreads) (i : Nat) (p : Publisher) : HubStep → HubThreads
  | .fill _ =>
    match p.phase with
    | .acquired =>
      { s.setPhase i p .filled with hub := { s.hub with pool := fillFrame s.hub.pool p } }
    | _ => s
  | .lock _ =>
    match p.phase with
    | .filled => if s.hubLocked then s else s.setPhase i p (.delivering s.hub.consumers)
    | _ => s
  | .deliver _ =>
    match p.phase with
    | .delivering [] => s.setPhase i p .unlocked
    | .delivering (c :: rest) =>
      let r := deliver s.hub p.frame c
      { s.setPhase i p (.delivering rest) with hub := r.2, errors := s.errors ++ r.1.toList }
    | _ => s
  | .release _ =>
    match p.phase with
    | .unlocked =>
      let r := frameUnref s.hub.pool p.frame
      { s with
        hub := { s.hub with pool := r.2 }, publishers := s.publishers.eraseIdx i
        errors := s.errors ++ r.1.toList, results := s.results ++ [0] }
    | _ => s
  | _ => s

/-- A step that its thread cannot take in this state, because it waits for the hub lock
or is somewhere else, changes nothing. -/
def HubThreads.step (s : HubThreads) (e : HubStep) : HubThreads :=
  match e with
  | .acquire data info =>
    if data.length = 0 then { s with results := s.results ++ [-1] }
    else
      match framePoolAcquire s.hub.pool with
      | none => { s with results := s.results ++ [-1] }
      | some (f, pool) =>
        { s with
          hub := { s.hub with pool }
          publishers := s.publishers ++ [⟨f, data, info, .acquired⟩] }
  | .fill i | .lock i | .deliver i | .release i =>
    match s.publishers[i]? with
    | some p => s.publisherStep i p e
    | none => s
  | .subscribe =>
    if s.hubLocked then s
    else { s with hub := frameHubSubscribe s.hub s.names, names := s.names + 1 }
  | .unlink c =>
    if s.hubLocked ∨ c ∉ s.hub.consumers then s
    else { s with hub := unlinkConsumer s.hub c, leaving := s.leaving ++ [c] }
  | .drop c =>
    if c ∈ s.leaving then
      let r := dropMailbox s.hub c
      { s with hub := r.2, leaving := s.leaving.erase c, errors := s.errors ++ r.1.toList }
    else s
  | .take c =>
    if c ∈ s.hub.consumers ++ s.leaving then
      let r := frameHubTake s.hub c
      { s with hub := r.2, taken := s.taken ++ r.1.toList }
    else s
  | .unref f =>
    -- a taker releases what it took, once
    if f ∈ s.taken then
      let r := frameUnref s.hub.pool f
      { s with
        hub := { s.hub with pool := r.2 }, taken := s.taken.erase f
        errors := s.errors ++ r.1.toList }
    else s

/-- One entry for each reference to a frame: publishes in progress, mailboxes, takers. -/
def HubThreads.held (s : HubThreads) : List Nat :=
  s.publishers.map Publisher.frame ++
    (s.hub.consumers ++ s.leaving).filterMap (fun c => (s.hub.consumer c).slot) ++ s.taken

end Camstream.Media
