import Camstream.Lib.Mailbox
import Camstream.Lib.Runs
import Camstream.Media.FrameHub

namespace Camstream.Media
open Lib

/-- What a call of `frame_hub_publish` was given. -/
structure Image where
  data : Bytes
  info : FrameInfo
deriving Repr, DecidableEq

def Publisher.image (p : Publisher) : Image := ⟨p.data, p.info⟩

/-- The description that the frame gets. -/
def Image.described (p : Image) : FrameInfo := { p.info with size := p.data.length }

/-- A frame as its taker gets it. -/
structure TakenFrame where
  frame : Nat
  info : FrameInfo
  bytes : Bytes
deriving Repr, DecidableEq

def handed (pool : FramePool) (f : Nat) : TakenFrame :=
  ⟨f, (pool.frames f).info, frameBytes pool f⟩

/-- `began` is the publish getting the hub lock, `ended` its giving the lock back:
from there it returns 0. -/
inductive PublishNote
  | began (p : Image)
  | ended (p : Image)
deriving Repr, DecidableEq

abbrev MailEvent := Mailbox.Event Image TakenFrame PublishNote

/-- The publish that the step lets past the hub lock. -/
def HubThreads.entering (s : HubThreads) : HubStep → Option Publisher
  | .lock i => s.publishers[i]?.filter fun p => p.phase = .filled ∧ s.hubLocked = false
  | _ => none

/-- What the step means for the consumer `c`. A publish is noted by the consumers that
are subscribed. -/
def HubThreads.heard (s : HubThreads) (c : Nat) (e : HubStep) : List MailEvent :=
  match e with
  | .lock _ =>
    if c ∈ s.hub.consumers then (s.entering e).toList.map fun p => .note (.began p.image) else []
  | .deliver i =>
    match s.publishers[i]? with
    | some p =>
      match p.phase with
      | .delivering [] => if c ∈ s.hub.consumers then [.note (.ended p.image)] else []
      | .delivering (d :: _) =>
        if d = c ∧ (s.hub.consumer c).active then [.put p.image] else []
      | _ => []
    | none => []
  | .take d =>
    if d = c ∧ c ∈ s.hub.consumers ++ s.leaving then
      [.took ((frameHubTake s.hub c).1.map (handed s.hub.pool))]
    else []
  | _ => []

/-- The hub with the history of each mailbox, from the subscription on, and the sequence
numbers of the publishes in the order in which they got the hub lock. -/
structure WatchedHub where
  threads : HubThreads
  mail : Nat → List MailEvent
  order : List UInt64

def WatchedHub.start (hub : FrameHub) : WatchedHub := ⟨.start hub, fun _ => [], []⟩

def WatchedHub.step (w : WatchedHub) (e : HubStep) : WatchedHub where
  threads := w.threads.step e
  mail c := w.mail c ++ w.threads.heard c e
  order := w.order ++ (w.threads.entering e).toList.map fun p => p.info.sequence

/-- The frames that a consumer can have: what is in its mailbox, and all that it took,
released or not. -/
def WatchedHub.retained (w : WatchedHub) (c : Nat) : List Nat :=
  (w.threads.hub.consumer c).slot.toList ++ (Mailbox.taken (w.mail c)).map TakenFrame.frame

end Camstream.Media
