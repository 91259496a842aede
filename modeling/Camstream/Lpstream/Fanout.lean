import Camstream.Lpstream.LpSession
import Camstream.Media.AuHistory

namespace Camstream.Lpstream
open Lib Media

/-- What the media thread holds between `au_ring_pop` and the push into the
mailbox, and whether it has raised the resync flag for it. -/
structure Popped where
  slot : AuSlot
  resynced : Bool

/-- One viewer behind the access unit ring. `batch` is what its thread took
and has not worked off, `sent` what it handed to libpeer. -/
structure Fanout where
  history : History
  popped : Option Popped
  registered : Bool
  session : LpSession
  batch : List LpFrame
  sent : List LpFrame

/-- Steps of the encoder thread (`produce`), of the media thread (`pop`,
`skip`, `createFails`, `resync`, `push`), of the session thread (`take`,
`send`, `connect`, `finish`) and of the HTTP thread (`register`, `close`). -/
inductive FanoutEvent
  | produce (data : Bytes) (ptsUs : UInt64) (isIdr : Bool)
  | pop
  | skip
  | createFails
  | resync
  | push
  | take
  | send (sent : Bool)
  | connect
  | finish
  | register
  | close

def Fanout.start (ring : AuRing) : Fanout :=
  { history := .start ring, popped := none, registered := false, session := lpSessionCreate,
    batch := [], sent := [] }

/-- The frame made from a popped unit. Its identity is the number of the unit. -/
def frameOf (id : Nat) (slot : AuSlot) : LpFrame :=
  ⟨id, slot.info.isIdr, slot.info.ptsUs, slot.bytes⟩

/-- The viewer is served only when it is in the table and its thread runs. -/
def Fanout.served (s : Fanout) : Bool := s.registered && !s.session.finished

/-- One step of one thread; an event that its thread cannot take now leaves
everything as it is. `bufferCapacity` is the media thread's buffer. -/
def Fanout.step (bufferCapacity : Nat) (s : Fanout) : FanoutEvent → Fanout
  | .produce data ptsUs isIdr => { s with history := s.history.step (.push data ptsUs isIdr) }
  | .pop =>
    if s.popped.isSome then s
    else { s with
      history := s.history.step (.pop bufferCapacity)
      popped := (auRingPop s.history.ring bufferCapacity).1.map (⟨·, false⟩) }
  | .skip => if s.served then s else { s with popped := none }
  | .createFails => if s.served then { s with popped := none } else s
  | .resync =>
    match s.popped with
    | some p =>
      if s.served && p.slot.info.discontinuity && !p.resynced then
        { s with popped := some { p with resynced := true }, session := lpSessionResync s.session }
      else s
    | none => s
  | .push =>
    match s.popped with
    | some p =>
      if s.served && (!p.slot.info.discontinuity || p.resynced) then
        { s with
          popped := none
          session := lpSessionPushFrame s.session (frameOf s.history.delivered p.slot) }
      else s
    | none => s
  | .take =>
    if s.session.finished || !s.batch.isEmpty then s
    else if s.session.connected then
      { s with batch := (beginSend s.session).1, session := (beginSend s.session).2 }
    else { s with session := dropFrames s.session }
  | .send sent =>
    match s.batch with
    | [] => s
    | frame :: batch =>
      let r := sendFrame s.session frame sent
      { s with batch, session := r.2, sent := if r.1 then s.sent ++ [frame] else s.sent }
  | .connect => if s.session.finished then s else { s with session := becomeConnected s.session }
  | .finish =>
    if s.batch.isEmpty then { s with session := { dropFrames s.session with finished := true } }
    else s
  | .register => { s with registered := true }
  | .close => { s with session := lpSessionClose s.session }

end Camstream.Lpstream
