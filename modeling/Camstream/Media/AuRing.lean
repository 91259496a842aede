import Mathlib.Logic.Function.Basic
import Camstream.Lib.Bytes

namespace Camstream.Media
open Lib

structure AuMeta where
  ptsUs : UInt64
  sequence : Nat
  isIdr : Bool
  discontinuity : Bool
  size : Nat
deriving Repr, DecidableEq

/-- One slot: its entry of the `meta` array and its part of `backing`. -/
structure AuSlot where
  info : AuMeta
  bytes : Bytes
deriving Repr, DecidableEq

/-- The ring under its lock. `eventFd` is the eventfd counter, `none` when
the descriptor is unavailable. The two 64 bit counters are unbounded here. -/
structure AuRing where
  slots : Nat → AuSlot
  slotCapacity : Nat
  slotCount : Nat
  head : Nat
  tail : Nat
  count : Nat
  lost : Bool
  sequence : Nat
  dropped : Nat
  eventFd : Option Nat

def emptySlot : AuSlot := ⟨⟨0, 0, false, false, 0⟩, []⟩

/-- `none` for a zero capacity or count; `eventFd` is the result of `eventfd`. -/
def auRingCreate (slotCapacity slotCount : Nat) (eventFd : Option Nat) : Option AuRing :=
  if slotCapacity = 0 ∨ slotCount = 0 then none
  else some {
    slots := fun _ => emptySlot, slotCapacity, slotCount, head := 0, tail := 0, count := 0,
    lost := false, sequence := 0, dropped := 0, eventFd }

/-- Make room by giving up the oldest access unit when the ring is full. -/
def overwriteOldest (ring : AuRing) : AuRing :=
  if ring.count = ring.slotCount then
    { ring with
      head := (ring.head + 1) % ring.slotCount, count := ring.count - 1,
      lost := true, dropped := ring.dropped + 1 }
  else ring

/-- Copy the access unit into the tail slot. The flag of a loss goes to the
unit that is written now. -/
def writeTail (ring : AuRing) (data : Bytes) (ptsUs : UInt64) (isIdr : Bool) : AuRing :=
  let old := ring.slots ring.tail
  let slot : AuSlot := {
    info := ⟨ptsUs, ring.sequence, isIdr, ring.lost, data.length⟩
    bytes := data ++ old.bytes.drop data.length }
  { ring with
    slots := Function.update ring.slots ring.tail slot
    sequence := ring.sequence + 1, lost := false
    tail := (ring.tail + 1) % ring.slotCount, count := ring.count + 1 }

/-- The part of `au_ring_push` that runs under the lock. -/
def auRingEnqueue (ring : AuRing) (data : Bytes) (ptsUs : UInt64) (isIdr : Bool) : Int × AuRing :=
  if data.length > ring.slotCapacity then
    (-1, { ring with lost := true, dropped := ring.dropped + 1 })
  else (0, writeTail (overwriteOldest ring) data ptsUs isIdr)

/-- The eventfd write after the lock is released. -/
def auRingSignal (ring : AuRing) : AuRing := { ring with eventFd := ring.eventFd.map (· + 1) }

def auRingPush (ring : AuRing) (data : Bytes) (ptsUs : UInt64) (isIdr : Bool) : Int × AuRing :=
  if data.length = 0 then (-1, ring)
  else
    let r := auRingEnqueue ring data ptsUs isIdr
    if r.1 = 0 then (0, auRingSignal r.2) else r

/-- The `while (ring->count > 0)` loop of `au_ring_pop`: the unit delivered, if
any, the ring afterwards and the `discontinuity` local. -/
def popLoop (bufferCapacity : Nat) (discontinuity : Bool) (ring : AuRing) :
    Option AuSlot × AuRing × Bool :=
  if ring.count > 0 then
    let slot := ring.slots ring.head
    let ring' := { ring with head := (ring.head + 1) % ring.slotCount, count := ring.count - 1 }
    if slot.info.size > bufferCapacity then
      popLoop bufferCapacity true { ring' with dropped := ring.dropped + 1 }
    else
      let info := { slot.info with discontinuity := slot.info.discontinuity || discontinuity }
      (some ⟨info, slot.bytes.take slot.info.size⟩, ring', discontinuity)
  else (none, ring, discontinuity)
termination_by ring.count

/-- The access unit copied out with its metadata, `none` when the ring is
empty. An empty ring clears the wakeup and keeps a gap for the next push. -/
def auRingPop (ring : AuRing) (bufferCapacity : Nat) : Option AuSlot × AuRing :=
  match popLoop bufferCapacity false ring with
  | (some slot, ring, _) => (some slot, ring)
  | (none, ring, discontinuity) =>
    (none, { ring with
      eventFd := ring.eventFd.map (fun _ => 0), lost := ring.lost || discontinuity })

def auRingDropped (ring : AuRing) : Nat := ring.dropped

end Camstream.Media
