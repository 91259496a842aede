import Mathlib.Logic.Function.Basic
import Camstream.Lib.Bytes

namespace Camstream.Media
open Lib

/-- What a publisher says about an image. -/
structure FrameInfo where
  width : UInt32
  height : UInt32
  format : UInt32
  stride : UInt32
  size : Nat
  sequence : UInt64
  timestampUs : UInt64
deriving Repr, DecidableEq

/-- `data` is the offset of the buffer in the pool's backing store. -/
structure Frame where
  info : FrameInfo
  data : Nat
  poolIndex : Int
  refcount : Int
deriving Repr, DecidableEq

/-- A frame pointer is the frame's place in `frames`. The top of the free list is its
first element, and its length is `free_count`. -/
structure FramePool where
  frames : Nat → Frame
  backing : Nat → UInt8
  capacity : Nat
  count : Nat
  freeList : List Nat

/-- The two messages of `frame_unref`. -/
inductive PoolError
  | doubleUnref
  | freeListOverflow
deriving Repr, DecidableEq

def zeroInfo : FrameInfo := ⟨0, 0, 0, 0, 0, 0, 0⟩

def framePoolCreate (capacity count : Nat) : Option FramePool :=
  if capacity = 0 ∨ count = 0 then none
  else some {
    frames := fun i => ⟨zeroInfo, i * capacity, i, 0⟩
    backing := fun _ => 0, capacity, count
    freeList := (List.range count).reverse }

def framePoolAcquire (pool : FramePool) : Option (Nat × FramePool) :=
  match pool.freeList with
  | [] => none
  | index :: rest =>
    let frame : Frame := ⟨zeroInfo, index * pool.capacity, index, 1⟩
    some (index, { pool with
      frames := Function.update pool.frames index frame, freeList := rest })

def frameRef (pool : FramePool) (f : Nat) : FramePool :=
  let frame := pool.frames f
  { pool with frames := Function.update pool.frames f { frame with refcount := frame.refcount + 1 } }

/-- The pool afterwards, and the error that was logged. -/
def frameUnref (pool : FramePool) (f : Nat) : Option PoolError × FramePool :=
  let frame := pool.frames f
  if frame.refcount ≤ 0 then (some .doubleUnref, pool)
  else
    let refcount := frame.refcount - 1
    if refcount ≤ 0 ∧ 0 ≤ frame.poolIndex then
      let frames := Function.update pool.frames f { frame with refcount, poolIndex := -1 }
      if pool.freeList.length ≥ pool.count then (some .freeListOverflow, { pool with frames })
      else (none, { pool with frames, freeList := frame.poolIndex.toNat :: pool.freeList })
    else (none, { pool with frames := Function.update pool.frames f { frame with refcount } })

/-- The `memcpy` of `frame_hub_publish` into the frame's buffer. It is not cut at the
end of the buffer. -/
def copyInto (pool : FramePool) (f : Nat) (data : Bytes) : FramePool :=
  let start := (pool.frames f).data
  { pool with
    backing := fun a =>
      if start ≤ a ∧ a < start + data.length then data.getD (a - start) 0 else pool.backing a }

/-- The buffer behind a frame, as its holders read it. -/
def frameBytes (pool : FramePool) (f : Nat) : Bytes :=
  (List.range pool.capacity).map fun k => pool.backing ((pool.frames f).data + k)

end Camstream.Media
