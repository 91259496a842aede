import Camstream.Media.AuRing

namespace Camstream.Media
open Lib

inductive RingOp
  | push (data : Bytes) (ptsUs : UInt64) (isIdr : Bool)
  | pop (bufferCapacity : Nat)

/-- A ring with the fate of every access unit offered to it. Units are numbered
from 1 in the order of the pushes; `queued` are the numbers still in the ring,
oldest first, and `delivered` is the number handed out last (0 for none). -/
structure History where
  ring : AuRing
  offered : Nat
  queued : List Nat
  lost : List Nat
  delivered : Nat

def History.start (ring : AuRing) : History := ⟨ring, 0, [], [], 0⟩

/-- The bookkeeping looks at return values and at how many units left the ring,
never at a flag. A push of size 0 offers nothing. -/
def History.step (h : History) : RingOp → History
  | .push data ptsUs isIdr =>
    let r := auRingPush h.ring data ptsUs isIdr
    if data.length = 0 then { h with ring := r.2 }
    else if r.1 = 0 then
      let removed := h.ring.count + 1 - r.2.count
      { h with
        ring := r.2, offered := h.offered + 1
        queued := h.queued.drop removed ++ [h.offered + 1]
        lost := h.lost ++ h.queued.take removed }
    else { h with ring := r.2, offered := h.offered + 1, lost := h.lost ++ [h.offered + 1] }
  | .pop bufferCapacity =>
    let r := auRingPop h.ring bufferCapacity
    let removed := h.ring.count - r.2.count
    match r.1 with
    | some _ => { h with
        ring := r.2, queued := h.queued.drop removed
        lost := h.lost ++ h.queued.take (removed - 1)
        delivered := h.queued.getD (removed - 1) 0 }
    | none => { h with
        ring := r.2, queued := h.queued.drop removed, lost := h.lost ++ h.queued.take removed }

end Camstream.Media
