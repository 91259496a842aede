import Camstream.Lib.Runs
import Camstream.Proofs.AuQueue

namespace Camstream.Proofs.AuWakeup
open Lib Media AuQueue

/-- One atomic step of a thread at the ring: the locked part of a push, the eventfd
write of a push that has left the lock, or a pop. -/
inductive WakeStep
  | enqueue (data : Bytes) (ptsUs : UInt64) (isIdr : Bool)
  | signal
  | pop (bufferCapacity : Nat)

/-- The ring and the number of pushes between their enqueue and their eventfd write. -/
structure Wakeups where
  ring : AuRing
  unsignalled : Nat

def Wakeups.step (w : Wakeups) : WakeStep → Wakeups
  | .enqueue data ptsUs isIdr =>
    -- an empty push returns before it takes the lock
    if data.length = 0 then w
    else
      let r := auRingEnqueue w.ring data ptsUs isIdr
      ⟨r.2, if r.1 = 0 then w.unsignalled + 1 else w.unsignalled⟩
  | .signal =>
    if w.unsignalled = 0 then w else ⟨auRingSignal w.ring, w.unsignalled - 1⟩
  | .pop bufferCapacity => ⟨(auRingPop w.ring bufferCapacity).2, w.unsignalled⟩

/-- Polling the descriptor finds it readable. -/
def Readable (ring : AuRing) : Prop := ∃ n, ring.eventFd = some n ∧ 0 < n

/-- A queued unit is announced, or a push that will announce it is on its way. -/
structure Announced (w : Wakeups) : Prop where
  fd : w.ring.eventFd.isSome
  wakes : 0 < w.ring.count → Readable w.ring ∨ 0 < w.unsignalled

theorem signal_readable {ring : AuRing} (h : ring.eventFd.isSome) :
    Readable (auRingSignal ring) := by
  obtain ⟨n, hn⟩ := Option.isSome_iff_exists.mp h
  exact ⟨n + 1, by simp [auRingSignal, hn], Nat.succ_pos n⟩

/-- A push and its two steps: this is what the split means. -/
theorem push_splits (ring : AuRing) {data : Bytes} (ptsUs : UInt64) (isIdr : Bool) :
    run Wakeups.step ⟨ring, 0⟩ [.enqueue data ptsUs isIdr, .signal] =
      ⟨(auRingPush ring data ptsUs isIdr).2, 0⟩ := by
  by_cases hz : data.length = 0
  · simp [Wakeups.step, auRingPush, hz]
  · by_cases hr : (auRingEnqueue ring data ptsUs isIdr).1 = 0
    · simp [Wakeups.step, auRingPush, hz, hr]
    · simp [Wakeups.step, auRingPush, hz, hr]

theorem enqueue_announced {w : Wakeups} (h : Announced w) (data : Bytes) (ptsUs : UInt64)
    (isIdr : Bool) : Announced (w.step (.enqueue data ptsUs isIdr)) := by
  by_cases hz : data.length = 0
  · simpa [Wakeups.step, hz] using h
  · by_cases hbig : data.length > w.ring.slotCapacity
    · simp only [Wakeups.step, hz, auRingEnqueue, hbig, if_true, if_false]
      exact ⟨h.fd, h.wakes⟩
    · have hfd : (overwriteOldest w.ring).eventFd = w.ring.eventFd := by
        unfold overwriteOldest
        split <;> rfl
      simp only [Wakeups.step, hz, auRingEnqueue, hbig, if_true, if_false]
      refine ⟨?_, fun _ => .inr (Nat.succ_pos _)⟩
      change (overwriteOldest w.ring).eventFd.isSome
      rw [hfd]
      exact h.fd

theorem signal_announced {w : Wakeups} (h : Announced w) : Announced (w.step .signal) := by
  by_cases hz : w.unsignalled = 0
  · simpa [Wakeups.step, hz] using h
  · have hr := signal_readable h.fd
    simp only [Wakeups.step, hz, if_false]
    refine ⟨?_, fun _ => .inl hr⟩
    obtain ⟨n, hn, -⟩ := hr
    exact Option.isSome_iff_exists.mpr ⟨n, hn⟩

/-- The loop leaves the descriptor alone, and when it delivers nothing it has
emptied the ring. -/
theorem popLoop_fd (bufferCapacity : Nat) (disc : Bool) (ring : AuRing) :
    (popLoop bufferCapacity disc ring).2.1.eventFd = ring.eventFd ∧
      (popLoop bufferCapacity disc ring).2.1.count ≤ ring.count ∧
      ((popLoop bufferCapacity disc ring).1 = none →
        (popLoop bufferCapacity disc ring).2.1.count = 0) := by
  fun_induction popLoop bufferCapacity disc ring with
  | case1 disc ring hc slot ring' hbig ih =>
    obtain ⟨hfd, hle, hnone⟩ := ih
    exact ⟨hfd, hle.trans (Nat.sub_le _ _), hnone⟩
  | case2 disc ring hc slot ring' hfit info =>
    exact ⟨rfl, Nat.sub_le _ _, by simp⟩
  | case3 disc ring hc =>
    refine ⟨rfl, Nat.le_refl _, fun _ => ?_⟩
    change ring.count = 0
    omega

/-- A pop that delivers does not touch the counter; one that clears it leaves nothing
behind that a wakeup is needed for. -/
theorem pop_announced {w : Wakeups} (h : Announced w) (bufferCapacity : Nat) :
    Announced (w.step (.pop bufferCapacity)) := by
  obtain ⟨hfd, hle, hnone⟩ := popLoop_fd bufferCapacity false w.ring
  change Announced ⟨(auRingPop w.ring bufferCapacity).2, w.unsignalled⟩
  unfold auRingPop
  generalize popLoop bufferCapacity false w.ring = r at hfd hle hnone
  obtain ⟨slot, ring, disc⟩ := r
  cases slot with
  | some slot =>
    refine ⟨?_, ?_⟩
    · change ring.eventFd.isSome
      rw [hfd]
      exact h.fd
    · intro hcount
      rcases h.wakes (Nat.lt_of_lt_of_le hcount hle) with ⟨n, hn, hpos⟩ | hpos
      · exact .inl ⟨n, hfd.trans hn, hpos⟩
      · exact .inr hpos
  | none =>
    have hempty : ring.count = 0 := hnone rfl
    refine ⟨?_, ?_⟩
    · change (ring.eventFd.map fun _ => 0).isSome
      rw [Option.isSome_map, hfd]
      exact h.fd
    · intro hcount
      exact absurd hempty (Nat.pos_iff_ne_zero.mp hcount)

theorem step_announced (w : Wakeups) (e : WakeStep) (h : Announced w) : Announced (w.step e) := by
  cases e with
  | enqueue data ptsUs isIdr => exact enqueue_announced h data ptsUs isIdr
  | signal => exact signal_announced h
  | pop bufferCapacity => exact pop_announced h bufferCapacity

/-- In every interleaving a queued unit has made the descriptor readable, or some push
is still to write to it, and that write makes it readable. -/
theorem no_lost_wakeup {slotCapacity slotCount : Nat} {ring : AuRing}
    (h : auRingCreate slotCapacity slotCount (some 0) = some ring) (steps : List WakeStep) :
    let w := run Wakeups.step ⟨ring, 0⟩ steps
    0 < w.ring.count →
      Readable w.ring ∨ (0 < w.unsignalled ∧ Readable (w.step .signal).ring) := by
  intro w hcount
  have hstart : Announced ⟨ring, 0⟩ := by
    obtain ⟨-, hzero, -⟩ := create_ok h
    refine ⟨?_, fun hc => absurd hzero (Nat.pos_iff_ne_zero.mp hc)⟩
    unfold auRingCreate at h
    split at h
    · cases h
    · cases h
      rfl
  have hw : Announced w := run_invariant hstart step_announced steps
  rcases hw.wakes hcount with hr | hpos
  · exact .inl hr
  · refine .inr ⟨hpos, ?_⟩
    simp only [Wakeups.step, Nat.pos_iff_ne_zero.mp hpos, if_false]
    exact signal_readable hw.fd

/-- The first push is split by the second one and by two pops that empty the ring. -/
theorem no_lost_wakeup_split_push : ∃ ring, auRingCreate 4 2 (some 0) = some ring ∧
    let w := run Wakeups.step ⟨ring, 0⟩
      [.enqueue [1] 10 true, .enqueue [2] 20 false, .signal, .pop 4, .pop 4, .pop 4,
        .enqueue [3] 30 false]
    0 < w.ring.count ∧
      (Readable w.ring ∨ (0 < w.unsignalled ∧ Readable (w.step .signal).ring)) := by
  refine ⟨_, rfl, ?_⟩
  intro w
  have hcount : 0 < w.ring.count := by
    simp [w, Wakeups.step, auRingEnqueue, overwriteOldest, writeTail, auRingSignal, auRingPop,
      popLoop]
  exact ⟨hcount, @no_lost_wakeup 4 2 _ rfl _ hcount⟩

end Camstream.Proofs.AuWakeup
