import Camstream.Lib.Circular
import Camstream.Media.AuRing

namespace Camstream.Proofs.AuQueue
open Lib Media

/-- What keeps the three indices of a ring in step. -/
structure RingOk (ring : AuRing) : Prop where
  head : ring.head < ring.slotCount
  tail : ring.tail = (ring.head + ring.count) % ring.slotCount
  count : ring.count ≤ ring.slotCount

/-- The purpose of the ring: a bounded queue of access units that gives up its
oldest one for a new one. -/
structure Queue where
  units : List AuSlot
  lost : Bool
  sequence : Nat
  dropped : Nat
  slotCapacity : Nat
  slotCount : Nat

/-- A slot reduced to the bytes its size covers. -/
def content (slot : AuSlot) : AuSlot := ⟨slot.info, slot.bytes.take slot.info.size⟩

def queueOf (ring : AuRing) : Queue where
  units := (window ring.slots ring.slotCount ring.head ring.count).map content
  lost := ring.lost
  sequence := ring.sequence
  dropped := ring.dropped
  slotCapacity := ring.slotCapacity
  slotCount := ring.slotCount

def Queue.makeRoom (q : Queue) : Queue :=
  if q.units.length = q.slotCount then
    { q with units := q.units.tail, lost := true, dropped := q.dropped + 1 }
  else q

def Queue.append (q : Queue) (data : Bytes) (ptsUs : UInt64) (isIdr : Bool) : Queue :=
  { q with
    units := q.units ++ [⟨⟨ptsUs, q.sequence, isIdr, q.lost, data.length⟩, data⟩]
    sequence := q.sequence + 1, lost := false }

/-- A delivered unit also carries the gap that the pop itself made. -/
def markGap (u : AuSlot) (gap : Bool) : AuSlot :=
  { u with info := { u.info with discontinuity := u.info.discontinuity || gap } }

/-- Units in front that do not fit the buffer are skipped; the first that fits
is delivered. With nothing left, the gap waits for the next push. -/
inductive Queue.Pops (q : Queue) (bufferCapacity : Nat) : Option AuSlot → Queue → Prop
  | delivered (skipped : List AuSlot) (u : AuSlot) (rest : List AuSlot)
      (units : q.units = skipped ++ u :: rest)
      (big : ∀ s ∈ skipped, bufferCapacity < s.info.size) (fits : u.info.size ≤ bufferCapacity) :
      Pops q bufferCapacity (some (markGap u (!skipped.isEmpty)))
        { q with units := rest, dropped := q.dropped + skipped.length }
  | drained (big : ∀ s ∈ q.units, bufferCapacity < s.info.size) :
      Pops q bufferCapacity none { q with
        units := [], dropped := q.dropped + q.units.length, lost := q.lost || !q.units.isEmpty }

theorem Queue.Pops.of_some {q q' : Queue} {bufferCapacity : Nat} {slot : AuSlot}
    (h : q.Pops bufferCapacity (some slot) q') :
    ∃ skipped u rest, q.units = skipped ++ u :: rest ∧ slot = markGap u (!skipped.isEmpty) ∧
      q' = { q with units := rest, dropped := q.dropped + skipped.length } := by
  cases h with
  | delivered skipped u rest units big fits => exact ⟨skipped, u, rest, units, rfl, rfl⟩

theorem Queue.Pops.of_none {q q' : Queue} {bufferCapacity : Nat}
    (h : q.Pops bufferCapacity none q') :
    q' = { q with
      units := [], dropped := q.dropped + q.units.length, lost := q.lost || !q.units.isEmpty } := by
  cases h with
  | drained big => rfl

theorem queueOf_length (ring : AuRing) : (queueOf ring).units.length = ring.count := by
  simp [queueOf]

@[simp] theorem queueOf_slotCount (ring : AuRing) :
    (queueOf ring).slotCount = ring.slotCount := rfl

theorem create_ok {slotCapacity slotCount : Nat} {fd : Option Nat} {ring : AuRing}
    (h : auRingCreate slotCapacity slotCount fd = some ring) :
    RingOk ring ∧ ring.count = 0 ∧ ring.lost = false ∧ ring.slotCount = slotCount ∧
      ring.slotCapacity = slotCapacity := by
  unfold auRingCreate at h
  split at h
  · simp at h
  · rename_i hz
    simp only [Option.some.injEq] at h
    subst h
    exact ⟨⟨by simp; omega, by simp, by simp⟩, rfl, rfl, rfl, rfl⟩

/-- Moving the head past the oldest unit, as a pop and an overwrite do. -/
def advance (ring : AuRing) : AuRing :=
  { ring with head := (ring.head + 1) % ring.slotCount, count := ring.count - 1 }

theorem advance_ok {ring : AuRing} (h : RingOk ring) (hc : 0 < ring.count) :
    RingOk (advance ring) ∧
      (queueOf ring).units = content (ring.slots ring.head) :: (queueOf (advance ring)).units := by
  have hpos : 0 < ring.slotCount := Nat.lt_of_le_of_lt (Nat.zero_le _) h.head
  have hcount := h.count
  refine ⟨⟨Nat.mod_lt _ hpos, ?_, by simp only [advance]; omega⟩, ?_⟩
  · show ring.tail = ((ring.head + 1) % ring.slotCount + (ring.count - 1)) % ring.slotCount
    rw [Nat.mod_add_mod, h.tail]
    congr 1
    omega
  · have hw := window_succ ring.slots h.head (ring.count - 1)
    rw [show ring.count - 1 + 1 = ring.count by omega] at hw
    simp only [queueOf, hw, List.map_cons, advance]

theorem overwriteOldest_ok {ring : AuRing} (h : RingOk ring) :
    RingOk (overwriteOldest ring) ∧ (overwriteOldest ring).count < ring.slotCount ∧
      queueOf (overwriteOldest ring) = (queueOf ring).makeRoom := by
  unfold overwriteOldest Queue.makeRoom
  rw [queueOf_length, queueOf_slotCount]
  have hhead := h.head
  have hcount := h.count
  by_cases hfull : ring.count = ring.slotCount
  · rw [if_pos hfull, if_pos hfull]
    obtain ⟨hok, hunits⟩ := advance_ok h (by omega)
    refine ⟨⟨hok.head, hok.tail, hok.count⟩, by simp only; omega, ?_⟩
    rw [hunits]
    rfl
  · rw [if_neg hfull, if_neg hfull]
    exact ⟨h, by omega, rfl⟩

theorem writeTail_ok {ring : AuRing} (h : RingOk ring) (hc : ring.count < ring.slotCount)
    (data : Bytes) (ptsUs : UInt64) (isIdr : Bool) :
    RingOk (writeTail ring data ptsUs isIdr) ∧
      queueOf (writeTail ring data ptsUs isIdr) = (queueOf ring).append data ptsUs isIdr := by
  refine ⟨⟨h.head, ?_, by simp [writeTail]; omega⟩, ?_⟩
  · show (ring.tail + 1) % ring.slotCount = (ring.head + (ring.count + 1)) % ring.slotCount
    rw [h.tail, Nat.mod_add_mod, Nat.add_assoc]
  · simp only [queueOf, writeTail, Queue.append]
    rw [h.tail, window_push _ hc, List.map_append]
    simp [content]

@[simp] theorem overwriteOldest_slotCount (ring : AuRing) :
    (overwriteOldest ring).slotCount = ring.slotCount := by
  unfold overwriteOldest
  split <;> rfl

/-- A push that fits makes room and appends. -/
theorem push_accepts {ring : AuRing} (h : RingOk ring) {data : Bytes} (ptsUs : UInt64)
    (isIdr : Bool) (hpos : data.length ≠ 0) (hfit : data.length ≤ ring.slotCapacity) :
    (auRingPush ring data ptsUs isIdr).1 = 0 ∧ RingOk (auRingPush ring data ptsUs isIdr).2 ∧
      queueOf (auRingPush ring data ptsUs isIdr).2 =
        (queueOf ring).makeRoom.append data ptsUs isIdr := by
  obtain ⟨hok, hlt, hq⟩ := overwriteOldest_ok h
  obtain ⟨hok', hq'⟩ := writeTail_ok hok (by simpa using hlt) data ptsUs isIdr
  have he : auRingPush ring data ptsUs isIdr =
      (0, auRingSignal (writeTail (overwriteOldest ring) data ptsUs isIdr)) := by
    simp [auRingPush, hpos, auRingEnqueue, Nat.not_lt.mpr hfit]
  rw [he]
  exact ⟨rfl, ⟨hok'.head, hok'.tail, hok'.count⟩, by rw [← hq, ← hq']; rfl⟩

/-- A push that exceeds the slot only records the loss. -/
theorem push_refuses {ring : AuRing} (h : RingOk ring) {data : Bytes} (ptsUs : UInt64)
    (isIdr : Bool) (hbig : ring.slotCapacity < data.length) :
    (auRingPush ring data ptsUs isIdr).1 = -1 ∧ RingOk (auRingPush ring data ptsUs isIdr).2 ∧
      queueOf (auRingPush ring data ptsUs isIdr).2 =
        { queueOf ring with lost := true, dropped := (queueOf ring).dropped + 1 } := by
  have he : auRingPush ring data ptsUs isIdr =
      (-1, { ring with lost := true, dropped := ring.dropped + 1 }) := by
    simp [auRingPush, auRingEnqueue, hbig, show data.length ≠ 0 by omega]
  rw [he]
  exact ⟨rfl, ⟨h.head, h.tail, h.count⟩, rfl⟩

/-- The pop loop skips a prefix of units that are too big and delivers the
next one, if there is one. -/
theorem popLoop_skips (bufferCapacity : Nat) (disc : Bool) (ring : AuRing) (h : RingOk ring) :
    ∃ skipped rest, (queueOf ring).units = skipped ++ rest ∧
      (∀ s ∈ skipped, bufferCapacity < s.info.size) ∧
      RingOk (popLoop bufferCapacity disc ring).2.1 ∧
      (popLoop bufferCapacity disc ring).2.2 = (disc || !skipped.isEmpty) ∧
      (∀ u, rest.head? = some u → u.info.size ≤ bufferCapacity) ∧
      (popLoop bufferCapacity disc ring).1 =
        rest.head?.map (fun u => markGap u (disc || !skipped.isEmpty)) ∧
      queueOf (popLoop bufferCapacity disc ring).2.1 = { queueOf ring with
        units := rest.tail, dropped := ring.dropped + skipped.length } := by
  fun_induction popLoop bufferCapacity disc ring with
  | case1 disc ring hc slot ring' hbig ih =>
    obtain ⟨hok, hunits⟩ := advance_ok h hc
    obtain ⟨skipped, rest, hu, hb, h1, h2, hf, h3, h4⟩ := ih ⟨hok.head, hok.tail, hok.count⟩
    refine ⟨content slot :: skipped, rest, ?_, ?_, h1, by simpa using h2, hf, by simpa using h3, ?_⟩
    · rw [hunits, List.cons_append]
      exact congrArg _ hu
    · intro s hs
      rcases List.mem_cons.mp hs with rfl | hs
      · exact hbig
      · exact hb s hs
    · rw [h4]
      simp only [queueOf, ring', List.length_cons, Nat.add_assoc, Nat.add_comm 1]
  | case2 disc ring hc slot ring' hfit info =>
    obtain ⟨hok, hunits⟩ := advance_ok h hc
    refine ⟨[], _, hunits, by simp, hok, by simp, ?_, by simp [content, markGap, info, slot], rfl⟩
    intro u hu
    simp only [List.head?_cons, Option.some.injEq] at hu
    subst hu
    exact Nat.le_of_not_lt hfit
  | case3 disc ring hc =>
    have hz : (queueOf ring).units = [] := by
      apply List.length_eq_zero_iff.mp
      rw [queueOf_length]
      omega
    refine ⟨[], [], hz, by simp, h, by simp, by simp, rfl, ?_⟩
    rw [List.tail_nil, List.length_nil, ← hz]
    rfl

/-- `au_ring_pop` is a pop of the queue. -/
theorem pop_refines {ring : AuRing} (h : RingOk ring) (bufferCapacity : Nat) :
    RingOk (auRingPop ring bufferCapacity).2 ∧
      (queueOf ring).Pops bufferCapacity (auRingPop ring bufferCapacity).1
        (queueOf (auRingPop ring bufferCapacity).2) := by
  obtain ⟨skipped, rest, hu, hb, hok, hd, hf, hres, hq⟩ :=
    popLoop_skips bufferCapacity false ring h
  unfold auRingPop
  generalize popLoop bufferCapacity false ring = r at *
  obtain ⟨slot, ring', d⟩ := r
  simp only [Bool.false_or] at hok hd hres hq
  cases rest with
  | nil =>
    simp only [List.head?_nil, Option.map_none] at hres
    subst hres
    refine ⟨⟨hok.head, hok.tail, hok.count⟩, ?_⟩
    rw [List.append_nil] at hu
    have hlost : ring'.lost = (queueOf ring).lost := congrArg Queue.lost hq
    have hq' : queueOf { ring' with
          eventFd := ring'.eventFd.map (fun _ => 0), lost := ring'.lost || d } =
        { queueOf ring with
          units := [], dropped := (queueOf ring).dropped + (queueOf ring).units.length,
          lost := (queueOf ring).lost || !(queueOf ring).units.isEmpty } := by
      rw [show queueOf { ring' with
          eventFd := ring'.eventFd.map (fun _ => 0), lost := ring'.lost || d } =
        { queueOf ring' with lost := ring'.lost || d } from rfl, hq, hlost, hd, hu]
      rfl
    rw [hq']
    exact .drained (by rw [hu]; exact hb)
  | cons u rest =>
    simp only [List.head?_cons, Option.map_some] at hres
    subst hres
    refine ⟨hok, ?_⟩
    rw [hq]
    exact .delivered skipped u rest hu hb (hf u rfl)

end Camstream.Proofs.AuQueue
