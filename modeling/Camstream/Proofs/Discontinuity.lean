import Camstream.Lib.Runs
import Camstream.Media.AuHistory
import Camstream.Proofs.AuQueue

namespace Camstream.Proofs.Discontinuity
open Lib Media AuQueue

/-- A unit was lost strictly between two numbers. -/
def LostBetween (lost : List Nat) (a b : Nat) : Prop := ∃ j ∈ lost, a < j ∧ j < b

/-- The units in the ring, after the one with number `prev`: increasing
numbers, and a flag exactly on those that follow a loss. -/
def Flagged (lost : List Nat) : Nat → List Nat → List AuSlot → Prop
  | _, [], [] => True
  | prev, k :: ids, u :: us =>
    prev < k ∧ (u.info.discontinuity = true ↔ LostBetween lost prev k) ∧ Flagged lost k ids us
  | _, _, _ => False

theorem Flagged.length {lost : List Nat} {prev : Nat} {ids : List Nat} {us : List AuSlot}
    (h : Flagged lost prev ids us) : ids.length = us.length := by
  induction ids generalizing prev us with
  | nil => cases us with
    | nil => rfl
    | cons u us => exact h.elim
  | cons k ids ih => cases us with
    | nil => exact h.elim
    | cons u us => simp [ih h.2.2]

/-- Every number is beyond the one before the queue. -/
theorem Flagged.above {lost : List Nat} {prev : Nat} {ids : List Nat} {us : List AuSlot}
    (h : Flagged lost prev ids us) : ∀ k ∈ ids, prev < k := by
  induction ids generalizing prev us with
  | nil => simp
  | cons k ids ih => cases us with
    | nil => exact h.elim
    | cons u us =>
      intro i hi
      rcases List.mem_cons.mp hi with rfl | hi
      · exact h.1
      · exact Nat.lt_trans h.1 (ih h.2.2 i hi)

theorem Flagged.last_ge {lost : List Nat} {prev : Nat} {ids : List Nat} {us : List AuSlot}
    (h : Flagged lost prev ids us) : prev ≤ ids.getLastD prev ∧ ∀ k ∈ ids, k ≤ ids.getLastD prev := by
  induction ids generalizing prev us with
  | nil => simp
  | cons k ids ih => cases us with
    | nil => exact h.elim
    | cons u us =>
      obtain ⟨hk, hall⟩ := ih h.2.2
      rw [List.getLastD_cons]
      refine ⟨Nat.le_trans (Nat.le_of_lt h.1) hk, ?_⟩
      intro i hi
      rcases List.mem_cons.mp hi with rfl | hi
      · exact hk
      · exact hall i hi

/-- Losses before the queue or after its newest unit change no flag. -/
theorem Flagged.more_lost {lost extra : List Nat} {prev : Nat} {ids : List Nat} {us : List AuSlot}
    (h : Flagged lost prev ids us) (he : ∀ j ∈ extra, j ≤ prev ∨ ids.getLastD prev ≤ j) :
    Flagged (lost ++ extra) prev ids us := by
  induction ids generalizing prev us with
  | nil => cases us with
    | nil => trivial
    | cons u us => exact h.elim
  | cons k ids ih => cases us with
    | nil => exact h.elim
    | cons u us =>
      obtain ⟨hk, hf, ht⟩ := h
      have hge := ht.last_ge.1
      simp only [List.getLastD_cons] at he
      refine ⟨hk, hf.trans ?_, ih ht (fun j hj => ?_)⟩
      · constructor
        · rintro ⟨j, hj, hb⟩
          exact ⟨j, List.mem_append_left _ hj, hb⟩
        · rintro ⟨j, hj, hb⟩
          rcases List.mem_append.mp hj with hj | hj
          · exact ⟨j, hj, hb⟩
          · have := he j hj; omega
      · have := he j hj; omega

/-- The queue behind its first units. -/
theorem Flagged.after {lost : List Nat} {prev : Nat} {xs ys : List Nat} {us vs : List AuSlot}
    (h : Flagged lost prev (xs ++ ys) (us ++ vs)) (hl : xs.length = us.length) :
    Flagged lost (xs.getLastD prev) ys vs := by
  induction xs generalizing prev us with
  | nil =>
    obtain rfl := List.length_eq_zero_iff.mp hl.symm
    exact h
  | cons k xs ih => cases us with
    | nil => simp at hl
    | cons u us =>
      rw [List.getLastD_cons]
      exact ih h.2.2 (by simpa using hl)

theorem Flagged.before {lost : List Nat} {prev : Nat} {xs ys : List Nat} {us vs : List AuSlot}
    (h : Flagged lost prev (xs ++ ys) (us ++ vs)) (hl : xs.length = us.length) :
    Flagged lost prev xs us := by
  induction xs generalizing prev us with
  | nil =>
    obtain rfl := List.length_eq_zero_iff.mp hl.symm
    trivial
  | cons k xs ih => cases us with
    | nil => simp at hl
    | cons u us => exact ⟨h.1, h.2.1, ih h.2.2 (by simpa using hl)⟩

theorem getLastD_append_cons (xs : List Nat) (k : Nat) (ys : List Nat) (d : Nat) :
    (xs ++ k :: ys).getLastD d = ys.getLastD k := by
  induction xs generalizing d with
  | nil => rw [List.nil_append, List.getLastD_cons]
  | cons x xs ih => rw [List.cons_append, List.getLastD_cons, ih]

theorem Flagged.concat {lost : List Nat} {prev : Nat} {ids : List Nat} {us : List AuSlot} {k : Nat}
    {u : AuSlot} (h : Flagged lost prev ids us) (hk : ids.getLastD prev < k)
    (hu : u.info.discontinuity = true ↔ LostBetween lost (ids.getLastD prev) k) :
    Flagged lost prev (ids ++ [k]) (us ++ [u]) := by
  induction ids generalizing prev us with
  | nil => cases us with
    | nil => exact ⟨hk, hu, trivial⟩
    | cons v vs => exact h.elim
  | cons i ids ih => cases us with
    | nil => exact h.elim
    | cons v vs =>
      rw [List.getLastD_cons] at hk hu
      exact ⟨h.1, h.2.1, ih h.2.2 hk hu⟩

/-- The invariant of a run without a misplaced flag. -/
structure Tracked (h : History) : Prop where
  ok : RingOk h.ring
  flags : Flagged h.lost h.delivered h.queued (queueOf h.ring).units
  bounded : h.queued.getLastD h.delivered ≤ h.offered ∧ ∀ j ∈ h.lost, j ≤ h.offered
  pending : h.ring.lost = true ↔ ∃ j ∈ h.lost, h.queued.getLastD h.delivered < j

theorem Tracked.length {h : History} (ht : Tracked h) : h.queued.length = h.ring.count :=
  ht.flags.length.trans (queueOf_length h.ring)

theorem start_tracked {slotCapacity slotCount : Nat} {fd : Option Nat} {ring : AuRing}
    (h : auRingCreate slotCapacity slotCount fd = some ring) : Tracked (.start ring) := by
  obtain ⟨hok, hc, hl, -, -⟩ := create_ok h
  have hu : (queueOf ring).units = [] :=
    List.length_eq_zero_iff.mp ((queueOf_length ring).trans hc)
  refine ⟨hok, ?_, ?_, ?_⟩
  · show Flagged [] 0 [] (queueOf ring).units
    rw [hu]
    trivial
  · simp [History.start]
  · simp [History.start, hl]

/-- The condition under which a push leaves every flag in its place: it does
not overwrite, or the overwritten unit was the only one in the ring. -/
def KeepsFlags (h : History) : RingOp → Prop
  | .push data _ _ => data.length ≠ 0 → data.length ≤ h.ring.slotCapacity →
      h.ring.count = h.ring.slotCount → h.ring.slotCount = 1
  | .pop _ => True

theorem push_refused_tracked {h : History} (ht : Tracked h) (data : Bytes) (ptsUs : UInt64)
    (isIdr : Bool) (hbig : h.ring.slotCapacity < data.length) :
    Tracked (h.step (.push data ptsUs isIdr)) := by
  obtain ⟨hr, hok, hq⟩ := push_refuses ht.ok ptsUs isIdr hbig
  have hs : h.step (.push data ptsUs isIdr) = { h with
      ring := (auRingPush h.ring data ptsUs isIdr).2, offered := h.offered + 1,
      lost := h.lost ++ [h.offered + 1] } := by
    simp [History.step, hr, show data.length ≠ 0 by omega]
  have hb := ht.bounded
  rw [hs]
  refine ⟨hok, ?_, ⟨by simp only; omega, ?_⟩, ?_⟩
  · rw [hq]
    apply ht.flags.more_lost
    intro j hj
    obtain rfl := List.mem_singleton.mp hj
    omega
  · intro j hj
    rcases List.mem_append.mp hj with hj | hj
    · have := hb.2 j hj
      simp only
      omega
    · obtain rfl := List.mem_singleton.mp hj
      exact Nat.le_refl _
  · have hlost : (auRingPush h.ring data ptsUs isIdr).2.lost = true := congrArg Queue.lost hq
    simp only [hlost, true_iff]
    exact ⟨h.offered + 1, by simp, by omega⟩

/-- Appending the new unit to a queue whose losses are all accounted for. -/
theorem append_tracked {h : History} {ring' : AuRing} {q : Queue} (data : Bytes) (ptsUs : UInt64)
    (isIdr : Bool) (queued : List Nat) {lost : List Nat} (hok : RingOk ring')
    (hq : queueOf ring' = q.append data ptsUs isIdr)
    (hflags : Flagged lost h.delivered queued q.units)
    (hb : queued.getLastD h.delivered ≤ h.offered ∧ ∀ j ∈ lost, j ≤ h.offered)
    (hp : q.lost = true ↔ ∃ j ∈ lost, queued.getLastD h.delivered < j) :
    Tracked { h with
      ring := ring', offered := h.offered + 1, queued := queued ++ [h.offered + 1], lost := lost } := by
  refine ⟨hok, ?_, ⟨by simp, ?_⟩, ?_⟩
  · rw [hq]
    apply hflags.concat (by omega)
    rw [show (q.lost = true) ↔ _ from hp]
    constructor
    · rintro ⟨j, hj, hlt⟩
      exact ⟨j, hj, hlt, by have := hb.2 j hj; omega⟩
    · rintro ⟨j, hj, hlt, -⟩
      exact ⟨j, hj, hlt⟩
  · intro j hj
    have := hb.2 j hj
    simp only
    omega
  · have hl : ring'.lost = false := congrArg Queue.lost hq
    simp only [hl, Bool.false_eq_true, false_iff, List.getLastD_concat]
    rintro ⟨j, hj, hlt⟩
    have := hb.2 j hj
    omega

theorem push_accepted_tracked {h : History} (ht : Tracked h) (data : Bytes) (ptsUs : UInt64)
    (isIdr : Bool) (hpos : data.length ≠ 0) (hfit : data.length ≤ h.ring.slotCapacity)
    (hsafe : h.ring.count = h.ring.slotCount → h.ring.slotCount = 1) :
    Tracked (h.step (.push data ptsUs isIdr)) := by
  obtain ⟨hr, hok, hq⟩ := push_accepts ht.ok ptsUs isIdr hpos hfit
  have hcount : (auRingPush h.ring data ptsUs isIdr).2.count =
      (queueOf h.ring).makeRoom.units.length + 1 := by
    rw [← queueOf_length, hq]
    simp [Queue.append]
  simp only [History.step, hr, if_neg hpos, if_pos]
  by_cases hfull : h.ring.count = h.ring.slotCount
  · -- the only unit is overwritten, so the new one is next and its flag is right
    obtain ⟨i, hi⟩ : ∃ i, h.queued = [i] :=
      List.length_eq_one_iff.mp (ht.length.trans (hfull.trans (hsafe hfull)))
    obtain ⟨u, hu⟩ : ∃ u, (queueOf h.ring).units = [u] :=
      List.length_eq_one_iff.mp ((queueOf_length _).trans (hfull.trans (hsafe hfull)))
    have hroom : (queueOf h.ring).makeRoom.units = [] ∧ (queueOf h.ring).makeRoom.lost = true := by
      simp [Queue.makeRoom, hu, hsafe hfull]
    have hremoved : h.ring.count + 1 - (auRingPush h.ring data ptsUs isIdr).2.count = 1 := by
      rw [hcount, hroom.1, hfull, hsafe hfull]
      rfl
    have hi_gt := ht.flags.above i (by simp [hi])
    have hb := ht.bounded
    simp only [hi, List.getLastD_cons, List.getLastD_nil] at hb
    rw [hremoved, hi]
    refine append_tracked data ptsUs isIdr [] hok hq ?_ ⟨?_, ?_⟩ ?_
    · rw [hroom.1]
      trivial
    · simp only [List.getLastD_nil]
      omega
    · intro j hj
      rcases List.mem_append.mp hj with hj | hj
      · exact hb.2 j hj
      · obtain rfl := List.mem_singleton.mp hj
        exact hb.1
    · simp only [hroom.2, true_iff, List.getLastD_nil]
      exact ⟨i, by simp, hi_gt⟩
  · have hroom : (queueOf h.ring).makeRoom = queueOf h.ring := by
      rw [Queue.makeRoom, queueOf_length, queueOf_slotCount, if_neg hfull]
    rw [hroom] at hq hcount
    rw [queueOf_length] at hcount
    rw [hcount, Nat.sub_self, List.drop_zero, List.take_zero, List.append_nil]
    exact append_tracked data ptsUs isIdr _ hok hq ht.flags ht.bounded ht.pending

theorem pop_drained_tracked {h : History} (ht : Tracked h) (bufferCapacity : Nat)
    (hn : (auRingPop h.ring bufferCapacity).1 = none) :
    Tracked (h.step (.pop bufferCapacity)) := by
  obtain ⟨hok, hp⟩ := pop_refines ht.ok bufferCapacity
  rw [hn] at hp
  have hq := hp.of_none
  have hcount : (auRingPop h.ring bufferCapacity).2.count = 0 := by
    rw [← queueOf_length, hq]
    rfl
  have hs : h.step (.pop bufferCapacity) = { h with
      ring := (auRingPop h.ring bufferCapacity).2, queued := [], lost := h.lost ++ h.queued } := by
    simp only [History.step, hn, hcount, Nat.sub_zero, ← ht.length, List.drop_length,
      List.take_length]
  obtain ⟨hge, hall⟩ := ht.flags.last_ge
  have hb := ht.bounded
  rw [hs]
  refine ⟨hok, ?_, ⟨by simp only [List.getLastD_nil]; omega, ?_⟩, ?_⟩
  · rw [hq]
    trivial
  · intro j hj
    rcases List.mem_append.mp hj with hj | hj
    · exact hb.2 j hj
    · exact Nat.le_trans (hall j hj) hb.1
  · have hl : (auRingPop h.ring bufferCapacity).2.lost =
        (h.ring.lost || !(queueOf h.ring).units.isEmpty) := congrArg Queue.lost hq
    have hlen := ht.flags.length
    simp only [List.getLastD_nil]
    rw [hl, Bool.or_eq_true, ht.pending]
    cases hqueued : h.queued with
    | nil =>
      have hu : (queueOf h.ring).units = [] := by
        rw [hqueued] at hlen
        exact List.length_eq_zero_iff.mp hlen.symm
      simp [hu]
    | cons k ids =>
      -- the skipped units are themselves the loss
      have hu : (queueOf h.ring).units ≠ [] := by
        intro he
        rw [hqueued, he] at hlen
        simp at hlen
      have hk := ht.flags.above k (by simp [hqueued])
      constructor
      · intro _
        exact ⟨k, by simp, hk⟩
      · intro _
        exact .inr (by simpa using hu)

/-- A delivery: what the history records and what the flag of the unit says. -/
theorem pop_delivers {h : History} (ht : Tracked h) (bufferCapacity : Nat) {slot : AuSlot}
    (hs : (auRingPop h.ring bufferCapacity).1 = some slot) :
    Tracked (h.step (.pop bufferCapacity)) ∧
      (slot.info.discontinuity = true ↔ LostBetween (h.step (.pop bufferCapacity)).lost
        h.delivered (h.step (.pop bufferCapacity)).delivered) ∧
      h.delivered < (h.step (.pop bufferCapacity)).delivered := by
  obtain ⟨hok, hp⟩ := pop_refines ht.ok bufferCapacity
  rw [hs] at hp
  obtain ⟨skipped, u, rest, hu, hslot, hq⟩ := hp.of_some
  have hflags := ht.flags
  have hlen := hflags.length
  rw [hu] at hflags hlen
  simp only [List.length_append, List.length_cons] at hlen
  obtain ⟨xs, k, ys, hids, hxs⟩ : ∃ xs k ys, h.queued = xs ++ k :: ys ∧ xs.length = skipped.length := by
    have hlt : skipped.length < h.queued.length := by omega
    refine ⟨h.queued.take skipped.length, h.queued[skipped.length],
      h.queued.drop (skipped.length + 1), ?_, by rw [List.length_take]; omega⟩
    rw [← List.drop_eq_getElem_cons hlt, List.take_append_drop]
  have hcount : (auRingPop h.ring bufferCapacity).2.count = rest.length := by
    rw [← queueOf_length, hq]
  have hremoved : h.ring.count - (auRingPop h.ring bufferCapacity).2.count = xs.length + 1 := by
    rw [hcount, ← ht.length, hlen, hxs]
    omega
  have hstep : h.step (.pop bufferCapacity) = { h with
      ring := (auRingPop h.ring bufferCapacity).2, queued := ys, lost := h.lost ++ xs,
      delivered := k } := by
    simp only [History.step, hs, hremoved, hids, Nat.add_sub_cancel]
    simp [List.getD_eq_getElem?_getD]
  rw [hids] at hflags
  have hb := ht.bounded
  rw [hids, getLastD_append_cons] at hb
  have hpre := hflags.before hxs
  obtain ⟨hk, hflag, htail⟩ := hflags.after hxs
  have hxk : ∀ j ∈ xs, j < k := fun j hj => Nat.lt_of_le_of_lt (hpre.last_ge.2 j hj) hk
  have hky := htail.last_ge.1
  rw [hstep]
  refine ⟨⟨hok, ?_, ⟨hb.1, ?_⟩, ?_⟩, ?_, Nat.lt_of_le_of_lt hpre.last_ge.1 hk⟩
  · rw [hq]
    exact htail.more_lost (fun j hj => .inl (Nat.le_of_lt (hxk j hj)))
  · intro j hj
    rcases List.mem_append.mp hj with hj | hj
    · exact hb.2 j hj
    · have := hxk j hj
      simp only
      omega
  · have hl : (auRingPop h.ring bufferCapacity).2.lost = h.ring.lost := congrArg Queue.lost hq
    simp only [hl, ht.pending, hids, getLastD_append_cons]
    constructor
    · rintro ⟨j, hj, hlt⟩
      exact ⟨j, List.mem_append_left _ hj, hlt⟩
    · rintro ⟨j, hj, hlt⟩
      rcases List.mem_append.mp hj with hj | hj
      · exact ⟨j, hj, hlt⟩
      · have := hxk j hj
        omega
  · rw [hslot]
    simp only [markGap, Bool.or_eq_true]
    cases hx : xs with
    | nil =>
      have hsk : skipped = [] := List.length_eq_zero_iff.mp (by rw [← hxs, hx]; rfl)
      rw [hx] at hflag
      simpa [hsk] using hflag
    | cons x xs' =>
      have hsk : skipped ≠ [] := by
        intro he
        rw [he, hx] at hxs
        simp at hxs
      have hxm : x ∈ xs := by simp [hx]
      constructor
      · intro _
        exact ⟨x, by simp, hpre.above x hxm, hxk x hxm⟩
      · intro _
        exact .inr (by simpa using hsk)

theorem step_tracked {h : History} (ht : Tracked h) (op : RingOp) (hk : KeepsFlags h op) :
    Tracked (h.step op) := by
  cases op with
  | push data ptsUs isIdr =>
    by_cases hz : data.length = 0
    · have hs : h.step (.push data ptsUs isIdr) = h := by
        simp [History.step, auRingPush, hz]
      rw [hs]
      exact ht
    by_cases hfit : data.length ≤ h.ring.slotCapacity
    · exact push_accepted_tracked ht data ptsUs isIdr hz hfit (hk hz hfit)
    · exact push_refused_tracked ht data ptsUs isIdr (by omega)
  | pop bufferCapacity =>
    cases hr : (auRingPop h.ring bufferCapacity).1 with
    | none => exact pop_drained_tracked ht bufferCapacity hr
    | some slot => exact (pop_delivers ht bufferCapacity hr).1

/-- No unit offered after the last delivery is unaccounted for. -/
def Accounted (h : History) : Prop :=
  ∀ j, h.delivered < j → j ≤ h.offered → j ∈ h.lost ∨ j ∈ h.queued

theorem mem_take_or_drop {j : Nat} {xs : List Nat} (n : Nat) (h : j ∈ xs) :
    j ∈ xs.take n ∨ j ∈ xs.drop n := by
  rw [← List.take_append_drop n xs] at h
  exact List.mem_append.mp h

/-- A pop that delivers sorts every accounted unit anew. -/
theorem pop_accounts {h : History} (ha : Accounted h) {bufferCapacity : Nat} {slot : AuSlot}
    (hs : (auRingPop h.ring bufferCapacity).1 = some slot) (j : Nat) (hd : h.delivered < j)
    (hj : j ≤ h.offered) :
    j ∈ (h.step (.pop bufferCapacity)).lost ∨ j = (h.step (.pop bufferCapacity)).delivered ∨
      j ∈ (h.step (.pop bufferCapacity)).queued := by
  simp only [History.step, hs]
  generalize h.ring.count - (auRingPop h.ring bufferCapacity).2.count = n
  rcases ha j hd hj with hl | hq
  · exact .inl (List.mem_append_left _ hl)
  rcases mem_take_or_drop (n - 1) hq with hm | hm
  · exact .inl (List.mem_append_right _ hm)
  right
  cases n with
  | zero => exact .inr hm
  | succ n =>
    rw [Nat.add_sub_cancel] at hm ⊢
    by_cases hlt : n < h.queued.length
    · rw [List.drop_eq_getElem_cons hlt] at hm
      rw [List.getD_eq_getElem?_getD, List.getElem?_eq_getElem hlt]
      exact List.mem_cons.mp hm
    · rw [List.drop_of_length_le (by omega)] at hm
      simp at hm

theorem step_accounted {h : History} (ht : Tracked h) (ha : Accounted h) (op : RingOp) :
    Accounted (h.step op) := by
  cases op with
  | push data ptsUs isIdr =>
    simp only [History.step]
    split
    · exact ha
    split
    · intro j hd hj
      simp only at hd hj ⊢
      by_cases hnew : j = h.offered + 1
      · exact .inr (by simp [hnew])
      · rcases ha j hd (by omega) with hl | hq
        · exact .inl (List.mem_append_left _ hl)
        · rcases mem_take_or_drop (h.ring.count + 1 - (auRingPush h.ring data ptsUs isIdr).2.count)
            hq with hm | hm
          · exact .inl (List.mem_append_right _ hm)
          · exact .inr (List.mem_append_left _ hm)
    · intro j hd hj
      simp only at hd hj ⊢
      by_cases hnew : j = h.offered + 1
      · exact .inl (by simp [hnew])
      · rcases ha j hd (by omega) with hl | hq
        · exact .inl (List.mem_append_left _ hl)
        · exact .inr hq
  | pop bufferCapacity =>
    cases hr : (auRingPop h.ring bufferCapacity).1 with
    | none =>
      intro j hd hj
      simp only [History.step, hr] at hd hj ⊢
      rcases ha j hd hj with hl | hq
      · exact .inl (List.mem_append_left _ hl)
      · rcases mem_take_or_drop (h.ring.count - (auRingPop h.ring bufferCapacity).2.count) hq
          with hm | hm
        · exact .inl (List.mem_append_right _ hm)
        · exact .inr hm
    | some slot =>
      have hgt := (pop_delivers ht bufferCapacity hr).2.2
      intro j hd hj
      have hoff : j ≤ h.offered := by simpa only [History.step, hr] using hj
      rcases pop_accounts ha hr j (Nat.lt_trans hgt hd) hoff with hl | he | hq
      · exact .inl hl
      · omega
      · exact .inr hq

/-- An unflagged delivery continues right after the one before it. -/
theorem unflagged_next {h : History} (ht : Tracked h) (ha : Accounted h) {bufferCapacity : Nat}
    {slot : AuSlot} (hs : (auRingPop h.ring bufferCapacity).1 = some slot)
    (hf : slot.info.discontinuity = false) :
    (h.step (.pop bufferCapacity)).delivered = h.delivered + 1 := by
  obtain ⟨ht', hflag, hgt⟩ := pop_delivers ht bufferCapacity hs
  by_contra hne
  have hbound : (h.step (.pop bufferCapacity)).delivered ≤ h.offered := by
    have hoff : (h.step (.pop bufferCapacity)).offered = h.offered := by
      simp only [History.step, hs]
    rw [← hoff]
    exact Nat.le_trans ht'.flags.last_ge.1 ht'.bounded.1
  rcases pop_accounts ha hs (h.delivered + 1) (by omega) (by omega) with hl | he | hq
  · have := hflag.mpr ⟨h.delivered + 1, hl, by omega, by omega⟩
    rw [hf] at this
    cases this
  · omega
  · have := ht'.flags.above _ hq
    omega

/-- The law of the flag at a pop: set exactly when a unit was lost since the
last delivery and before this one. -/
def LawAt (h : History) (bufferCapacity : Nat) : Prop :=
  ∀ slot, (auRingPop h.ring bufferCapacity).1 = some slot →
    (slot.info.discontinuity = true ↔ LostBetween (h.step (.pop bufferCapacity)).lost
      h.delivered (h.step (.pop bufferCapacity)).delivered)

/-- In a run where no push overwrites a unit with others queued behind it,
every delivery obeys the law of the flag. -/
theorem discontinuity_law {slotCapacity slotCount : Nat} {fd : Option Nat} {ring : AuRing}
    (hc : auRingCreate slotCapacity slotCount fd = some ring) (ops : List RingOp)
    (hk : Allowed History.step KeepsFlags (.start ring) ops) (bufferCapacity : Nat) :
    LawAt (run History.step (.start ring) ops) bufferCapacity := by
  have ht := run_invariant_of_allowed (P := Tracked) (start_tracked hc)
    (fun h op ht hok => step_tracked ht op hok) ops hk
  intro slot hs
  exact (pop_delivers ht bufferCapacity hs).2.1

/-- Two slots, three one byte units: the first is overwritten. -/
def overwritingPushes : List RingOp :=
  [.push [1] 0 true, .push [2] 1 false, .push [3] 2 false]

/-- The unit that follows an overwritten one is delivered without the flag. -/
theorem overwrite_breaks_law :
    ¬∀ (slotCapacity slotCount : Nat) (fd : Option Nat) (ring : AuRing),
      auRingCreate slotCapacity slotCount fd = some ring → ∀ (ops : List RingOp) (cap : Nat),
        LawAt (run History.step (.start ring) ops) cap := by
  intro h
  have hlaw := h 1 2 none _ rfl overwritingPushes 1 ⟨⟨1, 1, false, false, 1⟩, [2]⟩
    (by decide +kernel)
  have hlost : LostBetween [1] 0 2 := ⟨1, by decide⟩
  have hfalse := hlaw.mpr (by
    convert hlost using 1 <;> decide +kernel)
  simp at hfalse

/-- The ring refuses a unit that is too large, and tells so with the next one. -/
theorem discontinuity_law_two_units :
    let ops := [.push [1, 2, 3, 4, 5] 0 true, .push [1, 2] 5 true, .push [3] 6 false]
    let h := run History.step (.start ((auRingCreate 4 2 (some 0)).get rfl)) ops
    LawAt h 4 ∧ ∃ slot, (auRingPop h.ring 4).1 = some slot ∧ slot.bytes = [1, 2] ∧
      slot.info.discontinuity = true := by
  intro ops h
  refine ⟨discontinuity_law (Option.some_get rfl).symm ops ?_ 4, ?_⟩
  · refine ⟨?_, ?_, ?_, trivial⟩
    · intro _ hfits
      exact absurd hfits (by decide)
    · intro _ _ hfull
      exact absurd hfull (by decide)
    · intro _ _ hfull
      exact absurd hfull (by decide)
  · exact ⟨⟨⟨5, 0, true, true, 2⟩, [1, 2]⟩, by decide +kernel⟩

end Camstream.Proofs.Discontinuity
