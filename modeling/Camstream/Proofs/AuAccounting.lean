import Camstream.Lib.Runs
import Camstream.Media.AuHistory
import Camstream.Proofs.AuQueue

namespace Camstream.Proofs.AuAccounting
open Lib Media AuQueue

/-- What a push was called with. -/
structure Pushed where
  data : Bytes
  ptsUs : UInt64
  isIdr : Bool
deriving Repr, DecidableEq

/-- A ring with the books on it: how many pushes were not empty, the accepted ones in
order, and the units handed out in order. -/
structure Ledger where
  ring : AuRing
  offered : Nat
  accepted : List Pushed
  delivered : List AuSlot

def Ledger.start (ring : AuRing) : Ledger := ⟨ring, 0, [], []⟩

/-- Only arguments and results of the calls are written down. -/
def Ledger.step (l : Ledger) : RingOp → Ledger
  | .push data ptsUs isIdr =>
    let r := auRingPush l.ring data ptsUs isIdr
    { l with
      ring := r.2
      offered := if data.length = 0 then l.offered else l.offered + 1
      accepted := if r.1 = 0 then l.accepted ++ [⟨data, ptsUs, isIdr⟩] else l.accepted }
  | .pop bufferCapacity =>
    let r := auRingPop l.ring bufferCapacity
    { l with ring := r.2, delivered := l.delivered ++ r.1.toList }

def pushedOf (u : AuSlot) : Pushed := ⟨u.bytes, u.info.ptsUs, u.info.isIdr⟩

/-- The unit is the accepted push that its sequence number counts to. -/
def Recorded (accepted : List Pushed) (u : AuSlot) : Prop :=
  u.info.size = u.bytes.length ∧ accepted[u.info.sequence]? = some (pushedOf u)

/-- The numbers of the queue: the last ones given out, without a gap. -/
def Latest (total : Nat) (units : List AuSlot) : Prop :=
  ∃ first, first + units.length = total ∧
    units.map (fun u => u.info.sequence) = List.range' first units.length

/-- The books are balanced. -/
structure Balanced (l : Ledger) : Prop where
  ok : RingOk l.ring
  sequence : l.ring.sequence = l.accepted.length
  recorded : ∀ u ∈ (queueOf l.ring).units, Recorded l.accepted u
  latest : Latest l.accepted.length (queueOf l.ring).units
  handed : ∀ u ∈ l.delivered, Recorded l.accepted u ∧
    u.info.sequence + (queueOf l.ring).units.length < l.accepted.length
  increasing : l.delivered.Pairwise fun u v => u.info.sequence < v.info.sequence
  balance : l.offered =
    l.delivered.length + (queueOf l.ring).dropped + (queueOf l.ring).units.length

theorem Recorded.more {accepted : List Pushed} {u : AuSlot} (h : Recorded accepted u)
    (p : Pushed) : Recorded (accepted ++ [p]) u := by
  obtain ⟨hsize, hget⟩ := h
  refine ⟨hsize, ?_⟩
  have hlt : u.info.sequence < accepted.length := (List.getElem?_eq_some_iff.mp hget).1
  rw [List.getElem?_append_left hlt]
  exact hget

theorem Recorded.marked {accepted : List Pushed} {u : AuSlot} (h : Recorded accepted u)
    (gap : Bool) : Recorded accepted (markGap u gap) := h

/-- What is left after some units are taken from the front. -/
theorem Latest.rest {total : Nat} {front rest : List AuSlot} (h : Latest total (front ++ rest)) :
    Latest total rest := by
  obtain ⟨first, htotal, hmap⟩ := h
  refine ⟨first + front.length, by simp at htotal; omega, ?_⟩
  rw [List.map_append, List.length_append, ← List.range'_append_1] at hmap
  exact (List.append_inj hmap (by simp)).2

/-- The numbers in front of the queue's rest. -/
theorem Latest.before {total : Nat} {front rest : List AuSlot} {u : AuSlot}
    (h : Latest total (front ++ u :: rest)) : u.info.sequence + rest.length + 1 = total := by
  obtain ⟨first, htotal, hmap⟩ := h.rest
  rw [List.length_cons, List.map_cons, List.range'_succ] at hmap
  have hfirst := (List.cons.inj hmap).1
  simp at htotal
  omega

theorem Latest.concat {total : Nat} {units : List AuSlot} {u : AuSlot} (h : Latest total units)
    (hu : u.info.sequence = total) : Latest (total + 1) (units ++ [u]) := by
  obtain ⟨first, htotal, hmap⟩ := h
  refine ⟨first, by simp; omega, ?_⟩
  rw [List.map_append, hmap, List.length_append, ← List.range'_append_1]
  simp [hu, htotal]

/-- Making room takes at most the oldest unit, and counts it. -/
theorem makeRoom_drops (q : Queue) (h : 0 < q.slotCount) :
    ∃ front rest, q.units = front ++ rest ∧ q.makeRoom.units = rest ∧
      q.makeRoom.dropped = q.dropped + front.length ∧ q.makeRoom.sequence = q.sequence := by
  unfold Queue.makeRoom
  split
  · rename_i hfull
    cases hq : q.units with
    | nil => simp [hq] at hfull; omega
    | cons u rest => exact ⟨[u], rest, rfl, rfl, rfl, rfl⟩
  · exact ⟨[], q.units, rfl, rfl, rfl, rfl⟩

/-- Units that leave the front of the queue are still on record, and the queue keeps
the latest numbers. -/
theorem accept_balanced {l : Ledger} (h : Balanced l) {data : Bytes} (ptsUs : UInt64)
    (isIdr : Bool) (hpos : data.length ≠ 0) (hfit : data.length ≤ l.ring.slotCapacity) :
    Balanced (l.step (.push data ptsUs isIdr)) := by
  obtain ⟨hresult, hok, hq⟩ := push_accepts h.ok ptsUs isIdr hpos hfit
  obtain ⟨front, rest, hunits, hrest, hdropped, hsequence⟩ :=
    makeRoom_drops (queueOf l.ring) (Nat.lt_of_le_of_lt (Nat.zero_le _) h.ok.head)
  have hstep : l.step (.push data ptsUs isIdr) =
      ⟨(auRingPush l.ring data ptsUs isIdr).2, l.offered + 1,
        l.accepted ++ [⟨data, ptsUs, isIdr⟩], l.delivered⟩ := by
    simp [Ledger.step, hpos, hresult]
  have hnumber : (queueOf l.ring).makeRoom.sequence = l.accepted.length :=
    hsequence.trans h.sequence
  have hlength : l.delivered.length + (queueOf l.ring).dropped + (front ++ rest).length =
      l.offered := by rw [← hunits]; exact h.balance.symm
  rw [hstep]
  refine ⟨hok, ?_, ?_, ?_, ?_, h.increasing, ?_⟩
  · rw [List.length_append, ← hnumber]
    exact congrArg Queue.sequence hq
  · rw [hq]
    intro u hu
    simp only [Queue.append, hrest, List.mem_append, List.mem_singleton] at hu
    rcases hu with hu | rfl
    · exact (h.recorded u (by rw [hunits]; exact List.mem_append_right _ hu)).more _
    · exact ⟨rfl, by simp [hnumber, pushedOf]⟩
  · rw [hq, List.length_append]
    simp only [Queue.append, hrest]
    exact (hunits ▸ h.latest).rest.concat hnumber
  · intro u hu
    obtain ⟨hrecorded, hlt⟩ := h.handed u hu
    refine ⟨hrecorded.more _, ?_⟩
    rw [hunits] at hlt
    rw [hq]
    simp [Queue.append, hrest] at hlt ⊢
    omega
  · rw [hq]
    simp [Queue.append, hrest, hdropped] at hlength ⊢
    omega

theorem refuse_balanced {l : Ledger} (h : Balanced l) {data : Bytes} (ptsUs : UInt64)
    (isIdr : Bool) (hbig : l.ring.slotCapacity < data.length) :
    Balanced (l.step (.push data ptsUs isIdr)) := by
  obtain ⟨hresult, hok, hq⟩ := push_refuses h.ok ptsUs isIdr hbig
  have hstep : l.step (.push data ptsUs isIdr) =
      ⟨(auRingPush l.ring data ptsUs isIdr).2, l.offered + 1, l.accepted, l.delivered⟩ := by
    have hpos : data.length ≠ 0 := by omega
    simp [Ledger.step, hpos, hresult]
  have hbalance := h.balance
  rw [hstep]
  refine ⟨hok, ?_, ?_, ?_, ?_, h.increasing, ?_⟩
  · exact (congrArg Queue.sequence hq).trans h.sequence
  · rw [hq]; exact h.recorded
  · rw [hq]; exact h.latest
  · rw [hq]; exact h.handed
  · rw [hq]
    simp only
    omega

theorem pop_balanced {l : Ledger} (h : Balanced l) (bufferCapacity : Nat) :
    Balanced (l.step (.pop bufferCapacity)) := by
  obtain ⟨hok, hpops⟩ := pop_refines h.ok bufferCapacity
  have hbalance := h.balance
  simp only [Ledger.step]
  cases hr : (auRingPop l.ring bufferCapacity).1 with
  | some slot =>
    rw [hr] at hpops
    obtain ⟨skipped, u, rest, hunits, rfl, hq⟩ := hpops.of_some
    have hlatest : Latest l.accepted.length (skipped ++ u :: rest) := hunits ▸ h.latest
    have hnumber := hlatest.before
    have hall : ∀ v ∈ l.delivered, v.info.sequence < u.info.sequence := by
      intro v hv
      have hlt := (h.handed v hv).2
      rw [hunits] at hlt
      simp at hlt
      omega
    refine ⟨hok, ?_, ?_, ?_, ?_, ?_, ?_⟩
    · exact (congrArg Queue.sequence hq).trans h.sequence
    · rw [hq]
      intro v hv
      exact h.recorded v (by rw [hunits]; simp [hv])
    · rw [hq]
      exact (List.append_cons skipped u rest ▸ hlatest).rest
    · intro v hv
      rw [hq]
      rcases List.mem_append.mp hv with hv | hv
      · have hlt := hall v hv
        exact ⟨(h.handed v hv).1, by simp only; omega⟩
      · obtain rfl : v = markGap u (!skipped.isEmpty) := by simpa using hv
        refine ⟨(h.recorded u (by rw [hunits]; simp)).marked _, ?_⟩
        change u.info.sequence + rest.length < l.accepted.length
        omega
    · rw [List.pairwise_append]
      refine ⟨h.increasing, by simp, ?_⟩
      intro v hv w hw
      obtain rfl : w = markGap u (!skipped.isEmpty) := by simpa using hw
      exact hall v hv
    · rw [hq]
      rw [hunits] at hbalance
      simp at hbalance ⊢
      omega
  | none =>
    rw [hr] at hpops
    have hq := hpops.of_none
    have hlatest : Latest l.accepted.length ((queueOf l.ring).units ++ []) := by simpa using h.latest
    rw [Option.toList_none, List.append_nil]
    refine ⟨hok, ?_, ?_, ?_, ?_, h.increasing, ?_⟩
    · exact (congrArg Queue.sequence hq).trans h.sequence
    · rw [hq]; simp
    · rw [hq]; exact hlatest.rest
    · intro v hv
      obtain ⟨hrecorded, hlt⟩ := h.handed v hv
      rw [hq]
      exact ⟨hrecorded, by simp only [List.length_nil]; omega⟩
    · rw [hq]
      simp only [List.length_nil]
      omega

theorem step_balanced (l : Ledger) (op : RingOp) (h : Balanced l) : Balanced (l.step op) := by
  cases op with
  | pop bufferCapacity => exact pop_balanced h bufferCapacity
  | push data ptsUs isIdr =>
    by_cases hz : data.length = 0
    · have hpush : auRingPush l.ring data ptsUs isIdr = (-1, l.ring) := if_pos hz
      simpa [Ledger.step, hpush, hz] using h
    · by_cases hfit : data.length ≤ l.ring.slotCapacity
      · exact accept_balanced h ptsUs isIdr hz hfit
      · exact refuse_balanced h ptsUs isIdr (by omega)

theorem makeRoom_slotCount (q : Queue) : q.makeRoom.slotCount = q.slotCount := by
  unfold Queue.makeRoom
  split <;> rfl

theorem step_slotCount {l : Ledger} (op : RingOp) (h : RingOk l.ring) :
    (l.step op).ring.slotCount = l.ring.slotCount := by
  cases op with
  | pop bufferCapacity =>
    obtain ⟨-, hpops⟩ := pop_refines h bufferCapacity
    change (queueOf (auRingPop l.ring bufferCapacity).2).slotCount = _
    cases hr : (auRingPop l.ring bufferCapacity).1 with
    | some slot =>
      rw [hr] at hpops
      obtain ⟨skipped, u, rest, -, -, hq⟩ := hpops.of_some
      rw [hq, queueOf_slotCount]
    | none =>
      rw [hr] at hpops
      rw [hpops.of_none, queueOf_slotCount]
  | push data ptsUs isIdr =>
    change (queueOf (auRingPush l.ring data ptsUs isIdr).2).slotCount = _
    by_cases hz : data.length = 0
    · rw [auRingPush, if_pos hz, queueOf_slotCount]
    · by_cases hfit : data.length ≤ l.ring.slotCapacity
      · obtain ⟨-, -, hq⟩ := push_accepts h ptsUs isIdr hz hfit
        rw [hq]
        exact makeRoom_slotCount _
      · obtain ⟨-, -, hq⟩ := push_refuses h ptsUs isIdr (Nat.lt_of_not_le hfit)
        rw [hq, queueOf_slotCount]

theorem start_balanced {slotCapacity slotCount : Nat} {fd : Option Nat} {ring : AuRing}
    (h : auRingCreate slotCapacity slotCount fd = some ring) : Balanced (.start ring) := by
  obtain ⟨hok, hcount, -, -, -⟩ := create_ok h
  have hunits : (queueOf ring).units = [] :=
    List.length_eq_zero_iff.mp ((queueOf_length ring).trans hcount)
  have hzero : ring.sequence = 0 ∧ ring.dropped = 0 := by
    unfold auRingCreate at h
    split at h
    · cases h
    · cases h
      exact ⟨rfl, rfl⟩
  refine ⟨hok, hzero.1, ?_, ?_, by simp [Ledger.start], .nil, ?_⟩
  · simp [Ledger.start, hunits]
  · exact ⟨0, by simp [Ledger.start, hunits], by simp [Ledger.start, hunits]⟩
  · have hdropped : (queueOf ring).dropped = 0 := hzero.2
    simp [Ledger.start, hunits, hdropped]

/-- The latest numbers are the end of the record. -/
theorem latest_pushed {accepted : List Pushed} {units : List AuSlot}
    (hrecorded : ∀ u ∈ units, Recorded accepted u) (hlatest : Latest accepted.length units) :
    units.map pushedOf = accepted.drop (accepted.length - units.length) := by
  obtain ⟨first, htotal, hmap⟩ := hlatest
  refine List.ext_getElem? fun i => ?_
  rw [List.getElem?_map, List.getElem?_drop]
  cases hi : units[i]? with
  | none =>
    have hge := List.getElem?_eq_none_iff.mp hi
    exact (List.getElem?_eq_none (by omega)).symm
  | some u =>
    have hlt := (List.getElem?_eq_some_iff.mp hi).1
    have hnumber : u.info.sequence = first + i := by
      have hget := congrArg (fun xs => xs[i]?) hmap
      simp only [List.getElem?_map, hi, Option.map_some] at hget
      rw [List.getElem?_range' hlt] at hget
      simpa using hget
    have hfirst : accepted.length - units.length + i = u.info.sequence := by omega
    rw [hfirst, (hrecorded u (List.mem_of_getElem? hi)).2]
    rfl

/-- In every run of pushes and pops: units are delivered with increasing numbers and
as they were pushed; the queue holds the end of the accepted pushes, none of which
was delivered, and no more than its slots; and every push that was not empty is
delivered, counted as dropped, or still queued. -/
theorem ring_accounting {slotCapacity slotCount : Nat} {fd : Option Nat} {ring : AuRing}
    (h : auRingCreate slotCapacity slotCount fd = some ring) (ops : List RingOp) :
    let l := run Ledger.step (.start ring) ops
    l.delivered.Pairwise (fun u v => u.info.sequence < v.info.sequence) ∧
    (∀ u ∈ l.delivered, u.info.size = u.bytes.length ∧
      l.accepted[u.info.sequence]? = some (pushedOf u)) ∧
    (queueOf l.ring).units.map pushedOf = l.accepted.drop (l.accepted.length - l.ring.count) ∧
    (∀ u ∈ l.delivered, u.info.sequence < l.accepted.length - l.ring.count) ∧
    l.ring.count ≤ slotCount ∧
    l.offered = l.delivered.length + auRingDropped l.ring + l.ring.count := by
  intro l
  obtain ⟨-, -, -, hslots, -⟩ := create_ok h
  obtain ⟨hb, hcount⟩ : Balanced l ∧ l.ring.slotCount = slotCount :=
    run_invariant (P := fun l => Balanced l ∧ l.ring.slotCount = slotCount)
      ⟨start_balanced h, hslots⟩
      (fun l op hl => ⟨step_balanced l op hl.1, (step_slotCount op hl.1.ok).trans hl.2⟩) ops
  have hlength := queueOf_length l.ring
  refine ⟨hb.increasing, fun u hu => (hb.handed u hu).1, ?_, ?_, hcount ▸ hb.ok.count, ?_⟩
  · rw [← hlength]
    exact latest_pushed hb.recorded hb.latest
  · intro u hu
    have := (hb.handed u hu).2
    omega
  · rw [← hlength]
    exact hb.balance

/-- Two slots of four bytes: the third push overwrites, the fourth is refused, the pop
skips the second unit and delivers the third. -/
theorem ring_accounting_two_slots : ∃ ring, auRingCreate 4 2 none = some ring ∧
    let l := run Ledger.step (.start ring)
      [.push [1] 10 true, .push [2, 2] 20 false, .push [3] 30 false,
        .push [4, 4, 4, 4, 4] 40 false, .pop 1]
    l.ring.count ≤ 2 ∧
      l.offered = l.delivered.length + auRingDropped l.ring + l.ring.count := by
  refine ⟨_, rfl, ?_⟩
  obtain ⟨-, -, -, -, hcount, htotal⟩ := @ring_accounting 4 2 none _ rfl
    [.push [1] 10 true, .push [2, 2] 20 false, .push [3] 30 false,
      .push [4, 4, 4, 4, 4] 40 false, .pop 1]
  exact ⟨hcount, htotal⟩

end Camstream.Proofs.AuAccounting
