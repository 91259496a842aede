import Mathlib.Data.List.Chain
import Camstream.Lpstream.Fanout
import Camstream.Proofs.Discontinuity

namespace Camstream.Proofs.Resync
open Lib Media Lpstream Discontinuity

/-- After `prev`, the frame is next in line or a keyframe. -/
def Follows (prev : Option Nat) (f : LpFrame) : Prop :=
  ∀ a, prev = some a → f.id ≠ a + 1 → f.isIdr = true

/-- Working off `frames` with the waiting flag `w` after the frame `prev` never
hands over a delta frame behind a gap. -/
def Safe : Bool → Option Nat → List LpFrame → Prop
  | _, _, [] => True
  | w, prev, f :: fs =>
    if w && !f.isIdr then Safe w prev fs else Follows prev f ∧ Safe false (some f.id) fs

/-- The waiting flag and the last frame handed over after `frames`. -/
def after : Bool → Option Nat → List LpFrame → Bool × Option Nat
  | w, prev, [] => (w, prev)
  | w, prev, f :: fs => if w && !f.isIdr then after w prev fs else after false (some f.id) fs

theorem safe_append (w : Bool) (prev : Option Nat) (xs ys : List LpFrame) :
    Safe w prev (xs ++ ys) ↔ Safe w prev xs ∧ Safe (after w prev xs).1 (after w prev xs).2 ys := by
  induction xs generalizing w prev with
  | nil => simp [Safe, after]
  | cons f fs ih =>
    simp only [List.cons_append, Safe, after]
    split
    · exact ih w prev
    · rw [ih, and_assoc]

theorem after_append (w : Bool) (prev : Option Nat) (xs ys : List LpFrame) :
    after w prev (xs ++ ys) = after (after w prev xs).1 (after w prev xs).2 ys := by
  induction xs generalizing w prev with
  | nil => rfl
  | cons f fs ih =>
    simp only [List.cons_append, after]
    split
    · exact ih w prev
    · exact ih false (some f.id)

/-- Waiting for a keyframe only makes the hand-over safer. -/
theorem safe_waiting {w : Bool} {prev : Option Nat} {fs : List LpFrame} (h : Safe w prev fs)
    (other : Option Nat) (hw : w = false ∨ other = prev) : Safe true other fs := by
  induction fs generalizing w prev other with
  | nil => trivial
  | cons f fs ih =>
    cases hi : f.isIdr with
    | true =>
      simp only [Safe, hi, Bool.not_true, Bool.and_false, Bool.false_eq_true, ↓reduceIte] at h ⊢
      exact ⟨fun _ _ _ => hi, h.2⟩
    | false =>
      simp only [Safe, hi, Bool.not_false, Bool.and_true, ↓reduceIte] at h ⊢
      cases w with
      | true => exact ih h other (.inr (hw.resolve_left (by simp)))
      | false => exact ih h.2 other (.inl rfl)

/-- Without a keyframe in sight the wait goes on. -/
theorem after_waiting {fs : List LpFrame} (hn : ∀ f ∈ fs, f.isIdr = false) (prev : Option Nat) :
    after true prev fs = (true, prev) := by
  induction fs with
  | nil => rfl
  | cons f fs ih =>
    have hf := hn f List.mem_cons_self
    simp only [after, hf, Bool.not_false, Bool.and_true, ↓reduceIte]
    exact ih (fun g hg => hn g (List.mem_cons_of_mem _ hg))

def lastSent (s : Fanout) : Option Nat := s.sent.getLast?.map LpFrame.id

/-- A viewer that is not connected will wait for a keyframe when it is. -/
def waiting (s : Fanout) : Bool := !s.session.connected || s.session.waitingIdr

def afterBatch (s : Fanout) : Bool × Option Nat := after (waiting s) (lastSent s) s.batch

def afterQueue (s : Fanout) : Bool × Option Nat :=
  after ((afterBatch s).1 || s.session.resync) (afterBatch s).2 s.session.queue

/-- How the next frame the media thread hands over fits behind the mailbox. -/
def TailOk (s : Fanout) : Prop :=
  match s.popped with
  | none => (afterQueue s).1 = false → (afterQueue s).2 = some s.history.delivered
  | some p =>
    if p.slot.info.discontinuity then
      p.resynced = true → p.slot.info.isIdr = true ∨ (afterQueue s).1 = true
    else (afterQueue s).1 = false → ∃ a, (afterQueue s).2 = some a ∧ s.history.delivered = a + 1

/-- Each frame handed over follows the one before it, or is a keyframe. -/
def Unbroken (sent : List LpFrame) : Prop :=
  sent.IsChain (fun a b => b.id ≠ a.id + 1 → b.isIdr = true)

structure Inv (s : Fanout) : Prop where
  tracked : Tracked s.history
  accounted : Accounted s.history
  unbroken : Unbroken s.sent
  batch : Safe (waiting s) (lastSent s) s.batch
  queue : Safe ((afterBatch s).1 || s.session.resync) (afterBatch s).2 s.session.queue
  apart : s.session.connected = false → s.batch = []
  absent : s.registered = false → waiting s = true ∧ s.batch = [] ∧ s.session.queue = []
  tail : s.session.stop = false → s.session.finished = false → TailOk s

/-- The steps that keep a viewer in sync: no push into the ring overwrites a
unit with others behind it, a frame can always be allocated, and the flag is
raised only when no keyframe waits in the mailbox (or the unit behind the gap
is a keyframe itself). -/
def KeepsSync (s : Fanout) : FanoutEvent → Prop
  | .produce data ptsUs isIdr => KeepsFlags s.history (.push data ptsUs isIdr)
  | .createFails => s.served = false ∨ s.popped = none
  | .resync => ∀ p, s.popped = some p → p.resynced = false → p.slot.info.discontinuity = true →
      s.served = true → p.slot.info.isIdr = true ∨ ∀ f ∈ s.session.queue, f.isIdr = false
  | _ => True

theorem start_inv {slotCapacity slotCount : Nat} {fd : Option Nat} {ring : AuRing}
    (h : auRingCreate slotCapacity slotCount fd = some ring) : Inv (.start ring) := by
  refine ⟨start_tracked h, ?_, List.isChain_nil, trivial, trivial, fun _ => rfl,
    fun _ => ⟨rfl, rfl, rfl⟩, fun _ _ => ?_⟩
  · intro j hd hj
    simp only [Fanout.start, History.start] at hd hj
    omega
  · intro hw
    cases hw

theorem produce_inv {s : Fanout} (h : Inv s) (cap : Nat) (data : Bytes) (ptsUs : UInt64)
    (isIdr : Bool) (hk : KeepsFlags s.history (.push data ptsUs isIdr)) :
    Inv (s.step cap (.produce data ptsUs isIdr)) := by
  have hd : (s.history.step (.push data ptsUs isIdr)).delivered = s.history.delivered := by
    simp only [History.step]
    split
    · rfl
    · split <;> rfl
  refine ⟨step_tracked h.tracked _ hk, step_accounted h.tracked h.accounted _, h.unbroken, h.batch,
    h.queue, h.apart, h.absent, ?_⟩
  intro hs hf
  have ht := h.tail hs hf
  simp only [TailOk, Fanout.step, hd] at ht ⊢
  exact ht

theorem pop_inv {s : Fanout} (h : Inv s) (cap : Nat) : Inv (s.step cap .pop) := by
  simp only [Fanout.step]
  split
  · exact h
  · rename_i hp
    have hnone : s.popped = none := by simpa using hp
    refine ⟨step_tracked h.tracked (.pop cap) trivial, step_accounted h.tracked h.accounted _,
      h.unbroken, h.batch, h.queue, h.apart, h.absent, ?_⟩
    intro hs hf
    have ht := h.tail hs hf
    simp only [TailOk, hnone] at ht
    cases hr : (auRingPop s.history.ring cap).1 with
    | none =>
      simp only [TailOk, Option.map_none]
      have hd : (s.history.step (.pop cap)).delivered = s.history.delivered := by
        simp only [History.step, hr]
      rw [hd]
      exact ht
    | some slot =>
      simp only [TailOk, Option.map_some]
      split
      · simp
      · rename_i hflag
        have hnext := unflagged_next h.tracked h.accounted hr (by simpa using hflag)
        exact fun hw => ⟨_, ht hw, hnext⟩

theorem skip_inv {s : Fanout} (h : Inv s) (cap : Nat) : Inv (s.step cap .skip) := by
  simp only [Fanout.step]
  split
  · exact h
  · rename_i hserved
    refine ⟨h.tracked, h.accounted, h.unbroken, h.batch, h.queue, h.apart, h.absent, ?_⟩
    intro hs hf
    have hreg : s.registered = false := by
      cases hr : s.registered with
      | false => rfl
      | true =>
        have hf' : s.session.finished = false := hf
        simp [Fanout.served, hr, hf'] at hserved
    obtain ⟨hw, hb, hq⟩ := h.absent hreg
    have ha : (afterQueue s).1 = true := by
      simp [afterQueue, afterBatch, hb, hq, hw, after]
    intro hx
    have hy : (afterQueue s).1 = false := hx
    rw [ha] at hy
    cases hy

theorem createFails_inv {s : Fanout} (h : Inv s) (cap : Nat)
    (hk : s.served = false ∨ s.popped = none) : Inv (s.step cap .createFails) := by
  have hs : s.step cap .createFails = s := by
    simp only [Fanout.step]
    split
    · rename_i hserved
      have hp : s.popped = none := hk.resolve_left (by simp [hserved])
      obtain ⟨history, popped, registered, session, batch, sent⟩ := s
      simp only at hp
      rw [hp]
    · rfl
  rw [hs]
  exact h

theorem resync_inv {s : Fanout} (h : Inv s) (cap : Nat) (hk : KeepsSync s .resync) :
    Inv (s.step cap .resync) := by
  cases hp : s.popped with
  | none => simpa only [Fanout.step, hp] using h
  | some p =>
    simp only [Fanout.step, hp]
    split
    · rename_i hc
      simp only [Bool.and_eq_true, Bool.not_eq_true'] at hc
      obtain ⟨⟨hserved, hdisc⟩, hres⟩ := hc
      have hq : Safe true (afterBatch s).2 s.session.queue := safe_waiting h.queue _ (.inr rfl)
      refine ⟨h.tracked, h.accounted, h.unbroken, h.batch, ?_, h.apart, ?_, ?_⟩
      · show Safe ((afterBatch s).1 || true) (afterBatch s).2 s.session.queue
        rw [Bool.or_true]
        exact hq
      · intro hr
        simp only [Fanout.served, Bool.and_eq_true] at hserved
        have hr' : s.registered = false := hr
        rw [hr'] at hserved
        exact absurd hserved.1 (by simp)
      · intro _ _
        simp only [TailOk, hdisc, ↓reduceIte]
        intro _
        rcases hk p hp hres hdisc hserved with hidr | hnone
        · exact .inl hidr
        · right
          show (after ((afterBatch s).1 || true) (afterBatch s).2 s.session.queue).1 = true
          rw [Bool.or_true, after_waiting hnone]
    · exact h

/-- A frame behind the mailbox: safe, and the end of the mailbox after it. -/
theorem push_safe {w : Bool} {prev : Option Nat} {f : LpFrame}
    (hf : f.isIdr = true ∨ w = true ∨ Follows prev f) :
    Safe w prev [f] ∧ ((after w prev [f]).1 = false → (after w prev [f]).2 = some f.id) := by
  simp only [Safe, after]
  split
  · rename_i hc
    simp only [Bool.and_eq_true] at hc
    exact ⟨trivial, fun hx => absurd hx (by simp [hc.1])⟩
  · rename_i hc
    refine ⟨⟨?_, trivial⟩, fun _ => rfl⟩
    rcases hf with hi | hw | hf
    · exact fun _ _ _ => hi
    · intro _ _ _
      simpa [hw] using hc
    · exact hf

/-- The frame about to be pushed fits behind the mailbox. -/
theorem popped_fits {s : Fanout} {p : Popped} (ht : TailOk s) (hp : s.popped = some p)
    (hr : p.slot.info.discontinuity = false ∨ p.resynced = true) :
    (frameOf s.history.delivered p.slot).isIdr = true ∨ (afterQueue s).1 = true ∨
      Follows (afterQueue s).2 (frameOf s.history.delivered p.slot) := by
  simp only [TailOk, hp] at ht
  cases hd : p.slot.info.discontinuity with
  | true =>
    rw [if_pos hd] at ht
    rcases ht (hr.resolve_left (by simp [hd])) with hi | hw
    · exact .inl hi
    · exact .inr (.inl hw)
  | false =>
    rw [if_neg (by simp [hd])] at ht
    cases hw : (afterQueue s).1 with
    | true => exact .inr (.inl rfl)
    | false =>
      obtain ⟨a, hprev, hnext⟩ := ht hw
      refine .inr (.inr ?_)
      intro b hb hne
      rw [hprev, Option.some.injEq] at hb
      exact absurd (hnext.trans (by rw [hb])) hne

theorem push_inv {s : Fanout} (h : Inv s) (cap : Nat) : Inv (s.step cap .push) := by
  cases hp : s.popped with
  | none => simpa only [Fanout.step, hp] using h
  | some p =>
    simp only [Fanout.step, hp]
    split
    · rename_i hc
      simp only [Bool.and_eq_true, Bool.or_eq_true, Bool.not_eq_true'] at hc
      obtain ⟨hserved, hready⟩ := hc
      have hreg : s.registered = true := by
        simp only [Fanout.served, Bool.and_eq_true] at hserved
        exact hserved.1
      unfold lpSessionPushFrame
      split
      · -- the session is ending: the frame is dropped and no further one comes
        rename_i hend
        refine ⟨h.tracked, h.accounted, h.unbroken, h.batch, h.queue, h.apart, h.absent, ?_⟩
        intro hs hf
        have hs' : s.session.stop = false := hs
        have hf' : s.session.finished = false := hf
        simp [hs', hf'] at hend
      · rename_i hend
        simp only [Bool.or_eq_true, not_or, Bool.not_eq_true] at hend
        unfold flushFull
        split
        · obtain ⟨hsafe, htail⟩ := @push_safe true (afterBatch s).2
            (frameOf s.history.delivered p.slot) (.inr (.inl rfl))
          refine ⟨h.tracked, h.accounted, h.unbroken, h.batch, ?_, h.apart, ?_, ?_⟩
          · show Safe ((afterBatch s).1 || true) (afterBatch s).2 [_]
            rw [Bool.or_true]
            exact hsafe
          · intro hr
            exact absurd hreg (by simpa using hr)
          · intro _ _
            show (after ((afterBatch s).1 || true) (afterBatch s).2 [_]).1 = false →
              (after ((afterBatch s).1 || true) (afterBatch s).2 [_]).2 = _
            rw [Bool.or_true]
            exact htail
        · have ht := h.tail hend.1 hend.2
          obtain ⟨hsafe, htail⟩ := push_safe (popped_fits ht hp hready)
          refine ⟨h.tracked, h.accounted, h.unbroken, h.batch, ?_, h.apart, ?_, ?_⟩
          · exact (safe_append _ _ _ _).mpr ⟨h.queue, hsafe⟩
          · intro hr
            exact absurd hreg (by simpa using hr)
          · intro _ _
            show (after _ _ (s.session.queue ++ [_])).1 = false →
              (after _ _ (s.session.queue ++ [_])).2 = _
            rw [after_append]
            exact htail
    · exact h

theorem tailOk_waiting {s : Fanout} (hw : (afterQueue s).1 = true) : TailOk s := by
  unfold TailOk
  split
  · exact fun hx => absurd hx (by simp [hw])
  · split
    · exact fun _ => .inr hw
    · exact fun hx => absurd hx (by simp [hw])

/-- Only the mailbox's end, the popped unit and its number matter to `TailOk`. -/
theorem tailOk_congr {s t : Fanout} (hp : t.popped = s.popped) (hh : t.history = s.history)
    (hq : afterQueue t = afterQueue s) (h : TailOk s) : TailOk t := by
  unfold TailOk at h ⊢
  rw [hp, hh, hq]
  exact h

theorem beginSend_eq (s : LpSession) :
    beginSend s = (s.queue, { s with
      queue := []
      resync := false
      waitingIdr := s.waitingIdr || s.resync
      forceIdr := s.forceIdr || (s.resync && !s.waitingIdr) }) := by
  obtain ⟨stop, resync, queue, connected, finished, a, b, c, waitingIdr, forceIdr⟩ := s
  cases resync <;> cases waitingIdr <;> simp [beginSend, takeFrames]

/-- A frame that is not held back clears the wait and bumps counters. -/
theorem sendFrame_hands {s : LpSession} {f : LpFrame} (ok : Bool)
    (h : (s.waitingIdr && !f.isIdr) = false) :
    ∃ sent bytes dropped, sendFrame s f ok = (true, { s with
      waitingIdr := false, framesSent := sent, bytesSent := bytes, framesDropped := dropped }) := by
  simp only [sendFrame, h, Bool.false_eq_true, ↓reduceIte]
  cases ok with
  | true => exact ⟨s.framesSent + 1, s.bytesSent + f.data.length, s.framesDropped, rfl⟩
  | false => exact ⟨s.framesSent, s.bytesSent, s.framesDropped + 1, rfl⟩

theorem take_inv {s : Fanout} (h : Inv s) (cap : Nat) : Inv (s.step cap .take) := by
  simp only [Fanout.step]
  split
  · exact h
  rename_i hfree
  simp only [Bool.or_eq_true, Bool.not_eq_true', not_or, Bool.not_eq_true, Bool.not_eq_false,
    List.isEmpty_iff] at hfree
  obtain ⟨hfin, hbatch⟩ := hfree
  split
  · -- the taken batch stands where the mailbox stood
    rename_i hconn
    have hbefore : afterBatch s = (s.session.waitingIdr, lastSent s) := by
      simp [afterBatch, hbatch, after, waiting, hconn]
    have hqueue := h.queue
    rw [hbefore] at hqueue
    have hw : (!s.session.connected || (s.session.waitingIdr || s.session.resync)) =
        (s.session.waitingIdr || s.session.resync) := by rw [hconn]; rfl
    simp only [beginSend_eq]
    refine ⟨h.tracked, h.accounted, h.unbroken, ?_, trivial, ?_, ?_, ?_⟩
    · simp only [waiting, hw]
      exact hqueue
    · exact fun hx => absurd hconn (by simpa using hx)
    · intro hr
      obtain ⟨hw', _, hq⟩ := h.absent hr
      refine ⟨?_, hq, rfl⟩
      have hi : s.session.waitingIdr = true := by simpa [waiting, hconn] using hw'
      simp [waiting, hi]
    · intro hs hf
      refine tailOk_congr (s := s) rfl rfl ?_ (h.tail hs hf)
      rw [afterQueue, afterQueue, hbefore]
      simp only [afterBatch, waiting, hw, Bool.or_false]
      rfl
  · rename_i hconn
    have hw : waiting { s with session := dropFrames s.session } = true := by
      simp [waiting, dropFrames, takeFrames, hconn]
    refine ⟨h.tracked, h.accounted, h.unbroken, h.batch, trivial, h.apart,
      fun hr => ⟨hw, hbatch, rfl⟩, fun _ _ => tailOk_waiting ?_⟩
    rw [afterQueue, afterBatch, hw, hbatch]
    rfl

theorem unbroken_concat {sent : List LpFrame} {f : LpFrame} (h : Unbroken sent)
    (hf : Follows (sent.getLast?.map LpFrame.id) f) : Unbroken (sent ++ [f]) := by
  refine List.isChain_append.mpr ⟨h, List.isChain_singleton f, ?_⟩
  intro a ha b hb
  simp only [List.head?_cons, Option.mem_def, Option.some.injEq] at hb
  subst hb
  exact hf a.id (by rw [Option.mem_def.mp ha]; rfl)

theorem send_inv {s : Fanout} (h : Inv s) (cap : Nat) (ok : Bool) :
    Inv (s.step cap (.send ok)) := by
  cases hb : s.batch with
  | nil => simpa only [Fanout.step, hb] using h
  | cons f fs =>
    have hconn : s.session.connected = true := by
      cases hc : s.session.connected with
      | true => rfl
      | false => exact absurd (h.apart hc) (by simp [hb])
    have hreg : ¬ s.registered = false := fun hr => absurd (h.absent hr).2.1 (by simp [hb])
    have hapart : ¬ s.session.connected = false := by simp [hconn]
    have hw : waiting s = s.session.waitingIdr := by simp [waiting, hconn]
    have hbatch := h.batch
    have hqueue := h.queue
    have htail := h.tail
    have hafter : afterBatch s = after s.session.waitingIdr (lastSent s) (f :: fs) := by
      rw [afterBatch, hb, hw]
    rw [hb, hw] at hbatch
    simp only [Safe] at hbatch
    simp only [after] at hafter
    cases hskip : (s.session.waitingIdr && !f.isIdr) with
    | true =>
      -- a delta frame is dropped while the viewer waits
      simp only [hskip, ↓reduceIte] at hbatch hafter
      simp only [Fanout.step, hb, sendFrame, hskip, ↓reduceIte, Bool.false_eq_true]
      rw [← hw] at hbatch hafter
      rw [hafter] at hqueue
      refine ⟨h.tracked, h.accounted, h.unbroken, hbatch, hqueue, fun hc => absurd hc hapart,
        fun hr => absurd hr hreg, ?_⟩
      intro hs hf
      refine tailOk_congr (s := s) rfl rfl ?_ (htail hs hf)
      rw [afterQueue, afterQueue, hafter]
      rfl
    | false =>
      obtain ⟨sent, bytes, dropped, hsend⟩ := sendFrame_hands ok hskip
      simp only [hskip, Bool.false_eq_true, ↓reduceIte] at hbatch hafter
      simp only [Fanout.step, hb, hsend, ↓reduceIte]
      have hlast : (s.sent ++ [f]).getLast?.map LpFrame.id = some f.id := by simp
      rw [hafter] at hqueue
      have hw' : (!s.session.connected || false) = false := by rw [hconn]; rfl
      refine ⟨h.tracked, h.accounted, unbroken_concat h.unbroken hbatch.1, ?_, ?_,
        fun hc => absurd hc hapart, fun hr => absurd hr hreg, ?_⟩
      · simp only [waiting, lastSent, hlast, hw']
        exact hbatch.2
      · simp only [afterBatch, waiting, lastSent, hlast, hw']
        exact hqueue
      · intro hs hf
        refine tailOk_congr (s := s) rfl rfl ?_ (htail hs hf)
        rw [afterQueue, afterQueue, hafter]
        simp only [afterBatch, waiting, lastSent, hlast, hw']

theorem connect_inv {s : Fanout} (h : Inv s) (cap : Nat) : Inv (s.step cap .connect) := by
  simp only [Fanout.step]
  split
  · exact h
  · unfold becomeConnected
    split
    · exact h
    · rename_i hconn
      have hb : s.batch = [] := h.apart (by simpa using hconn)
      have hw : waiting s = true := by simp [waiting, hconn]
      have hafter : afterBatch s = (true, lastSent s) := by simp [afterBatch, hb, after, hw]
      have hqueue := h.queue
      have htail := h.tail
      rw [hafter] at hqueue
      refine ⟨h.tracked, h.accounted, h.unbroken, ?_, ?_, fun hx => absurd hx (by simp), ?_, ?_⟩
      · rw [hb]
        trivial
      · simp only [afterBatch, waiting, hb, after, Bool.not_true, Bool.false_or]
        exact hqueue
      · intro hr
        exact ⟨rfl, hb, (h.absent hr).2.2⟩
      · intro hs hf
        refine tailOk_congr (s := s) rfl rfl ?_ (htail hs hf)
        rw [afterQueue, afterQueue, hafter]
        simp only [afterBatch, waiting, hb, after, Bool.not_true, Bool.false_or]
        rfl

theorem finish_inv {s : Fanout} (h : Inv s) (cap : Nat) : Inv (s.step cap .finish) := by
  simp only [Fanout.step]
  split
  · rename_i hb
    have hb' : s.batch = [] := by simpa using hb
    exact ⟨h.tracked, h.accounted, h.unbroken, h.batch, trivial, h.apart,
      fun hr => ⟨(h.absent hr).1, hb', rfl⟩, fun _ hf => absurd hf (by simp)⟩
  · exact h

theorem close_inv {s : Fanout} (h : Inv s) (cap : Nat) : Inv (s.step cap .close) :=
  ⟨h.tracked, h.accounted, h.unbroken, h.batch, h.queue, h.apart, h.absent,
    fun hs => absurd hs (by simp [Fanout.step, lpSessionClose])⟩

theorem register_inv {s : Fanout} (h : Inv s) (cap : Nat) : Inv (s.step cap .register) :=
  ⟨h.tracked, h.accounted, h.unbroken, h.batch, h.queue, h.apart,
    fun hr => absurd hr (by simp [Fanout.step]),
    fun hs hf => tailOk_congr rfl rfl rfl (h.tail hs hf)⟩

theorem step_inv {s : Fanout} (h : Inv s) (cap : Nat) (e : FanoutEvent) (hk : KeepsSync s e) :
    Inv (s.step cap e) := by
  cases e with
  | produce data ptsUs isIdr => exact produce_inv h cap data ptsUs isIdr hk
  | pop => exact pop_inv h cap
  | skip => exact skip_inv h cap
  | createFails => exact createFails_inv h cap hk
  | resync => exact resync_inv h cap hk
  | push => exact push_inv h cap
  | take => exact take_inv h cap
  | send ok => exact send_inv h cap ok
  | connect => exact connect_inv h cap
  | finish => exact finish_inv h cap
  | register => exact register_inv h cap
  | close => exact close_inv h cap

/-- Of two frames handed over one after the other with a unit produced between
them that was not, the second is a keyframe. -/
def ResumesOnIdr (sent : List LpFrame) : Prop :=
  ∀ before a b rest, sent = before ++ a :: b :: rest →
    (∃ j, a.id < j ∧ j < b.id) → b.isIdr = true

theorem unbroken_resumes {sent : List LpFrame} (h : Unbroken sent) : ResumesOnIdr sent := by
  rintro before a b rest rfl ⟨j, ha, hb⟩
  have hab := (List.isChain_cons_cons.mp (List.isChain_append.mp h).2.1).1
  exact hab (by omega)

/-- In every run whose steps keep the viewer in sync, no delta frame is handed
over right after a gap. -/
theorem viewer_resumes_on_idr {slotCapacity slotCount : Nat} {fd : Option Nat} {ring : AuRing}
    (hc : auRingCreate slotCapacity slotCount fd = some ring) (bufferCapacity : Nat)
    (events : List FanoutEvent)
    (hk : Allowed (Fanout.step bufferCapacity) KeepsSync (.start ring) events) :
    ResumesOnIdr (run (Fanout.step bufferCapacity) (.start ring) events).sent := by
  have hinv := run_invariant_of_allowed (P := Inv) (start_inv hc)
    (fun _ e h hok => step_inv h bufferCapacity e hok) events hk
  exact unbroken_resumes hinv.unbroken

/-- The keyframe 1 waits in the mailbox when the flag for the lost unit 2 is
raised, so it ends the wait and the delta frame 3 goes out behind it. -/
def flagPassedByKeyframe : List FanoutEvent :=
  [.register, .connect, .produce [1] 0 true, .pop, .push, .produce [2, 2] 1 false,
   .produce [3] 2 false, .pop, .resync, .push, .take, .send true, .send true]

theorem queued_keyframe_breaks_resync :
    ¬∀ (slotCapacity slotCount : Nat) (fd : Option Nat) (ring : AuRing),
      auRingCreate slotCapacity slotCount fd = some ring →
        ∀ (bufferCapacity : Nat) (events : List FanoutEvent),
          ResumesOnIdr (run (Fanout.step bufferCapacity) (.start ring) events).sent := by
  intro h
  have hidr := h 1 4 none _ rfl 1 flagPassedByKeyframe [] ⟨1, true, 0, [1]⟩ ⟨3, false, 2, [3]⟩ []
    (by decide +kernel) ⟨2, by decide, by decide⟩
  simp at hidr

/-- The lost unit 2 is flagged behind an empty mailbox: frame 3 is dropped and
the viewer resumes on the keyframe 4. -/
def flagBehindEmptyMailbox : List FanoutEvent :=
  [.register, .connect, .produce [1] 0 true, .pop, .push, .take, .send true, .produce [2, 2] 1 false,
   .produce [3] 2 false, .pop, .resync, .push, .produce [4] 3 true, .pop, .push, .take, .send true,
   .send true]

theorem viewer_resumes_on_idr_example :
    ∃ ring, auRingCreate 1 4 none = some ring ∧
      (run (Fanout.step 1) (.start ring) flagBehindEmptyMailbox).sent =
        [⟨1, true, 0, [1]⟩, ⟨4, true, 3, [4]⟩] ∧
      ResumesOnIdr (run (Fanout.step 1) (.start ring) flagBehindEmptyMailbox).sent := by
  refine ⟨_, rfl, by decide +kernel, @viewer_resumes_on_idr 1 4 none _ rfl 1 _ ?_⟩
  refine ⟨trivial, trivial, ?_, trivial, trivial, trivial, trivial, ?_, ?_, trivial, ?_, trivial, ?_,
    trivial, trivial, trivial, trivial, trivial, trivial⟩
  · exact fun _ _ hfull => absurd hfull (by decide)
  · exact fun _ hfits => absurd hfits (by decide +kernel)
  · exact fun _ _ hfull => absurd hfull (by decide +kernel)
  · exact fun _ _ _ _ _ => .inr (by decide +kernel)
  · exact fun _ _ hfull => absurd hfull (by decide +kernel)

end Camstream.Proofs.Resync
