import Mathlib.Algebra.BigOperators.Group.Finset.Basic
import Mathlib.Algebra.Order.BigOperators.Group.Finset
import Camstream.Proofs.FrameDelivery

namespace Camstream.Proofs.KeepNewest
open Lib Mailbox Media FrameOwnership FrameContents FrameDelivery

/-- The frames that a consumer has taken, released or not. -/
def tookFrames (w : WatchedHub) (c : Nat) : List Nat := (taken (w.mail c)).map TakenFrame.frame

/-- What is taken and not released was taken by some consumer. -/
def Accounted (w : WatchedHub) : Prop :=
  ∀ f, w.threads.taken.count f ≤ ∑ c ∈ Finset.range w.threads.names, (tookFrames w c).count f

theorem tookFrames_grow (w : WatchedHub) (e : HubStep) (c f : Nat) :
    (tookFrames w c).count f ≤ (tookFrames (w.step e) c).count f := by
  simp [tookFrames, WatchedHub.step]

theorem step_names (s : HubThreads) (e : HubStep) : s.names ≤ (s.step e).names := by
  have hpublish : ∀ i p, s.names = (s.publisherStep i p e).names := by
    intro i p
    unfold HubThreads.publisherStep
    split <;> try split
    all_goals first
      | rfl
      | (split <;> rfl)
  cases e with
  | fill i | lock i | deliver i | release i =>
    simp only [HubThreads.step]
    split
    · exact Nat.le_of_eq (hpublish _ _)
    · exact Nat.le_refl _
  | acquire data info =>
    simp only [HubThreads.step]
    split
    · exact Nat.le_refl _
    · split <;> exact Nat.le_refl _
  | _ =>
    simp only [HubThreads.step]
    split <;> simp

/-- Only a take adds to what is taken. -/
theorem step_taken (s : HubThreads) (e : HubStep) (f : Nat) :
    (s.step e).taken.count f ≤ s.taken.count f ∨
      ∃ c ∈ s.hub.consumers ++ s.leaving, e = .take c ∧
        (s.step e).taken = s.taken ++ (s.hub.consumer c).slot.toList := by
  have hpublish : ∀ i p, s.taken = (s.publisherStep i p e).taken := by
    intro i p
    unfold HubThreads.publisherStep
    split <;> try split
    all_goals first
      | rfl
      | (split <;> rfl)
  cases e with
  | fill i | lock i | deliver i | release i =>
    refine .inl ?_
    simp only [HubThreads.step]
    split
    · rw [← hpublish]
    · exact Nat.le_refl _
  | take c =>
    by_cases hc : c ∈ s.hub.consumers ++ s.leaving
    · refine .inr ⟨c, hc, rfl, ?_⟩
      simp only [HubThreads.step, if_pos hc]
      rfl
    · refine .inl ?_
      simp only [HubThreads.step, if_neg hc]
      exact Nat.le_refl _
  | unref g =>
    refine .inl ?_
    simp only [HubThreads.step]
    split
    · exact List.erase_sublist.count_le f
    · exact Nat.le_refl _
  | acquire data info =>
    refine .inl ?_
    simp only [HubThreads.step]
    split
    · exact Nat.le_refl _
    · split <;> exact Nat.le_refl _
  | _ =>
    refine .inl ?_
    simp only [HubThreads.step]
    split <;> exact Nat.le_refl _

theorem step_accounted {capacity count : Nat} {fits : Prop} (w : WatchedHub) (e : HubStep)
    (h : Delivering capacity count fits w) (ha : Accounted w) : Accounted (w.step e) := by
  intro f
  have hnames : Finset.range w.threads.names ⊆ Finset.range (w.threads.step e).names :=
    Finset.range_subset_range.mpr (step_names w.threads e)
  have hgrow : ∑ c ∈ Finset.range w.threads.names, (tookFrames (w.step e) c).count f ≤
      ∑ c ∈ Finset.range (w.threads.step e).names, (tookFrames (w.step e) c).count f :=
    Finset.sum_le_sum_of_subset hnames
  refine Nat.le_trans ?_ hgrow
  rcases step_taken w.threads e f with hless | ⟨c, hc, rfl, htaken⟩
  · have hsame := Finset.sum_le_sum fun c (_ : c ∈ Finset.range w.threads.names) =>
      tookFrames_grow w e c f
    exact Nat.le_trans hless (Nat.le_trans (ha f) hsame)
  · have hc' : c ∈ Finset.range w.threads.names := Finset.mem_range.mpr (h.owned.named c hc)
    have hone : (tookFrames (w.step (.take c)) c).count f =
        (tookFrames w c).count f + (w.threads.hub.consumer c).slot.toList.count f := by
      have hheard : w.threads.heard c (.take c) =
          [.took ((w.threads.hub.consumer c).slot.map (handed w.threads.hub.pool))] := by
        simp only [HubThreads.heard, frameHubTake, hc, and_self, if_true]
      simp only [tookFrames, WatchedHub.step, hheard, taken_append, taken_took, List.map_append,
        List.count_append]
      congr 2
      cases (w.threads.hub.consumer c).slot <;> rfl
    change (w.threads.step (.take c)).taken.count f ≤ _
    rw [htaken, List.count_append]
    have hbefore := ha f
    rw [← Finset.add_sum_erase _ _ hc'] at hbefore ⊢
    have hothers := Finset.sum_le_sum fun d (_ : d ∈ (Finset.range w.threads.names).erase c) =>
      tookFrames_grow w (.take c) d f
    omega

theorem run_accounted {capacity count : Nat} {hub : FrameHub}
    (h : frameHubCreate capacity count = some hub) (steps : List HubStep) :
    Accounted (run WatchedHub.step (.start hub) steps) := by
  refine (run_invariant (P := fun w => Delivering capacity count False w ∧ Accounted w) ?_ ?_ steps).2
  · refine ⟨start_delivering h, ?_⟩
    intro f
    simp [WatchedHub.start, HubThreads.start]
  · intro w e hw
    exact ⟨step_delivering w e hw.1 False.elim, step_accounted w e hw.1 hw.2⟩

/-- The mailboxes of different consumers, counted by consumer. -/
theorem mail_count (consumer : Nat → FrameHubConsumer) {cs : List Nat} (hn : cs.Nodup) {n : Nat}
    (hlt : ∀ c ∈ cs, c < n) (f : Nat) :
    (mail consumer cs).count f ≤ ∑ c ∈ Finset.range n, (consumer c).slot.toList.count f := by
  have hsum : (mail consumer cs).count f = ∑ c ∈ cs.toFinset, (consumer c).slot.toList.count f := by
    rw [List.sum_toFinset _ hn]
    clear hn hlt
    induction cs with
    | nil => rfl
    | cons c cs ih =>
      have hcons : mail consumer (c :: cs) = (consumer c).slot.toList ++ mail consumer cs := by
        cases hslot : (consumer c).slot <;> simp [mail, hslot]
      rw [hcons, List.count_append, List.map_cons, List.sum_cons, ih]
  rw [hsum]
  apply Finset.sum_le_sum_of_subset
  intro c hc
  exact Finset.mem_range.mpr (hlt c (List.mem_toFinset.mp hc))

/-- Every reference to a frame is a publish's, or one of those a consumer can have. -/
theorem refcount_retained {capacity count : Nat} {fits : Prop} {w : WatchedHub}
    (h : Delivering capacity count fits w) (ha : Accounted w) {f : Nat} (hf : f < count) :
    (w.threads.hub.pool.frames f).refcount ≤
      ((w.threads.publishers.map Publisher.frame).count f +
        ∑ c ∈ Finset.range w.threads.names, (w.retained c).count f : Nat) := by
  have hshares := h.owned.pool.shares
  rw [h.owned.count] at hshares
  rw [hshares.counts f (Finset.mem_range.mpr hf), held_eq, List.count_append, List.count_append]
  have hmail := mail_count w.threads.hub.consumer h.owned.nodup h.owned.named f
  have htaken := ha f
  have hsplit : ∑ c ∈ Finset.range w.threads.names, (w.retained c).count f =
      ∑ c ∈ Finset.range w.threads.names, (w.threads.hub.consumer c).slot.toList.count f +
        ∑ c ∈ Finset.range w.threads.names, (tookFrames w c).count f := by
    rw [← Finset.sum_add_distrib]
    apply Finset.sum_congr rfl
    intro c _
    exact List.count_append
  rw [hsplit]
  exact Int.ofNat_le.mpr (by omega)

theorem took_shows {fits : Prop} {log a b : List MailEvent} {r : TakenFrame}
    (h : Faithful (Shows fits) log) (hlog : log = a ++ .took (some r) :: b) :
    ∃ p, kept a = some p ∧ Shows fits r p := by
  have hrel := h a (some r) b hlog
  cases hkept : kept a with
  | none =>
    rw [hkept] at hrel
    cases hrel
  | some p =>
    rw [hkept] at hrel
    cases hrel with
    | some hshows => exact ⟨p, rfl, hshows⟩

theorem shows_number {fits : Prop} {r : TakenFrame} {p : Image} (h : Shows fits r p) :
    r.info.sequence = number p := by
  rw [h.info]
  rfl

/-- With rising numbers, what a mailbox keeps has the highest of those put there. -/
theorem newest_highest {a : List MailEvent} {p q : Image} (hkept : kept a = some p)
    (hputs : ((puts a).map number).Pairwise (· < ·)) (hq : .put q ∈ a) : number q ≤ number p := by
  obtain ⟨x, y, rfl, hput, -⟩ := kept_some hkept
  rcases List.mem_append.mp hq with hx | hy
  · rw [puts_append, List.map_append] at hputs
    have hbefore := (List.pairwise_append.mp hputs).2.2
    have hp : p ∈ puts (.put p :: y) := mem_puts.mpr List.mem_cons_self
    exact Std.le_of_lt (hbefore _ (List.mem_map_of_mem (mem_puts.mpr hx)) _ (List.mem_map_of_mem hp))
  · rcases List.mem_cons.mp hy with he | hy
    · cases he
      exact UInt64.le_refl _
    · exact absurd hy (hput q)

/-- Keep-newest delivery, in every interleaving of publishes, takes, releases,
subscriptions and their ends. A taken frame shows the image that was put in the mailbox
last, and nothing was taken since; where the sequence numbers of the publishes go up, in
the order in which they get the hub lock, those that a consumer takes do too, and what it
takes has the highest that it was sent; a take returns nothing only if whatever was put in
the mailbox was followed by an earlier take; a publish that ends has put its image, after
it began, in the mailbox of each consumer that was subscribed; every reference to a frame
is one of a publish in progress or one that a consumer can have, and a consumer that
takes nothing can have one frame at most. -/
theorem keep_newest_delivery {capacity count : Nat} {hub : FrameHub}
    (h : frameHubCreate capacity count = some hub) (steps : List HubStep) :
    let w := run WatchedHub.step (.start hub) steps
    w.threads = run HubThreads.step (.start hub) steps ∧
    (∀ c a r b, w.mail c = a ++ .took (some r) :: b →
      ∃ x p y, a = x ++ .put p :: y ∧ (∀ q, .put q ∉ y) ∧ (∀ r', .took r' ∉ y) ∧
        r.info = p.described ∧
        ((∀ e ∈ steps, Fits capacity e) → r.bytes.take p.data.length = p.data)) ∧
    (w.order.Pairwise (· < ·) → ∀ c,
      ((taken (w.mail c)).map fun r => r.info.sequence).Pairwise (· < ·) ∧
      ∀ a r b, w.mail c = a ++ .took (some r) :: b →
        ∀ q, .put q ∈ a → q.info.sequence ≤ r.info.sequence) ∧
    (∀ c a b, w.mail c = a ++ .took none :: b →
      ∀ x p y, a = x ++ .put p :: y → ∃ r, .took r ∈ y) ∧
    (∀ c a p b, w.mail c = a ++ .note (.ended p) :: b →
      ∃ x y, a = x ++ .note (.began p) :: y ∧ .put p ∈ y ∧ ∀ n, .note n ∉ y) ∧
    (∀ f < count, (w.threads.hub.pool.frames f).refcount ≤
      ((w.threads.publishers.map Publisher.frame).count f +
        ∑ c ∈ Finset.range w.threads.names, (w.retained c).count f : Nat)) ∧
    ∀ c, (∀ r, .took r ∉ w.mail c) → (w.retained c).length ≤ 1 := by
  intro w
  have hw : Delivering capacity count _ w := run_delivering h steps
  refine ⟨?_, ?_, ?_, ?_, ?_, ?_, ?_⟩
  · exact run_view (P := fun _ => True) trivial (fun _ _ _ => trivial) (fun _ _ _ => rfl) steps
  · intro c a r b hlog
    obtain ⟨p, hkept, hshows⟩ := took_shows (hw.boxed c).faithful hlog
    obtain ⟨x, y, ha, hput, htook⟩ := kept_some hkept
    exact ⟨x, p, y, ha, hput, htook, hshows.info, hshows.bytes⟩
  · intro horder c
    have hputs : ((puts (w.mail c)).map number).Pairwise (· < ·) :=
      horder.sublist (hw.boxed c).entered
    refine ⟨(hw.boxed c).faithful.rising (fun r p => shows_number) hputs, ?_⟩
    intro a r b hlog q hq
    obtain ⟨p, hkept, hshows⟩ := took_shows (hw.boxed c).faithful hlog
    rw [shows_number hshows]
    rw [hlog, puts_append, List.map_append] at hputs
    exact newest_highest hkept (List.pairwise_append.mp hputs).1 hq
  · intro c a b hlog x p y ha
    have hrel := (hw.boxed c).faithful a none b hlog
    cases hkept : kept a with
    | none => exact kept_none hkept ha
    | some q =>
      rw [hkept] at hrel
      cases hrel
  · intro c
    exact (hw.boxed c).served
  · intro f hf
    exact refcount_retained hw (run_accounted h steps) hf
  · intro c hno
    unfold WatchedHub.retained
    rw [taken_eq_nil hno, List.map_nil, List.append_nil]
    cases (w.threads.hub.consumer c).slot <;> simp

/-- Two consumers, of which the second misses the first image. -/
theorem keep_newest_two_speeds : ∃ hub, frameHubCreate 2 3 = some hub ∧
    let w := run WatchedHub.step (.start hub)
      [.subscribe, .subscribe, .acquire [7] { zeroInfo with sequence := 1 }, .fill 0, .lock 0,
        .deliver 0, .deliver 0, .take 0, .deliver 0, .release 0, .take 0,
        .acquire [8, 9] { zeroInfo with sequence := 2 }, .fill 0, .lock 0, .deliver 0, .deliver 0,
        .deliver 0, .release 0, .take 1, .take 0]
    ((taken (w.mail 0)).map fun r => r.info.sequence) = [1, 2] ∧
      ((taken (w.mail 1)).map fun r => r.info.sequence) = [2] ∧
      ∀ c, ((taken (w.mail c)).map fun r => r.info.sequence).Pairwise (· < ·) := by
  refine ⟨_, rfl, ?_⟩
  intro w
  obtain ⟨-, -, hrising, -⟩ := @keep_newest_delivery 2 3 _ rfl
    [.subscribe, .subscribe, .acquire [7] { zeroInfo with sequence := 1 }, .fill 0, .lock 0,
      .deliver 0, .deliver 0, .take 0, .deliver 0, .release 0, .take 0,
      .acquire [8, 9] { zeroInfo with sequence := 2 }, .fill 0, .lock 0, .deliver 0, .deliver 0,
      .deliver 0, .release 0, .take 1, .take 0]
  exact ⟨by decide, by decide, fun c => (hrising (by decide) c).1⟩

/-- One producer: `frame_hub_publish` is called again when the last call has returned, with
a sequence number above those of the images published before. -/
def OneProducer (w : WatchedHub) (e : HubStep) : Prop :=
  ∀ data info, e = .acquire data info →
    w.threads.publishers = [] ∧ ∀ n ∈ w.order, n < info.sequence

/-- The publish in progress, if it has not entered yet, is above those that did. -/
def InTurn (w : WatchedHub) : Prop :=
  w.order.Pairwise (· < ·) ∧ w.threads.publishers.length ≤ 1 ∧
    ∀ p ∈ w.threads.publishers, p.phase = .acquired ∨ p.phase = .filled →
      ∀ n ∈ w.order, n < p.info.sequence

theorem InTurn.quiet {w : WatchedHub} {e : HubStep} (h : InTurn w)
    (hentering : w.threads.entering e = none)
    (hpublishers : (w.threads.step e).publishers.Sublist w.threads.publishers) :
    InTurn (w.step e) := by
  have horder : (w.step e).order = w.order := by simp [WatchedHub.step, hentering]
  refine ⟨horder ▸ h.1, Nat.le_trans hpublishers.length_le h.2.1, ?_⟩
  rw [horder]
  intro p hp
  exact h.2.2 p (hpublishers.subset hp)

/-- The one publish in progress goes on. -/
theorem InTurn.advance {w : WatchedHub} {e : HubStep} {p : Publisher} (h : InTurn w)
    (phase : PublishPhase) (hone : w.threads.publishers = [p]) (hentering : w.threads.entering e = none)
    (hset : (w.threads.step e).publishers = [{ p with phase }])
    (hphase : phase = .acquired ∨ phase = .filled → p.phase = .acquired ∨ p.phase = .filled) :
    InTurn (w.step e) := by
  have horder : (w.step e).order = w.order := by simp [WatchedHub.step, hentering]
  have hpublishers : (w.step e).threads.publishers = [{ p with phase }] := hset
  refine ⟨horder ▸ h.1, by simp [hpublishers], ?_⟩
  rw [horder, hpublishers]
  intro q hq hwaits
  obtain rfl := List.mem_singleton.mp hq
  exact h.2.2 p (by simp [hone]) (hphase hwaits)

/-- It gets the hub lock. -/
theorem InTurn.enter {w : WatchedHub} {e : HubStep} {p : Publisher} (h : InTurn w)
    (rest : List Nat) (hone : w.threads.publishers = [p]) (hwaits : p.phase = .filled)
    (hentering : w.threads.entering e = some p)
    (hset : (w.threads.step e).publishers = [{ p with phase := .delivering rest }]) :
    InTurn (w.step e) := by
  have horder : (w.step e).order = w.order ++ [p.info.sequence] := by
    simp [WatchedHub.step, hentering]
  have hpublishers : (w.step e).threads.publishers = [{ p with phase := .delivering rest }] := hset
  refine ⟨?_, by simp [hpublishers], ?_⟩
  · rw [horder]
    refine List.pairwise_append.mpr ⟨h.1, List.pairwise_singleton _ _, ?_⟩
    intro n hn m hm
    obtain rfl := List.mem_singleton.mp hm
    exact h.2.2 p (by simp [hone]) (.inr hwaits) n hn
  · rw [hpublishers]
    intro q hq hphase
    obtain rfl := List.mem_singleton.mp hq
    simp at hphase

theorem InTurn.alone {w : WatchedHub} (h : InTurn w) {i : Nat} {p : Publisher}
    (hget : w.threads.publishers[i]? = some p) : i = 0 ∧ w.threads.publishers = [p] := by
  obtain ⟨hi, hp⟩ := List.getElem?_eq_some_iff.mp hget
  have hi0 : i = 0 := by
    have hone := h.2.1
    omega
  subst hi0
  obtain ⟨q, hq⟩ := List.length_eq_one_iff.mp (Nat.le_antisymm h.2.1 hi)
  simp only [hq, List.getElem_cons_zero] at hp
  exact ⟨rfl, hp ▸ hq⟩

theorem step_inTurn (w : WatchedHub) (e : HubStep) (h : InTurn w) (he : OneProducer w e) :
    InTurn (w.step e) := by
  cases e with
  | acquire data info =>
    obtain ⟨hnone, habove⟩ := he data info rfl
    simp only [WatchedHub.step, HubThreads.step, HubThreads.entering]
    by_cases hdata : data.length = 0
    · simp [InTurn, hdata, hnone, h.1]
    · cases ha : framePoolAcquire w.threads.hub.pool with
      | none => simp [InTurn, hdata, hnone, h.1]
      | some r => simpa [InTurn, hdata, hnone, h.1] using habove
  | fill i =>
    cases hget : w.threads.publishers[i]? with
    | none =>
      refine h.quiet rfl ?_
      simp [HubThreads.step, hget]
    | some p =>
      obtain ⟨rfl, hone⟩ := h.alone hget
      cases hphase : p.phase with
      | acquired =>
        refine h.advance .filled hone rfl ?_ fun _ => .inl hphase
        simp [HubThreads.step, HubThreads.publisherStep, HubThreads.setPhase, hone, hphase]
      | _ =>
        refine h.quiet rfl ?_
        simp [HubThreads.step, HubThreads.publisherStep, hone, hphase]
  | lock i =>
    cases hget : w.threads.publishers[i]? with
    | none =>
      refine h.quiet (by simp [HubThreads.entering, hget]) ?_
      simp [HubThreads.step, hget]
    | some p =>
      obtain ⟨rfl, hone⟩ := h.alone hget
      by_cases hphase : p.phase = .filled
      · have hlock : w.threads.hubLocked = false := by
          simp [HubThreads.hubLocked, hone, Publisher.holdsLock, hphase]
        refine h.enter w.threads.hub.consumers hone hphase ?_ ?_
        · simp [HubThreads.entering, hone, hphase, hlock, Option.filter]
        · simp [HubThreads.step, HubThreads.publisherStep, HubThreads.setPhase, hone, hphase, hlock]
      · refine h.quiet (by simp [HubThreads.entering, hone, hphase, Option.filter]) ?_
        simp only [HubThreads.step, hget, HubThreads.publisherStep]
        cases hother : p.phase with
        | filled => exact absurd hother hphase
        | _ => exact .refl _
  | deliver i =>
    cases hget : w.threads.publishers[i]? with
    | none =>
      refine h.quiet rfl ?_
      simp [HubThreads.step, hget]
    | some p =>
      obtain ⟨rfl, hone⟩ := h.alone hget
      cases hphase : p.phase with
      | delivering cs =>
        cases cs with
        | nil =>
          refine h.advance .unlocked hone rfl ?_ (by simp)
          simp [HubThreads.step, HubThreads.publisherStep, HubThreads.setPhase, hone, hphase]
        | cons c rest =>
          refine h.advance (.delivering rest) hone rfl ?_ (by simp)
          simp [HubThreads.step, HubThreads.publisherStep, HubThreads.setPhase, hone, hphase]
      | _ =>
        refine h.quiet rfl ?_
        simp [HubThreads.step, HubThreads.publisherStep, hone, hphase]
  | release i =>
    refine h.quiet rfl ?_
    cases hget : w.threads.publishers[i]? with
    | none => simp [HubThreads.step, hget]
    | some p =>
      simp only [HubThreads.step, hget, HubThreads.publisherStep]
      cases p.phase with
      | unlocked => exact List.eraseIdx_sublist _ _
      | _ => exact .refl _
  | _ =>
    refine h.quiet rfl ?_
    simp only [HubThreads.step]
    split <;> exact .refl _

/-- The producer that the hub is written for keeps the order. -/
theorem one_producer_rising (hub : FrameHub) (steps : List HubStep)
    (h : Allowed WatchedHub.step OneProducer (.start hub) steps) :
    (run WatchedHub.step (.start hub) steps).order.Pairwise (· < ·) := by
  refine (run_invariant_of_allowed (P := InTurn) ?_ step_inTurn steps h).1
  exact ⟨.nil, Nat.zero_le _, by simp [WatchedHub.start, HubThreads.start]⟩

end Camstream.Proofs.KeepNewest
