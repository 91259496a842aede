import Camstream.Proofs.FrameContents

namespace Camstream.Proofs.FrameDelivery
open Lib Mailbox Media FrameOwnership FrameContents

/-- Every publish that ended had begun and reached the mailbox, with no other publish
in between. -/
def Served (log : List MailEvent) : Prop :=
  ∀ a p b, log = a ++ .note (.ended p) :: b →
    ∃ x y, a = x ++ .note (.began p) :: y ∧ .put p ∈ y ∧ ∀ n, .note n ∉ y

theorem Served.nil : Served [] := by
  intro a p b h
  simp at h

theorem Served.concat {log : List MailEvent} {e : MailEvent} (h : Served log)
    (he : ∀ p, e = .note (.ended p) →
      ∃ x y, log = x ++ .note (.began p) :: y ∧ .put p ∈ y ∧ ∀ n, .note n ∉ y) :
    Served (log ++ [e]) := by
  intro a p b hlog
  rcases split_concat hlog with ⟨rfl, hended, -⟩ | ⟨b', -, hlog'⟩
  · exact he p hended.symm
  · exact h a p b' hlog'

/-- The sequence number of a publish. -/
abbrev number (p : Image) : UInt64 := p.info.sequence

/-- What a consumer knows of the publish that holds the hub lock and has `rest` still
to serve. -/
structure Turn (order : List UInt64) (log : List MailEvent) (c : Nat) (p : Image)
    (rest : List Nat) : Prop where
  begun : ∃ x y, log = x ++ .note (.began p) :: y ∧ (∀ n, .note n ∉ y) ∧ (c ∈ rest ∨ .put p ∈ y)
  room : c ∈ rest → ((puts log).map number ++ [number p]).Sublist order

theorem Turn.took {order : List UInt64} {log : List MailEvent} {c : Nat} {p : Image}
    {rest : List Nat} (h : Turn order log c p rest) (r : Option TakenFrame) :
    Turn order (log ++ [.took r]) c p rest := by
  obtain ⟨x, y, hlog, hnote, hput⟩ := h.begun
  refine ⟨⟨x, y ++ [.took r], by simp [hlog], by simpa using hnote, ?_⟩, ?_⟩
  · exact hput.imp_right fun hp => List.mem_append_left _ hp
  · rw [puts_append, puts_took, List.append_nil]
    exact h.room

/-- The publishes in progress. -/
structure Publishing (capacity : Nat) (fits : Prop) (s : HubThreads) : Prop where
  lone : s.publishers.countP Publisher.holdsLock ≤ 1
  nodup : ∀ p ∈ s.publishers, ∀ rest, p.phase = .delivering rest → rest.Nodup
  fit : fits → ∀ p ∈ s.publishers, p.data.length ≤ capacity
  written : ∀ p ∈ s.publishers, p.phase ≠ .acquired →
    Shows fits (handed s.hub.pool p.frame) p.image

/-- The mailbox of `c` and its history. -/
structure Boxed (fits : Prop) (s : HubThreads) (order : List UInt64) (log : List MailEvent)
    (c : Nat) : Prop where
  slot : c ∈ s.hub.consumers ++ s.leaving →
    Option.Rel (fun f p => Shows fits (handed s.hub.pool f) p) (s.hub.consumer c).slot (kept log)
  faithful : Faithful (Shows fits) log
  served : Served log
  entered : ((puts log).map number).Sublist order
  turn : ∀ p ∈ s.publishers, ∀ rest, p.phase = .delivering rest → c ∈ s.hub.consumers →
    Turn order log c p.image rest
  fresh : s.names ≤ c → log = []

/-- The invariant of the hub with its histories. -/
structure Delivering (capacity count : Nat) (fits : Prop) (w : WatchedHub) : Prop where
  owned : Owned capacity count w.threads
  publishing : Publishing capacity fits w.threads
  boxed : ∀ c, Boxed fits w.threads w.order (w.mail c) c

theorem start_delivering {capacity count : Nat} {fits : Prop} {hub : FrameHub}
    (h : frameHubCreate capacity count = some hub) :
    Delivering capacity count fits (.start hub) := by
  obtain ⟨pool, -, rfl⟩ := Option.map_eq_some_iff.mp h
  refine ⟨start_owned h, ⟨by simp [WatchedHub.start, HubThreads.start], ?_, ?_, ?_⟩, ?_⟩
  · simp [WatchedHub.start, HubThreads.start]
  · simp [WatchedHub.start, HubThreads.start]
  · simp [WatchedHub.start, HubThreads.start]
  · intro c
    exact ⟨by simp [WatchedHub.start, HubThreads.start], .nil, .nil, .slnil,
      by simp [WatchedHub.start, HubThreads.start], fun _ => rfl⟩

section Step
variable {capacity count : Nat} {fits : Prop} {s : HubThreads} {i : Nat} {p : Publisher}

theorem set_perm (x : Publisher) (hp : s.publishers[i]? = some p) :
    (s.publishers.set i x).Perm (x :: s.publishers.eraseIdx i) := by
  obtain ⟨hi, -⟩ := List.getElem?_eq_some_iff.mp hp
  have hi : i < (s.publishers.set i x).length := by simpa using hi
  have hperm := List.getElem_cons_eraseIdx_perm hi
  rw [List.getElem_set_self, List.eraseIdx_set_eq] at hperm
  exact hperm.symm

theorem mem_set_publishers {x q : Publisher} (hp : s.publishers[i]? = some p)
    (hq : q ∈ s.publishers.set i x) : q = x ∨ q ∈ s.publishers.eraseIdx i :=
  List.mem_cons.mp ((set_perm x hp).mem_iff.mp hq)

theorem mem_others {q : Publisher} (hq : q ∈ s.publishers.eraseIdx i) : q ∈ s.publishers :=
  (List.eraseIdx_sublist _ _).subset hq

theorem publishers_perm (hp : s.publishers[i]? = some p) :
    (p :: s.publishers.eraseIdx i).Perm s.publishers := by
  obtain ⟨hi, hget⟩ := List.getElem?_eq_some_iff.mp hp
  have hperm := List.getElem_cons_eraseIdx_perm hi
  rwa [hget] at hperm

/-- Two publishes do not hold the hub lock at once. -/
theorem Publishing.others_wait (h : Publishing capacity fits s) (hp : s.publishers[i]? = some p)
    (hlock : p.holdsLock = true) : (s.publishers.eraseIdx i).countP Publisher.holdsLock = 0 := by
  have hone := h.lone
  rw [← (publishers_perm hp).countP_eq, List.countP_cons_of_pos hlock] at hone
  omega

theorem not_delivering_of_count {ps : List Publisher} (h : ps.countP Publisher.holdsLock = 0)
    {q : Publisher} (hq : q ∈ ps) (rest : List Nat) : q.phase ≠ .delivering rest := by
  intro hphase
  have hno := List.countP_eq_zero.mp h q hq
  simp [Publisher.holdsLock, hphase] at hno

theorem unlocked_count (hlock : s.hubLocked = false) (i : Nat) :
    (s.publishers.eraseIdx i).countP Publisher.holdsLock = 0 := by
  apply List.countP_eq_zero.mpr
  intro q hq hholds
  have hany : s.hubLocked = true := List.any_eq_true.mpr ⟨q, mem_others hq, hholds⟩
  rw [hlock] at hany
  cases hany

/-- A publish goes on to its next phase. -/
theorem Publishing.advance (h : Publishing capacity fits s) (hp : s.publishers[i]? = some p)
    {phase : PublishPhase} {s' : HubThreads}
    (hset : s'.publishers = s.publishers.set i { p with phase })
    (halone : ∀ rest, phase = .delivering rest → rest.Nodup ∧
      (s.publishers.eraseIdx i).countP Publisher.holdsLock = 0)
    (hwritten : ∀ q ∈ s.publishers, q.phase ≠ .acquired →
      Shows fits (handed s'.hub.pool q.frame) q.image)
    (hnow : Shows fits (handed s'.hub.pool p.frame) p.image) : Publishing capacity fits s' := by
  have hsplit : ∀ q ∈ s'.publishers, q = { p with phase } ∨ q ∈ s.publishers.eraseIdx i := by
    intro q hq
    exact mem_set_publishers hp (hset ▸ hq)
  refine ⟨?_, ?_, ?_, ?_⟩
  · rw [hset, (set_perm _ hp).countP_eq, List.countP_cons]
    have hone := h.lone
    rw [← (publishers_perm hp).countP_eq, List.countP_cons] at hone
    cases hphase : phase with
    | delivering rest =>
      rw [(halone rest hphase).2]
      split <;> omega
    | _ =>
      simp only [Publisher.holdsLock, Bool.false_eq_true, if_false]
      omega
  · intro q hq rest hphase
    rcases hsplit q hq with rfl | hq
    · exact (halone rest hphase).1
    · exact h.nodup q (mem_others hq) rest hphase
  · intro hfits q hq
    rcases hsplit q hq with rfl | hq
    · exact h.fit hfits p (List.mem_of_getElem? hp)
    · exact h.fit hfits q (mem_others hq)
  · intro q hq hphase
    rcases hsplit q hq with rfl | hq
    · exact hnow
    · exact hwritten q (mem_others hq) hphase

/-- Steps that bring no publish on. -/
theorem Publishing.quiet {s' : HubThreads} (h : Publishing capacity fits s)
    (hsub : s'.publishers.Sublist s.publishers)
    (hwritten : ∀ q ∈ s.publishers, q.phase ≠ .acquired →
      Shows fits (handed s'.hub.pool q.frame) q.image) : Publishing capacity fits s' :=
  ⟨Nat.le_trans hsub.countP_le h.lone, fun q hq => h.nodup q (hsub.subset hq),
    fun hfits q hq => h.fit hfits q (hsub.subset hq), fun q hq => hwritten q (hsub.subset hq)⟩

/-- After the copy the frame shows its image. -/
theorem fillFrame_shows (h : Owned capacity count s) (hp : Publishing capacity fits s)
    (hmem : p ∈ s.publishers) : Shows fits (handed (fillFrame s.hub.pool p) p.frame) p.image := by
  refine ⟨fillFrame_info s.hub.pool p, ?_⟩
  intro hfits
  exact fillFrame_bytes_self s.hub.pool p (h.capacity ▸ hp.fit hfits p hmem)

theorem step_written (h : Owned capacity count s) (hp : Publishing capacity fits s) (e : HubStep) :
    ∀ q ∈ s.publishers, q.phase ≠ .acquired →
      Shows fits (handed (s.step e).hub.pool q.frame) q.image := by
  intro q hq hphase
  exact step_shows h e (publisher_held hq) (h.not_acquired hq hphase) hp.fit (hp.written q hq hphase)

theorem step_publishing (h : Owned capacity count s) (hp : Publishing capacity fits s)
    (e : HubStep) (he : fits → Fits capacity e) : Publishing capacity fits (s.step e) := by
  have hwritten := step_written h hp e
  cases e with
  | acquire data info =>
    simp only [HubThreads.step] at hwritten ⊢
    split at hwritten
    · rename_i hempty
      rw [if_pos hempty]
      exact hp.quiet (.refl _) hwritten
    · rename_i hdata
      rw [if_neg hdata]
      cases ha : framePoolAcquire s.hub.pool with
      | none =>
        simp only [ha] at hwritten
        exact hp.quiet (.refl _) hwritten
      | some r =>
        simp only [ha] at hwritten
        refine ⟨?_, ?_, ?_, ?_⟩
        · rw [List.countP_append]
          simpa [Publisher.holdsLock] using hp.lone
        · intro q hq rest hphase
          rcases List.mem_append.mp hq with hq | hq
          · exact hp.nodup q hq rest hphase
          · obtain rfl := List.mem_singleton.mp hq
            cases hphase
        · intro hfits q hq
          rcases List.mem_append.mp hq with hq | hq
          · exact hp.fit hfits q hq
          · obtain rfl := List.mem_singleton.mp hq
            exact he hfits data info rfl
        · intro q hq hphase
          rcases List.mem_append.mp hq with hq | hq
          · exact hwritten q hq hphase
          · obtain rfl := List.mem_singleton.mp hq
            exact absurd rfl hphase
  | fill i =>
    simp only [HubThreads.step] at hwritten ⊢
    cases hget : s.publishers[i]? with
    | none => exact hp
    | some p =>
      simp only [hget, HubThreads.publisherStep] at hwritten ⊢
      cases hphase : p.phase with
      | acquired =>
        simp only [hphase] at hwritten
        exact hp.advance hget rfl (by simp) hwritten
          (fillFrame_shows h hp (List.mem_of_getElem? hget))
      | _ => exact hp
  | lock i =>
    simp only [HubThreads.step]
    cases hget : s.publishers[i]? with
    | none => exact hp
    | some p =>
      simp only [HubThreads.publisherStep]
      cases hphase : p.phase with
      | filled =>
        dsimp only
        split
        · exact hp
        · rename_i hlock
          have hlock : s.hubLocked = false := by simpa using hlock
          refine hp.advance hget rfl ?_ hp.written (hp.written p (List.mem_of_getElem? hget)
            (by simp [hphase]))
          intro rest hrest
          cases hrest
          exact ⟨(List.nodup_append.mp h.nodup).1, unlocked_count hlock i⟩
      | _ => exact hp
  | deliver i =>
    simp only [HubThreads.step] at hwritten ⊢
    cases hget : s.publishers[i]? with
    | none => exact hp
    | some p =>
      simp only [hget, HubThreads.publisherStep] at hwritten ⊢
      have hmem := List.mem_of_getElem? hget
      cases hphase : p.phase with
      | delivering cs =>
        cases cs with
        | nil =>
          exact hp.advance hget rfl (by simp) hp.written (hp.written p hmem (by simp [hphase]))
        | cons c rest =>
          simp only [hphase] at hwritten
          refine hp.advance hget rfl ?_ hwritten (hwritten p hmem (by simp [hphase]))
          intro rest' hrest
          cases hrest
          exact ⟨(List.nodup_cons.mp (hp.nodup p hmem _ hphase)).2,
            hp.others_wait hget (by simp [Publisher.holdsLock, hphase])⟩
      | _ => exact hp
  | release i =>
    simp only [HubThreads.step] at hwritten ⊢
    cases hget : s.publishers[i]? with
    | none => exact hp
    | some p =>
      simp only [hget, HubThreads.publisherStep] at hwritten ⊢
      cases hphase : p.phase with
      | unlocked =>
        simp only [hphase] at hwritten
        exact hp.quiet (List.eraseIdx_sublist _ _) hwritten
      | _ => exact hp
  | _ =>
    refine hp.quiet ?_ hwritten
    simp only [HubThreads.step]
    split <;> exact .refl _

/-- A step that leaves the consumer `c` and its mailbox alone. -/
structure Quiet (c : Nat) (s s' : HubThreads) : Prop where
  listed : c ∈ s'.hub.consumers ++ s'.leaving → c ∈ s.hub.consumers ++ s.leaving
  slot : c ∈ s'.hub.consumers ++ s'.leaving →
    (s'.hub.consumer c).slot = (s.hub.consumer c).slot
  consumers : c ∈ s'.hub.consumers → c ∈ s.hub.consumers
  publishers : ∀ q ∈ s'.publishers, ∀ rest, q.phase = .delivering rest → q ∈ s.publishers
  names : s.names ≤ s'.names

theorem Quiet.refl (c : Nat) (s : HubThreads) : Quiet c s s :=
  ⟨id, fun _ => rfl, id, fun _ hq _ _ => hq, Nat.le_refl _⟩

variable {order order' : List UInt64} {log : List MailEvent} {c : Nat}

/-- The frame in a mailbox shows its image after the step too. -/
theorem Boxed.slot_after (hb : Boxed fits s order log c) (h : Owned capacity count s)
    (hp : Publishing capacity fits s) (e : HubStep) (hc : c ∈ s.hub.consumers ++ s.leaving) :
    Option.Rel (fun f p => Shows fits (handed (s.step e).hub.pool f) p) (s.hub.consumer c).slot
      (kept log) := by
  refine rel_imp (hb.slot hc) ?_
  intro f p hslot hshows
  obtain ⟨hheld, hfilled⟩ := slot_held h hc hslot
  exact step_shows h e hheld hfilled hp.fit hshows

theorem Boxed.keep (hb : Boxed fits s order log c) (h : Owned capacity count s)
    (hp : Publishing capacity fits s) (e : HubStep)
    (hlisted : c ∈ (s.step e).hub.consumers ++ (s.step e).leaving →
      c ∈ s.hub.consumers ++ s.leaving)
    (hslot : c ∈ (s.step e).hub.consumers ++ (s.step e).leaving →
      ((s.step e).hub.consumer c).slot = (s.hub.consumer c).slot)
    (hturn : ∀ q ∈ (s.step e).publishers, ∀ rest, q.phase = .delivering rest →
      c ∈ (s.step e).hub.consumers → Turn order' log c q.image rest)
    (horder : order.Sublist order') (hnames : s.names ≤ (s.step e).names) :
    Boxed fits (s.step e) order' log c where
  slot hc := by
    rw [hslot hc]
    exact hb.slot_after h hp e (hlisted hc)
  faithful := hb.faithful
  served := hb.served
  entered := hb.entered.trans horder
  turn := hturn
  fresh hc := hb.fresh (Nat.le_trans hnames hc)

theorem Boxed.silent (hb : Boxed fits s order log c) (h : Owned capacity count s)
    (hp : Publishing capacity fits s) (e : HubStep) (hquiet : Quiet c s (s.step e)) :
    Boxed fits (s.step e) order log c :=
  hb.keep h hp e hquiet.listed hquiet.slot
    (fun q hq rest hphase hc =>
      hb.turn q (hquiet.publishers q hq rest hphase) rest hphase (hquiet.consumers hc))
    (.refl _) hquiet.names

/-- A taker leaves with the frame that shows what the mailbox kept. -/
theorem take_boxed (hb : Boxed fits s order log c) (h : Owned capacity count s)
    (hc : c ∈ s.hub.consumers ++ s.leaving) :
    Boxed fits (s.step (.take c)) order
      (log ++ [.took ((frameHubTake s.hub c).1.map (handed s.hub.pool))]) c := by
  simp only [HubThreads.step, if_pos hc]
  refine ⟨?_, ?_, ?_, ?_, ?_, ?_⟩
  · intro _
    simp [frameHubTake, keep]
  · refine hb.faithful.concat ?_
    intro r hr
    cases hr
    exact rel_map (hb.slot hc)
  · exact hb.served.concat (by simp)
  · rw [puts_append, puts_took, List.append_nil]
    exact hb.entered
  · intro q hq rest hphase hmem
    exact (hb.turn q hq rest hphase hmem).took _
  · intro hnames
    exact absurd (h.named c hc) (Nat.not_lt.mpr hnames)

/-- The publish that gets the hub lock has all consumers before it. -/
theorem lock_boxed (hb : Boxed fits s order log c) (h : Owned capacity count s)
    (hp : Publishing capacity fits s) (hget : s.publishers[i]? = some p)
    (hphase : p.phase = .filled) (hlock : s.hubLocked = false) :
    Boxed fits (s.step (.lock i)) (order ++ [number p.image])
      (log ++ if c ∈ s.hub.consumers then [.note (.began p.image)] else []) c := by
  have hstep : s.step (.lock i) = s.setPhase i p (.delivering s.hub.consumers) := by
    simp [HubThreads.step, HubThreads.publisherStep, hget, hphase, hlock]
  have hmore : order.Sublist (order ++ [number p.image]) := List.sublist_append_left _ _
  by_cases hc : c ∈ s.hub.consumers
  · rw [if_pos hc, hstep]
    refine ⟨?_, ?_, ?_, ?_, ?_, ?_⟩
    · rw [kept_concat]
      exact hb.slot
    · exact hb.faithful.concat (by simp)
    · exact hb.served.concat (by simp)
    · rw [puts_append, puts_note, List.append_nil]
      exact hb.entered.trans hmore
    · intro q hq rest hdelivering _
      rcases mem_set_publishers hget hq with rfl | hq
      · cases hdelivering
        refine ⟨⟨log, [], rfl, by simp, .inl hc⟩, ?_⟩
        intro _
        rw [puts_append, puts_note, List.append_nil]
        exact hb.entered.append_right _
      · exact absurd hdelivering (not_delivering hlock (mem_others hq) rest)
    · intro hnames
      exact absurd (h.named c (List.mem_append_left _ hc)) (Nat.not_lt.mpr hnames)
  · rw [if_neg hc, List.append_nil]
    refine hb.keep h hp _ ?_ ?_ ?_ hmore ?_
    · rw [hstep]
      exact id
    · rw [hstep]
      intro _
      rfl
    · intro q _ rest _ hmem
      rw [hstep] at hmem
      exact absurd hmem hc
    · rw [hstep]
      exact Nat.le_refl _

/-- The publish serves one consumer, whose mailbox then has its frame. -/
theorem serve_boxed (hb : Boxed fits s order log c) (h : Owned capacity count s)
    (hp : Publishing capacity fits s) (hget : s.publishers[i]? = some p) {d : Nat}
    {rest : List Nat} (hphase : p.phase = .delivering (d :: rest)) :
    Boxed fits (s.step (.deliver i)) order (log ++ if d = c then [.put p.image] else []) c := by
  have hmem := List.mem_of_getElem? hget
  have hd : d ∈ s.hub.consumers := h.cursor p hmem _ hphase d List.mem_cons_self
  have hnodup := List.nodup_cons.mp (hp.nodup p hmem _ hphase)
  have hothers := hp.others_wait hget (by simp [Publisher.holdsLock, hphase])
  have hwritten := step_written h hp (.deliver i) p hmem (by simp [hphase])
  have hpublishers : (s.step (.deliver i)).publishers =
      s.publishers.set i { p with phase := .delivering rest } := by
    simp [HubThreads.step, HubThreads.publisherStep, hget, hphase, HubThreads.setPhase]
  have hconsumers : (s.step (.deliver i)).hub.consumers = s.hub.consumers := by
    simp [HubThreads.step, HubThreads.publisherStep, hget, hphase, deliver, h.active d hd]
  have hconsumer : (s.step (.deliver i)).hub.consumer =
      Function.update s.hub.consumer d { s.hub.consumer d with slot := some p.frame } := by
    simp [HubThreads.step, HubThreads.publisherStep, hget, hphase, deliver, h.active d hd]
  have hleaving : (s.step (.deliver i)).leaving = s.leaving := by
    simp [HubThreads.step, HubThreads.publisherStep, hget, hphase, HubThreads.setPhase]
  have hnames : (s.step (.deliver i)).names = s.names := by
    simp [HubThreads.step, HubThreads.publisherStep, hget, hphase, HubThreads.setPhase]
  by_cases hc : d = c
  · subst hc
    have hturn := hb.turn p hmem _ hphase hd
    rw [if_pos rfl]
    refine ⟨?_, ?_, ?_, ?_, ?_, ?_⟩
    · intro _
      rw [hconsumer, Function.update_self, kept_concat]
      exact .some hwritten
    · exact hb.faithful.concat (by simp)
    · exact hb.served.concat (by simp)
    · rw [puts_append, puts_put, List.map_append]
      exact hturn.room List.mem_cons_self
    · intro q hq rest' hdelivering _
      rw [hpublishers] at hq
      rcases mem_set_publishers hget hq with rfl | hq
      · cases hdelivering
        obtain ⟨x, y, hlog, hnote, -⟩ := hturn.begun
        refine ⟨⟨x, y ++ [.put p.image], by simp [hlog, Publisher.image], by simpa using hnote, .inr ?_⟩, ?_⟩
        · exact List.mem_append_right _ List.mem_cons_self
        · intro hmore
          exact absurd hmore hnodup.1
      · exact absurd hdelivering (not_delivering_of_count hothers hq rest')
    · intro hnew
      rw [hnames] at hnew
      exact absurd (h.named d (List.mem_append_left _ hd)) (Nat.not_lt.mpr hnew)
  · rw [if_neg hc, List.append_nil]
    refine hb.keep h hp _ ?_ ?_ ?_ (.refl _) (Nat.le_of_eq hnames.symm)
    · rw [hconsumers, hleaving]
      exact id
    · intro _
      rw [hconsumer, Function.update_of_ne (Ne.symm hc)]
    · intro q hq rest' hdelivering hlisted
      rw [hpublishers] at hq
      rw [hconsumers] at hlisted
      rcases mem_set_publishers hget hq with rfl | hq
      · cases hdelivering
        have hturn := hb.turn p hmem _ hphase hlisted
        obtain ⟨x, y, hlog, hnote, hput⟩ := hturn.begun
        refine ⟨⟨x, y, hlog, hnote, hput.imp_left ?_⟩, ?_⟩
        · intro hc'
          exact List.mem_of_ne_of_mem (Ne.symm hc) hc'
        · intro hc'
          exact hturn.room (List.mem_cons_of_mem d hc')
      · exact absurd hdelivering (not_delivering_of_count hothers hq rest')

/-- The publish has served all and gives the hub lock back. -/
theorem unlock_boxed (hb : Boxed fits s order log c) (h : Owned capacity count s)
    (hp : Publishing capacity fits s) (hget : s.publishers[i]? = some p)
    (hphase : p.phase = .delivering []) :
    Boxed fits (s.step (.deliver i)) order
      (log ++ if c ∈ s.hub.consumers then [.note (.ended p.image)] else []) c := by
  have hmem := List.mem_of_getElem? hget
  have hothers := hp.others_wait hget (by simp [Publisher.holdsLock, hphase])
  have hstep : s.step (.deliver i) = s.setPhase i p .unlocked := by
    simp [HubThreads.step, HubThreads.publisherStep, hget, hphase]
  have hnone : ∀ q ∈ (s.setPhase i p .unlocked).publishers, ∀ rest, q.phase ≠ .delivering rest := by
    intro q hq rest hdelivering
    rcases mem_set_publishers hget hq with rfl | hq
    · cases hdelivering
    · exact not_delivering_of_count hothers hq rest hdelivering
  by_cases hc : c ∈ s.hub.consumers
  · obtain ⟨x, y, hlog, hnote, hput⟩ := (hb.turn p hmem _ hphase hc).begun
    rw [if_pos hc, hstep]
    refine ⟨?_, ?_, ?_, ?_, ?_, ?_⟩
    · rw [kept_concat]
      exact hb.slot
    · exact hb.faithful.concat (by simp)
    · refine hb.served.concat ?_
      intro p' hp'
      cases hp'
      exact ⟨x, y, hlog, hput.resolve_left (by simp), hnote⟩
    · rw [puts_append, puts_note, List.append_nil]
      exact hb.entered
    · intro q hq rest hdelivering _
      exact absurd hdelivering (hnone q hq rest)
    · intro hnames
      exact absurd (h.named c (List.mem_append_left _ hc)) (Nat.not_lt.mpr hnames)
  · rw [if_neg hc, List.append_nil]
    refine hb.silent h hp _ ?_
    rw [hstep]
    refine ⟨id, fun _ => rfl, id, ?_, Nat.le_refl _⟩
    intro q hq rest hdelivering
    exact absurd hdelivering (hnone q hq rest)

/-- A new consumer starts with an empty mailbox and no history. -/
theorem subscribe_boxed (hb : Boxed fits s order log c) (h : Owned capacity count s)
    (hp : Publishing capacity fits s) : Boxed fits (s.step .subscribe) order log c := by
  by_cases hlock : s.hubLocked = true
  · have hstep : s.step .subscribe = s := by simp [HubThreads.step, hlock]
    refine hb.silent h hp _ ?_
    rw [hstep]
    exact .refl c s
  · have hlock : s.hubLocked = false := by simpa using hlock
    have hstep : s.step .subscribe =
        { s with hub := frameHubSubscribe s.hub s.names, names := s.names + 1 } := by
      simp [HubThreads.step, hlock]
    by_cases hc : c = s.names
    · obtain rfl : log = [] := hb.fresh (Nat.le_of_eq hc.symm)
      rw [hstep]
      refine ⟨?_, .nil, .nil, List.nil_sublist _, ?_, fun _ => rfl⟩
      · intro _
        rw [hc]
        simp [frameHubSubscribe]
      · intro q hq rest hphase
        exact absurd hphase (not_delivering hlock hq rest)
    · refine hb.silent h hp _ ?_
      rw [hstep]
      refine ⟨?_, ?_, ?_, fun q hq _ _ => hq, Nat.le_succ _⟩
      · intro hmem
        exact List.mem_of_ne_of_mem hc hmem
      · intro _
        simp [frameHubSubscribe, Function.update_of_ne hc]
      · intro hmem
        exact List.mem_of_ne_of_mem hc hmem

/-- What every step does to every mailbox and its history. -/
theorem step_boxed (hb : Boxed fits s order log c) (h : Owned capacity count s)
    (hp : Publishing capacity fits s) (e : HubStep) :
    Boxed fits (s.step e) (order ++ (s.entering e).toList.map fun p => number p.image)
      (log ++ s.heard c e) c := by
  have hsilent : s.entering e = none → s.heard c e = [] → Quiet c s (s.step e) →
      Boxed fits (s.step e) (order ++ (s.entering e).toList.map fun p => number p.image)
        (log ++ s.heard c e) c := by
    intro hentering hheard hquiet
    rw [hentering, hheard]
    simpa using hb.silent h hp e hquiet
  cases e with
  | acquire data info =>
    refine hsilent rfl rfl ?_
    simp only [HubThreads.step]
    split
    · exact ⟨id, fun _ => rfl, id, fun q hq _ _ => hq, Nat.le_refl _⟩
    · split
      · exact ⟨id, fun _ => rfl, id, fun q hq _ _ => hq, Nat.le_refl _⟩
      · refine ⟨id, fun _ => rfl, id, ?_, Nat.le_refl _⟩
        intro q hq rest hphase
        rcases List.mem_append.mp hq with hq | hq
        · exact hq
        · obtain rfl := List.mem_singleton.mp hq
          cases hphase
  | fill i =>
    refine hsilent rfl rfl ?_
    cases hget : s.publishers[i]? with
    | none =>
      simp only [HubThreads.step, hget]
      exact .refl c s
    | some p =>
      simp only [HubThreads.step, hget, HubThreads.publisherStep]
      cases p.phase with
      | acquired =>
        refine ⟨id, fun _ => rfl, id, ?_, Nat.le_refl _⟩
        intro q hq rest hphase
        rcases mem_set_publishers hget hq with rfl | hq
        · cases hphase
        · exact mem_others hq
      | _ => exact .refl c s
  | lock i =>
    cases hget : s.publishers[i]? with
    | none =>
      refine hsilent (by simp [HubThreads.entering, hget])
        (by simp [HubThreads.heard, HubThreads.entering, hget]) ?_
      simp only [HubThreads.step, hget]
      exact .refl c s
    | some p =>
      by_cases hgo : p.phase = .filled ∧ s.hubLocked = false
      · have hlocked := lock_boxed hb h hp hget hgo.1 hgo.2
        simpa [HubThreads.heard, HubThreads.entering, hget, hgo.1, hgo.2, Option.filter]
          using hlocked
      · have hentering : s.entering (.lock i) = none := by
          simpa [HubThreads.entering, hget, Option.filter] using hgo
        refine hsilent hentering (by simp [HubThreads.heard, hentering]) ?_
        simp only [HubThreads.step, hget, HubThreads.publisherStep]
        cases hphase : p.phase with
        | filled =>
          have hlock : s.hubLocked = true := by simpa [hphase] using hgo
          simp only [hlock, if_true]
          exact .refl c s
        | _ => exact .refl c s
  | deliver i =>
    have hno : s.entering (.deliver i) = none := rfl
    cases hget : s.publishers[i]? with
    | none =>
      refine hsilent hno (by simp [HubThreads.heard, hget]) ?_
      simp only [HubThreads.step, hget]
      exact .refl c s
    | some p =>
      cases hphase : p.phase with
      | delivering cs =>
        cases cs with
        | nil =>
          have hunlocked := unlock_boxed hb h hp hget hphase
          simpa [HubThreads.heard, HubThreads.entering, hget, hphase] using hunlocked
        | cons d rest =>
          have hserved := serve_boxed hb h hp hget hphase
          have hd := h.active d
            (h.cursor p (List.mem_of_getElem? hget) _ hphase d List.mem_cons_self)
          have hheard : s.heard c (.deliver i) = if d = c then [.put p.image] else [] := by
            by_cases hc : d = c
            · subst hc
              simp [HubThreads.heard, hget, hphase, hd]
            · simp [HubThreads.heard, hget, hphase, hc]
          rw [hno, hheard]
          simpa using hserved
      | _ =>
        refine hsilent hno (by simp [HubThreads.heard, hget, hphase]) ?_
        simp only [HubThreads.step, hget, HubThreads.publisherStep, hphase]
        exact .refl c s
  | release i =>
    refine hsilent rfl rfl ?_
    cases hget : s.publishers[i]? with
    | none =>
      simp only [HubThreads.step, hget]
      exact .refl c s
    | some p =>
      simp only [HubThreads.step, hget, HubThreads.publisherStep]
      cases p.phase with
      | unlocked => exact ⟨id, fun _ => rfl, id, fun q hq _ _ => mem_others hq, Nat.le_refl _⟩
      | _ => exact .refl c s
  | subscribe =>
    have hsubscribed := subscribe_boxed hb h hp
    simpa [HubThreads.heard, HubThreads.entering] using hsubscribed
  | unlink d =>
    refine hsilent rfl rfl ?_
    simp only [HubThreads.step]
    split
    · exact .refl c s
    · rename_i hno
      obtain ⟨-, hd⟩ : s.hubLocked = false ∧ d ∈ s.hub.consumers := by simpa using hno
      simp only [unlinkConsumer, h.active d hd, if_true]
      refine ⟨?_, ?_, fun hc => List.mem_of_mem_erase hc, fun q hq _ _ => hq, Nat.le_refl _⟩
      · intro hc
        rcases List.mem_append.mp hc with hc | hc
        · exact List.mem_append_left _ (List.mem_of_mem_erase hc)
        · rcases List.mem_append.mp hc with hc | hc
          · exact List.mem_append_right _ hc
          · rw [List.mem_singleton.mp hc]
            exact List.mem_append_left _ hd
      · intro _
        by_cases hcd : c = d
        · subst hcd
          simp
        · simp [Function.update_of_ne hcd]
  | drop d =>
    refine hsilent rfl rfl ?_
    simp only [HubThreads.step]
    split
    · rename_i hd
      have hnot : d ∉ s.hub.consumers := fun hm =>
        (List.nodup_append.mp h.nodup).2.2 d hm d hd rfl
      have hgone : c ∈ s.hub.consumers ++ s.leaving.erase d → c ≠ d := by
        intro hc he
        subst he
        rw [← List.erase_append_right _ hnot] at hc
        exact h.nodup.not_mem_erase hc
      unfold dropMailbox
      cases (s.hub.consumer d).slot with
      | none =>
        refine ⟨?_, fun _ => rfl, id, fun q hq _ _ => hq, Nat.le_refl _⟩
        intro hc
        exact (List.mem_append.mp hc).elim (List.mem_append_left _)
          fun hc => List.mem_append_right _ (List.mem_of_mem_erase hc)
      | some f =>
        refine ⟨?_, ?_, id, fun q hq _ _ => hq, Nat.le_refl _⟩
        · intro hc
          exact (List.mem_append.mp hc).elim (List.mem_append_left _)
            fun hc => List.mem_append_right _ (List.mem_of_mem_erase hc)
        · intro hc
          simp [Function.update_of_ne (hgone hc)]
    · exact .refl c s
  | take d =>
    by_cases hd : d = c ∧ c ∈ s.hub.consumers ++ s.leaving
    · obtain ⟨rfl, hc⟩ := hd
      have htook := take_boxed hb h hc
      simpa only [HubThreads.heard, HubThreads.entering, hc, and_self, if_true, Option.toList_none,
        List.map_nil, List.append_nil] using htook
    · refine hsilent rfl (if_neg hd) ?_
      simp only [HubThreads.step]
      split
      · rename_i hlisted
        have hdc : c ≠ d := by
          intro he
          exact hd ⟨he.symm, he ▸ hlisted⟩
        refine ⟨id, ?_, id, fun q hq _ _ => hq, Nat.le_refl _⟩
        intro _
        simp [frameHubTake, Function.update_of_ne hdc]
      · exact .refl c s
  | unref f =>
    refine hsilent rfl rfl ?_
    simp only [HubThreads.step]
    split
    · exact ⟨id, fun _ => rfl, id, fun q hq _ _ => hq, Nat.le_refl _⟩
    · exact .refl c s

end Step

theorem step_delivering {capacity count : Nat} {fits : Prop} (w : WatchedHub) (e : HubStep)
    (h : Delivering capacity count fits w) (he : fits → Fits capacity e) :
    Delivering capacity count fits (w.step e) :=
  ⟨(step_effect w.threads e h.owned).1, step_publishing h.owned h.publishing e he,
    fun c => step_boxed (h.boxed c) h.owned h.publishing e⟩

theorem run_delivering {capacity count : Nat} {hub : FrameHub}
    (h : frameHubCreate capacity count = some hub) (steps : List HubStep) :
    Delivering capacity count (∀ e ∈ steps, Fits capacity e)
      (run WatchedHub.step (.start hub) steps) :=
  run_invariant_of_mem (Q := fun e => (∀ e ∈ steps, Fits capacity e) → Fits capacity e)
    (start_delivering h) step_delivering steps fun e he hfits => hfits e he

end Camstream.Proofs.FrameDelivery
