import Mathlib.Data.List.Perm.Lattice
import Camstream.Lib.Runs
import Camstream.Lib.Shares
import Camstream.Media.FrameHub

namespace Camstream.Proofs.FrameOwnership
open Lib Media

/-- The pool, given the references to its frames. -/
structure PoolHeld (pool : FramePool) (held : List Nat) : Prop where
  shares : Shares (Finset.range pool.count) (fun f => (pool.frames f).refcount) pool.freeList held
  index : ∀ f ∈ held, (pool.frames f).poolIndex = f
  data : ∀ f, (pool.frames f).data = f * pool.capacity

/-- What counting leaves alone. -/
structure SameStore (pool pool' : FramePool) : Prop where
  capacity : pool'.capacity = pool.capacity
  count : pool'.count = pool.count
  backing : pool'.backing = pool.backing

theorem SameStore.refl (pool : FramePool) : SameStore pool pool := ⟨rfl, rfl, rfl⟩

theorem SameStore.trans {a b c : FramePool} (h : SameStore a b) (h' : SameStore b c) :
    SameStore a c :=
  ⟨h'.capacity.trans h.capacity, h'.count.trans h.count, h'.backing.trans h.backing⟩

theorem PoolHeld.perm {pool : FramePool} {held held' : List Nat} (h : PoolHeld pool held)
    (hp : held.Perm held') : PoolHeld pool held' :=
  ⟨h.shares.perm hp, fun f hf => h.index f (hp.mem_iff.mpr hf), h.data⟩

theorem create_held {capacity count : Nat} {pool : FramePool}
    (h : framePoolCreate capacity count = some pool) :
    PoolHeld pool [] ∧ pool.capacity = capacity ∧ pool.count = count := by
  unfold framePoolCreate at h
  split at h
  · cases h
  · cases h
    refine ⟨⟨?_, by simp, by simp⟩, rfl, rfl⟩
    refine Shares.start (by simp) (List.nodup_reverse.mpr List.nodup_range) ?_
    simp

/-- The counts after one frame's record is replaced. -/
theorem refcount_update (frames : Nat → Frame) (f : Nat) (frame : Frame) :
    (fun g => (Function.update frames f frame g).refcount) =
      Function.update (fun g => (frames g).refcount) f frame.refcount := by
  funext g
  by_cases hg : g = f
  · subst hg
    simp
  · simp [Function.update_of_ne hg]

theorem data_update {pool : FramePool} {held : List Nat} (h : PoolHeld pool held) {f : Nat}
    {frame : Frame} (hf : frame.data = f * pool.capacity) (g : Nat) :
    (Function.update pool.frames f frame g).data = g * pool.capacity := by
  by_cases hg : g = f
  · subst hg
    simpa using hf
  · rw [Function.update_of_ne hg]
    exact h.data g

theorem acquire_held {pool pool' : FramePool} {held : List Nat} {f : Nat} (h : PoolHeld pool held)
    (ha : framePoolAcquire pool = some (f, pool')) :
    f ∉ held ∧ PoolHeld pool' (f :: held) ∧ SameStore pool pool' := by
  unfold framePoolAcquire at ha
  split at ha
  · cases ha
  · rename_i index rest hlist
    cases ha
    have hshares := h.shares
    rw [hlist] at hshares
    have hfree : f ∉ held := ((hshares.mem_free f).mp List.mem_cons_self).2
    refine ⟨hfree, ⟨?_, ?_, data_update h rfl⟩, ⟨rfl, rfl, rfl⟩⟩
    · change Shares _ (fun g => (Function.update pool.frames f _ g).refcount) rest _
      rw [refcount_update]
      exact hshares.grab
    · intro g hg
      by_cases hgf : g = f
      · subst hgf
        simp
      · change (Function.update pool.frames f _ g).poolIndex = _
        rw [Function.update_of_ne hgf]
        exact h.index g (by simpa [hgf] using hg)

theorem acquire_none {pool : FramePool} {held : List Nat} (h : PoolHeld pool held)
    (ha : framePoolAcquire pool = none) : ∀ f < pool.count, f ∈ held := by
  unfold framePoolAcquire at ha
  split at ha
  · rename_i hlist
    have hshares := h.shares
    rw [hlist] at hshares
    intro f hf
    exact hshares.exhausted (Finset.mem_range.mpr hf)
  · cases ha

/-- Replacing the record of a held frame, its index and buffer kept. -/
theorem index_update {pool : FramePool} {held : List Nat} (h : PoolHeld pool held) {f : Nat}
    {frame : Frame} (hf : frame.poolIndex = (pool.frames f).poolIndex) {g : Nat} (hg : g ∈ held) :
    (Function.update pool.frames f frame g).poolIndex = g := by
  by_cases hgf : g = f
  · subst hgf
    simpa [hf] using h.index g hg
  · rw [Function.update_of_ne hgf]
    exact h.index g hg

theorem ref_held {pool : FramePool} {held : List Nat} {f : Nat} (h : PoolHeld pool held)
    (hf : f ∈ held) : PoolHeld (frameRef pool f) (f :: held) ∧ SameStore pool (frameRef pool f) := by
  refine ⟨⟨?_, ?_, data_update h (h.data f)⟩, ⟨rfl, rfl, rfl⟩⟩
  · change Shares _ (fun g => (Function.update pool.frames f _ g).refcount) pool.freeList _
    rw [refcount_update]
    exact h.shares.share hf
  · intro g hg
    have hmem : g ∈ held := by
      rcases List.mem_cons.mp hg with rfl | hg
      · exact hf
      · exact hg
    refine index_update h ?_ hmem
    rfl

/-- A reference that is held can be given back: no error branch is taken. -/
theorem unref_held {pool : FramePool} {held : List Nat} {f : Nat} (h : PoolHeld pool held)
    (hf : f ∈ held) :
    (frameUnref pool f).1 = none ∧ PoolHeld (frameUnref pool f).2 (held.erase f) ∧
      SameStore pool (frameUnref pool f).2 := by
  have hpos : 0 < (pool.frames f).refcount := h.shares.pos hf
  have hindex : (pool.frames f).poolIndex = f := h.index f hf
  have hroom : pool.freeList.length < pool.count := by
    simpa using h.shares.room hf
  unfold frameUnref
  simp only [Int.not_le.mpr hpos, if_false]
  by_cases hlast : (pool.frames f).refcount - 1 ≤ 0
  · have hgone : f ∉ held.erase f := by
      have hshares := h.shares.release hf hlast
      exact ((hshares.mem_free f).mp List.mem_cons_self).2
    simp only [hlast, hindex, Nat.not_le.mpr hroom, if_false, Int.natCast_nonneg,
      and_self, if_true, Int.toNat_natCast]
    refine ⟨trivial, ⟨?_, ?_, data_update h (h.data f)⟩, ⟨rfl, rfl, rfl⟩⟩
    · rw [refcount_update]
      exact h.shares.release hf hlast
    · intro g hg
      have hgf : g ≠ f := fun he => hgone (he ▸ hg)
      change (Function.update pool.frames f _ g).poolIndex = _
      rw [Function.update_of_ne hgf]
      exact h.index g (List.mem_of_mem_erase hg)
  · simp only [hlast, false_and, if_false]
    refine ⟨trivial, ⟨?_, ?_, data_update h (h.data f)⟩, ⟨rfl, rfl, rfl⟩⟩
    · rw [refcount_update]
      exact h.shares.leave hf (by omega)
    · intro g hg
      refine index_update h ?_ (List.mem_of_mem_erase hg)
      rfl

/-- The frames behind the mailboxes of `cs`. -/
def mail (consumer : Nat → FrameHubConsumer) (cs : List Nat) : List Nat :=
  cs.filterMap fun c => (consumer c).slot

theorem mail_congr {consumer consumer' : Nat → FrameHubConsumer} {cs : List Nat}
    (h : ∀ c ∈ cs, (consumer' c).slot = (consumer c).slot) : mail consumer' cs = mail consumer cs :=
  List.filterMap_congr h

/-- One mailbox set apart from the others. -/
theorem mail_split (consumer : Nat → FrameHubConsumer) {cs : List Nat} {c : Nat} (hc : c ∈ cs) :
    (mail consumer cs).Perm ((consumer c).slot.toList ++ mail consumer (cs.erase c)) := by
  have hp := (List.perm_cons_erase hc).filterMap fun c => (consumer c).slot
  refine hp.trans (List.Perm.of_eq ?_)
  cases hs : (consumer c).slot with
  | none => simp [mail, hs]
  | some f => simp [mail, hs]

/-- Changing one mailbox leaves the others alone. -/
theorem mail_update (consumer : Nat → FrameHubConsumer) {cs : List Nat} {c : Nat}
    (hn : cs.Nodup) (hc : c ∈ cs) (k : FrameHubConsumer) :
    (mail (Function.update consumer c k) cs).Perm
      (k.slot.toList ++ mail consumer (cs.erase c)) := by
  have hothers : mail (Function.update consumer c k) (cs.erase c) = mail consumer (cs.erase c) := by
    apply mail_congr
    intro d hd
    have hdc : d ≠ c := fun he => hn.not_mem_erase (he ▸ hd)
    rw [Function.update_of_ne hdc]
  have hsplit := mail_split (Function.update consumer c k) hc
  rwa [Function.update_self, hothers] at hsplit

/-- Frames of publishes that have not copied their image yet. -/
def acquired (s : HubThreads) : List Nat :=
  (s.publishers.filter fun p => p.phase = .acquired).map Publisher.frame

/-- The invariant of the hub and its threads. -/
structure Owned (capacity count : Nat) (s : HubThreads) : Prop where
  pool : PoolHeld s.hub.pool s.held
  capacity : s.hub.pool.capacity = capacity
  count : s.hub.pool.count = count
  nodup : (s.hub.consumers ++ s.leaving).Nodup
  named : ∀ c ∈ s.hub.consumers ++ s.leaving, c < s.names
  active : ∀ c ∈ s.hub.consumers, (s.hub.consumer c).active
  cursor : ∀ p ∈ s.publishers, ∀ rest, p.phase = .delivering rest → ∀ c ∈ rest, c ∈ s.hub.consumers
  alone : ∀ f ∈ acquired s, s.held.count f ≤ 1
  quiet : s.errors = []

theorem held_eq (s : HubThreads) : s.held = s.publishers.map Publisher.frame ++
    mail s.hub.consumer (s.hub.consumers ++ s.leaving) ++ s.taken := rfl

theorem publisher_held {s : HubThreads} {p : Publisher} (hp : p ∈ s.publishers) :
    p.frame ∈ s.held := by
  rw [held_eq, List.append_assoc]
  exact List.mem_append_left _ (List.mem_map_of_mem hp)

theorem start_owned {capacity count : Nat} {hub : FrameHub}
    (h : frameHubCreate capacity count = some hub) : Owned capacity count (.start hub) := by
  obtain ⟨pool, hpool, rfl⟩ := Option.map_eq_some_iff.mp h
  obtain ⟨hheld, hcap, hcount⟩ := create_held hpool
  exact ⟨hheld, hcap, hcount, .nil, by simp [HubThreads.start], by simp [HubThreads.start],
    by simp [HubThreads.start], by simp [acquired, HubThreads.start], rfl⟩

/-- One part moved to the front. -/
theorem around_middle {a b c x rest : List Nat} (h : b.Perm (x ++ rest)) :
    (a ++ b ++ c).Perm (x ++ (a ++ rest ++ c)) := by
  have h1 : (a ++ b ++ c).Perm (a ++ (x ++ rest) ++ c) := (h.append_left a).append_right c
  refine h1.trans ?_
  rw [← List.append_assoc x, ← List.append_assoc a]
  refine List.Perm.append_right c ?_
  rw [← List.append_assoc x]
  exact List.perm_append_comm.append_right rest

/-- One more reference to `f`, and the one in the mailbox given back. -/
theorem exchange_held {pool : FramePool} {held others : List Nat} {f : Nat} {old : Option Nat}
    (h : PoolHeld pool held) (hf : f ∈ held) (hold : held.Perm (old.toList ++ others)) :
    let r := match old with
      | some g => frameUnref (frameRef pool f) g
      | none => (none, frameRef pool f)
    r.1 = none ∧ PoolHeld r.2 (f :: others) ∧ SameStore pool r.2 := by
  obtain ⟨href, hstore⟩ := ref_held h hf
  cases old with
  | none => exact ⟨rfl, href.perm (hold.cons f), hstore⟩
  | some g =>
    have hg : g ∈ f :: held := List.mem_cons_of_mem f (hold.mem_iff.mpr (by simp))
    obtain ⟨hquiet, hpool, hstore'⟩ := unref_held href hg
    have hp : (f :: held).Perm (g :: f :: others) := (hold.cons f).trans (.swap g f others)
    have hafter := hp.erase g
    rw [List.erase_cons_head] at hafter
    exact ⟨hquiet, hpool.perm hafter, hstore.trans hstore'⟩

theorem active_update {capacity count : Nat} {s : HubThreads} (h : Owned capacity count s) {c : Nat}
    (k : FrameHubConsumer) (hk : k.active = (s.hub.consumer c).active) :
    ∀ d ∈ s.hub.consumers, (Function.update s.hub.consumer c k d).active := by
  intro d hd
  by_cases hdc : d = c
  · subst hdc
    rw [Function.update_self, hk]
    exact h.active d hd
  · rw [Function.update_of_ne hdc]
    exact h.active d hd

/-- One reference is given back. -/
theorem Owned.give_back {capacity count : Nat} {s : HubThreads} (h : Owned capacity count s) {f : Nat}
    {others : List Nat} (hp : s.held.Perm (f :: others)) :
    (frameUnref s.hub.pool f).1 = none ∧ SameStore s.hub.pool (frameUnref s.hub.pool f).2 ∧
      PoolHeld (frameUnref s.hub.pool f).2 others ∧ ∀ g ∈ acquired s, others.count g ≤ 1 := by
  obtain ⟨hquiet, hpool, hstore⟩ := unref_held h.pool (hp.mem_iff.mpr List.mem_cons_self)
  have hafter := hp.erase f
  rw [List.erase_cons_head] at hafter
  refine ⟨hquiet, hstore, hpool.perm hafter, ?_⟩
  intro g hg
  have hone := h.alone g hg
  rw [hp.count_eq] at hone
  exact Nat.le_trans List.count_le_count_cons hone

section Publish
variable {capacity count : Nat} {s : HubThreads} {i : Nat} {p : Publisher}

theorem setPhase_frames (hp : s.publishers[i]? = some p) (phase : PublishPhase) :
    (s.publishers.set i { p with phase }).map Publisher.frame = s.publishers.map Publisher.frame := by
  obtain ⟨hi, hget⟩ := List.getElem?_eq_some_iff.mp hp
  rw [List.map_set]
  have hi : i < (s.publishers.map Publisher.frame).length := by simpa using hi
  have hframe : p.frame = (s.publishers.map Publisher.frame)[i] := by simp [hget]
  rw [show ({ p with phase } : Publisher).frame = p.frame from rfl, hframe, List.set_getElem_self]

theorem setPhase_held (hp : s.publishers[i]? = some p) (phase : PublishPhase) (hub : FrameHub) :
    HubThreads.held { s.setPhase i p phase with hub } = s.publishers.map Publisher.frame ++
      mail hub.consumer (hub.consumers ++ s.leaving) ++ s.taken := by
  rw [held_eq]
  change (s.publishers.set i _).map _ ++ _ ++ _ = _
  rw [setPhase_frames hp]
  rfl

theorem acquired_set {phase : PublishPhase} (hphase : phase ≠ .acquired) {f : Nat}
    (hf : f ∈ acquired { s with publishers := s.publishers.set i { p with phase } }) :
    f ∈ acquired s := by
  obtain ⟨q, hq, rfl⟩ := List.mem_map.mp hf
  obtain ⟨hq, hacquired⟩ := List.mem_filter.mp hq
  rcases List.mem_or_eq_of_mem_set hq with hq | rfl
  · exact List.mem_map_of_mem (List.mem_filter.mpr ⟨hq, hacquired⟩)
  · exact absurd (of_decide_eq_true hacquired) hphase

/-- A publish past its copy does not share its frame with one before it. -/
theorem Owned.not_acquired (h : Owned capacity count s) (hp : p ∈ s.publishers)
    (hphase : p.phase ≠ .acquired) : p.frame ∉ acquired s := by
  intro hmem
  have hfilter := (List.filter_append_perm (fun q : Publisher => q.phase = .acquired)
    s.publishers).map Publisher.frame
  have hother : p.frame ∈ (s.publishers.filter fun q => !decide (q.phase = .acquired)).map
      Publisher.frame :=
    List.mem_map_of_mem (List.mem_filter.mpr ⟨hp, by simpa using hphase⟩)
  have htwo : 2 ≤ (s.publishers.map Publisher.frame).count p.frame := by
    rw [← hfilter.count_eq, List.map_append, List.count_append]
    have h1 := List.count_pos_iff.mpr hmem
    have h2 := List.count_pos_iff.mpr hother
    unfold acquired at h1
    omega
  have hone := h.alone p.frame hmem
  rw [held_eq, List.count_append, List.count_append] at hone
  omega

theorem cursor_set (h : Owned capacity count s) {phase : PublishPhase}
    (hphase : ∀ rest, phase = .delivering rest → ∀ c ∈ rest, c ∈ s.hub.consumers) :
    ∀ q ∈ s.publishers.set i { p with phase }, ∀ rest, q.phase = .delivering rest →
      ∀ c ∈ rest, c ∈ s.hub.consumers := by
  intro q hq
  rcases List.mem_or_eq_of_mem_set hq with hq | rfl
  · exact h.cursor q hq
  · exact hphase

/-- A publish goes on to a phase that needs no change to the hub. -/
theorem setPhase_owned (h : Owned capacity count s) (hp : s.publishers[i]? = some p)
    {phase : PublishPhase} (hacquired : phase ≠ .acquired)
    (hphase : ∀ rest, phase = .delivering rest → ∀ c ∈ rest, c ∈ s.hub.consumers) :
    Owned capacity count (s.setPhase i p phase) ∧ (s.setPhase i p phase).held = s.held := by
  have hheld : (s.setPhase i p phase).held = s.held := setPhase_held hp phase s.hub
  refine ⟨⟨hheld ▸ h.pool, h.capacity, h.count, h.nodup, h.named, h.active,
    cursor_set h hphase, ?_, h.quiet⟩, hheld⟩
  intro f hf
  rw [hheld]
  exact h.alone f (acquired_set hacquired hf)

theorem acquire_owned (h : Owned capacity count s) (data : Bytes) (info : FrameInfo) {f : Nat}
    {pool : FramePool} (ha : framePoolAcquire s.hub.pool = some (f, pool)) :
    Owned capacity count { s with
      hub := { s.hub with pool }
      publishers := s.publishers ++ [⟨f, data, info, .acquired⟩] } := by
  obtain ⟨hfree, hpool, hstore⟩ := acquire_held h.pool ha
  have hp : (f :: s.held).Perm (s.publishers.map Publisher.frame ++ [f] ++
      mail s.hub.consumer (s.hub.consumers ++ s.leaving) ++ s.taken) := by
    rw [held_eq]
    simp only [List.append_assoc, List.singleton_append]
    exact List.perm_middle.symm
  refine ⟨?_, hstore.capacity.trans h.capacity, hstore.count.trans h.count, h.nodup, h.named,
    h.active, ?_, ?_, h.quiet⟩
  · rw [held_eq, List.map_append]
    exact hpool.perm hp
  · intro q hq
    rcases List.mem_append.mp hq with hq | hq
    · exact h.cursor q hq
    · obtain rfl : q = _ := List.mem_singleton.mp hq
      simp
  · intro g hg
    rw [held_eq, List.map_append]
    change List.count g (_ ++ [f] ++ _ ++ _) ≤ 1
    rw [← hp.count_eq]
    by_cases hgf : g = f
    · subst hgf
      simp [List.count_eq_zero.mpr hfree]
    · rw [List.count_cons_of_ne (Ne.symm hgf)]
      refine h.alone g ?_
      simpa [acquired, hgf] using hg

/-- The copy touches no count. -/
theorem fillFrame_held {pool : FramePool} {held : List Nat} (h : PoolHeld pool held)
    (p : Publisher) : PoolHeld (fillFrame pool p) held := by
  refine ⟨?_, ?_, data_update h (h.data p.frame)⟩
  · change Shares _ (fun g => (Function.update pool.frames p.frame _ g).refcount) pool.freeList _
    rw [refcount_update]
    refine h.shares.refs_eq ?_
    intro a _
    exact congrFun (Function.update_eq_self p.frame fun g => (pool.frames g).refcount) a
  · intro g hg
    refine index_update h ?_ hg
    rfl

theorem fill_owned (h : Owned capacity count s) (hp : s.publishers[i]? = some p) :
    Owned capacity count { s.setPhase i p .filled with
      hub := { s.hub with pool := fillFrame s.hub.pool p } } := by
  obtain ⟨hset, hheld⟩ := setPhase_owned h hp (show PublishPhase.filled ≠ .acquired by simp) (by simp)
  exact ⟨fillFrame_held hset.pool p, h.capacity, h.count, h.nodup, h.named, h.active,
    hset.cursor, hset.alone, h.quiet⟩

/-- The mailbox gets the new frame and loses the old one. -/
theorem deliver_owned (h : Owned capacity count s) (hp : s.publishers[i]? = some p) {c : Nat}
    {rest : List Nat} (hphase : p.phase = .delivering (c :: rest)) :
    (deliver s.hub p.frame c).1 = none ∧ SameStore s.hub.pool (deliver s.hub p.frame c).2.pool ∧
    Owned capacity count { s.setPhase i p (.delivering rest) with
      hub := (deliver s.hub p.frame c).2 } := by
  have hmem : p ∈ s.publishers := List.mem_of_getElem? hp
  have hcursor := h.cursor p hmem _ hphase
  obtain ⟨hset, hheld⟩ := setPhase_owned h hp
    (show PublishPhase.delivering rest ≠ .acquired by simp) (by
      intro rest' he d hd
      cases he
      exact hcursor d (List.mem_cons_of_mem c hd))
  unfold deliver
  by_cases hactive : (s.hub.consumer c).active
  · rw [if_pos hactive]
    have hc : c ∈ s.hub.consumers ++ s.leaving :=
      List.mem_append_left _ (hcursor c List.mem_cons_self)
    have hf : p.frame ∈ s.held := publisher_held hmem
    let others := s.publishers.map Publisher.frame ++
      mail s.hub.consumer ((s.hub.consumers ++ s.leaving).erase c) ++ s.taken
    have hbefore : s.held.Perm ((s.hub.consumer c).slot.toList ++ others) :=
      around_middle (mail_split s.hub.consumer hc)
    obtain ⟨hquiet, hpool, hstore⟩ := exchange_held h.pool hf hbefore
    have hafter : List.Perm _ (p.frame :: others) := around_middle (mail_update s.hub.consumer
      h.nodup hc { s.hub.consumer c with slot := some p.frame })
    refine ⟨hquiet, hstore, ⟨?_, hstore.capacity.trans h.capacity, hstore.count.trans h.count,
      h.nodup, h.named, active_update h _ rfl, hset.cursor, ?_, h.quiet⟩⟩
    · rw [setPhase_held hp]
      exact hpool.perm hafter.symm
    · intro g hg
      have hg : g ∈ acquired s := acquired_set (by simp) hg
      have hgf : g ≠ p.frame := fun he => h.not_acquired hmem (by simp [hphase]) (he ▸ hg)
      have hone := h.alone g hg
      rw [setPhase_held hp, hafter.count_eq, List.count_cons_of_ne (Ne.symm hgf)]
      rw [hbefore.count_eq, List.count_append] at hone
      omega
  · rw [if_neg hactive]
    exact ⟨rfl, .refl _, hset⟩

theorem release_owned (h : Owned capacity count s) (hp : s.publishers[i]? = some p) :
    (frameUnref s.hub.pool p.frame).1 = none ∧
    SameStore s.hub.pool (frameUnref s.hub.pool p.frame).2 ∧
    Owned capacity count { s with
      hub := { s.hub with pool := (frameUnref s.hub.pool p.frame).2 }
      publishers := s.publishers.eraseIdx i, results := s.results ++ [0] } := by
  obtain ⟨hi, hget⟩ := List.getElem?_eq_some_iff.mp hp
  have hsub : (s.publishers.eraseIdx i).Sublist s.publishers := List.eraseIdx_sublist _ _
  have hbefore : s.held.Perm (p.frame :: ((s.publishers.eraseIdx i).map Publisher.frame ++
      mail s.hub.consumer (s.hub.consumers ++ s.leaving) ++ s.taken)) := by
    have hperm := (List.getElem_cons_eraseIdx_perm hi).symm.map Publisher.frame
    rw [hget, List.map_cons] at hperm
    rw [held_eq]
    exact (hperm.append_right _).append_right _
  obtain ⟨hquiet, hstore, hpool, halone⟩ := h.give_back hbefore
  exact ⟨hquiet, hstore, ⟨hpool, hstore.capacity.trans h.capacity, hstore.count.trans h.count,
    h.nodup, h.named, h.active, fun q hq => h.cursor q (hsub.subset hq),
    fun g hg => halone g (((hsub.filter _).map _).subset hg), h.quiet⟩⟩

end Publish

section Consume
variable {capacity count : Nat} {s : HubThreads}

theorem subscribe_owned (h : Owned capacity count s) :
    Owned capacity count { s with
      hub := frameHubSubscribe s.hub s.names, names := s.names + 1 } := by
  have hfresh : s.names ∉ s.hub.consumers ++ s.leaving := fun hm =>
    Nat.lt_irrefl _ (h.named _ hm)
  have hmail : mail (Function.update s.hub.consumer s.names ⟨none, true⟩)
      (s.names :: (s.hub.consumers ++ s.leaving)) =
        mail s.hub.consumer (s.hub.consumers ++ s.leaving) := by
    rw [mail, List.filterMap_cons_none (by simp)]
    apply mail_congr
    intro c hc
    have hne : c ≠ s.names := fun he => hfresh (he ▸ hc)
    rw [Function.update_of_ne hne]
  have hheld : HubThreads.held { s with
      hub := frameHubSubscribe s.hub s.names, names := s.names + 1 } = s.held := by
    rw [held_eq, held_eq, ← hmail]
    rfl
  refine ⟨hheld ▸ h.pool, h.capacity, h.count, List.nodup_cons.mpr ⟨hfresh, h.nodup⟩, ?_, ?_, ?_,
    ?_, h.quiet⟩
  · intro c hc
    rcases List.mem_cons.mp hc with rfl | hc
    · exact Nat.lt_succ_self _
    · exact Nat.lt_succ_of_lt (h.named c hc)
  · intro c hc
    by_cases hne : c = s.names
    · subst hne
      simp [frameHubSubscribe]
    · change (Function.update s.hub.consumer s.names _ c).active
      rw [Function.update_of_ne hne]
      exact h.active c (List.mem_of_ne_of_mem hne hc)
  · intro p hp rest hphase c hc
    exact List.mem_cons_of_mem _ (h.cursor p hp rest hphase c hc)
  · intro f hf
    rw [hheld]
    exact h.alone f hf

/-- Without the hub lock no publish is between two mailboxes. -/
theorem not_delivering (hlock : s.hubLocked = false) {p : Publisher} (hp : p ∈ s.publishers)
    (rest : List Nat) : p.phase ≠ .delivering rest := by
  intro hphase
  have hlocked : s.hubLocked = true :=
    List.any_eq_true.mpr ⟨p, hp, by simp [Publisher.holdsLock, hphase]⟩
  rw [hlock] at hlocked
  cases hlocked

theorem unlink_owned (h : Owned capacity count s) (hlock : s.hubLocked = false) {c : Nat}
    (hc : c ∈ s.hub.consumers) :
    Owned capacity count { s with
      hub := unlinkConsumer s.hub c, leaving := s.leaving ++ [c] } := by
  unfold unlinkConsumer
  rw [if_pos (h.active c hc)]
  have hp : (s.hub.consumers ++ s.leaving).Perm (s.hub.consumers.erase c ++ (s.leaving ++ [c])) := by
    refine ((List.perm_cons_erase hc).append_right s.leaving).trans ?_
    rw [← List.append_assoc]
    exact (List.perm_append_singleton c _).symm
  have hmail : (mail s.hub.consumer (s.hub.consumers ++ s.leaving)).Perm
      (mail (Function.update s.hub.consumer c { s.hub.consumer c with active := false })
        (s.hub.consumers.erase c ++ (s.leaving ++ [c]))) := by
    refine (hp.filterMap _).trans (.of_eq (mail_congr ?_).symm)
    intro d _
    by_cases hdc : d = c
    · subst hdc
      simp
    · rw [Function.update_of_ne hdc]
  have hheld := (hmail.append_left (s.publishers.map Publisher.frame)).append_right s.taken
  refine ⟨h.pool.perm hheld, h.capacity, h.count, hp.nodup_iff.mp h.nodup, ?_, ?_, ?_, ?_, h.quiet⟩
  · intro d hd
    exact h.named d (hp.mem_iff.mpr hd)
  · intro d hd
    have hn : s.hub.consumers.Nodup := (List.nodup_append.mp h.nodup).1
    obtain ⟨hdc, hmem⟩ := hn.mem_erase_iff.mp hd
    change (Function.update s.hub.consumer c _ d).active
    rw [Function.update_of_ne hdc]
    exact h.active d hmem
  · intro p hp rest hphase
    exact absurd hphase (not_delivering hlock hp rest)
  · intro f hf
    have hone := h.alone f hf
    rw [held_eq, hheld.count_eq] at hone
    exact hone

theorem drop_owned (h : Owned capacity count s) {c : Nat} (hc : c ∈ s.leaving) :
    (dropMailbox s.hub c).1 = none ∧ SameStore s.hub.pool (dropMailbox s.hub c).2.pool ∧
    Owned capacity count { s with
      hub := (dropMailbox s.hub c).2, leaving := s.leaving.erase c } := by
  have hcs : c ∈ s.hub.consumers ++ s.leaving := List.mem_append_right _ hc
  have hnot : c ∉ s.hub.consumers := fun hm =>
    (List.nodup_append.mp h.nodup).2.2 c hm c hc rfl
  have herase : (s.hub.consumers ++ s.leaving).erase c = s.hub.consumers ++ s.leaving.erase c :=
    List.erase_append_right _ hnot
  have hsplit := around_middle (a := s.publishers.map Publisher.frame) (c := s.taken)
    (mail_split s.hub.consumer hcs)
  rw [herase] at hsplit
  have hnodup : (s.hub.consumers ++ s.leaving.erase c).Nodup := herase ▸ h.nodup.erase c
  have hnamed : ∀ d ∈ s.hub.consumers ++ s.leaving.erase c, d < s.names := fun d hd =>
    h.named d (List.mem_of_mem_erase (herase ▸ hd))
  unfold dropMailbox
  cases hslot : (s.hub.consumer c).slot with
  | none =>
    rw [hslot] at hsplit
    refine ⟨rfl, .refl _, ⟨h.pool.perm hsplit, h.capacity, h.count, hnodup, hnamed, h.active,
      h.cursor, ?_, h.quiet⟩⟩
    intro f hf
    have hone := h.alone f hf
    rw [held_eq, hsplit.count_eq] at hone
    exact hone
  | some f =>
    rw [hslot] at hsplit
    obtain ⟨hquiet, hstore, hpool, halone⟩ := h.give_back hsplit
    have hothers : mail (Function.update s.hub.consumer c { s.hub.consumer c with slot := none })
        (s.hub.consumers ++ s.leaving.erase c) =
          mail s.hub.consumer (s.hub.consumers ++ s.leaving.erase c) := by
      apply mail_congr
      intro d hd
      have hdc : d ≠ c := fun he => h.nodup.not_mem_erase (herase.symm ▸ he ▸ hd)
      rw [Function.update_of_ne hdc]
    refine ⟨hquiet, hstore, ⟨?_, hstore.capacity.trans h.capacity, hstore.count.trans h.count,
      hnodup, hnamed, active_update h _ rfl, h.cursor, ?_, h.quiet⟩⟩
    · rw [held_eq]
      change PoolHeld _ (_ ++ mail (Function.update s.hub.consumer c _) _ ++ _)
      rw [hothers]
      exact hpool
    · intro g hg
      rw [held_eq]
      change List.count g (_ ++ mail (Function.update s.hub.consumer c _) _ ++ _) ≤ 1
      rw [hothers]
      exact halone g hg

theorem take_owned (h : Owned capacity count s) {c : Nat}
    (hc : c ∈ s.hub.consumers ++ s.leaving) :
    Owned capacity count { s with
      hub := (frameHubTake s.hub c).2, taken := s.taken ++ (frameHubTake s.hub c).1.toList } := by
  have hmail := mail_update s.hub.consumer h.nodup hc { s.hub.consumer c with slot := none }
  have hheld : s.held.Perm (s.publishers.map Publisher.frame ++
      mail (Function.update s.hub.consumer c { s.hub.consumer c with slot := none })
        (s.hub.consumers ++ s.leaving) ++ (s.taken ++ (s.hub.consumer c).slot.toList)) := by
    refine (around_middle (mail_split s.hub.consumer hc)).trans ?_
    refine List.perm_append_comm.trans ?_
    rw [← List.append_assoc]
    exact ((hmail.symm.append_left _).append_right _).append_right _
  refine ⟨h.pool.perm hheld, h.capacity, h.count, h.nodup, h.named, active_update h _ rfl, h.cursor,
    ?_, h.quiet⟩
  intro f hf
  have hone := h.alone f hf
  rw [hheld.count_eq] at hone
  exact hone

theorem unref_owned (h : Owned capacity count s) {f : Nat} (hf : f ∈ s.taken) :
    (frameUnref s.hub.pool f).1 = none ∧ SameStore s.hub.pool (frameUnref s.hub.pool f).2 ∧
    Owned capacity count { s with
      hub := { s.hub with pool := (frameUnref s.hub.pool f).2 }, taken := s.taken.erase f } := by
  have hbefore : s.held.Perm (f :: (s.publishers.map Publisher.frame ++
      mail s.hub.consumer (s.hub.consumers ++ s.leaving) ++ s.taken.erase f)) := by
    rw [held_eq]
    exact ((List.perm_cons_erase hf).append_left _).trans List.perm_middle
  obtain ⟨hquiet, hstore, hpool, halone⟩ := h.give_back hbefore
  exact ⟨hquiet, hstore, ⟨hpool, hstore.capacity.trans h.capacity, hstore.count.trans h.count,
    h.nodup, h.named, h.active, h.cursor, halone, h.quiet⟩⟩

end Consume

/-- The step copies an image into the frame its publish has just acquired. -/
def Fills (s : HubThreads) (e : HubStep) (p : Publisher) : Prop :=
  ∃ i, e = .fill i ∧ s.publishers[i]? = some p ∧ p.phase = .acquired

/-- All that a step of a publish can do. -/
theorem publisherStep_owned {capacity count : Nat} {s : HubThreads} (h : Owned capacity count s)
    {i : Nat} {p : Publisher} (hp : s.publishers[i]? = some p) (e : HubStep) :
    Owned capacity count (s.publisherStep i p e) ∧
      (SameStore s.hub.pool (s.publisherStep i p e).hub.pool ∨
        ((∃ j, e = .fill j) ∧ p.phase = .acquired ∧
          (s.publisherStep i p e).hub.pool = fillFrame s.hub.pool p)) := by
  cases e with
  | fill j =>
    cases hphase : p.phase with
    | acquired =>
      simp only [HubThreads.publisherStep, hphase]
      exact ⟨fill_owned h hp, .inr ⟨⟨j, rfl⟩, trivial, trivial⟩⟩
    | _ =>
      simp only [HubThreads.publisherStep, hphase]
      exact ⟨h, .inl (.refl _)⟩
  | lock j =>
    cases hphase : p.phase with
    | filled =>
      simp only [HubThreads.publisherStep, hphase]
      split
      · exact ⟨h, .inl (.refl _)⟩
      · refine ⟨(setPhase_owned h hp (by simp) ?_).1, .inl (.refl _)⟩
        intro rest he c hc
        cases he
        exact hc
    | _ =>
      simp only [HubThreads.publisherStep, hphase]
      exact ⟨h, .inl (.refl _)⟩
  | deliver j =>
    cases hphase : p.phase with
    | delivering cs =>
      cases cs with
      | nil =>
        simp only [HubThreads.publisherStep, hphase]
        exact ⟨(setPhase_owned h hp (by simp) (by simp)).1, .inl (.refl _)⟩
      | cons c rest =>
        obtain ⟨hquiet, hstore, howned⟩ := deliver_owned h hp hphase
        simp only [HubThreads.publisherStep, hphase, hquiet, Option.toList_none, List.append_nil]
        exact ⟨howned, .inl hstore⟩
    | _ =>
      simp only [HubThreads.publisherStep, hphase]
      exact ⟨h, .inl (.refl _)⟩
  | release j =>
    cases hphase : p.phase with
    | unlocked =>
      obtain ⟨hquiet, hstore, howned⟩ := release_owned h hp
      simp only [HubThreads.publisherStep, hphase, hquiet, Option.toList_none, List.append_nil]
      exact ⟨howned, .inl hstore⟩
    | _ =>
      simp only [HubThreads.publisherStep, hphase]
      exact ⟨h, .inl (.refl _)⟩
  | _ => exact ⟨h, .inl (.refl _)⟩

/-- All that a step can do: the invariant stays, and the buffers change only by the copy
of a publish into its own frame. -/
theorem step_effect {capacity count : Nat} (s : HubThreads) (e : HubStep)
    (h : Owned capacity count s) :
    Owned capacity count (s.step e) ∧
      (SameStore s.hub.pool (s.step e).hub.pool ∨
        ∃ p, Fills s e p ∧ (s.step e).hub.pool = fillFrame s.hub.pool p) := by
  cases e with
  | acquire data info =>
    simp only [HubThreads.step]
    split
    · exact ⟨⟨h.pool, h.capacity, h.count, h.nodup, h.named, h.active, h.cursor, h.alone, h.quiet⟩,
        .inl (.refl _)⟩
    · split
      · exact ⟨⟨h.pool, h.capacity, h.count, h.nodup, h.named, h.active, h.cursor, h.alone,
          h.quiet⟩, .inl (.refl _)⟩
      · rename_i f pool ha
        exact ⟨acquire_owned h data info ha, .inl (acquire_held h.pool ha).2.2⟩
  | fill i =>
    simp only [HubThreads.step]
    split
    · rename_i p hp
      obtain ⟨howned, hstore⟩ := publisherStep_owned h hp (.fill i)
      refine ⟨howned, hstore.imp_right ?_⟩
      rintro ⟨-, hphase, hpool⟩
      exact ⟨p, ⟨i, rfl, hp, hphase⟩, hpool⟩
    · exact ⟨h, .inl (.refl _)⟩
  | lock i | deliver i | release i =>
    simp only [HubThreads.step]
    split
    · rename_i p hp
      obtain ⟨howned, hstore⟩ := publisherStep_owned h hp _
      refine ⟨howned, .inl ?_⟩
      rcases hstore with hstore | ⟨⟨j, hj⟩, -⟩
      · exact hstore
      · cases hj
    · exact ⟨h, .inl (.refl _)⟩
  | subscribe =>
    simp only [HubThreads.step]
    split
    · exact ⟨h, .inl (.refl _)⟩
    · exact ⟨subscribe_owned h, .inl ⟨rfl, rfl, rfl⟩⟩
  | unlink c =>
    simp only [HubThreads.step]
    split
    · exact ⟨h, .inl (.refl _)⟩
    · rename_i hno
      obtain ⟨hlock, hc⟩ : s.hubLocked = false ∧ c ∈ s.hub.consumers := by simpa using hno
      refine ⟨unlink_owned h hlock hc, .inl ?_⟩
      unfold unlinkConsumer
      split
      · exact ⟨rfl, rfl, rfl⟩
      · exact .refl _
  | drop c =>
    simp only [HubThreads.step]
    split
    · rename_i hc
      obtain ⟨hquiet, hstore, howned⟩ := drop_owned h hc
      simp only [hquiet, Option.toList_none, List.append_nil]
      exact ⟨howned, .inl hstore⟩
    · exact ⟨h, .inl (.refl _)⟩
  | take c =>
    simp only [HubThreads.step]
    split
    · rename_i hc
      exact ⟨take_owned h hc, .inl ⟨rfl, rfl, rfl⟩⟩
    · exact ⟨h, .inl (.refl _)⟩
  | unref f =>
    simp only [HubThreads.step]
    split
    · rename_i hf
      obtain ⟨hquiet, hstore, howned⟩ := unref_owned h hf
      simp only [hquiet, Option.toList_none, List.append_nil]
      exact ⟨howned, .inl hstore⟩
    · exact ⟨h, .inl (.refl _)⟩

theorem run_owned {capacity count : Nat} {hub : FrameHub}
    (h : frameHubCreate capacity count = some hub) (steps : List HubStep) :
    Owned capacity count (run HubThreads.step (.start hub) steps) :=
  run_invariant (start_owned h) (fun s e hs => (step_effect s e hs).1) steps

/-- The image a publish was called with stays its own. -/
theorem setPhase_data {s : HubThreads} {i : Nat} {p q : Publisher} {phase : PublishPhase}
    (hp : s.publishers[i]? = some p) (hq : q ∈ (s.setPhase i p phase).publishers) :
    ∃ q' ∈ s.publishers, q.data = q'.data := by
  rcases List.mem_or_eq_of_mem_set hq with hq | rfl
  · exact ⟨q, hq, rfl⟩
  · exact ⟨p, List.mem_of_getElem? hp, rfl⟩

theorem publisherStep_data {s : HubThreads} {i : Nat} {p q : Publisher}
    (hp : s.publishers[i]? = some p) (e : HubStep) (hq : q ∈ (s.publisherStep i p e).publishers) :
    ∃ q' ∈ s.publishers, q.data = q'.data := by
  unfold HubThreads.publisherStep at hq
  split at hq <;> try split at hq
  all_goals first
    | exact setPhase_data hp hq
    | exact ⟨q, hq, rfl⟩
    | exact ⟨q, (List.eraseIdx_sublist _ _).subset hq, rfl⟩
    | (split at hq <;> first | exact setPhase_data hp hq | exact ⟨q, hq, rfl⟩)

theorem step_data {s : HubThreads} {e : HubStep} {q : Publisher}
    (hq : q ∈ (s.step e).publishers) :
    (∃ q' ∈ s.publishers, q.data = q'.data) ∨ ∃ info, e = .acquire q.data info := by
  cases e with
  | acquire data info =>
    simp only [HubThreads.step] at hq
    split at hq
    · exact .inl ⟨q, hq, rfl⟩
    · split at hq
      · exact .inl ⟨q, hq, rfl⟩
      · rcases List.mem_append.mp hq with hq | hq
        · exact .inl ⟨q, hq, rfl⟩
        · obtain rfl : q = _ := List.mem_singleton.mp hq
          exact .inr ⟨info, rfl⟩
  | fill i | lock i | deliver i | release i =>
    simp only [HubThreads.step] at hq
    split at hq
    · rename_i p hp
      exact .inl (publisherStep_data hp _ hq)
    · exact .inl ⟨q, hq, rfl⟩
  | _ =>
    simp only [HubThreads.step] at hq
    refine .inl ⟨q, ?_, rfl⟩
    first
      | exact hq
      | (split at hq <;> exact hq)

/-- What the callers of `frame_hub_publish` promise about a step. -/
def Fits (capacity : Nat) (e : HubStep) : Prop :=
  ∀ data info, e = .acquire data info → data.length ≤ capacity

theorem run_fits {capacity : Nat} {hub : FrameHub} (steps : List HubStep)
    (hfits : ∀ e ∈ steps, Fits capacity e) :
    ∀ p ∈ (run HubThreads.step (.start hub) steps).publishers, p.data.length ≤ capacity := by
  refine run_invariant_of_mem (P := fun s : HubThreads => ∀ p ∈ s.publishers, p.data.length ≤ capacity)
    (by simp [HubThreads.start]) ?_ steps hfits
  intro s e hs he q hq
  rcases step_data hq with ⟨q', hq', hdata⟩ | ⟨info, hacquire⟩
  · rw [hdata]
    exact hs q' hq'
  · exact he _ info hacquire

theorem SameStore.bytes {pool pool' : FramePool} {held held' : List Nat} (h : SameStore pool pool')
    (hp : PoolHeld pool held) (hp' : PoolHeld pool' held') (f : Nat) :
    frameBytes pool' f = frameBytes pool f := by
  unfold frameBytes
  rw [h.capacity, h.backing, hp.data f, hp'.data f, h.capacity]

/-- A copy that fits its buffer stays out of all others. -/
theorem fillFrame_bytes {pool : FramePool} {held : List Nat} (h : PoolHeld pool held)
    {p : Publisher} (hfit : p.data.length ≤ pool.capacity) {g : Nat} (hg : g ≠ p.frame) :
    frameBytes (fillFrame pool p) g = frameBytes pool g := by
  unfold frameBytes
  refine List.map_congr_left ?_
  intro k hk
  have hk : k < pool.capacity := List.mem_range.mp hk
  rw [(fillFrame_held h p).data g, h.data g]
  change (if (pool.frames p.frame).data ≤ _ ∧ _ < (pool.frames p.frame).data + p.data.length
    then _ else _) = _
  refine if_neg ?_
  rw [h.data p.frame]
  change ¬(p.frame * pool.capacity ≤ g * pool.capacity + k ∧
    g * pool.capacity + k < p.frame * pool.capacity + p.data.length)
  rintro ⟨hlo, hhi⟩
  rcases Nat.lt_or_gt_of_ne hg with hlt | hgt
  · have hmul := Nat.mul_le_mul_right pool.capacity (Nat.succ_le_of_lt hlt)
    rw [Nat.succ_mul] at hmul
    omega
  · have hmul := Nat.mul_le_mul_right pool.capacity (Nat.succ_le_of_lt hgt)
    rw [Nat.succ_mul] at hmul
    omega

/-- In every interleaving of publishes, takes, releases, subscriptions and their ends:
a frame's count is the number of references to it; the free list has no frame twice and
none that is held, and makes up the pool with the held ones; neither error of
`frame_unref` is logged; a publish of an image fails only when all frames are held; and
no step writes to a held frame, apart from the one copy of a publish into the frame
that it alone holds. -/
theorem frame_ownership {capacity count : Nat} {hub : FrameHub}
    (h : frameHubCreate capacity count = some hub) (steps : List HubStep) :
    let s := run HubThreads.step (.start hub) steps
    (∀ f ∈ s.held, f < count) ∧
    (∀ f < count, (s.hub.pool.frames f).refcount = s.held.count f) ∧
    s.hub.pool.freeList.Nodup ∧ (∀ f ∈ s.hub.pool.freeList, f ∉ s.held) ∧
    s.hub.pool.freeList.length + s.held.toFinset.card = count ∧
    s.errors = [] ∧
    (∀ data info, data ≠ [] → (s.step (.acquire data info)).results = s.results ++ [-1] →
      ∀ f < count, f ∈ s.held) ∧
    ((∀ e ∈ steps, Fits capacity e) → ∀ e, ∀ f ∈ s.held,
      frameBytes (s.step e).hub.pool f = frameBytes s.hub.pool f ∨
        ∃ p, Fills s e p ∧ p.frame = f ∧ s.held.count f = 1) := by
  intro s
  have hs : Owned capacity count s := run_owned h steps
  have hshares := hs.pool.shares
  rw [hs.count] at hshares
  refine ⟨?_, ?_, hshares.nodup, ?_, ?_, hs.quiet, ?_, ?_⟩
  · intro f hf
    exact Finset.mem_range.mp (hshares.mem_all f hf)
  · intro f hf
    exact hshares.counts f (Finset.mem_range.mpr hf)
  · intro f hf
    exact ((hshares.mem_free f).mp hf).2
  · rw [hshares.card, Finset.card_range]
  · intro data info hdata hresult
    have hne : data.length ≠ 0 := by simpa using hdata
    cases ha : framePoolAcquire s.hub.pool with
    | none =>
      rw [← hs.count]
      exact acquire_none hs.pool ha
    | some r =>
      simp [HubThreads.step, hne, ha] at hresult
  · intro hfits e f hf
    obtain ⟨hnext, hstore | ⟨p, hfills, hpool⟩⟩ := step_effect s e hs
    · exact .inl (hstore.bytes hs.pool hnext.pool f)
    · obtain ⟨i, -, hp, hphase⟩ := id hfills
      have hmem : p ∈ s.publishers := List.mem_of_getElem? hp
      by_cases hfp : f = p.frame
      · have hacquired : f ∈ acquired s := by
          rw [hfp]
          exact List.mem_map_of_mem (List.mem_filter.mpr ⟨hmem, by simpa using hphase⟩)
        have hle := hs.alone f hacquired
        have hpos := List.count_pos_iff.mpr hf
        exact .inr ⟨p, hfills, hfp.symm, by omega⟩
      · have hfit : p.data.length ≤ s.hub.pool.capacity :=
          hs.capacity ▸ run_fits steps hfits p hmem
        rw [hpool]
        exact .inl (fillFrame_bytes hs.pool hfit hfp)

/-- Two buffers: a taker still holds the first image while the second is delivered,
and a third publish finds no frame. -/
theorem frame_ownership_two_buffers : ∃ hub, frameHubCreate 4 2 = some hub ∧
    let s := run HubThreads.step (.start hub)
      [.subscribe, .acquire [1, 2] zeroInfo, .fill 0, .lock 0, .deliver 0, .deliver 0, .release 0,
        .take 0, .acquire [3, 4, 5, 6] zeroInfo, .fill 0, .lock 0, .deliver 0, .deliver 0,
        .release 0]
    s.held = [0, 1] ∧ s.errors = [] ∧
      (∀ e, frameBytes (s.step e).hub.pool 1 = frameBytes s.hub.pool 1 ∨
        ∃ p, Fills s e p ∧ p.frame = 1 ∧ s.held.count 1 = 1) := by
  refine ⟨_, rfl, ?_⟩
  intro s
  have hheld : s.held = [0, 1] := by decide
  obtain ⟨-, -, -, -, -, hquiet, -, hbytes⟩ := @frame_ownership 4 2 _ rfl
    [.subscribe, .acquire [1, 2] zeroInfo, .fill 0, .lock 0, .deliver 0, .deliver 0, .release 0,
      .take 0, .acquire [3, 4, 5, 6] zeroInfo, .fill 0, .lock 0, .deliver 0, .deliver 0,
      .release 0]
  refine ⟨hheld, hquiet, fun e => hbytes ?_ e 1 (by rw [hheld]; simp)⟩
  intro e he data info hacquire
  subst hacquire
  simp at he
  rcases he with ⟨rfl, -⟩ | ⟨rfl, -⟩ <;> simp

end Camstream.Proofs.FrameOwnership
