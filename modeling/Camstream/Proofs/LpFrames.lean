import Camstream.Lib.Runs
import Camstream.Lpstream.LpServer

namespace Camstream.Proofs.LpFrames
open Lib Lpstream

def names (frames : List LpFrame) : List Nat := frames.map (·.id)

/-- The references of the media thread: the frame it made and what it flushed. -/
def mediaHeld : MediaPhase → List Nat
  | .idle => []
  | .fanning frame _ flushed => frame.id :: names flushed
  | .unlocked frame => [frame.id]

/-- The references of a session: the batch its thread works off and its mailbox. -/
def viewerHeld (v : Viewer) : List Nat := names v.batch ++ names v.session.queue

/-- One entry for every reference to a frame. -/
def held (s : LpServer) : List Nat := mediaHeld s.media ++ s.viewers.flatMap viewerHeld

/-- Every frame that was pushed to session `i` is older than this. -/
def limit (media : MediaPhase) (created i : Nat) : Nat :=
  match media with
  | .fanning frame next _ => if i < next then created else frame.id
  | _ => created

/-- The mailbox is not over-full, and what was sent, is being sent or waits was pushed
in this order. -/
structure Orderly (bound : Nat) (v : Viewer) : Prop where
  mailbox : v.session.queue.length ≤ lpSessionMailbox
  order : (v.sent ++ v.batch ++ v.session.queue).Sublist v.pushed
  rising : (names v.pushed).Pairwise (· < ·)
  below : ∀ f ∈ v.pushed, f.id < bound

structure Consistent (s : LpServer) : Prop where
  owned : s.heap.Owned (held s)
  viewers : ∀ i v, s.viewers[i]? = some v → Orderly (limit s.media s.heap.created i) v

theorem Orderly.mono {a b : Nat} {v : Viewer} (h : Orderly a v) (hab : a ≤ b) : Orderly b v :=
  ⟨h.mailbox, h.order, h.rising, fun f hf => Nat.lt_of_lt_of_le (h.below f hf) hab⟩

/-- The holders, apart from one session. -/
theorem viewers_split {viewers : List Viewer} {i : Nat} {v : Viewer} (hv : viewers[i]? = some v) :
    ∃ rest, (viewers.flatMap viewerHeld).Perm (viewerHeld v ++ rest) ∧
      ∀ v', ((viewers.set i v').flatMap viewerHeld).Perm (viewerHeld v' ++ rest) := by
  obtain ⟨hlt, rfl⟩ := List.getElem?_eq_some_iff.mp hv
  refine ⟨(viewers.take i ++ viewers.drop (i + 1)).flatMap viewerHeld, ?_, fun v' => ?_⟩
  · have hsplit : viewers.Perm (viewers[i] :: (viewers.take i ++ viewers.drop (i + 1))) := by
      refine List.Perm.trans (List.Perm.of_eq ?_) List.perm_middle
      rw [List.cons_getElem_drop_succ, List.take_append_drop]
    exact hsplit.flatMap_right viewerHeld
  · rw [List.set_eq_take_append_cons_drop, if_pos hlt]
    exact List.perm_middle.flatMap_right viewerHeld

/-- A step that concerns one session, the media thread and the counts. -/
theorem Consistent.replace {s : LpServer} (h : Consistent s) {i : Nat} {v v' : Viewer}
    (hv : s.viewers[i]? = some v) {heap : RefHeap} {media : MediaPhase}
    (howned : ∀ rest, s.heap.Owned (mediaHeld s.media ++ (viewerHeld v ++ rest)) →
      heap.Owned (mediaHeld media ++ (viewerHeld v' ++ rest)))
    (hlimit : ∀ j, limit s.media s.heap.created j ≤ limit media heap.created j)
    (horder : Orderly (limit media heap.created i) v') :
    Consistent ⟨heap, media, s.viewers.set i v'⟩ := by
  obtain ⟨rest, hold, hnew⟩ := viewers_split hv
  refine ⟨?_, ?_⟩
  · have hrest := howned rest (h.owned.perm (hold.append_left _))
    exact hrest.perm ((hnew v').symm.append_left _)
  · intro j w hw
    dsimp only at hw ⊢
    rw [List.getElem?_set] at hw
    split at hw
    · rename_i heq
      subst heq
      split at hw
      · exact Option.some.inj hw ▸ horder
      · cases hw
    · exact (h.viewers j w hw).mono (hlimit j)

/-- A step of one session that moves its frames about. -/
theorem Consistent.reorder {s : LpServer} (h : Consistent s) {i : Nat} {v v' : Viewer}
    (hv : s.viewers[i]? = some v) (hheld : (viewerHeld v).Perm (viewerHeld v'))
    (horder : ∀ bound, Orderly bound v → Orderly bound v') :
    Consistent { s with viewers := s.viewers.set i v' } :=
  h.replace hv (fun _ ho => ho.perm ((hheld.append_right _).append_left _)) (fun _ => Nat.le_refl _)
    (horder _ (h.viewers i v hv))

/-- A session gives up one frame. -/
theorem Consistent.release {s : LpServer} (h : Consistent s) {i : Nat} {v v' : Viewer}
    (hv : s.viewers[i]? = some v) {frame : LpFrame}
    (hheld : (viewerHeld v).Perm (frame.id :: viewerHeld v'))
    (horder : ∀ bound, Orderly bound v → Orderly bound v') :
    Consistent { s with
      heap := lpFrameUnref s.heap frame
      viewers := s.viewers.set i v' } := by
  refine h.replace hv (fun rest ho => ?_) (fun _ => Nat.le_refl _)
    (horder _ (h.viewers i v hv))
  refine RefHeap.Owned.unref (ho.perm ?_)
  exact ((hheld.append_right rest).append_left _).trans List.perm_middle

theorem beginSend_queue (s : LpSession) :
    (beginSend s).1 = s.queue ∧ (beginSend s).2.queue = [] := by
  unfold beginSend takeFrames
  dsimp only
  split <;> exact ⟨rfl, rfl⟩

theorem takeBatch_spec {v : Viewer} (h : v.batch = []) (sending : Bool) :
    (viewerHeld v).Perm (viewerHeld (takeBatch v sending)) ∧
      ∀ bound, Orderly bound v → Orderly bound (takeBatch v sending) := by
  have hbatch : (takeBatch v sending).batch = v.session.queue ∧
      (takeBatch v sending).session.queue = [] ∧ (takeBatch v sending).sent = v.sent ∧
      (takeBatch v sending).pushed = v.pushed := by
    unfold takeBatch
    split
    · exact ⟨(beginSend_queue v.session).1, (beginSend_queue v.session).2, rfl, rfl⟩
    · exact ⟨rfl, rfl, rfl, rfl⟩
  obtain ⟨htaken, hempty, hsent, hpushed⟩ := hbatch
  refine ⟨?_, fun bound ho => ⟨?_, ?_, ?_, ?_⟩⟩
  · rw [viewerHeld, viewerHeld, h, htaken, hempty]
    simp [names]
  · rw [hempty]
    exact Nat.zero_le _
  · have horder := ho.order
    rw [h, List.append_nil] at horder
    rw [htaken, hempty, hsent, hpushed, List.append_nil]
    exact horder
  · rw [hpushed]
    exact ho.rising
  · rw [hpushed]
    exact ho.below

/-- Nothing of what the frames are about has changed. -/
theorem same_frames {v v' : Viewer} (hbatch : v'.batch = v.batch)
    (hqueue : v'.session.queue = v.session.queue) (hsent : v'.sent = v.sent)
    (hpushed : v'.pushed = v.pushed) :
    (viewerHeld v).Perm (viewerHeld v') ∧ ∀ bound, Orderly bound v → Orderly bound v' := by
  refine ⟨?_, fun bound ho => ⟨?_, ?_, ?_, ?_⟩⟩
  · rw [viewerHeld, viewerHeld, hbatch, hqueue]
  · rw [hqueue]
    exact ho.mailbox
  · rw [hsent, hbatch, hqueue, hpushed]
    exact ho.order
  · rw [hpushed]
    exact ho.rising
  · rw [hpushed]
    exact ho.below

theorem becomeConnected_queue (s : LpSession) : (becomeConnected s).queue = s.queue := by
  unfold becomeConnected
  split <;> rfl

theorem sessionStep_spec {lockFree : Bool} {v v' : Viewer} {e : LpEvent}
    (h : sessionStep lockFree v e = some v') :
    (viewerHeld v).Perm (viewerHeld v') ∧ ∀ bound, Orderly bound v → Orderly bound v' := by
  unfold sessionStep at h
  split at h
  case h_1 =>
    split at h <;> cases h
    exact same_frames rfl (becomeConnected_queue v.session) rfl rfl
  case h_2 =>
    split at h <;> cases h
    rename_i hready
    exact takeBatch_spec hready.2.1 true
  case h_3 =>
    split at h <;> cases h
    rename_i hready
    exact takeBatch_spec hready.2 false
  case h_4 =>
    split at h <;> cases h
    rename_i hready
    obtain ⟨hheld, horder⟩ := takeBatch_spec hready.2 false
    exact ⟨hheld, fun bound ho => ⟨(horder bound ho).mailbox, (horder bound ho).order,
      (horder bound ho).rising, (horder bound ho).below⟩⟩
  case h_11 => cases h
  all_goals
    split at h <;> cases h
    exact same_frames rfl rfl rfl rfl

theorem push_spec (s : LpSession) (frame : LpFrame) :
    if (s.stop || s.finished) = true then
      (lpSessionPushFrame s frame).queue = s.queue ∧ flushedBy s = []
    else if s.queue.length = lpSessionMailbox then
      (lpSessionPushFrame s frame).queue = [frame] ∧ flushedBy s = s.queue
    else (lpSessionPushFrame s frame).queue = s.queue ++ [frame] ∧ flushedBy s = [] := by
  unfold lpSessionPushFrame flushedBy flushFull
  split
  · exact ⟨rfl, rfl⟩
  · split <;> exact ⟨rfl, rfl⟩

theorem current_known {s : LpServer} (h : Consistent s) {frame : LpFrame} {next : Nat}
    {flushed : List LpFrame} (hmedia : s.media = .fanning frame next flushed) :
    frame.id < s.heap.created := by
  refine h.owned.known frame.id ?_
  rw [held, hmedia]
  simp [mediaHeld]

/-- The push gives a reference to the session and takes what it flushed. -/
theorem pushTo_consistent {s : LpServer} (h : Consistent s) {frame : LpFrame} {next : Nat}
    (hmedia : s.media = .fanning frame next []) {v : Viewer} (hv : s.viewers[next]? = some v) :
    Consistent (pushTo s frame next v) := by
  have hold := h.viewers next v hv
  rw [hmedia, limit, if_neg (Nat.lt_irrefl next)] at hold
  have hknown := current_known h hmedia
  have hcreated : ∀ heap : RefHeap, heap.created = s.heap.created → ∀ j,
      limit s.media s.heap.created j ≤
        limit (.fanning frame (next + 1) (flushedBy v.session)) heap.created j := by
    intro heap hsame j
    rw [hmedia, limit, limit, hsame]
    split <;> split <;> omega
  have horder : ∀ queue, queue.length ≤ lpSessionMailbox →
      queue.Sublist (v.session.queue ++ [frame]) →
      ∀ heap : RefHeap, heap.created = s.heap.created → ∀ session : LpSession,
      session.queue = queue →
      Orderly (limit (.fanning frame (next + 1) (flushedBy v.session)) heap.created next)
        { v with session, pushed := v.pushed ++ [frame] } := by
    intro queue hlength hsub heap hsame session hqueue
    rw [limit, if_pos (Nat.lt_succ_self next), hsame]
    refine ⟨by rw [hqueue]; exact hlength, ?_, ?_, ?_⟩
    · have hall := hold.order.append (List.Sublist.refl [frame])
      rw [List.append_assoc] at hall
      dsimp only
      rw [hqueue]
      exact ((hsub.append_left _).trans hall)
    · have hrising : names (v.pushed ++ [frame]) = names v.pushed ++ [frame.id] := by
        simp [names]
      dsimp only
      rw [hrising, List.pairwise_append]
      refine ⟨hold.rising, List.pairwise_singleton _ _, ?_⟩
      intro a ha b hb
      obtain ⟨f, hf, rfl⟩ := List.mem_map.mp ha
      rw [List.mem_singleton.mp hb]
      exact hold.below f hf
    · intro f hf
      rcases List.mem_append.mp hf with hf | hf
      · exact Nat.lt_trans (hold.below f hf) hknown
      · rw [List.mem_singleton.mp hf]
        exact hknown
  have hspec := push_spec v.session frame
  unfold pushTo
  split at hspec
  · rename_i hrefused
    obtain ⟨hqueue, hflushed⟩ := hspec
    rw [if_pos hrefused]
    refine h.replace hv (fun rest ho => ?_) (hcreated s.heap rfl)
      (horder v.session.queue hold.mailbox (List.sublist_append_left _ _) s.heap rfl _ hqueue)
    rw [hmedia] at ho
    have hsame : viewerHeld { v with
        session := lpSessionPushFrame v.session frame, pushed := v.pushed ++ [frame] } =
        viewerHeld v := by
      rw [viewerHeld, hqueue]
      rfl
    rw [hsame, hflushed]
    exact ho
  · rename_i hopen
    rw [if_neg hopen]
    have hshare : ∀ rest, s.heap.Owned (mediaHeld s.media ++ (viewerHeld v ++ rest)) →
        (lpFrameRef s.heap frame).Owned (frame.id :: (frame.id :: (viewerHeld v ++ rest))) := by
      intro rest ho
      rw [hmedia] at ho
      exact ho.ref (by simp [mediaHeld])
    split at hspec
    · obtain ⟨hqueue, hflushed⟩ := hspec
      refine h.replace hv (fun rest ho => (hshare rest ho).perm ?_) (hcreated _ rfl)
        (horder [frame] (Nat.le_add_left 1 7) (List.sublist_append_right _ _) _ rfl _ hqueue)
      rw [viewerHeld, viewerHeld, hqueue, hflushed, mediaHeld, List.perm_iff_count]
      intro a
      simp only [names, List.map_cons, List.map_nil, List.cons_append, List.nil_append,
        List.append_assoc, List.count_cons, List.count_append]
      omega
    · rename_i hroom
      obtain ⟨hqueue, hflushed⟩ := hspec
      have hlength : (v.session.queue ++ [frame]).length ≤ lpSessionMailbox := by
        have hle := hold.mailbox
        rw [List.length_append, List.length_singleton]
        omega
      refine h.replace hv (fun rest ho => (hshare rest ho).perm ?_) (hcreated _ rfl)
        (horder _ hlength (List.Sublist.refl _) _ rfl _ hqueue)
      rw [viewerHeld, viewerHeld, hqueue, hflushed, mediaHeld, List.perm_iff_count]
      intro a
      simp only [names, List.map_cons, List.map_nil, List.map_append, List.cons_append,
        List.nil_append, List.append_assoc, List.count_cons, List.count_append]
      omega

/-- One frame of the batch is sent or dropped. -/
theorem sendNext_spec {v : Viewer} {frame : LpFrame} {batch : List LpFrame}
    (h : v.batch = frame :: batch) (sent : Bool) :
    (viewerHeld v).Perm (frame.id :: viewerHeld (sendNext v frame batch sent)) ∧
      ∀ bound, Orderly bound v → Orderly bound (sendNext v frame batch sent) := by
  have hqueue : (sendNext v frame batch sent).session.queue = v.session.queue := by
    unfold sendNext sendFrame
    dsimp only
    split
    · rfl
    · split <;> rfl
  refine ⟨?_, fun bound ho => ⟨?_, ?_, ho.rising, ho.below⟩⟩
  · rw [viewerHeld, viewerHeld, hqueue, h]
    exact List.Perm.refl _
  · rw [hqueue]
    exact ho.mailbox
  · rw [hqueue]
    have horder := ho.order
    rw [h] at horder
    unfold sendNext
    dsimp only
    split
    · rw [List.append_assoc v.sent [frame] batch]
      exact horder
    · refine List.Sublist.trans ?_ horder
      exact ((List.Sublist.refl v.sent).append (List.sublist_cons_self frame batch)).append_right _

theorem dropNext_spec {v : Viewer} {frame : LpFrame} {batch : List LpFrame}
    (h : v.batch = frame :: batch) :
    (viewerHeld v).Perm (frame.id :: viewerHeld { v with batch }) ∧
      ∀ bound, Orderly bound v → Orderly bound { v with batch } := by
  refine ⟨?_, fun bound ho => ⟨ho.mailbox, ?_, ho.rising, ho.below⟩⟩
  · rw [viewerHeld, viewerHeld, h]
    exact List.Perm.refl _
  · have horder := ho.order
    rw [h] at horder
    refine List.Sublist.trans ?_ horder
    exact ((List.Sublist.refl v.sent).append (List.sublist_cons_self frame batch)).append_right _

theorem collectNext_spec {v : Viewer} {frame : LpFrame} {queue : List LpFrame}
    (h : v.session.queue = frame :: queue) :
    (viewerHeld v).Perm (frame.id :: viewerHeld { v with session := { v.session with queue } }) ∧
      ∀ bound, Orderly bound v → Orderly bound { v with session := { v.session with queue } } := by
  refine ⟨?_, fun bound ho => ⟨?_, ?_, ho.rising, ho.below⟩⟩
  · rw [viewerHeld, viewerHeld, h]
    exact List.perm_middle
  · have hle := ho.mailbox
    rw [h, List.length_cons] at hle
    exact Nat.le_of_succ_le hle
  · have horder := ho.order
    rw [h] at horder
    refine List.Sublist.trans ?_ horder
    exact (List.Sublist.refl (v.sent ++ v.batch)).append (List.sublist_cons_self frame queue)

/-- A step of the media thread that concerns no session. -/
theorem Consistent.media {s : LpServer} (h : Consistent s) {heap : RefHeap} {media : MediaPhase}
    (howned : ∀ rest, s.heap.Owned (mediaHeld s.media ++ rest) →
      heap.Owned (mediaHeld media ++ rest))
    (hlimit : ∀ j, limit s.media s.heap.created j ≤ limit media heap.created j) :
    Consistent { s with heap, media } :=
  ⟨howned _ h.owned, fun i v hv => (h.viewers i v hv).mono (hlimit i)⟩

/-- A new session holds nothing. -/
theorem create_consistent {s : LpServer} (h : Consistent s) :
    Consistent { s with viewers := s.viewers ++ [.start] } := by
  refine ⟨?_, fun i v hv => ?_⟩
  · have hsame : held { s with viewers := s.viewers ++ [.start] } = held s := by
      simp [held, viewerHeld, Viewer.start, lpSessionCreate, names]
    rw [hsame]
    exact h.owned
  · dsimp only at hv
    rw [List.getElem?_append] at hv
    split at hv
    · exact h.viewers i v hv
    · rw [List.getElem?_singleton] at hv
      split at hv
      · rw [← Option.some.inj hv]
        exact ⟨Nat.zero_le _, List.Sublist.slnil, List.Pairwise.nil, fun f hf => (by cases hf)⟩
      · cases hv

theorem step_consistent (s : LpServer) (e : LpEvent) (h : Consistent s) : Consistent (s.step e) := by
  have hsession : ∀ {i v v'}, s.viewers[i]? = some v →
      sessionStep (!s.media.holdsLock) v e = some v' →
      Consistent { s with viewers := s.viewers.set i v' } := by
    intro i v v' hv hstep
    obtain ⟨hheld, horder⟩ := sessionStep_spec hstep
    exact h.reorder hv hheld horder
  cases e with
  | createFrame data isIdr ptsUs =>
    simp only [LpServer.step]
    split
    · rename_i hidle
      refine h.media (fun rest ho => ?_) fun j => ?_
      · rw [hidle] at ho
        exact ho.alloc
      · rw [hidle]
        simp only [limit, Nat.not_lt_zero, if_false]
        exact Nat.le_refl _
    · exact h
  | skip =>
    simp only [LpServer.step]
    split
    · rename_i frame next hfan
      refine h.media (fun rest ho => ?_) fun j => ?_
      · rw [hfan] at ho
        exact ho
      · have hknown := current_known h hfan
        rw [hfan, limit, limit]
        split <;> split <;> omega
    · exact h
  | resync =>
    simp only [LpServer.step]
    split
    · split
      · split
        · rename_i v hv _
          have hsame := @same_frames v { v with session := lpSessionResync v.session }
            rfl rfl rfl rfl
          exact h.reorder hv hsame.1 hsame.2
        · exact h
      · exact h
    · exact h
  | push =>
    simp only [LpServer.step]
    split
    · rename_i frame next hfan
      split
      · split
        · rename_i v hv _
          exact pushTo_consistent h hfan hv
        · exact h
      · exact h
    · exact h
  | unrefFlushed =>
    simp only [LpServer.step]
    split
    · rename_i frame next old flushed hfan
      refine h.media (fun rest ho => ?_) fun j => ?_
      · rw [hfan] at ho
        refine RefHeap.Owned.unref (ho.perm ?_)
        exact List.Perm.swap old.id frame.id (names flushed ++ rest)
      · rw [hfan]
        exact Nat.le_refl _
    · exact h
  | unlock =>
    simp only [LpServer.step]
    split
    · rename_i frame next hfan
      refine h.media (fun rest ho => ?_) fun j => ?_
      · rw [hfan] at ho
        exact ho
      · have hknown := current_known h hfan
        rw [hfan]
        simp only [limit]
        split <;> omega
    · exact h
  | unrefFrame =>
    simp only [LpServer.step]
    split
    · rename_i frame hunlocked
      refine h.media (fun rest ho => ?_) fun j => ?_
      · rw [hunlocked] at ho
        exact RefHeap.Owned.unref ho
      · rw [hunlocked]
        exact Nat.le_refl _
    · exact h
  | send i sent =>
    simp only [LpServer.step]
    split
    · rename_i v hv
      split
      · rename_i frame batch hbatch
        split
        · obtain ⟨hheld, horder⟩ := sendNext_spec hbatch sent
          have hmem : frame.id ∈ held s := by
            obtain ⟨rest, hperm, -⟩ := viewers_split hv
            have hin := (hheld.append_right rest).mem_iff.mpr (List.mem_cons_self)
            exact List.mem_append_right _ (hperm.mem_iff.mpr hin)
          rw [h.owned.touch hmem]
          exact h.release hv hheld horder
        · exact h
      · exact h
    · exact h
  | drop i =>
    simp only [LpServer.step]
    split
    · rename_i v hv
      split
      · rename_i frame batch hbatch
        split
        · exact h
        · obtain ⟨hheld, horder⟩ := dropNext_spec hbatch
          exact h.release hv hheld horder
      · exact h
    · exact h
  | create => exact create_consistent h
  | collect i =>
    simp only [LpServer.step]
    split
    · rename_i v hv
      split
      · rename_i frame queue hqueue
        split
        · obtain ⟨hheld, horder⟩ := collectNext_spec hqueue
          exact h.release hv hheld horder
        · exact h
      · exact h
    · exact h
  | connect i | takeToSend i | takeToDrop i | leave i | finish i | register i | close i | remove i
  | join i | free i =>
    simp only [LpServer.step, LpEvent.viewer]
    split
    · rename_i v hv
      split
      · rename_i v' hstep
        exact hsession hv hstep
      · exact h
    · exact h

theorem start_consistent : Consistent .start :=
  ⟨RefHeap.empty_owned, fun i v hv => by simp [LpServer.start] at hv⟩

theorem run_consistent (events : List LpEvent) : Consistent (run LpServer.step .start events) :=
  run_invariant start_consistent step_consistent events

/-- In every interleaving the count of a frame is the number of those who hold it, a frame
nobody holds was freed once and the others were not, no frame is used after that, and each
session sends what was pushed to it in that order. -/
theorem lpFrame_owned (events : List LpEvent) :
    let s := run LpServer.step .start events
    (∀ f < s.heap.created, s.heap.refs f = (held s).count f ∧
      s.heap.freed f = if f ∈ held s then 0 else 1) ∧
    s.heap.misuse = false ∧
    ∀ v ∈ s.viewers, v.session.queue.length ≤ lpSessionMailbox ∧ v.sent.Sublist v.pushed ∧
      v.pushed.Nodup := by
  intro s
  have hs : Consistent s := run_consistent events
  refine ⟨fun f hf => ⟨hs.owned.counts f, ?_⟩, hs.owned.proper, fun v hv => ?_⟩
  · rw [hs.owned.freed f]
    by_cases hheld : f ∈ held s <;> simp [hheld, hf]
  · obtain ⟨i, hi⟩ := List.mem_iff_getElem?.mp hv
    have hv := hs.viewers i v hi
    refine ⟨hv.mailbox, ?_, ?_⟩
    · refine List.Sublist.trans ?_ hv.order
      exact (List.sublist_append_left v.sent v.batch).trans (List.sublist_append_left _ _)
    · have hnodup : (names v.pushed).Nodup := hv.rising.imp Nat.ne_of_lt
      exact hnodup.of_map _

/-- A frame for two sessions: one sends it, the other has left its loop and is destroyed
with the frame in its mailbox. -/
example :
    let s := run LpServer.step .start [.create, .register 0, .create, .register 1, .connect 0,
      .leave 1, .createFrame [1] true 0, .push, .push, .unlock, .finish 1, .takeToSend 0,
      .send 0 true, .unrefFrame, .remove 1, .join 1]
    held s = [0] ∧ s.heap.freed 0 = 0 ∧ (s.step (.collect 1)).heap.freed 0 = 1 := by
  decide

end Camstream.Proofs.LpFrames
