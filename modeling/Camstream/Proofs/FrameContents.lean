import Camstream.Media.FrameMail
import Camstream.Proofs.FrameOwnership

namespace Camstream.Proofs.FrameContents
open Lib Media FrameOwnership

/-- A frame shows the image of a publish: its description and, where no image is larger
than a buffer, its bytes. -/
structure Shows (fits : Prop) (r : TakenFrame) (p : Image) : Prop where
  info : r.info = p.described
  bytes : fits → r.bytes.take p.data.length = p.data

theorem frameRef_info (pool : FramePool) (f g : Nat) :
    ((frameRef pool f).frames g).info = (pool.frames g).info := by
  unfold frameRef
  by_cases hg : g = f
  · subst hg
    simp
  · simp [Function.update_of_ne hg]

theorem frameUnref_info (pool : FramePool) (f g : Nat) :
    ((frameUnref pool f).2.frames g).info = (pool.frames g).info := by
  have hupdate : ∀ frame : Frame, frame.info = (pool.frames f).info →
      (Function.update pool.frames f frame g).info = (pool.frames g).info := by
    intro frame hframe
    by_cases hg : g = f
    · subst hg
      simpa using hframe
    · rw [Function.update_of_ne hg]
  unfold frameUnref
  dsimp only
  split
  · rfl
  · split
    · split
      · exact hupdate _ rfl
      · exact hupdate _ rfl
    · exact hupdate _ rfl

theorem deliver_info (hub : FrameHub) (f c g : Nat) :
    ((deliver hub f c).2.pool.frames g).info = (hub.pool.frames g).info := by
  unfold deliver
  split
  · cases (hub.consumer c).slot with
    | none => exact frameRef_info hub.pool f g
    | some old => exact (frameUnref_info _ old g).trans (frameRef_info hub.pool f g)
  · rfl

theorem dropMailbox_info (hub : FrameHub) (c g : Nat) :
    ((dropMailbox hub c).2.pool.frames g).info = (hub.pool.frames g).info := by
  unfold dropMailbox
  cases (hub.consumer c).slot with
  | none => rfl
  | some f => exact frameUnref_info hub.pool f g

theorem fillFrame_info (pool : FramePool) (p : Publisher) :
    ((fillFrame pool p).frames p.frame).info = p.image.described := by
  simp [fillFrame, Image.described, Publisher.image]

theorem fillFrame_info_ne (pool : FramePool) (p : Publisher) {g : Nat} (hg : g ≠ p.frame) :
    ((fillFrame pool p).frames g).info = (pool.frames g).info := by
  simp [fillFrame, copyInto, Function.update_of_ne hg]

/-- The frame that is filled starts with the image. -/
theorem fillFrame_bytes_self (pool : FramePool) (p : Publisher)
    (hfit : p.data.length ≤ pool.capacity) :
    (frameBytes (fillFrame pool p) p.frame).take p.data.length = p.data := by
  refine List.ext_getElem ?_ ?_
  · simpa [frameBytes, fillFrame, copyInto] using hfit
  · intro k hk hk'
    simp [frameBytes, fillFrame, copyInto, hk']

variable {capacity count : Nat} {s : HubThreads}

/-- No step changes what a frame says that is held and not waiting for its image. -/
theorem step_info (h : Owned capacity count s) (e : HubStep) {f : Nat} (hf : f ∈ s.held)
    (hfilled : f ∉ acquired s) :
    ((s.step e).hub.pool.frames f).info = (s.hub.pool.frames f).info := by
  have hpublish : ∀ i p, s.publishers[i]? = some p → (e = .fill i ∨ e = .lock i ∨ e = .deliver i ∨
      e = .release i) → ((s.publisherStep i p e).hub.pool.frames f).info =
        (s.hub.pool.frames f).info := by
    intro i p hp he
    rcases he with rfl | rfl | rfl | rfl
    · simp only [HubThreads.publisherStep]
      cases hphase : p.phase with
      | acquired =>
        have hmem : p.frame ∈ acquired s := List.mem_map_of_mem
          (List.mem_filter.mpr ⟨List.mem_of_getElem? hp, by simpa using hphase⟩)
        have hne : f ≠ p.frame := fun he => hfilled (he ▸ hmem)
        exact fillFrame_info_ne s.hub.pool p hne
      | _ => rfl
    · simp only [HubThreads.publisherStep]
      cases p.phase with
      | filled =>
        dsimp only
        split <;> rfl
      | _ => rfl
    · simp only [HubThreads.publisherStep]
      cases p.phase with
      | delivering cs =>
        cases cs with
        | nil => rfl
        | cons c rest => exact deliver_info s.hub p.frame c f
      | _ => rfl
    · simp only [HubThreads.publisherStep]
      cases p.phase with
      | unlocked => exact frameUnref_info s.hub.pool p.frame f
      | _ => rfl
  cases e with
  | acquire data info =>
    simp only [HubThreads.step]
    split
    · rfl
    · split
      · rfl
      · rename_i g pool ha
        have hfresh := (acquire_held h.pool ha).1
        have hne : f ≠ g := fun he => hfresh (he ▸ hf)
        unfold framePoolAcquire at ha
        split at ha
        · cases ha
        · cases ha
          simp [Function.update_of_ne hne]
  | fill i | lock i | deliver i | release i =>
    simp only [HubThreads.step]
    split
    · rename_i p hp
      exact hpublish i p hp (by simp)
    · rfl
  | subscribe =>
    simp only [HubThreads.step]
    split <;> rfl
  | unlink c =>
    simp only [HubThreads.step]
    split
    · rfl
    · simp only [unlinkConsumer]
      split <;> rfl
  | drop c =>
    simp only [HubThreads.step]
    split
    · exact dropMailbox_info s.hub c f
    · rfl
  | take c =>
    simp only [HubThreads.step]
    split <;> rfl
  | unref g =>
    simp only [HubThreads.step]
    split
    · exact frameUnref_info s.hub.pool g f
    · rfl

/-- Nor its bytes, where the images fit. -/
theorem step_bytes (h : Owned capacity count s) (e : HubStep) {f : Nat} (hf : f ∉ acquired s)
    (hfits : ∀ p ∈ s.publishers, p.data.length ≤ capacity) :
    frameBytes (s.step e).hub.pool f = frameBytes s.hub.pool f := by
  obtain ⟨hnext, hstore | ⟨p, ⟨i, -, hp, hphase⟩, hpool⟩⟩ := step_effect s e h
  · exact hstore.bytes h.pool hnext.pool f
  · have hmem : p ∈ s.publishers := List.mem_of_getElem? hp
    have hacquired : p.frame ∈ acquired s :=
      List.mem_map_of_mem (List.mem_filter.mpr ⟨hmem, by simpa using hphase⟩)
    have hne : f ≠ p.frame := fun he => hf (he ▸ hacquired)
    rw [hpool]
    exact fillFrame_bytes h.pool (h.capacity ▸ hfits p hmem) hne

/-- So it goes on showing its image. -/
theorem step_shows {fits : Prop} (h : Owned capacity count s) (e : HubStep) {f : Nat}
    (hf : f ∈ s.held) (hfilled : f ∉ acquired s)
    (hfits : fits → ∀ p ∈ s.publishers, p.data.length ≤ capacity) {p : Image}
    (hp : Shows fits (handed s.hub.pool f) p) : Shows fits (handed (s.step e).hub.pool f) p := by
  refine ⟨(step_info h e hf hfilled).trans hp.info, ?_⟩
  intro hall
  have hbytes : frameBytes (s.step e).hub.pool f = frameBytes s.hub.pool f :=
    step_bytes h e hfilled (hfits hall)
  change (frameBytes (s.step e).hub.pool f).take _ = _
  rw [hbytes]
  exact hp.bytes hall

/-- A frame in a mailbox is not waiting for its image. -/
theorem slot_held (h : Owned capacity count s) {c f : Nat}
    (hc : c ∈ s.hub.consumers ++ s.leaving) (hslot : (s.hub.consumer c).slot = some f) :
    f ∈ s.held ∧ f ∉ acquired s := by
  have hmail : f ∈ mail s.hub.consumer (s.hub.consumers ++ s.leaving) :=
    List.mem_filterMap.mpr ⟨c, hc, hslot⟩
  have hheld : f ∈ s.held := by
    rw [held_eq]
    exact List.mem_append_left _ (List.mem_append_right _ hmail)
  refine ⟨hheld, ?_⟩
  intro hacquired
  have hone := h.alone f hacquired
  have hpublisher : f ∈ s.publishers.map Publisher.frame := by
    obtain ⟨p, hp, rfl⟩ := List.mem_map.mp hacquired
    exact List.mem_map_of_mem (List.mem_of_mem_filter hp)
  have h1 := List.count_pos_iff.mpr hpublisher
  have h2 := List.count_pos_iff.mpr hmail
  rw [held_eq, List.count_append, List.count_append] at hone
  omega

end Camstream.Proofs.FrameContents
