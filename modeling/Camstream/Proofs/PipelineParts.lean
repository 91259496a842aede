import Camstream.App.PipelineParts

namespace Camstream.Proofs.PipelineParts
open Lib App

variable {parts next : MediaParts}

def live (parts : MediaParts) : Set MediaPart := {part | parts.has part = true}

/-- What was opened and closed so far was in order, and has left what exists. -/
def Held (parts : MediaParts) : Prop := Orderly MediaPart.Needs ∅ parts.history (live parts)

theorem Held.same (h : Held parts) (hhistory : next.history = parts.history)
    (hhas : ∀ other, next.has other = parts.has other) : Held next := by
  have hset : live next = live parts := by
    ext other
    simp [live, hhas]
  unfold Held
  rw [hhistory, hset]
  exact h

theorem not_works_self (part : MediaPart) : part ∉ part.works := by
  cases part <;> simp [MediaPart.works]

/-- Parts that come new work with old ones, not with each other. -/
theorem strange {opened : List MediaPart} (fresh : ∀ part ∈ opened, parts.has part = false)
    (served : ∀ part ∈ opened, ∀ other ∈ part.works, parts.has other = true) :
    ∀ first ∈ opened, ∀ second ∈ opened, second ∉ first.works := by
  intro first hfirst second hsecond hworks
  exact Bool.false_ne_true ((fresh second hsecond).symm.trans (served first hfirst second hworks))

/-- What a step opens works with what exists already. -/
theorem Held.opens (h : Held parts) (opened : List MediaPart) (hnodup : opened.Nodup)
    (fresh : ∀ part ∈ opened, parts.has part = false)
    (served : ∀ part ∈ opened, ∀ other ∈ part.works, parts.has other = true)
    (hhistory : next.history = parts.history ++ opened.map .opened)
    (hhas : ∀ other, next.has other = true ↔ parts.has other = true ∨ other ∈ opened) :
    Held next := by
  have hset : live next = live parts ∪ {part | part ∈ opened} := by
    ext other
    exact hhas other
  have hstrange := strange fresh served
  unfold Held
  rw [hhistory, hset]
  apply Orderly.openAll h hnodup
  · intro part hpart hlive
    exact Bool.false_ne_true ((fresh part hpart).symm.trans hlive)
  · exact fun part _ => not_works_self part
  · exact List.pairwise_of_forall_mem_list hstrange
  · exact fun part hpart other hneeds => .inl (served part hpart other hneeds)

/-- Parts that come and go in a step that fails. -/
theorem Held.passes (h : Held parts) (passing : List MediaPart) (hnodup : passing.Nodup)
    (fresh : ∀ part ∈ passing, parts.has part = false)
    (served : ∀ part ∈ passing, ∀ other ∈ part.works, parts.has other = true)
    (hunneeded : ∀ other, parts.has other = true → ∀ part ∈ passing, part ∉ other.works)
    (hhistory : next.history =
      parts.history ++ (passing.map .opened ++ passing.reverse.map .closed))
    (hhas : ∀ other, next.has other = parts.has other) : Held next := by
  have hset : live next = live parts := by
    ext other
    simp [live, hhas]
  have hstrange := strange fresh served
  unfold Held
  rw [hhistory, hset]
  apply Orderly.openClose h passing.reverse hnodup
  · intro part hpart hlive
    exact Bool.false_ne_true ((fresh part hpart).symm.trans hlive)
  · exact fun part _ => not_works_self part
  · exact List.pairwise_of_forall_mem_list hstrange
  · exact fun part hpart other hneeds => .inl (served part hpart other hneeds)
  · exact List.nodup_reverse.mpr hnodup
  · exact fun part => List.mem_reverse
  · exact List.pairwise_of_forall_mem_list fun first hfirst second hsecond =>
      hstrange second (List.mem_reverse.mp hsecond) first (List.mem_reverse.mp hfirst)
  · exact hunneeded

/-- The order of `media_pipeline_stop`. -/
def closing : List MediaPart :=
  [.sourceThread, .sourceWorker, .encoderThread, .consumer, .encoderWorker, .backend, .encoder,
    .ring, .hub, .source]

theorem sourceWorkerDestroy_eq (parts : MediaParts) :
    sourceWorkerDestroy parts =
      { parts with
        sourceWorker := none
        history := parts.history ++
          ([MediaPart.sourceThread, .sourceWorker].filter parts.has).map .closed } := by
  obtain ⟨_, _, _, _, _, _, worker, _, _⟩ := parts
  cases worker with
  | none => simp [sourceWorkerDestroy, MediaParts.has, List.filter]
  | some worker =>
    obtain ⟨started⟩ := worker
    cases started <;> simp [sourceWorkerDestroy, MediaParts.has, List.filter]

theorem encoderWorkerDestroy_eq (parts : MediaParts) :
    encoderWorkerDestroy parts =
      { parts with
        encoderWorker := none
        history := parts.history ++
          ([MediaPart.encoderThread, .consumer, .encoderWorker].filter parts.has).map
            .closed } := by
  obtain ⟨_, _, _, _, worker, _, _, _, _⟩ := parts
  cases worker with
  | none => simp [encoderWorkerDestroy, MediaParts.has, List.filter]
  | some worker =>
    obtain ⟨started⟩ := worker
    cases started <;> simp [encoderWorkerDestroy, MediaParts.has, List.filter]

theorem encoderClose_eq (parts : MediaParts) :
    encoderClose parts =
      { parts with
        encoder := none
        history := parts.history ++
          ([MediaPart.backend, .encoder].filter parts.has).map .closed } := by
  obtain ⟨_, _, _, encoder, _, _, _, _, _⟩ := parts
  cases encoder <;> simp [encoderClose, MediaParts.has, List.filter]

theorem ringDestroy_eq (parts : MediaParts) :
    ringDestroy parts =
      { parts with
        ring := false
        history := parts.history ++ ([MediaPart.ring].filter parts.has).map .closed } := by
  obtain ⟨_, _, ring, _, _, _, _, _, _⟩ := parts
  cases ring <;> simp [ringDestroy, MediaParts.has, List.filter]

theorem hubDestroy_eq (parts : MediaParts) :
    hubDestroy parts =
      { parts with
        hub := false
        history := parts.history ++ ([MediaPart.hub].filter parts.has).map .closed } := by
  obtain ⟨_, hub, _, _, _, _, _, _, _⟩ := parts
  cases hub <;> simp [hubDestroy, MediaParts.has, List.filter]

theorem sourceClose_eq (parts : MediaParts) :
    sourceClose parts =
      { parts with
        source := none
        history := parts.history ++ ([MediaPart.source].filter parts.has).map .closed } := by
  obtain ⟨source, _, _, _, _, _, _, _, _⟩ := parts
  cases source <;> simp [sourceClose, MediaParts.has, List.filter]

/-- What exists is closed, in the order of the code, and the pointers are null. -/
theorem stopParts_eq (parts : MediaParts) :
    stopParts parts =
      { MediaParts.empty with
        mediaThreadStarted := parts.mediaThreadStarted
        history := parts.history ++ (closing.filter parts.has).map .closed } := by
  unfold stopParts
  rw [sourceWorkerDestroy_eq, encoderWorkerDestroy_eq, encoderClose_eq, ringDestroy_eq,
    hubDestroy_eq, sourceClose_eq]
  have hsplit : closing.filter parts.has =
      [MediaPart.sourceThread, .sourceWorker].filter parts.has ++
        [MediaPart.encoderThread, .consumer, .encoderWorker].filter parts.has ++
        [MediaPart.backend, .encoder].filter parts.has ++ [MediaPart.ring].filter parts.has ++
        [MediaPart.hub].filter parts.has ++ [MediaPart.source].filter parts.has := by
    simp only [← List.filter_append]
    rfl
  rw [hsplit]
  simp only [List.map_append, List.append_assoc]
  rfl

theorem closing_sorted : closing.Pairwise fun first second => first ∉ second.works := by
  simp [closing, MediaPart.works]

theorem mem_closing (part : MediaPart) : part ∈ closing ↔ part ≠ .mediaThread := by
  cases part <;> simp [closing]

theorem stopParts_has (hmedia : parts.mediaThreadStarted = false) (part : MediaPart) :
    (stopParts parts).has part = false := by
  rw [stopParts_eq]
  cases part <;> simp [MediaParts.has, MediaParts.empty, hmedia]

theorem stopParts_held (h : Held parts) (hmedia : parts.mediaThreadStarted = false) :
    Held (stopParts parts) := by
  have hmem : ∀ part, part ∈ closing.filter parts.has ↔ parts.has part = true := by
    intro part
    rw [List.mem_filter, mem_closing]
    constructor
    · exact fun hpart => hpart.2
    · intro hpart
      refine ⟨?_, hpart⟩
      rintro rfl
      exact Bool.false_ne_true (hmedia.symm.trans hpart)
  have hnodup : (closing.filter parts.has).Nodup := by
    apply List.Nodup.filter
    simp [closing]
  have hclosed := Orderly.closeAll h hnodup (fun part hpart => (hmem part).mp hpart)
    (fun part _ => not_works_self part) (closing_sorted.filter _)
    (fun _ _ other hother _ => (hmem other).mpr hother)
  have hset : live parts \ {part | part ∈ closing.filter parts.has} = live (stopParts parts) := by
    ext part
    have hgone := stopParts_has hmedia part
    simp [live, hmem, hgone]
  unfold Held
  rw [← hset, stopParts_eq]
  exact hclosed

theorem openSource_held (world : PartsWorld) (h : Held parts) (hsource : parts.source = none) :
    Held (openSource parts world) := by
  unfold openSource
  cases hopens : world.source with
  | none =>
    apply h.same
    · simp
    · intro other
      cases other <;> simp [MediaParts.has, hsource]
  | some source =>
    apply h.opens [.source]
    · simp
    · simp [MediaParts.has, hsource]
    · simp [MediaPart.works]
    · rfl
    · intro other
      cases other <;> simp [MediaParts.has]

theorem openHub_held (world : PartsWorld) (h : Held parts) (hhub : parts.hub = false) :
    Held (openHub parts world) := by
  unfold openHub
  cases hopens : world.hub with
  | false =>
    apply h.same
    · simp
    · intro other
      cases other <;> simp [MediaParts.has, hhub]
  | true =>
    apply h.opens [.hub]
    · simp
    · simp [MediaParts.has, hhub]
    · simp [MediaPart.works]
    · rfl
    · intro other
      cases other <;> simp [MediaParts.has]

theorem openRing_held (world : PartsWorld) (h : Held parts) (hring : parts.ring = false) :
    Held (openRing parts world) := by
  unfold openRing
  cases hopens : world.ring with
  | false =>
    apply h.same
    · simp
    · intro other
      cases other <;> simp [MediaParts.has, hring]
  | true =>
    apply h.opens [.ring]
    · simp
    · simp [MediaParts.has, hring]
    · simp [MediaPart.works]
    · rfl
    · intro other
      cases other <;> simp [MediaParts.has]

/-- A backend stays open with its encoder, or is closed at once. -/
theorem backendLife_cases (world : PartsWorld) (name : Option Bytes) :
    backendLife world name =
      if name.isSome ∧ world.allocates then [.opened .backend, .opened .encoder]
      else if name.isSome then [.opened .backend, .closed .backend]
      else [] := by
  cases name <;> cases hallocates : world.allocates <;> simp [backendLife, hallocates]

/-- What was opened for the encoder when it opens, and when it does not. -/
def EncoderLife (opened : Option (EncoderKind × Bytes)) (life : List (Life MediaPart)) : Prop :=
  (opened.isSome ∧ life = [.opened .backend, .opened .encoder]) ∨
    (opened = none ∧ (life = [] ∨ life = [.opened .backend, .closed .backend]))

theorem softwareLife_spec (world : PartsWorld) (wanted : Bool) :
    EncoderLife (openSoftware world.media wanted) (softwareLife world wanted) := by
  unfold softwareLife openSoftware
  cases wanted with
  | false => exact .inr ⟨rfl, .inl rfl⟩
  | true =>
    rw [if_pos rfl, backendLife_cases]
    cases hsoftware : world.software <;> cases hallocates : world.allocates <;>
      simp [EncoderLife, PartsWorld.media, hsoftware, hallocates]

theorem hardwareLife_spec (world : PartsWorld) (explicit wanted : Bool) :
    EncoderLife (openHardware world.media explicit wanted)
      (hardwareLife world explicit wanted) := by
  have hsoftware := softwareLife_spec world wanted
  unfold hardwareLife openHardware
  by_cases hdevice : explicit = true ∨ world.device = true
  · rw [if_pos hdevice, if_pos (show explicit = true ∨ world.media.device = true from hdevice)]
    cases hhardware : world.hardware with
    | none =>
      simp only [PartsWorld.media, hhardware]
      by_cases hfalls : explicit = true ∨ ¬ wanted = true
      · rw [if_pos hfalls, if_pos hfalls]
        exact .inr ⟨rfl, .inl rfl⟩
      · rw [if_neg hfalls, if_neg hfalls]
        exact hsoftware
    | some name =>
      simp only [PartsWorld.media, hhardware]
      rw [backendLife_cases]
      cases hallocates : world.allocates <;> simp [EncoderLife]
  · rw [if_neg hdevice, if_neg (show ¬ (explicit = true ∨ world.media.device = true) from hdevice)]
    exact hsoftware

theorem encoderLife_spec (preference : Bytes) (source : VideoSource) (world : PartsWorld) :
    EncoderLife (h264EncoderOpen preference source world.media)
      (encoderLife preference source world) := by
  have hnone : EncoderLife none [] := .inr ⟨rfl, .inl rfl⟩
  unfold encoderLife h264EncoderOpen
  split
  · exact hnone
  · split
    · exact hardwareLife_spec world false true
    · split
      · exact hardwareLife_spec world false false
      · split
        · exact softwareLife_spec world true
        · split
          · exact hardwareLife_spec world true false
          · exact hnone

theorem openEncoder_held (preference : Bytes) (source : VideoSource) (world : PartsWorld)
    (h : Held parts) (hencoder : parts.encoder = none) (hworker : parts.encoderWorker = none) :
    Held (openEncoder parts preference source world) := by
  unfold openEncoder
  generalize hopened : h264EncoderOpen preference source world.media = opened
  have hlife := encoderLife_spec preference source world
  rw [hopened] at hlife
  obtain ⟨hsome, hlife⟩ | ⟨rfl, hlife | hlife⟩ := hlife
  · apply h.opens [.backend, .encoder]
    · simp
    · simp [MediaParts.has, hencoder]
    · simp [MediaPart.works]
    · simp [hlife]
    · intro other
      cases other <;> simp [MediaParts.has, hsome]
  · apply h.same
    · simp [hlife]
    · intro other
      cases other <;> simp [MediaParts.has, hencoder]
  · apply h.passes [.backend]
    · simp
    · simp [MediaParts.has, hencoder]
    · simp [MediaPart.works]
    · intro other hother
      cases other <;> simp_all [MediaParts.has, MediaPart.works]
    · simp [hlife]
    · intro other
      cases other <;> simp [MediaParts.has, hencoder]

theorem encoderWorkerCreate_held (source : VideoSource) (world : PartsWorld) (h : Held parts)
    (hhub : parts.hub = true)
    (hring : parts.ring = true) (hencoder : parts.encoder.isSome = true)
    (hworker : parts.encoderWorker = none) : Held (encoderWorkerCreate parts source world) := by
  unfold encoderWorkerCreate encoderWorkerLife
  by_cases hmemory : world.encoderWorker = false
  · rw [if_pos hmemory]
    apply h.same
    · simp
    · intro other
      cases other <;> simp [MediaParts.has, PartsWorld.makesEncoderWorker, hmemory, hworker]
  rw [if_neg hmemory]
  by_cases hconsumer : world.consumer = false
  · rw [if_pos hconsumer]
    apply h.passes [.encoderWorker]
    · simp
    · simp [MediaParts.has, hworker]
    · simp [MediaPart.works, MediaParts.has, hhub, hring, hencoder]
    · intro other hother
      cases other <;> simp_all [MediaParts.has, MediaPart.works]
    · simp
    · intro other
      cases other <;> simp [MediaParts.has, PartsWorld.makesEncoderWorker, hconsumer, hworker]
  rw [if_neg hconsumer]
  by_cases hmakes : world.makesEncoderWorker source = true
  · apply h.opens [.encoderWorker, .consumer]
    · simp
    · simp [MediaParts.has, hworker]
    · simp [MediaPart.works, MediaParts.has, hhub, hring, hencoder]
    · simp [hmakes]
    · intro other
      cases other <;> simp [MediaParts.has, hmakes, hworker]
  · apply h.passes [.encoderWorker, .consumer]
    · simp
    · simp [MediaParts.has, hworker]
    · simp [MediaPart.works, MediaParts.has, hhub, hring, hencoder]
    · intro other hother
      cases other <;> simp_all [MediaParts.has, MediaPart.works]
    · simp [hmakes]
    · intro other
      cases other <;> simp [MediaParts.has, hmakes, hworker]

theorem encoderWorkerStart_held (world : PartsWorld) (h : Held parts) (hhub : parts.hub = true)
    (hring : parts.ring = true) (hencoder : parts.encoder.isSome = true)
    (hstarted : parts.encoderWorker.any (·.started) = false) :
    Held (encoderWorkerStart parts world) := by
  unfold encoderWorkerStart
  cases hworker : parts.encoderWorker with
  | none => exact h
  | some worker =>
    by_cases hthread : world.encoderThread = true
    · simp only [hthread, if_true]
      apply h.opens [.encoderThread]
      · simp
      · simp [MediaParts.has, hstarted]
      · simp [MediaPart.works, MediaParts.has, hhub, hring, hencoder, hworker]
      · simp
      · intro other
        cases other <;> simp [MediaParts.has, hworker]
    · simp only [hthread]
      exact h

theorem mediaThreadCreate_held (world : PartsWorld) (h : Held parts) (hring : parts.ring = true)
    (hstarted : parts.mediaThreadStarted = false) : Held (mediaThreadCreate parts world) := by
  unfold mediaThreadCreate
  by_cases hthread : world.mediaThread = true
  · rw [if_pos hthread]
    apply h.opens [.mediaThread]
    · simp
    · simp [MediaParts.has, hstarted]
    · simp [MediaPart.works, MediaParts.has, hring]
    · simp
    · intro other
      cases other <;> simp [MediaParts.has]
  · rw [if_neg hthread]
    exact h

theorem sourceWorkerCreate_held (world : PartsWorld) (h : Held parts)
    (hsource : parts.source.isSome = true)
    (hhub : parts.hub = true) (hworker : parts.sourceWorker = none) :
    Held (sourceWorkerCreate parts world) := by
  unfold sourceWorkerCreate
  by_cases hmemory : world.sourceWorker = true
  · rw [if_pos hmemory, if_pos hmemory]
    apply h.opens [.sourceWorker]
    · simp
    · simp [MediaParts.has, hworker]
    · simp [MediaPart.works, MediaParts.has, hsource, hhub]
    · simp
    · intro other
      cases other <;> simp [MediaParts.has, hworker]
  · rw [if_neg hmemory, if_neg hmemory]
    apply h.same
    · simp
    · intro other
      cases other <;> simp [MediaParts.has, hworker]

theorem sourceWorkerStart_held (world : PartsWorld) (h : Held parts)
    (hsource : parts.source.isSome = true)
    (hhub : parts.hub = true) (hstarted : parts.sourceWorker.any (·.started) = false) :
    Held (sourceWorkerStart parts world) := by
  unfold sourceWorkerStart
  cases hworker : parts.sourceWorker with
  | none => exact h
  | some worker =>
    by_cases hthread : (world.starts && world.sourceThread) = true
    · simp only [hthread, if_true]
      apply h.opens [.sourceThread]
      · simp
      · simp [MediaParts.has, hstarted]
      · simp [MediaPart.works, MediaParts.has, hsource, hhub, hworker]
      · simp
      · intro other
        cases other <;> simp [MediaParts.has, hworker]
    · simp only [hthread]
      exact h

end Camstream.Proofs.PipelineParts
