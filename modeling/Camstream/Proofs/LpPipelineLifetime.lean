import Camstream.Lpstream.LpPipeline
import Camstream.Proofs.PipelineLifetime

namespace Camstream.Proofs.LpPipelineLifetime
open Lib App Lpstream PipelineParts PipelineLifetime

variable {parts : MediaParts} {server : LpPipeline} {now : UInt64} {world : PartsWorld}

theorem mediaThreadJoin_held (h : Held parts) : Held (mediaThreadJoin parts) := by
  unfold mediaThreadJoin
  by_cases hstarted : parts.mediaThreadStarted = true
  · rw [if_pos hstarted]
    apply Orderly.close h
    · exact hstarted
    · intro other hother
      cases other <;> simp [MediaPart.Needs, MediaPart.works]
    · intro other
      cases other <;> simp [live, MediaParts.has]
  · rw [if_neg hstarted]
    exact h

theorem mediaThreadJoin_joined (parts : MediaParts) :
    (mediaThreadJoin parts).mediaThreadStarted = false := by
  unfold mediaThreadJoin
  by_cases hstarted : parts.mediaThreadStarted = true
  · rw [if_pos hstarted]
  · rw [if_neg hstarted]
    exact Bool.eq_false_iff.mpr hstarted

theorem pipelineStop_held (h : Held server.parts) : Held (pipelineStop server).parts :=
  stopParts_held (mediaThreadJoin_held h) (mediaThreadJoin_joined server.parts)

theorem pipelineStop_idle (server : LpPipeline) : Idle (pipelineStop server).parts :=
  stopParts_idle (mediaThreadJoin_joined server.parts)

/-- The pipeline runs with all of its parts. -/
structure LpWhole (parts : MediaParts) : Prop where
  running : parts.running = true
  complete : ∀ part, parts.has part = true

theorem mediaThreadCreate_frame (parts : MediaParts) (world : PartsWorld) :
    mediaThreadCreate parts world =
      { parts with
        mediaThreadStarted := (mediaThreadCreate parts world).mediaThreadStarted
        history := (mediaThreadCreate parts world).history } := by
  unfold mediaThreadCreate
  by_cases hthread : world.mediaThread = true
  · rw [if_pos hthread]
  · rw [if_neg hthread]

theorem fail_held (h : Held parts) (error : Bytes) :
    Held (server.fail parts error).1.parts ∧ Idle (server.fail parts error).1.parts :=
  ⟨stopParts_held (mediaThreadJoin_held h) (mediaThreadJoin_joined parts),
    stopParts_idle (mediaThreadJoin_joined parts)⟩

/-- A start that fails anywhere leaves what it found, nothing. -/
theorem pipelineStart_held (h : Held server.parts) (hidle : Idle server.parts) (now : UInt64)
    (world : PartsWorld) :
    Held (pipelineStart server now world).1.parts ∧
      (((pipelineStart server now world).2 = true ∧
          LpWhole (pipelineStart server now world).1.parts) ∨
        ((pipelineStart server now world).2 = false ∧
          Idle (pipelineStart server now world).1.parts)) := by
  have hempty : server.parts.source = none ∧ server.parts.hub = false ∧
      server.parts.ring = false ∧ server.parts.encoder = none ∧
      server.parts.encoderWorker = none ∧ server.parts.mediaThreadStarted = false ∧
      server.parts.sourceWorker = none := by
    rw [hidle]
    simp [MediaParts.empty]
  obtain ⟨hsource, hhub, hring, hencoder, hworker, hmedia, hsourceWorker⟩ := hempty
  have h1 := openSource_held world h hsource
  unfold pipelineStart
  cases hopens : world.source with
  | none =>
    simp only [openSource, hopens] at h1 ⊢
    exact ⟨(fail_held h1 _).1, .inr ⟨rfl, (fail_held h1 _).2⟩⟩
  | some source =>
    simp only [show (openSource server.parts world).source = some source from hopens]
    have h3 := openRing_held world (openHub_held world h1 hhub) hring
    generalize hp3 : openRing (openHub (openSource server.parts world) world) world = p3 at h3 ⊢
    have hs3 : p3 = { server.parts with
        source := some source, hub := world.hub, ring := world.ring, history := p3.history } := by
      rw [← hp3, openRing, openHub, openSource, hopens]
    by_cases hmemory : p3.hub = false ∨ p3.ring = false
    · rw [if_pos hmemory]
      exact ⟨(fail_held h3 _).1, .inr ⟨rfl, (fail_held h3 _).2⟩⟩
    rw [if_neg hmemory]
    simp only [not_or, Bool.not_eq_false] at hmemory
    obtain ⟨hhub3, hring3⟩ := hmemory
    have h4 := openEncoder_held server.preference source world h3 (by rw [hs3]; exact hencoder)
      (by rw [hs3]; exact hworker)
    generalize hp4 : openEncoder p3 server.preference source world = p4 at h4 ⊢
    have hs4 : p4 = { p3 with encoder := p4.encoder, history := p4.history } := by
      rw [← hp4, openEncoder]
    by_cases hnoEncoder : p4.encoder = none
    · rw [if_pos hnoEncoder]
      exact ⟨(fail_held h4 _).1, .inr ⟨rfl, (fail_held h4 _).2⟩⟩
    rw [if_neg hnoEncoder]
    have hopened := Option.isSome_iff_ne_none.mpr hnoEncoder
    have hhub4 : p4.hub = true := by rw [hs4]; exact hhub3
    have hring4 : p4.ring = true := by rw [hs4]; exact hring3
    obtain ⟨h5, hs5, -⟩ := makeEncoderWorker_spec source world h4 hhub4 hring4 hopened
      (by rw [hs4, hs3]; exact hworker)
    generalize encoderWorkerStart (encoderWorkerCreate p4 source world) world = p5 at h5 hs5 ⊢
    by_cases hnoWorker : p5.encoderWorker.any (·.started) = false
    · rw [if_pos hnoWorker]
      exact ⟨(fail_held h5 _).1, .inr ⟨rfl, (fail_held h5 _).2⟩⟩
    rw [if_neg hnoWorker]
    have hring5 : p5.ring = true := by rw [hs5]; exact hring4
    have h6 := mediaThreadCreate_held world h5 hring5 (by rw [hs5, hs4, hs3]; exact hmedia)
    have hs6 := mediaThreadCreate_frame p5 world
    generalize mediaThreadCreate p5 world = p6 at h6 hs6 ⊢
    by_cases hnoThread : p6.mediaThreadStarted = false
    · rw [if_pos hnoThread]
      exact ⟨(fail_held h6 _).1, .inr ⟨rfl, (fail_held h6 _).2⟩⟩
    rw [if_neg hnoThread]
    have hsource6 : p6.source.isSome = true := by rw [hs6, hs5, hs4, hs3]; rfl
    have hhub6 : p6.hub = true := by rw [hs6, hs5]; exact hhub4
    obtain ⟨h7, hs7, -⟩ := makeSourceWorker_spec world h6 hsource6 hhub6
      (by rw [hs6, hs5, hs4, hs3]; exact hsourceWorker)
    generalize sourceWorkerStart (sourceWorkerCreate p6 world) world = p7 at h7 hs7 ⊢
    by_cases hnoSource : p7.sourceWorker.any (·.started) = false
    · rw [if_pos hnoSource]
      exact ⟨(fail_held h7 _).1, .inr ⟨rfl, (fail_held h7 _).2⟩⟩
    rw [if_neg hnoSource]
    simp only [Bool.not_eq_false] at hnoWorker hnoThread hnoSource
    have hencoding : p7.encoderWorker.any (·.started) = true := by rw [hs7, hs6]; exact hnoWorker
    have hencoder7 : p7.encoder.isSome = true := by rw [hs7, hs6, hs5]; exact hopened
    have hhub7 : p7.hub = true := by rw [hs7]; exact hhub6
    have hring7 : p7.ring = true := by rw [hs7, hs6]; exact hring5
    have hsource7 : p7.source.isSome = true := by rw [hs7]; exact hsource6
    have hthread7 : p7.mediaThreadStarted = true := by rw [hs7]; exact hnoThread
    refine ⟨?_, .inl ⟨rfl, rfl, ?_⟩⟩
    · apply h7.same rfl
      intro part
      cases part <;> rfl
    · intro part
      cases part with
      | source => exact hsource7
      | hub => exact hhub7
      | ring => exact hring7
      | backend | encoder => exact hencoder7
      | encoderWorker | consumer => exact isSome_of_any hencoding
      | encoderThread => exact hencoding
      | mediaThread => exact hthread7
      | sourceWorker => exact isSome_of_any hnoSource
      | sourceThread => exact hnoSource

/-- What the server keeps between two calls. -/
structure LpKept (server : LpPipeline) : Prop where
  held : Held server.parts
  settled : LpWhole server.parts ∨ Idle server.parts

theorem launch_kept (encoder sourceName : Bytes) (now later : UInt64) (world : PartsWorld) :
    LpKept (LpPipeline.launch encoder sourceName now later world) := by
  unfold LpPipeline.launch
  simp only
  have hstart := @pipelineStart_held
    { encoder, sourceName, encoderOverride := [], pipelineError := [], pipelineRetryMs := 0,
      forceIdr := false, parts := MediaParts.empty, attempts := [] } empty_held rfl now world
  obtain ⟨hheld, ⟨hok, hwhole⟩ | ⟨hok, hidle⟩⟩ := hstart
  · generalize pipelineStart _ now world = r at hheld hok hwhole ⊢
    obtain ⟨server, ok⟩ := r
    cases hok
    exact ⟨hheld, .inl hwhole⟩
  · generalize pipelineStart _ now world = r at hheld hok hidle ⊢
    obtain ⟨server, ok⟩ := r
    cases hok
    exact ⟨hheld, .inr hidle⟩

theorem step_kept (h : LpKept server) (turn : PipelineTurn) : LpKept (server.step turn) := by
  unfold LpPipeline.step pipelineSupervise
  by_cases hrunning : server.parts.running = true
  · rw [if_pos hrunning]
    by_cases hhealthy : turn.encoderFailed = false ∧ turn.sourceFailed = false
    · rw [if_pos hhealthy]
      exact h
    · rw [if_neg hhealthy]
      unfold pipelineStopped
      by_cases hreplaces : replacesEncoder server turn.encoderFailed = true
      · rw [if_pos hreplaces]
        exact ⟨pipelineStop_held h.held, .inr (pipelineStop_idle _)⟩
      · rw [if_neg hreplaces]
        exact ⟨pipelineStop_held h.held, .inr (pipelineStop_idle _)⟩
  · rw [if_neg hrunning]
    by_cases hwait : turn.now < server.pipelineRetryMs
    · rw [if_pos hwait]
      exact h
    · rw [if_neg hwait]
      have hidle : Idle server.parts := h.settled.resolve_left fun hwhole =>
        hrunning hwhole.running
      obtain ⟨hheld, ⟨hok, hwhole⟩ | ⟨hok, hidle⟩⟩ :=
        pipelineStart_held h.held hidle turn.now turn.world
      · generalize pipelineStart server turn.now turn.world = r at hheld hok hwhole ⊢
        obtain ⟨started, ok⟩ := r
        cases hok
        exact ⟨hheld, .inl hwhole⟩
      · generalize pipelineStart server turn.now turn.world = r at hheld hok hidle ⊢
        obtain ⟨started, ok⟩ := r
        cases hok
        exact ⟨hheld, .inr hidle⟩

/-- Along every run of the libpeer server, whichever step of a start fails, its pipeline
comes up and goes down in order, the fan-out thread included: no thread is left without what
it works with, all parts exist while the pipeline runs and none while it does not. When the
server goes down every part is gone, and has been closed as often as it was opened. -/
theorem lp_pipeline_orderly (encoder sourceName : Bytes) (now later : UInt64)
    (world : PartsWorld) (turns : List PipelineTurn) :
    let server := run LpPipeline.step (LpPipeline.launch encoder sourceName now later world) turns
    Orderly MediaPart.Needs ∅ server.parts.history (live server.parts) ∧
      (∀ earlier later, server.parts.history = earlier ++ later →
        ∃ there, Orderly MediaPart.Needs ∅ earlier there ∧
          ∀ part ∈ there, ∀ other ∈ part.works, other ∈ there) ∧
      (∀ part, part ∈ live server.parts ↔ server.parts.running = true) ∧
      live (pipelineStop server).parts = ∅ ∧
      ∀ part, (pipelineStop server).parts.history.count (.opened part) =
        (pipelineStop server).parts.history.count (.closed part) := by
  intro server
  have hkept : LpKept server := run_invariant (launch_kept encoder sourceName now later world)
    (fun _ turn h => step_kept h turn) turns
  have hgone : live (pipelineStop server).parts = ∅ := by
    ext part
    have hnone := stopParts_has (mediaThreadJoin_joined server.parts) part
    simp [live, pipelineStop, hnone]
  have hdown := pipelineStop_held hkept.held
  rw [Held, hgone] at hdown
  refine ⟨hkept.held, ?_, ?_, hgone, hdown.none_left⟩
  · intro earlier later hhistory
    have hheld := hkept.held
    rw [Held, hhistory] at hheld
    obtain ⟨there, hearlier, -⟩ := hheld.split
    exact ⟨there, hearlier, hearlier.served (by simp)⟩
  · intro part
    cases hkept.settled with
    | inl hwhole => simp [live, hwhole.complete, hwhole.running]
    | inr hidle =>
      have hnone : server.parts.has part = false := by
        rw [hidle]
        cases part <;> rfl
      simp [live, hnone, idle_stopped hidle]

end Camstream.Proofs.LpPipelineLifetime
