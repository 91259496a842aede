import Camstream.Lib.Runs
import Camstream.Proofs.PipelineParts

namespace Camstream.Proofs.PipelineLifetime
open Lib App PipelineParts

variable {parts : MediaParts} {preference : Bytes} {world : PartsWorld}

theorem encoderWorkerStart_frame (parts : MediaParts) (world : PartsWorld) :
    let started := encoderWorkerStart parts world
    started = { parts with encoderWorker := started.encoderWorker, history := started.history } ∧
      started.encoderWorker = parts.encoderWorker.map fun worker =>
        ⟨worker.started || world.encoderThread⟩ := by
  obtain ⟨_, _, _, _, worker, _, _, _, _⟩ := parts
  cases worker with
  | none => exact ⟨rfl, rfl⟩
  | some worker => cases hthread : world.encoderThread <;> simp [encoderWorkerStart, hthread]

theorem sourceWorkerStart_frame (parts : MediaParts) (world : PartsWorld) :
    let started := sourceWorkerStart parts world
    started = { parts with sourceWorker := started.sourceWorker, history := started.history } ∧
      started.sourceWorker = parts.sourceWorker.map fun worker =>
        ⟨worker.started || (world.starts && world.sourceThread)⟩ := by
  obtain ⟨_, _, _, _, _, _, worker, _, _⟩ := parts
  cases worker with
  | none => exact ⟨rfl, rfl⟩
  | some worker =>
    cases hthread : (world.starts && world.sourceThread) <;> simp [sourceWorkerStart, hthread]

theorem isSome_of_any {worker : Option Worker} {p : Worker → Bool} (h : worker.any p = true) :
    worker.isSome = true := by
  cases worker with
  | none => cases h
  | some worker => rfl

/-- No pointer of the pipeline is set. -/
def Idle (parts : MediaParts) : Prop := parts = { MediaParts.empty with history := parts.history }

/-- The pipeline runs with all of its parts. -/
structure Whole (parts : MediaParts) : Prop where
  running : parts.running = true
  single : parts.mediaThreadStarted = false
  complete : ∀ part, parts.has part = true ↔ part ≠ .mediaThread

theorem stopParts_idle (hmedia : parts.mediaThreadStarted = false) : Idle (stopParts parts) := by
  unfold Idle
  rw [stopParts_eq, hmedia]
  rfl

/-- Every step of a start succeeds. -/
def builds (preference : Bytes) (world : PartsWorld) : Prop :=
  ∃ source, world.source = some source ∧ world.hub = true ∧ world.ring = true ∧
    (h264EncoderOpen preference source world.media).isSome = true ∧
    (world.makesEncoderWorker source && world.encoderThread) = true ∧
    (world.sourceWorker && world.starts && world.sourceThread) = true

theorem makeEncoderWorker_spec (source : VideoSource) (world : PartsWorld) (h : Held parts)
    (hhub : parts.hub = true) (hring : parts.ring = true) (hencoder : parts.encoder.isSome = true)
    (hworker : parts.encoderWorker = none) :
    let made := encoderWorkerStart (encoderWorkerCreate parts source world) world
    Held made ∧
      made = { parts with encoderWorker := made.encoderWorker, history := made.history } ∧
      made.encoderWorker.any (·.started) =
        (world.makesEncoderWorker source && world.encoderThread) := by
  intro made
  have hcreated := encoderWorkerCreate_held source world h hhub hring
    hencoder hworker
  refine ⟨?_, ?_, ?_⟩
  · apply encoderWorkerStart_held world hcreated hhub hring hencoder
    cases hmakes : world.makesEncoderWorker source <;> simp [encoderWorkerCreate, hmakes]
  · exact (encoderWorkerStart_frame _ world).1
  · rw [(encoderWorkerStart_frame _ world).2]
    cases hmakes : world.makesEncoderWorker source <;> simp [encoderWorkerCreate, hmakes]

theorem makeSourceWorker_spec (world : PartsWorld) (h : Held parts)
    (hsource : parts.source.isSome = true) (hhub : parts.hub = true)
    (hworker : parts.sourceWorker = none) :
    let made := sourceWorkerStart (sourceWorkerCreate parts world) world
    Held made ∧
      made = { parts with sourceWorker := made.sourceWorker, history := made.history } ∧
      made.sourceWorker.any (·.started) =
        (world.sourceWorker && world.starts && world.sourceThread) := by
  intro made
  have hcreated := sourceWorkerCreate_held world h hsource hhub hworker
  refine ⟨?_, ?_, ?_⟩
  · apply sourceWorkerStart_held world hcreated hsource hhub
    cases hmemory : world.sourceWorker <;> simp [sourceWorkerCreate, hmemory]
  · exact (sourceWorkerStart_frame _ world).1
  · rw [(sourceWorkerStart_frame _ world).2]
    cases hmemory : world.sourceWorker <;> simp [sourceWorkerCreate, hmemory]

/-- A start that fails anywhere leaves what it found, nothing. -/
theorem startParts_spec (h : Held parts) (hidle : Idle parts) (preference : Bytes)
    (world : PartsWorld) :
    Held (startParts parts preference world) ∧
      ((builds preference world ∧ Whole (startParts parts preference world)) ∨
        (¬ builds preference world ∧ Idle (startParts parts preference world))) := by
  have hfails : ∀ {failed : MediaParts}, Held failed → failed.mediaThreadStarted = false →
      ¬ builds preference world → Held (stopParts failed) ∧
        ((builds preference world ∧ Whole (stopParts failed)) ∨
          (¬ builds preference world ∧ Idle (stopParts failed))) := by
    intro failed hfailed hmedia hnot
    exact ⟨stopParts_held hfailed hmedia, .inr ⟨hnot, stopParts_idle hmedia⟩⟩
  have hempty : parts.source = none ∧ parts.hub = false ∧ parts.ring = false ∧
      parts.encoder = none ∧ parts.encoderWorker = none ∧ parts.mediaThreadStarted = false ∧
      parts.sourceWorker = none := by
    rw [hidle]
    simp [MediaParts.empty]
  obtain ⟨hsource, hhub, hring, hencoder, hworker, hmedia, hsourceWorker⟩ := hempty
  have h1 := openSource_held world h hsource
  unfold startParts
  cases hopens : world.source with
  | none =>
    simp only [openSource, hopens] at h1 ⊢
    apply hfails h1 hmedia
    rintro ⟨source, hsome, -⟩
    cases hopens.symm.trans hsome
  | some source =>
    have hs1 : (openSource parts world).source = some source := hopens
    have hiff : builds preference world ↔ world.hub = true ∧ world.ring = true ∧
        (h264EncoderOpen preference source world.media).isSome = true ∧
        (world.makesEncoderWorker source && world.encoderThread) = true ∧
        (world.sourceWorker && world.starts && world.sourceThread) = true := by
      simp [builds, hopens]
    simp only [hs1, hiff] at hfails ⊢
    have h2 := openHub_held world h1 hhub
    by_cases hnoHub : world.hub = false
    · rw [if_pos (show (openHub (openSource parts world) world).hub = false from hnoHub)]
      apply hfails h2 hmedia
      simp [hnoHub]
    rw [if_neg (show ¬ (openHub (openSource parts world) world).hub = false from hnoHub)]
    have h3 := openRing_held world h2 hring
    generalize hp3 : openRing (openHub (openSource parts world) world) world = p3 at h3 ⊢
    have hs3 : p3 = { parts with
        source := some source, hub := world.hub, ring := world.ring, history := p3.history } := by
      rw [← hp3, openRing, openHub, openSource, hopens]
    by_cases hnoRing : world.ring = false
    · rw [if_pos (by rw [hs3]; exact hnoRing)]
      apply hfails h3 (by rw [hs3]; exact hmedia)
      simp [hnoRing]
    rw [if_neg (by rw [hs3]; exact hnoRing)]
    have h4 := openEncoder_held preference source world h3
      (by rw [hs3]; exact hencoder) (by rw [hs3]; exact hworker)
    generalize hp4 : openEncoder p3 preference source world = p4 at h4 ⊢
    have hs4 : p4 = { p3 with
        encoder := h264EncoderOpen preference source world.media, history := p4.history } := by
      rw [← hp4, openEncoder]
    rw [hs3] at hs4
    by_cases hnoEncoder : h264EncoderOpen preference source world.media = none
    · rw [if_pos (by rw [hs4]; exact hnoEncoder)]
      apply hfails h4 (by rw [hs4]; exact hmedia)
      simp [hnoEncoder]
    rw [if_neg (by rw [hs4]; exact hnoEncoder)]
    obtain ⟨h5, hs5, hthread5⟩ := makeEncoderWorker_spec source world h4
      (by rw [hs4]; simpa using hnoHub) (by rw [hs4]; simpa using hnoRing)
      (by rw [hs4]; exact Option.isSome_iff_ne_none.mpr hnoEncoder) (by rw [hs4]; exact hworker)
    generalize encoderWorkerStart (encoderWorkerCreate p4 source world) world = p5
      at h5 hs5 hthread5 ⊢
    rw [hs4] at hs5
    rw [hthread5]
    by_cases hnoWorker : (world.makesEncoderWorker source && world.encoderThread) = false
    · rw [if_pos hnoWorker]
      apply hfails h5 (by rw [hs5]; exact hmedia)
      simp only [hnoWorker, Bool.false_eq_true, false_and, and_false, not_false_eq_true]
    rw [if_neg hnoWorker]
    obtain ⟨h6, hs6, hthread6⟩ := makeSourceWorker_spec world h5
      (by rw [hs5]; rfl) (by rw [hs5]; simpa using hnoHub) (by rw [hs5]; exact hsourceWorker)
    generalize sourceWorkerStart (sourceWorkerCreate p5 world) world = p6 at h6 hs6 hthread6 ⊢
    rw [hs5] at hs6
    rw [hthread6]
    by_cases hnoSource : (world.sourceWorker && world.starts && world.sourceThread) = false
    · rw [if_pos hnoSource]
      apply hfails h6 (by rw [hs6]; exact hmedia)
      simp only [hnoSource, Bool.false_eq_true, and_false, not_false_eq_true]
    rw [if_neg hnoSource]
    simp only [Bool.not_eq_false] at hnoHub hnoRing hnoWorker hnoSource
    have hopened := Option.isSome_iff_ne_none.mpr hnoEncoder
    have hencoding := hthread5.trans hnoWorker
    have hcapturing := hthread6.trans hnoSource
    have hworking := isSome_of_any hencoding
    have hreading := isSome_of_any hcapturing
    refine ⟨?_, .inl ⟨⟨hnoHub, hnoRing, hopened, hnoWorker, hnoSource⟩, rfl, ?_, ?_⟩⟩
    · apply h6.same rfl
      intro part
      cases part <;> rfl
    · rw [hs6]
      exact hmedia
    · intro part
      rw [hs6]
      cases part <;>
        simp [MediaParts.has, hnoHub, hnoRing, hopened, hencoding, hworking, hcapturing, hreading,
          hmedia]

/-- The steps that a start takes here are the ones the supervisor sees succeed. -/
theorem builds_iff (server : MediaServer) (world : PartsWorld) :
    builds (encoderPreference server) world ↔
      ∃ pipeline, buildPipeline server world.media = .ok pipeline := by
  unfold builds buildPipeline
  simp only [bind, Except.bind, pure, Except.pure]
  cases hsource : world.source with
  | none => simp [PartsWorld.media, hsource]
  | some source =>
    have hthread : world.media.encoderThread =
        (world.makesEncoderWorker source && world.encoderThread) := by
      simp [PartsWorld.media, hsource]
    have hcapture : world.media.sourceThread =
        (world.sourceWorker && world.starts && world.sourceThread) := rfl
    simp only [show world.media.source = some source from hsource,
      show world.media.hub = world.hub from rfl, show world.media.ring = world.ring from rfl,
      hthread, hcapture, Option.some.injEq, exists_eq_left']
    cases hopened : h264EncoderOpen (encoderPreference server) source world.media with
    | none => cases world.hub <;> cases world.ring <;> simp
    | some encoder =>
      cases world.hub <;> cases world.ring <;>
        cases world.makesEncoderWorker source && world.encoderThread <;>
        cases world.sourceWorker && world.starts && world.sourceThread <;> simp

theorem started_iff (server : MediaServer) (world : MediaWorld) :
    (mediaPipelineStart server world).1.pipeline.isSome = true ↔
      ∃ pipeline, buildPipeline server world = .ok pipeline := by
  unfold mediaPipelineStart
  cases hbuild : buildPipeline server world with
  | ok pipeline => simp
  | error error => simp [mediaPipelineStop]

theorem supervised_iff (server : MediaServer) (now : UInt64) (encoderFailed sourceFailed : Bool)
    (world : MediaWorld) :
    (mediaSupervise server now encoderFailed sourceFailed world).pipeline.isSome = true ↔
      if server.pipeline.isSome then encoderFailed = false ∧ sourceFailed = false
      else if server.pipelineRetryMs = 0 ∨ now < server.pipelineRetryMs then False
      else ∃ pipeline, buildPipeline server world = .ok pipeline := by
  have hstarted := started_iff server world
  unfold mediaSupervise
  cases hpipeline : server.pipeline with
  | some pipeline =>
    simp only [Option.isSome_some, if_true]
    by_cases hhealthy : encoderFailed = false ∧ sourceFailed = false
    · simp [hhealthy, hpipeline]
    · rw [if_neg hhealthy]
      simp [hhealthy, pipelineFailed, mediaPipelineStop]
  | none =>
    simp only [Option.isSome_none, Bool.false_eq_true, if_false]
    by_cases hwait : server.pipelineRetryMs = 0 ∨ now < server.pipelineRetryMs
    · simp [if_pos hwait, hpipeline]
    · rw [if_neg hwait, if_neg hwait, ← hstarted]
      obtain ⟨started, error⟩ := mediaPipelineStart server world
      cases error <;> rfl

theorem restarted_iff (server : MediaServer) (now : UInt64) (world : MediaWorld) :
    (handleCameraRestart server now world).1.pipeline.isSome = true ↔
      ∃ pipeline, buildPipeline
        { mediaPipelineStop { server with cameraRestarts := server.cameraRestarts + 1 } with
          encoderOverride := [] } world = .ok pipeline := by
  have hreply : ∀ (s : MediaServer) (status : Nat) (writer : JsonWriter),
      (restartReply s status writer).1.pipeline = s.pipeline := by
    intro s status writer
    unfold restartReply
    cases jsonFinish writer <;> rfl
  rw [← started_iff]
  unfold handleCameraRestart
  simp only
  generalize mediaPipelineStart _ world = r
  obtain ⟨started, error⟩ := r
  cases error with
  | none => simp only [hreply]
  | some error =>
    simp only [hreply]
    rfl

/-- What the server keeps between two calls. -/
structure Kept (s : PartsServer) : Prop where
  held : Held s.parts
  settled : Whole s.parts ∨ Idle s.parts
  agrees : s.parts.running = true ↔ s.server.pipeline.isSome = true

theorem settled_single (h : Whole parts ∨ Idle parts) : parts.mediaThreadStarted = false := by
  cases h with
  | inl hwhole => exact hwhole.single
  | inr hidle =>
    rw [hidle]
    rfl

theorem idle_stopped (h : Idle parts) : parts.running = false := by
  rw [h]
  rfl

theorem started_kept {server : MediaServer} (h : Held parts) (hidle : Idle parts)
    (hserver : server.pipeline.isSome = true ↔ builds preference world) :
    Kept ⟨server, startParts parts preference world⟩ := by
  obtain ⟨hheld, ⟨hbuilds, hwhole⟩ | ⟨hnot, hidle'⟩⟩ := startParts_spec h hidle preference world
  · refine ⟨hheld, .inl hwhole, ?_⟩
    simp [hserver, hbuilds, hwhole.running]
  · refine ⟨hheld, .inr hidle', ?_⟩
    simp [hserver, hnot, idle_stopped hidle']

theorem empty_held : Held MediaParts.empty := by
  have hset : live MediaParts.empty = ∅ := by
    ext part
    cases part <;> simp [live, MediaParts.has, MediaParts.empty]
  unfold Held
  rw [hset]
  exact .nil ∅

theorem launch_kept (config : ConfigServer) (now : UInt64) (world : PartsWorld) :
    Kept (PartsServer.launch config now world) := by
  apply started_kept empty_held rfl
  rw [builds_iff, ← started_iff, appServerStart]
  obtain ⟨started, error⟩ := mediaPipelineStart (MediaServer.launch config) world.media
  cases error <;> rfl

theorem step_kept {s : PartsServer} (h : Kept s) (e : PartsEvent) : Kept (s.step e) := by
  have hsingle := settled_single h.settled
  have hstopped := stopParts_held h.held hsingle
  have hidle := stopParts_idle hsingle
  cases e with
  | supervise now encoderFailed sourceFailed world =>
    have hserver := supervised_iff s.server now encoderFailed sourceFailed world.media
    show Kept ⟨mediaSupervise s.server now encoderFailed sourceFailed world.media,
      superviseParts s now encoderFailed sourceFailed world⟩
    unfold superviseParts
    by_cases hrunning : s.parts.running = true
    · rw [if_pos hrunning]
      rw [if_pos (h.agrees.mp hrunning)] at hserver
      by_cases hhealthy : encoderFailed = false ∧ sourceFailed = false
      · rw [if_pos hhealthy]
        exact ⟨h.held, h.settled, iff_of_true hrunning (hserver.mpr hhealthy)⟩
      · rw [if_neg hhealthy]
        refine ⟨hstopped, .inr hidle, ?_⟩
        rw [hserver, idle_stopped hidle]
        simp [hhealthy]
    · have hnone := fun hsome => hrunning (h.agrees.mpr hsome)
      rw [if_neg hrunning]
      rw [if_neg hnone] at hserver
      by_cases hwait : s.server.pipelineRetryMs = 0 ∨ now < s.server.pipelineRetryMs
      · rw [if_pos hwait] at hserver ⊢
        exact ⟨h.held, h.settled, iff_of_false hrunning fun hsome => hserver.mp hsome⟩
      · rw [if_neg hwait] at hserver ⊢
        have hidle : Idle s.parts := h.settled.resolve_left fun hwhole => hrunning hwhole.running
        apply started_kept h.held hidle
        rw [builds_iff]
        exact hserver
  | restart now world =>
    apply started_kept hstopped hidle
    exact (restarted_iff s.server now world.media).trans (builds_iff _ world).symm

/-- Along every run of the server the pipeline comes up and goes down in order, whichever
step of a start fails: no part exists without what it works with, none exists twice, all of
them exist while the pipeline runs and none of them while it does not. When the server goes
down every part is gone, and has been closed as often as it was opened. -/
theorem pipeline_parts_orderly (config : ConfigServer) (now : UInt64) (world : PartsWorld)
    (events : List PartsEvent) :
    let s := run PartsServer.step (PartsServer.launch config now world) events
    Orderly MediaPart.Needs ∅ s.parts.history (live s.parts) ∧
      (∀ earlier later, s.parts.history = earlier ++ later →
        ∃ there, Orderly MediaPart.Needs ∅ earlier there ∧
          ∀ part ∈ there, ∀ other ∈ part.works, other ∈ there) ∧
      (s.parts.running = true ↔ s.server.pipeline.isSome = true) ∧
      (∀ part, part ∈ live s.parts ↔ s.parts.running = true ∧ part ≠ .mediaThread) ∧
      live s.shutdown.parts = ∅ ∧
      ∀ part, s.shutdown.parts.history.count (.opened part) =
        s.shutdown.parts.history.count (.closed part) := by
  intro s
  have hkept : Kept s := run_invariant (launch_kept config now world) (fun _ e h => step_kept h e)
    events
  have hsingle := settled_single hkept.settled
  have hgone : live s.shutdown.parts = ∅ := by
    ext part
    have hnone := stopParts_has hsingle part
    simp [live, PartsServer.shutdown, hnone]
  have hdown := stopParts_held hkept.held hsingle
  rw [Held, show live (stopParts s.parts) = ∅ from hgone] at hdown
  refine ⟨hkept.held, ?_, hkept.agrees, ?_, hgone, hdown.none_left⟩
  · intro earlier later hhistory
    have hheld := hkept.held
    rw [Held, hhistory] at hheld
    obtain ⟨there, hearlier, -⟩ := hheld.split
    exact ⟨there, hearlier, hearlier.served (by simp)⟩
  · intro part
    cases hkept.settled with
    | inl hwhole => simp [live, hwhole.complete, hwhole.running]
    | inr hidle =>
      have hnone : s.parts.has part = false := by
        rw [hidle]
        cases part <;> rfl
      simp [live, hnone, idle_stopped hidle]

end Camstream.Proofs.PipelineLifetime
