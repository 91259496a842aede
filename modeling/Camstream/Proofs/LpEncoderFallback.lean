import Camstream.Proofs.LpPipelineLifetime
import Camstream.Proofs.SupervisorBackoff

namespace Camstream.Proofs.LpEncoderFallback
open Lib App Lpstream SupervisorBackoff PipelineLifetime LpPipelineLifetime

variable {encoder : Bytes} {server : LpPipeline} {clock : UInt64}

/-- Two starts in a row lie five seconds apart. -/
def Apart (a b : Attempt) : Prop := a.time.toNat + 5000 ≤ b.time.toNat

/-- Starts in a row lie five seconds apart, but where a hardware encoder is given up, and
from there on no hardware encoder is opened any more. -/
def Spaced (attempts : List Attempt) : Prop :=
  ∀ before a b after, attempts = before ++ a :: b :: after →
    Apart a b ∨ (a.opened = some .hw ∧ ∀ c ∈ b :: after, c.opened ≠ some .hw)

/-- All starts in a row lie five seconds apart. -/
def Even (attempts : List Attempt) : Prop := attempts.IsChain Apart

theorem spaced_of_even {attempts : List Attempt} (h : Even attempts) : Spaced attempts := by
  intro before a b after heq
  subst heq
  have hsuffix := (List.isChain_append.mp h).2.1
  exact .inl (List.isChain_cons_cons.mp hsuffix).1

/-- A pair of neighbours in a longer list stands in front, or is the last one. -/
theorem Spaced.snoc {front : List Attempt} {a b : Attempt} (h : Spaced (front ++ [a]))
    (hgap : Apart a b ∨ a.opened = some .hw) (hsoft : b.opened ≠ some .hw) :
    Spaced (front ++ [a] ++ [b]) := by
  intro before x y after heq
  cases List.eq_nil_or_concat after with
  | inl hnil =>
    subst hnil
    have hsplit : front ++ [a] ++ [b] = (before ++ [x]) ++ [y] := by simpa using heq
    obtain ⟨hfront, hlast⟩ := List.append_inj' hsplit rfl
    obtain ⟨-, hlast'⟩ := List.append_inj' hfront rfl
    obtain rfl : b = y := by simpa using hlast
    obtain rfl : a = x := by simpa using hlast'
    cases hgap with
    | inl hapart => exact .inl hapart
    | inr hhard => exact .inr ⟨hhard, by simpa using hsoft⟩
  | inr hlast =>
    obtain ⟨after', z, rfl⟩ := hlast
    have hsplit : front ++ [a] ++ [b] = (before ++ x :: y :: after') ++ [z] := by simpa using heq
    obtain ⟨hfront, hlast⟩ := List.append_inj' hsplit rfl
    obtain rfl : b = z := by simpa using hlast
    cases h before x y after' hfront with
    | inl hapart => exact .inl hapart
    | inr hgone =>
      refine .inr ⟨hgone.1, ?_⟩
      intro c hc
      have hc : c ∈ (y :: after') ++ [b] := by simpa using hc
      cases List.mem_append.mp hc with
      | inl hold => exact hgone.2 c hold
      | inr hnew =>
        obtain rfl := List.mem_singleton.mp hnew
        exact hsoft

theorem Even.snoc {front : List Attempt} {a b : Attempt} (h : Even (front ++ [a]))
    (hgap : Apart a b) : Even (front ++ [a] ++ [b]) := by
  apply List.isChain_append.mpr
  refine ⟨h, List.isChain_singleton b, ?_⟩
  intro x hx y hy
  obtain rfl : a = x := by simpa using hx
  obtain rfl : b = y := by simpa using hy
  exact hgap

/-- What a start adds to the history, and what it leaves alone. -/
structure Tried (before after : LpPipeline) (now : UInt64) (ok : Bool) (attempt : Attempt) :
    Prop where
  attempts : after.attempts = before.attempts ++ [attempt]
  time : attempt.time = now
  override : after.encoderOverride = before.encoderOverride
  encoder : after.encoder = before.encoder
  soft : before.encoderOverride = ascii "sw" → attempt.opened ≠ some .hw
  opened : ok = true → after.parts.running = true ∧ after.parts.encoder.map (·.1) = attempt.opened
  stopped : ok = false → after.parts.running = false

theorem fail_tried {before server : LpPipeline} {now : UInt64} {opened : Option EncoderKind}
    (hserver : server = before.attempted now opened)
    (hsoft : before.encoderOverride = ascii "sw" → opened ≠ some .hw) (parts : MediaParts)
    (error : Bytes) :
    ∃ attempt,
      Tried before (server.fail parts error).1 now (server.fail parts error).2 attempt := by
  subst hserver
  exact ⟨⟨now, opened⟩, rfl, rfl, rfl, rfl, hsoft,
    fun hok => absurd hok (by simp [LpPipeline.fail]), fun _ => rfl⟩

theorem opened_soft {server : LpPipeline} {source : VideoSource} {world : PartsWorld}
    (hsw : server.encoderOverride = ascii "sw") :
    (h264EncoderOpen server.preference source world.media).map (·.1) ≠ some .hw := by
  have hpreference : server.preference = ascii "sw" := by
    rw [LpPipeline.preference, hsw, if_pos (by decide)]
  rw [hpreference]
  cases hopen : h264EncoderOpen (ascii "sw") source world.media with
  | none => simp
  | some encoder => simp [h264EncoderOpen_sw hopen]

/-- The threads that come up behind the encoder leave it alone. -/
theorem starting_encoder (parts : MediaParts) (source : VideoSource) (world : PartsWorld) :
    (sourceWorkerStart (sourceWorkerCreate (mediaThreadCreate (encoderWorkerStart
      (encoderWorkerCreate parts source world) world) world) world) world).encoder =
      parts.encoder := by
  rw [(sourceWorkerStart_frame _ world).1]
  simp only [sourceWorkerCreate]
  rw [mediaThreadCreate_frame, (encoderWorkerStart_frame _ world).1]
  rfl

theorem pipelineStart_tried (server : LpPipeline) (now : UInt64) (world : PartsWorld) :
    ∃ attempt, Tried server (pipelineStart server now world).1 now
      (pipelineStart server now world).2 attempt := by
  generalize hr : pipelineStart server now world = r
  unfold pipelineStart at hr
  cases hsource : (openSource server.parts world).source with
  | none =>
    simp only [hsource] at hr
    rw [← hr]
    exact fail_tried rfl (fun _ => Option.some_ne_none _ ∘ Eq.symm) _ _
  | some source =>
    simp only [hsource] at hr
    have hsoft : server.encoderOverride = ascii "sw" →
        (h264EncoderOpen server.preference source world.media).map (·.1) ≠ some .hw :=
      fun hsw => opened_soft hsw
    split at hr
    · rw [← hr]
      exact fail_tried rfl (fun _ => Option.some_ne_none _ ∘ Eq.symm) _ _
    split at hr
    · rw [← hr]
      exact fail_tried rfl hsoft _ _
    split at hr
    · rw [← hr]
      exact fail_tried rfl hsoft _ _
    split at hr
    · rw [← hr]
      exact fail_tried rfl hsoft _ _
    split at hr
    · rw [← hr]
      exact fail_tried rfl hsoft _ _
    rw [← hr]
    refine ⟨_, rfl, rfl, rfl, rfl, hsoft, fun _ => ⟨rfl, ?_⟩, fun hok => absurd hok (by simp)⟩
    simp only [starting_encoder]

/-- What the server keeps between two calls, the last of which was at `clock`. -/
structure Watched (encoder : Bytes) (server : LpPipeline) (clock : UInt64) : Prop where
  encoder : server.encoder = encoder
  spaced : Spaced server.attempts
  even : server.encoderOverride ≠ ascii "sw" → Even server.attempts
  auto : server.encoderOverride = ascii "sw" → server.encoder = ascii "auto"
  last : ∃ front a, server.attempts = front ++ [a] ∧ a.time ≤ clock ∧
    (server.parts.running = true → server.parts.encoder.map (·.1) = a.opened ∧
      (server.encoderOverride = ascii "sw" → a.opened ≠ some .hw)) ∧
    (server.parts.running = false →
      server.pipelineRetryMs.toNat ≤ clock.toNat + 5000 ∧
      (a.time.toNat + 5000 ≤ server.pipelineRetryMs.toNat ∨
        (server.encoderOverride = ascii "sw" ∧ a.opened = some .hw ∧
          a.time ≤ server.pipelineRetryMs)))

theorem add_toNat {now : UInt64} (h : now.toNat + 5000 < 2 ^ 64) :
    (now + 5000).toNat = now.toNat + 5000 := by
  rw [UInt64.toNat_add]
  exact Nat.mod_eq_of_lt h

/-- One more start. -/
theorem tried_watched {after : LpPipeline} {now : UInt64} {ok : Bool} {attempt : Attempt}
    (h : Watched encoder server clock) (hidle : server.parts.running = false)
    (hdue : server.pipelineRetryMs ≤ now)
    (htried : Tried server after now ok attempt)
    (hretry : ok = false → after.pipelineRetryMs.toNat = now.toNat + 5000) :
    Watched encoder after now := by
  obtain ⟨front, a, hattempts, htime, -, hstopped⟩ := h.last
  obtain ⟨-, hgap⟩ := hstopped hidle
  have hdue' := UInt64.le_iff_toNat_le.mp hdue
  have happends : after.attempts = front ++ [a] ++ [attempt] := by
    rw [htried.attempts, hattempts]
  have hreaches : a.time.toNat + 5000 ≤ server.pipelineRetryMs.toNat → Apart a attempt := by
    intro hlate
    unfold Apart
    rw [htried.time]
    omega
  have hlast : ∃ front a, after.attempts = front ++ [a] ∧ a.time ≤ now ∧
      (after.parts.running = true → after.parts.encoder.map (·.1) = a.opened ∧
        (after.encoderOverride = ascii "sw" → a.opened ≠ some .hw)) ∧
      (after.parts.running = false →
        after.pipelineRetryMs.toNat ≤ now.toNat + 5000 ∧
        (a.time.toNat + 5000 ≤ after.pipelineRetryMs.toNat ∨
          (after.encoderOverride = ascii "sw" ∧ a.opened = some .hw ∧
            a.time ≤ after.pipelineRetryMs))) := by
    refine ⟨front ++ [a], attempt, happends, htried.time ▸ UInt64.le_refl _, ?_, ?_⟩
    · intro hrunning
      cases ok with
      | false => exact absurd hrunning (by simp [htried.stopped rfl])
      | true =>
        refine ⟨(htried.opened rfl).2, ?_⟩
        rw [htried.override]
        exact htried.soft
    · intro hfailed
      cases ok with
      | false =>
        rw [hretry rfl, htried.time]
        exact ⟨Nat.le_refl _, .inl (Nat.le_refl _)⟩
      | true => exact absurd hfailed (by simp [(htried.opened rfl).1])
  by_cases hsw : server.encoderOverride = ascii "sw"
  · refine ⟨htried.encoder.trans h.encoder, ?_,
      fun hnot => absurd (htried.override.trans hsw) hnot, ?_, hlast⟩
    · rw [happends]
      apply Spaced.snoc (hattempts ▸ h.spaced)
      · cases hgap with
        | inl hlate => exact .inl (hreaches hlate)
        | inr hswitch => exact .inr hswitch.2.1
      · exact htried.soft hsw
    · intro hsw'
      rw [htried.encoder]
      exact h.auto hsw
  · have heven : Even after.attempts := by
      rw [happends]
      apply Even.snoc (hattempts ▸ h.even hsw)
      cases hgap with
      | inl hlate => exact hreaches hlate
      | inr hswitch => exact absurd hswitch.1 hsw
    refine ⟨htried.encoder.trans h.encoder, spaced_of_even heven, fun _ => heven, ?_, hlast⟩
    intro hsw'
    exact absurd (htried.override.symm.trans hsw') hsw

/-- The pipeline is taken down. -/
theorem stopped_watched {now : UInt64} {encoderFailed : Bool} (h : Watched encoder server clock)
    (hrunning : server.parts.running = true) (hclock : clock ≤ now)
    (hend : now.toNat + 5000 < 2 ^ 64) :
    Watched encoder (pipelineStopped server now encoderFailed) now := by
  obtain ⟨front, a, hattempts, htime, hstarted, -⟩ := h.last
  obtain ⟨hopened, hsoft⟩ := hstarted hrunning
  have htime' : a.time ≤ now := UInt64.le_trans htime hclock
  have hlate : a.time.toNat + 5000 ≤ (now + 5000).toNat := by
    rw [add_toNat hend]
    have := UInt64.le_iff_toNat_le.mp htime'
    omega
  unfold pipelineStopped
  by_cases hreplaces : replacesEncoder server encoderFailed = true
  · rw [if_pos hreplaces]
    simp only [replacesEncoder, Bool.and_eq_true, beq_iff_eq] at hreplaces
    obtain ⟨⟨-, hhard⟩, hauto⟩ := hreplaces
    have hhard : a.opened = some .hw := by
      rw [← hopened]
      cases hencoder : server.parts.encoder with
      | none => simp [hencoder] at hhard
      | some encoder => simpa [hencoder] using hhard
    have hsw : server.encoderOverride ≠ ascii "sw" := fun hsw => hsoft hsw hhard
    refine ⟨h.encoder, h.spaced, fun hnot => absurd rfl hnot, fun _ => hauto, front, a, hattempts,
      htime',
      fun hon => absurd hon (by simp [pipelineStop, stopParts]), fun _ => ⟨?_, ?_⟩⟩
    · exact Nat.le_add_right _ _
    · exact .inr ⟨rfl, hhard, htime'⟩
  · rw [if_neg hreplaces]
    refine ⟨h.encoder, h.spaced, h.even, h.auto, front, a, hattempts, htime',
      fun hon => absurd hon (by simp [pipelineStop, stopParts]), fun _ => ⟨?_, .inl hlate⟩⟩
    exact Nat.le_of_eq (add_toNat hend)

theorem wait_watched {now : UInt64} (h : Watched encoder server clock) (hclock : clock ≤ now) :
    Watched encoder server now := by
  obtain ⟨front, a, hattempts, htime, hrunning, hstopped⟩ := h.last
  have hclock' := UInt64.le_iff_toNat_le.mp hclock
  refine ⟨h.encoder, h.spaced, h.even, h.auto, front, a, hattempts,
    UInt64.le_trans htime hclock, hrunning, ?_⟩
  intro hidle
  obtain ⟨hsoon, hgap⟩ := hstopped hidle
  exact ⟨by omega, hgap⟩

/-- A start that is due happens. -/
theorem due_starts (hidle : server.parts.running = false) {turn : PipelineTurn}
    (hdue : server.pipelineRetryMs ≤ turn.now) :
    ∃ attempt ok, Tried server (server.step turn) turn.now ok attempt ∧
      (ok = false → (server.step turn).pipelineRetryMs = turn.now + 5000) := by
  obtain ⟨attempt, htried⟩ := pipelineStart_tried server turn.now turn.world
  unfold LpPipeline.step pipelineSupervise
  rw [if_neg (Bool.eq_false_iff.mp hidle), if_neg (UInt64.not_lt.mpr hdue)]
  generalize pipelineStart server turn.now turn.world = r at htried ⊢
  obtain ⟨started, ok⟩ := r
  refine ⟨attempt, ok, ?_⟩
  cases ok with
  | true => exact ⟨htried, fun hok => absurd hok (by simp)⟩
  | false =>
    refine ⟨⟨htried.attempts, htried.time, htried.override, htried.encoder, htried.soft, ?_, ?_⟩,
      fun _ => rfl⟩
    · exact fun hok => absurd hok (by simp)
    · exact htried.stopped

theorem step_watched (h : Watched encoder server clock) {turn : PipelineTurn}
    (hclock : clock ≤ turn.now) (hend : turn.now.toNat + 5000 < 2 ^ 64) :
    Watched encoder (server.step turn) turn.now := by
  by_cases hrunning : server.parts.running = true
  · unfold LpPipeline.step pipelineSupervise
    rw [if_pos hrunning]
    by_cases hhealthy : turn.encoderFailed = false ∧ turn.sourceFailed = false
    · rw [if_pos hhealthy]
      exact wait_watched h hclock
    · rw [if_neg hhealthy]
      exact stopped_watched h hrunning hclock hend
  · have hidle := Bool.eq_false_iff.mpr hrunning
    by_cases hwait : turn.now < server.pipelineRetryMs
    · unfold LpPipeline.step pipelineSupervise
      rw [if_neg hrunning, if_pos hwait]
      exact wait_watched h hclock
    · have hdue := UInt64.not_lt.mp hwait
      obtain ⟨attempt, ok, htried, hretry⟩ := due_starts hidle hdue
      apply tried_watched h hidle hdue htried
      intro hok
      rw [hretry hok]
      exact add_toNat hend

/-- The clock of the loop never goes back and does not reach its end. -/
def Timed : UInt64 → List PipelineTurn → Prop
  | _, [] => True
  | clock, turn :: turns =>
    clock ≤ turn.now ∧ turn.now.toNat + 5000 < 2 ^ 64 ∧ Timed turn.now turns

/-- The time of the last turn. -/
def clockAfter (clock : UInt64) (turns : List PipelineTurn) : UInt64 :=
  turns.foldl (fun _ turn => turn.now) clock

theorem run_watched (h : Watched encoder server clock) {turns : List PipelineTurn}
    (htimes : Timed clock turns) :
    Watched encoder (run LpPipeline.step server turns) (clockAfter clock turns) := by
  induction turns generalizing server clock with
  | nil => exact h
  | cons turn turns ih =>
    obtain ⟨hclock, hend, hrest⟩ := htimes
    exact ih (step_watched h hclock hend) hrest

theorem launch_watched (encoder sourceName : Bytes) {now later : UInt64} (world : PartsWorld)
    (hlater : now ≤ later) (hend : later.toNat + 5000 < 2 ^ 64) :
    Watched encoder (LpPipeline.launch encoder sourceName now later world) later := by
  unfold LpPipeline.launch
  simp only
  obtain ⟨attempt, htried⟩ := pipelineStart_tried
    { encoder, sourceName, encoderOverride := [], pipelineError := [], pipelineRetryMs := 0,
      forceIdr := false, parts := MediaParts.empty, attempts := [] } now world
  generalize pipelineStart _ now world = r at htried ⊢
  obtain ⟨started, ok⟩ := r
  have hsingle : started.attempts = [] ++ [attempt] := htried.attempts
  have hsw : started.encoderOverride ≠ ascii "sw" := by
    rw [htried.override]
    show ([] : Bytes) ≠ ascii "sw"
    decide
  have heven : Even started.attempts := by
    rw [hsingle]
    exact List.isChain_singleton attempt
  have htime : attempt.time ≤ later := htried.time ▸ hlater
  cases ok with
  | true =>
    obtain ⟨hrunning, hopened⟩ := htried.opened rfl
    exact ⟨htried.encoder, spaced_of_even heven, fun _ => heven, fun h => absurd h hsw, [], attempt,
      hsingle, htime,
      fun _ => ⟨hopened, fun h => absurd h hsw⟩,
      fun hoff => Bool.noConfusion (hrunning.symm.trans hoff)⟩
  | false =>
    have hoff := htried.stopped rfl
    refine ⟨htried.encoder, spaced_of_even heven, fun _ => heven, fun h => absurd h hsw, [],
      attempt, hsingle, htime,
      fun hon => Bool.noConfusion (hoff.symm.trans hon), fun _ => ?_⟩
    have htime' := UInt64.le_iff_toNat_le.mp htime
    simp only [add_toNat hend]
    exact ⟨Nat.le_refl _, .inl (by omega)⟩

/-- Along every run of the libpeer server two starts of the pipeline lie five seconds apart,
but for the one right after a hardware encoder failed under `auto`; from then on the server
opens no hardware encoder any more, so there is one such start at most. While the pipeline
is down the server tries again within five seconds. -/
theorem encoder_fallback (encoder sourceName : Bytes) (now later : UInt64) (world : PartsWorld)
    (turns : List PipelineTurn) (hlater : now ≤ later) (hend : later.toNat + 5000 < 2 ^ 64)
    (htimes : Timed later turns) :
    let server := run LpPipeline.step (LpPipeline.launch encoder sourceName now later world) turns
    Spaced server.attempts ∧
      (encoder ≠ ascii "auto" → Even server.attempts) ∧
      (server.parts.running = false →
        ∀ turn : PipelineTurn, (clockAfter later turns).toNat + 5000 ≤ turn.now.toNat →
          ∃ attempt, (server.step turn).attempts = server.attempts ++ [attempt] ∧
            attempt.time = turn.now) := by
  intro server
  have hwatched := run_watched (launch_watched encoder sourceName world hlater hend) htimes
  refine ⟨hwatched.spaced, ?_, ?_⟩
  · intro hauto
    apply hwatched.even
    intro hsw
    exact hauto (hwatched.encoder.symm.trans (hwatched.auto hsw))
  · intro hidle turn hturn
    obtain ⟨front, a, -, -, -, hstopped⟩ := hwatched.last
    obtain ⟨hsoon, -⟩ := hstopped hidle
    have hdue : server.pipelineRetryMs ≤ turn.now :=
      UInt64.le_iff_toNat_le.mpr (Nat.le_trans hsoon hturn)
    obtain ⟨attempt, ok, htried, -⟩ := due_starts hidle hdue
    exact ⟨attempt, htried.attempts, htried.time⟩

/-- A camera and both encoders. -/
def fullWorld : PartsWorld :=
  { source := some ⟨ascii "test", 640, 480, 30, 614400⟩, hub := true, ring := true, device := true,
    hardware := some (ascii "m2m"), software := some (ascii "x264"), allocates := true,
    encoderWorker := true, consumer := true, scratch := true, encoderThread := true,
    mediaThread := true, sourceWorker := true, starts := true, sourceThread := true }

/-- The hardware encoder fails a tenth of a second after the start, then the camera does. -/
def failing : List PipelineTurn :=
  [⟨100, true, false, fullWorld⟩, ⟨120, false, false, fullWorld⟩, ⟨140, false, true, fullWorld⟩,
    ⟨5140, false, false, fullWorld⟩]

theorem encoder_fallback_failing :
    (run LpPipeline.step (LpPipeline.launch (ascii "auto") (ascii "test") 0 0 fullWorld)
        failing).attempts = [⟨0, some .hw⟩, ⟨120, some .sw⟩, ⟨5140, some .sw⟩] ∧
      Spaced (run LpPipeline.step (LpPipeline.launch (ascii "auto") (ascii "test") 0 0 fullWorld)
        failing).attempts := by
  refine ⟨by decide, ?_⟩
  exact (encoder_fallback (ascii "auto") (ascii "test") 0 0 fullWorld failing (by decide)
    (by decide) (by simp [Timed, failing])).1

end Camstream.Proofs.LpEncoderFallback
