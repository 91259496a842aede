import Camstream.Lib.Runs
import Camstream.App.MediaSupervisor

namespace Camstream.Proofs.SupervisorBackoff
open Lib App

theorem doubleDelay_toNat (rounds : Nat) (delay : UInt64) (hpos : 0 < delay.toNat)
    (hsmall : delay.toNat ≤ 120000) :
    min 60000 (doubleDelay rounds delay).toNat = min 60000 (delay.toNat * 2 ^ rounds) := by
  induction rounds generalizing delay with
  | zero => simp [doubleDelay]
  | succ rounds ih =>
    unfold doubleDelay
    split
    · rename_i hlt
      have hlt : delay.toNat < 60000 := UInt64.lt_iff_toNat_lt.mp hlt
      have htwice : (delay * 2).toNat = delay.toNat * 2 := by
        rw [UInt64.toNat_mul]
        exact Nat.mod_eq_of_lt (by simp only [UInt64.reduceToNat]; omega)
      rw [ih (delay * 2) (by omega) (by omega), htwice, Nat.pow_succ']
      ring_nf
    · rename_i hge
      have hge : 60000 ≤ delay.toNat := by
        have := UInt64.lt_iff_toNat_lt.not.mp hge
        simpa using this
      have hle : delay.toNat ≤ delay.toNat * 2 ^ (rounds + 1) :=
        Nat.le_mul_of_pos_right _ (Nat.two_pow_pos _)
      omega

/-- Five seconds, doubled with every failed start behind the first, and a minute at most. -/
def backoff (failedStarts : Nat) : Nat := min 60000 (5000 * 2 ^ (failedStarts - 1))

theorem backoff_mono {m n : Nat} (h : m ≤ n) : backoff m ≤ backoff n := by
  have hpow : 5000 * 2 ^ (m - 1) ≤ 5000 * 2 ^ (n - 1) :=
    Nat.mul_le_mul_left _ (Nat.pow_le_pow_right (by decide) (by omega))
  unfold backoff
  omega

theorem backoff_le (n : Nat) : backoff n ≤ 60000 := Nat.min_le_left _ _

theorem retryDelay_toNat (failures : UInt32) :
    (retryDelay failures).toNat = backoff failures.toNat := by
  have hdelay := doubleDelay_toNat (failures.toNat - 1) 5000 (by decide) (by decide)
  unfold retryDelay backoff
  dsimp only
  split
  · rename_i hlt
    have hlt : 60000 < (doubleDelay (failures.toNat - 1) 5000).toNat :=
      UInt64.lt_iff_toNat_lt.mp hlt
    simp only [UInt64.reduceToNat] at hdelay ⊢
    omega
  · rename_i hle
    have hle : (doubleDelay (failures.toNat - 1) 5000).toNat ≤ 60000 := by
      have := UInt64.lt_iff_toNat_lt.not.mp hle
      simpa using this
    simp only [UInt64.reduceToNat] at hdelay
    omega

/-- The server with what a reader of its log would note: the time, the last automatic
start, the failed starts in a row, a switch to the software encoder that has not been
built yet, and whether there was one since the last start by hand. -/
structure Watch where
  server : MediaServer
  clock : UInt64
  lastStart : UInt64
  failedStarts : Nat
  switching : Bool
  switched : Bool

/-- The failed starts in a row after one more start. -/
def countFailed (server : MediaServer) (before : Nat) : Nat :=
  if server.pipeline.isSome then 0 else before + 1

def Watch.launch (server : ConfigServer) (now : UInt64) (world : MediaWorld) : Watch :=
  let server := appServerStart (MediaServer.launch server) now world
  ⟨server, now, now, countFailed server 0, false, false⟩

/-- A hardware encoder under `auto` fails. -/
def switches (server : MediaServer) : SupervisorEvent → Bool
  | .supervise _ encoderFailed _ _ =>
    encoderFailed && server.pipeline.any (switchesEncoder server)
  | .restart .. => false

/-- The supervisor itself starts the pipeline. -/
def automatic (server : MediaServer) : SupervisorEvent → Bool
  | .supervise now .. => attempts server now
  | .restart .. => false

def Watch.step (w : Watch) (event : SupervisorEvent) : Watch :=
  let server := w.server.step event
  match event with
  | .supervise now .. =>
    if attempts w.server now then ⟨server, now, now, countFailed server w.failedStarts, false, w.switched⟩
    else ⟨server, now, w.lastStart, w.failedStarts,
      switches w.server event || (w.switching && w.server.pipeline.isNone),
      switches w.server event || w.switched⟩
  | .restart now _ => ⟨server, now, w.lastStart, countFailed server 0, false, false⟩

/-- The times of a run: none is zero and none lies before the one in front. -/
def Timed (w : Watch) (event : SupervisorEvent) : Prop := event.time ≠ 0 ∧ w.clock ≤ event.time

/-- What the back-off promises of one step. -/
structure KeepsBackoff (w : Watch) (event : SupervisorEvent) : Prop where
  scheduled : (w.step event).server.pipeline = none →
    (w.step event).server.pipelineRetryMs ≠ 0 ∧
      (w.step event).server.pipelineRetryMs.toNat ≤ event.time.toNat + 60000
  spaced : automatic w.server event = true → w.switching = false →
    w.lastStart.toNat + backoff w.failedStarts ≤ event.time.toNat
  single : switches w.server event = true → w.switched = false
  replaced : automatic w.server event = true → w.switching = true →
    ∀ pipeline, (w.step event).server.pipeline = some pipeline → pipeline.kind = .sw

/-- The encoders that fail are switched or have run for five seconds since the last start,
the count of the failures does not come round, and the clock is not at its end. -/
def EncoderLasts (w : Watch) (event : SupervisorEvent) : Prop :=
  event.time.toNat + 60000 < 2 ^ 64 ∧
    (automatic w.server event = true → w.server.pipelineFailures.toNat + 1 < 2 ^ 32) ∧
    match event with
    | .supervise now encoderFailed _ _ => encoderFailed = true → w.server.pipeline.isSome = true →
        switches w.server event = false → w.lastStart.toNat + 5000 ≤ now.toNat
    | .restart .. => True

/-- What the supervisor keeps between two calls. -/
structure Watchful (w : Watch) : Prop where
  started : w.lastStart ≤ w.clock
  scheduled : w.server.pipeline = none → w.server.pipelineRetryMs ≠ 0 ∧
    w.server.pipelineRetryMs.toNat ≤ w.clock.toNat + 60000
  spaced : w.server.pipeline = none → w.switching = false →
    w.lastStart.toNat + backoff w.failedStarts ≤ w.server.pipelineRetryMs.toNat
  counted : w.server.pipeline = none → w.failedStarts ≤ w.server.pipelineFailures.toNat
  running : w.server.pipeline.isSome = true → w.failedStarts = 0
  override : w.switching = true ∨ w.switched = true → w.server.encoderOverride = ascii "sw"
  software : w.server.encoderOverride = ascii "sw" →
    ∀ pipeline, w.server.pipeline = some pipeline → pipeline.kind = .sw

theorem openSoftware_kind {world : MediaWorld} {wanted : Bool} {encoder : EncoderKind × Bytes}
    (h : openSoftware world wanted = some encoder) : encoder.1 = .sw := by
  unfold openSoftware at h
  split at h
  · obtain ⟨name, -, rfl⟩ := Option.map_eq_some_iff.mp h
    rfl
  · cases h

/-- The preference `sw` opens software encoders only. -/
theorem h264EncoderOpen_sw {source : VideoSource} {world : MediaWorld}
    {encoder : EncoderKind × Bytes} (h : h264EncoderOpen (ascii "sw") source world = some encoder) :
    encoder.1 = .sw := by
  unfold h264EncoderOpen at h
  split at h
  · cases h
  · rw [if_neg (by decide), if_neg (by decide), if_pos rfl] at h
    exact openSoftware_kind h

theorem buildPipeline_kind {server : MediaServer} {world : MediaWorld} {pipeline : Pipeline}
    (h : buildPipeline server world = .ok pipeline) (hsw : server.encoderOverride = ascii "sw") :
    pipeline.kind = .sw := by
  have hpreference : encoderPreference server = ascii "sw" := by
    rw [encoderPreference, hsw, if_pos (by decide)]
  unfold buildPipeline at h
  rw [hpreference] at h
  simp only [bind, Except.bind, pure, Except.pure] at h
  repeat' split at h
  all_goals first
    | cases h; done
    | skip
  rename_i hopen _ _
  cases h
  exact h264EncoderOpen_sw hopen

theorem mediaPipelineStart_spec (server : MediaServer) (world : MediaWorld) :
    (∃ pipeline, buildPipeline server world = .ok pipeline ∧ mediaPipelineStart server world =
      ({ server with pipeline := some pipeline, encoderWorker := some 0 }, none)) ∨
    ∃ error, mediaPipelineStart server world = (mediaPipelineStop server, some error) := by
  unfold mediaPipelineStart
  cases hbuild : buildPipeline server world with
  | ok pipeline => exact .inl ⟨pipeline, rfl, rfl⟩
  | error error => exact .inr ⟨copyTo 256 error, rfl⟩

/-- What a start leaves: a pipeline, or the next attempt on the schedule of this count. -/
structure Started (before after : MediaServer) (failures : UInt32) (now : UInt64) : Prop where
  override : after.encoderOverride = before.encoderOverride
  outcome : (∃ pipeline, after.pipeline = some pipeline ∧
      (before.encoderOverride = ascii "sw" → pipeline.kind = .sw)) ∨
    (after.pipeline = none ∧ after.pipelineFailures = failures ∧
      after.pipelineRetryMs = now + retryDelay failures)

theorem supervise_started {server : MediaServer} {now : UInt64} (h : attempts server now = true)
    (encoderFailed sourceFailed : Bool) (world : MediaWorld) :
    Started server (mediaSupervise server now encoderFailed sourceFailed world)
      (server.pipelineFailures + 1) now := by
  simp only [attempts, Bool.and_eq_true, bne_iff_ne, ne_eq, decide_eq_true_eq,
    Option.isNone_iff_eq_none] at h
  obtain ⟨⟨hidle, hscheduled⟩, hdue⟩ := h
  have hgo : ¬(server.pipelineRetryMs = 0 ∨ now < server.pipelineRetryMs) := by
    rintro (hzero | hearly)
    · exact hscheduled hzero
    · exact UInt64.not_le.mpr hearly hdue
  simp only [mediaSupervise, hidle, if_neg hgo]
  obtain ⟨pipeline, hbuild, hstart⟩ | ⟨error, hstart⟩ := mediaPipelineStart_spec server world
  · simp only [hstart]
    exact ⟨rfl, .inl ⟨pipeline, rfl, buildPipeline_kind hbuild⟩⟩
  · simp only [hstart]
    exact ⟨rfl, .inr ⟨rfl, rfl, rfl⟩⟩

theorem restartReply_same (server : MediaServer) (status : Nat) (writer : JsonWriter) :
    ∃ config, (restartReply server status writer).1 = { server with toConfigServer := config } := by
  unfold restartReply
  split <;> exact ⟨_, rfl⟩

theorem restart_started (server : MediaServer) (now : UInt64) (world : MediaWorld) :
    Started { server with encoderOverride := [] } (handleCameraRestart server now world).1 1 now := by
  unfold handleCameraRestart
  dsimp only
  obtain ⟨pipeline, -, hstart⟩ | ⟨error, hstart⟩ := mediaPipelineStart_spec
    { mediaPipelineStop { server with cameraRestarts := server.cameraRestarts + 1 } with
      encoderOverride := [] } world
  · rw [hstart]
    dsimp only
    obtain ⟨config, hreply⟩ := restartReply_same _ _ _
    rw [hreply]
    exact ⟨rfl, .inl ⟨pipeline, rfl, fun hsw =>
      absurd (show ([] : Bytes) = ascii "sw" from hsw) (by decide)⟩⟩
  · rw [hstart]
    dsimp only
    obtain ⟨config, hreply⟩ := restartReply_same _ _ _
    rw [hreply]
    exact ⟨rfl, .inr ⟨rfl, rfl, rfl⟩⟩

theorem launch_started (server : MediaServer) (now : UInt64) (world : MediaWorld) :
    Started server (appServerStart server now world) 1 now := by
  unfold appServerStart
  obtain ⟨pipeline, hbuild, hstart⟩ | ⟨error, hstart⟩ := mediaPipelineStart_spec server world
  · rw [hstart]
    exact ⟨rfl, .inl ⟨pipeline, rfl, buildPipeline_kind hbuild⟩⟩
  · rw [hstart]
    exact ⟨rfl, .inr ⟨rfl, rfl, rfl⟩⟩

/-- After a start the back-off is in order when the schedule of its count is long enough. -/
theorem Started.watchful {before after : MediaServer} {failures : UInt32} {now lastStart : UInt64}
    {failed : Nat} {switched : Bool} (h : Started before after failures now) (hnow : now ≠ 0)
    (hclock : now.toNat + 60000 < 2 ^ 64) (hlast : lastStart ≤ now)
    (hcount : failed + 1 ≤ failures.toNat)
    (hswitched : switched = true → before.encoderOverride = ascii "sw") :
    Watchful ⟨after, now, lastStart, countFailed after failed, false, switched⟩ := by
  have hretry : ∀ (_ : after.pipeline = none), after.pipelineFailures = failures ∧
      after.pipelineRetryMs.toNat = now.toNat + backoff failures.toNat := by
    intro hnone
    obtain ⟨pipeline, hsome, -⟩ | ⟨-, hfailures, hms⟩ := h.outcome
    · rw [hsome] at hnone
      cases hnone
    · have hle := backoff_le failures.toNat
      rw [hms, UInt64.toNat_add, retryDelay_toNat]
      exact ⟨hfailures, Nat.mod_eq_of_lt (by omega)⟩
  have hlast : lastStart.toNat ≤ now.toNat := UInt64.le_iff_toNat_le.mp hlast
  refine ⟨UInt64.le_iff_toNat_le.mpr hlast, fun hnone => ⟨fun hzero => ?_, ?_⟩,
    fun hnone _ => ?_, fun hnone => ?_, fun hsome => ?_, ?_, fun hsw pipeline hpipeline => ?_⟩
  · obtain ⟨-, hms⟩ := hretry hnone
    dsimp only at hzero
    rw [hzero] at hms
    refine hnow (UInt64.toNat_inj.mp ?_)
    simp only [UInt64.toNat_zero] at hms ⊢
    omega
  · have hle := backoff_le failures.toNat
    have hms := (hretry hnone).2
    dsimp only
    omega
  · have hmono := backoff_mono hcount
    have hms := (hretry hnone).2
    dsimp only at hnone ⊢
    rw [countFailed, hnone]
    simp only [Option.isSome_none, Bool.false_eq_true, if_false]
    omega
  · have hfailures := (hretry hnone).1
    dsimp only at hnone ⊢
    rw [countFailed, hnone, hfailures]
    exact hcount
  · exact if_pos hsome
  · rintro (hswitching | hbefore)
    · cases hswitching
    · exact h.override.trans (hswitched hbefore)
  · obtain ⟨pipeline', hsome, hkind⟩ | ⟨hnone, -, -⟩ := h.outcome
    · obtain rfl := Option.some.inj (hpipeline.symm.trans hsome)
      exact hkind (h.override.symm.trans hsw)
    · dsimp only at hpipeline
      rw [hnone] at hpipeline
      cases hpipeline

theorem attempts_idle {server : MediaServer} {now : UInt64} (h : attempts server now = true) :
    server.pipeline = none ∧ server.pipelineRetryMs.toNat ≤ now.toNat := by
  simp only [attempts, Bool.and_eq_true, decide_eq_true_eq, Option.isNone_iff_eq_none] at h
  exact ⟨h.1.1, UInt64.le_iff_toNat_le.mp h.2⟩

/-- A call that neither finds a failure nor an attempt that is due. -/
theorem supervise_quiet {server : MediaServer} {now : UInt64} {encoderFailed sourceFailed : Bool}
    (world : MediaWorld) (hattempt : attempts server now = false)
    (hfine : server.pipeline = none ∨ (encoderFailed = false ∧ sourceFailed = false)) :
    mediaSupervise server now encoderFailed sourceFailed world = server := by
  unfold mediaSupervise
  split
  · rename_i pipeline hrunning
    rw [if_pos]
    rcases hfine with hnone | hfine
    · rw [hrunning] at hnone
      cases hnone
    · exact hfine
  · rename_i hidle
    rw [if_pos]
    simp only [attempts, hidle, Option.isNone_none, Bool.true_and, Bool.and_eq_false_iff,
      bne_eq_false_iff_eq, decide_eq_false_iff_not, UInt64.not_le] at hattempt
    exact hattempt

/-- What a failure at run time leaves. -/
theorem supervise_failed {server : MediaServer} {pipeline : Pipeline} {now : UInt64}
    {encoderFailed sourceFailed : Bool} (world : MediaWorld) (hrunning : server.pipeline = some pipeline)
    (hfailed : ¬(encoderFailed = false ∧ sourceFailed = false)) :
    let after := mediaSupervise server now encoderFailed sourceFailed world
    after.pipeline = none ∧
      after.pipelineRetryMs = (if encoderFailed then now else now + 5000) ∧
      after.encoderOverride =
        (if encoderFailed && switchesEncoder server pipeline then ascii "sw"
          else server.encoderOverride) := by
  simp only [mediaSupervise, hrunning, if_neg hfailed]
  unfold pipelineFailed
  cases encoderFailed with
  | false => exact ⟨rfl, rfl, rfl⟩
  | true => exact ⟨rfl, rfl, rfl⟩

theorem attempt_watchful {w : Watch} (h : Watchful w) {now : UInt64} {encoderFailed sourceFailed : Bool}
    {world : MediaWorld} (hattempt : attempts w.server now = true) (hnow : now ≠ 0)
    (hclock : now.toNat + 60000 < 2 ^ 64)
    (hcount : w.server.pipelineFailures.toNat + 1 < 2 ^ 32) :
    Watchful (w.step (.supervise now encoderFailed sourceFailed world)) := by
  have hidle := (attempts_idle hattempt).1
  have hstarted := supervise_started hattempt encoderFailed sourceFailed world
  have hnext : (w.server.pipelineFailures + 1).toNat = w.server.pipelineFailures.toNat + 1 := by
    rw [UInt32.toNat_add]
    exact Nat.mod_eq_of_lt hcount
  have hfailures : w.failedStarts + 1 ≤ (w.server.pipelineFailures + 1).toNat := by
    have := h.counted hidle
    omega
  have hwatch := hstarted.watchful hnow hclock (UInt64.le_refl now) hfailures
    fun hswitched : w.switched = true => h.override (.inr hswitched)
  simp only [Watch.step, hattempt, if_true, MediaServer.step]
  exact hwatch

theorem step_running {w : Watch} {pipeline : Pipeline} (hrunning : w.server.pipeline = some pipeline)
    (now : UInt64) (encoderFailed sourceFailed : Bool) (world : MediaWorld) :
    w.step (.supervise now encoderFailed sourceFailed world) =
      ⟨mediaSupervise w.server now encoderFailed sourceFailed world, now, w.lastStart,
        w.failedStarts, encoderFailed && switchesEncoder w.server pipeline,
        (encoderFailed && switchesEncoder w.server pipeline) || w.switched⟩ := by
  have hnot : attempts w.server now = false := by simp [attempts, hrunning]
  simp [Watch.step, hnot, switches, hrunning, MediaServer.step]

theorem failed_watchful {w : Watch} (h : Watchful w) {pipeline : Pipeline} {now : UInt64}
    {encoderFailed sourceFailed : Bool} {world : MediaWorld}
    (hrunning : w.server.pipeline = some pipeline)
    (hfailed : ¬(encoderFailed = false ∧ sourceFailed = false)) (hnow : now ≠ 0)
    (hlater : w.clock ≤ now) (hclock : now.toNat + 60000 < 2 ^ 64)
    (hlasts : encoderFailed = true → switchesEncoder w.server pipeline = false →
      w.lastStart.toNat + 5000 ≤ now.toNat) :
    Watchful (w.step (.supervise now encoderFailed sourceFailed world)) := by
  obtain ⟨hidle, hretry, hoverride⟩ := supervise_failed world hrunning hfailed
  have hlast : w.lastStart ≤ now := UInt64.le_trans h.started hlater
  have hcount : w.failedStarts = 0 := h.running (by rw [hrunning]; rfl)
  have hpos : now.toNat ≠ 0 := fun hzero => hnow (UInt64.toNat_inj.mp hzero)
  have hlater' : (now + 5000).toNat = now.toNat + 5000 := by
    rw [UInt64.toNat_add]
    exact Nat.mod_eq_of_lt (by simp only [UInt64.reduceToNat]; omega)
  rw [step_running hrunning]
  refine ⟨hlast, fun _ => ?_, fun _ hswitching => ?_, fun _ => ?_, fun _ => hcount, fun hswitch => ?_,
    fun _ pipeline' hpipeline' => ?_⟩
  · dsimp only
    rw [hretry]
    cases encoderFailed with
    | true => exact ⟨hnow, by simp⟩
    | false =>
      refine ⟨fun hzero => ?_, by simp [hlater']⟩
      simp only [Bool.false_eq_true, if_false] at hzero
      rw [hzero, UInt64.toNat_zero] at hlater'
      omega
  · dsimp only at hswitching ⊢
    have hfirst : backoff w.failedStarts = 5000 := by rw [hcount]; rfl
    rw [hretry, hfirst]
    cases encoderFailed with
    | true => exact hlasts rfl hswitching
    | false =>
      have := UInt64.le_iff_toNat_le.mp hlast
      simp only [Bool.false_eq_true, if_false, hlater']
      omega
  · dsimp only
    rw [hcount]
    exact Nat.zero_le _
  · dsimp only at hswitch ⊢
    rw [hoverride]
    split
    · rfl
    · rename_i hnot
      rcases hswitch with hswitch | hswitch
      · exact absurd hswitch hnot
      · rcases Bool.or_eq_true_iff.mp hswitch with hswitch | hbefore
        · exact absurd hswitch hnot
        · exact h.override (.inr hbefore)
  · dsimp only at hpipeline'
    rw [hidle] at hpipeline'
    cases hpipeline'

theorem quiet_watchful {w : Watch} (h : Watchful w) {now : UInt64} {encoderFailed sourceFailed : Bool}
    {world : MediaWorld} (hattempt : attempts w.server now = false)
    (hfine : w.server.pipeline = none ∨ (encoderFailed = false ∧ sourceFailed = false))
    (hlater : w.clock ≤ now) :
    Watchful (w.step (.supervise now encoderFailed sourceFailed world)) := by
  have hnot : switches w.server (.supervise now encoderFailed sourceFailed world) = false := by
    rcases hfine with hnone | ⟨hencoder, -⟩
    · simp [switches, hnone]
    · simp [switches, hencoder]
  have hle := UInt64.le_iff_toNat_le.mp hlater
  simp only [Watch.step, hattempt, Bool.false_eq_true, if_false, hnot, Bool.false_or,
    MediaServer.step, supervise_quiet world hattempt hfine]
  refine ⟨UInt64.le_trans h.started hlater, fun hnone => ?_, fun hnone hswitching => ?_, h.counted,
    h.running, fun hswitch => ?_, h.software⟩
  · obtain ⟨hzero, hcap⟩ := h.scheduled hnone
    exact ⟨hzero, by dsimp only; omega⟩
  · dsimp only at hnone hswitching
    rw [hnone, Option.isNone_none, Bool.and_true] at hswitching
    exact h.spaced hnone hswitching
  · dsimp only at hswitch
    exact h.override (hswitch.imp_left fun hboth => (Bool.and_eq_true_iff.mp hboth).1)

theorem restart_watchful {w : Watch} (h : Watchful w) {now : UInt64} {world : MediaWorld}
    (hnow : now ≠ 0) (hlater : w.clock ≤ now) (hclock : now.toNat + 60000 < 2 ^ 64) :
    Watchful (w.step (.restart now world)) :=
  (restart_started w.server now world).watchful hnow hclock (UInt64.le_trans h.started hlater)
    (by decide) fun hswitched => nomatch hswitched

theorem step_watchful {w : Watch} (h : Watchful w) (event : SupervisorEvent) (htime : Timed w event)
    (hok : EncoderLasts w event) : Watchful (w.step event) := by
  obtain ⟨hnow, hlater⟩ := htime
  obtain ⟨hclock, hcount, hlasts⟩ := hok
  cases event with
  | restart now world => exact restart_watchful h hnow hlater hclock
  | supervise now encoderFailed sourceFailed world =>
    cases hattempt : attempts w.server now with
    | true => exact attempt_watchful h hattempt hnow hclock (hcount hattempt)
    | false =>
      by_cases hfine : w.server.pipeline = none ∨ (encoderFailed = false ∧ sourceFailed = false)
      · exact quiet_watchful h hattempt hfine hlater
      · obtain ⟨hrunning, hfailed⟩ := not_or.mp hfine
        obtain ⟨pipeline, hrunning⟩ := Option.ne_none_iff_exists'.mp hrunning
        refine failed_watchful h hrunning hfailed hnow hlater hclock fun hencoder hnot => ?_
        exact hlasts hencoder (by rw [hrunning]; rfl) (by simp [switches, hrunning, hnot])

theorem step_clock (w : Watch) (event : SupervisorEvent) : (w.step event).clock = event.time := by
  cases event with
  | restart now world => rfl
  | supervise now encoderFailed sourceFailed world =>
    unfold Watch.step
    dsimp only
    split <;> rfl

theorem step_keeps_backoff {w : Watch} (h : Watchful w) (event : SupervisorEvent)
    (htime : Timed w event) (hok : EncoderLasts w event) : KeepsBackoff w event := by
  have hnext := step_watchful h event htime hok
  refine ⟨fun hidle => ?_, fun hauto hswitching => ?_, fun hswitch => ?_,
    fun hauto hswitching pipeline hpipeline => ?_⟩
  · rw [← step_clock w event]
    exact hnext.scheduled hidle
  · cases event with
    | restart now world => cases hauto
    | supervise now encoderFailed sourceFailed world =>
      obtain ⟨hidle, hdue⟩ := attempts_idle hauto
      exact Nat.le_trans (h.spaced hidle hswitching) hdue
  · cases event with
    | restart now world => cases hswitch
    | supervise now encoderFailed sourceFailed world =>
      -- the override of an earlier switch would have opened a software encoder
      obtain ⟨-, hany⟩ := Bool.and_eq_true_iff.mp hswitch
      obtain ⟨pipeline, hrunning, hkind⟩ := Option.any_eq_true _ _ |>.mp hany
      refine Bool.eq_false_iff.mpr fun hswitched => ?_
      have hsw := h.software (h.override (.inr hswitched)) pipeline hrunning
      simp [switchesEncoder, hsw] at hkind
  · cases event with
    | restart now world => cases hauto
    | supervise now encoderFailed sourceFailed world =>
      have hstarted := supervise_started hauto encoderFailed sourceFailed world
      have hoverride := hstarted.override.trans (h.override (.inl hswitching))
      have hserver : (w.step (.supervise now encoderFailed sourceFailed world)).server =
          mediaSupervise w.server now encoderFailed sourceFailed world := by
        unfold Watch.step
        dsimp only
        split <;> rfl
      rw [← hserver] at hoverride
      exact hnext.software hoverride pipeline hpipeline

theorem launch_watchful (server : ConfigServer) {now : UInt64} (world : MediaWorld) (hnow : now ≠ 0)
    (hclock : now.toNat + 60000 < 2 ^ 64) : Watchful (Watch.launch server now world) :=
  (launch_started (MediaServer.launch server) now world).watchful hnow hclock (UInt64.le_refl now)
    (by decide) fun hswitched => nomatch hswitched

/-- From the launch on, the supervisor keeps its back-off as long as no encoder but one that
is switched fails within five seconds of a start. -/
theorem backoff_kept (server : ConfigServer) (now : UInt64) (world : MediaWorld)
    (events : List SupervisorEvent) (hnow : now ≠ 0) (hclock : now.toNat + 60000 < 2 ^ 64)
    (htimes : Allowed Watch.step Timed (Watch.launch server now world) events)
    (hok : Allowed Watch.step EncoderLasts (Watch.launch server now world) events) :
    ((Watch.launch server now world).server.pipeline = none →
      (Watch.launch server now world).server.pipelineRetryMs ≠ 0) ∧
    Allowed Watch.step KeepsBackoff (Watch.launch server now world) events := by
  have hstart := launch_watchful server world hnow hclock
  exact ⟨fun hidle => (hstart.scheduled hidle).1,
    allowed_of_allowed hstart (fun _ event h htime hok => step_watchful h event htime hok)
      (fun _ event h htime hok => step_keeps_backoff h event htime hok) events htimes hok⟩

/-- A host without a camera at first. -/
def noCamera : MediaWorld := ⟨none, true, true, true, none, none, true, true, true⟩

/-- A host with a camera and a software encoder. -/
def softwareWorld : MediaWorld :=
  ⟨some ⟨ascii "cam", 640, 480, 30, 460800⟩, true, true, false, none, some (ascii "libx264"),
    true, true, true⟩

/-- The server of the default configuration. -/
def defaultServer : ConfigServer := ⟨appConfigDefaults, none, false, 0, 0⟩

instance (w : Watch) (event : SupervisorEvent) : Decidable (Timed w event) :=
  inferInstanceAs (Decidable (_ ∧ _))

instance (w : Watch) (event : SupervisorEvent) : Decidable (EncoderLasts w event) :=
  match event with
  | .supervise .. => inferInstanceAs (Decidable (_ ∧ _ ∧ (_ → _)))
  | .restart .. => inferInstanceAs (Decidable (_ ∧ _ ∧ True))

/-- The camera comes back on the second attempt. -/
def recovery : List SupervisorEvent :=
  [.supervise 6000 false false noCamera, .supervise 9000 false false softwareWorld,
    .supervise 16000 false false softwareWorld, .supervise 17000 false true noCamera]

theorem backoff_kept_recovery :
    ((Watch.launch defaultServer 1000 noCamera).server.pipeline = none →
      (Watch.launch defaultServer 1000 noCamera).server.pipelineRetryMs ≠ 0) ∧
    Allowed Watch.step KeepsBackoff (Watch.launch defaultServer 1000 noCamera) recovery :=
  backoff_kept defaultServer 1000 noCamera recovery (by decide) (by decide)
    (by decide) (by decide)

/-- A software encoder that starts and fails again is rebuilt at once, every time. -/
def restless : List SupervisorEvent :=
  [.supervise 7000 true false softwareWorld, .supervise 7001 false false softwareWorld,
    .supervise 7002 true false softwareWorld, .supervise 7003 false false softwareWorld]

theorem restless_encoder :
    Allowed Watch.step Timed (Watch.launch defaultServer 1000 softwareWorld) restless ∧
    ¬Allowed Watch.step KeepsBackoff (Watch.launch defaultServer 1000 softwareWorld) restless := by
  refine ⟨by decide, ?_⟩
  rintro ⟨-, -, -, hlast, -⟩
  exact absurd (hlast.spaced (by decide) (by decide)) (by decide)

end Camstream.Proofs.SupervisorBackoff
