import Camstream.Lib.Runs
import Camstream.Media.EncoderWorker

namespace Camstream.Proofs.EncoderAccounting
open Lib Media

/-- What the thread does with the frames of the hub. `encode` stands for the beginning of an
encode call and `encoded` for its return. -/
inductive FrameCall
  | take (frame : FrameInfo)
  | encode (frame : FrameInfo)
  | encoded (frame : FrameInfo)
  | unref (frame : FrameInfo)
deriving Repr, DecidableEq

def FrameCall.isTake : FrameCall → Bool
  | .take _ => true
  | _ => false

def FrameCall.isUnref : FrameCall → Bool
  | .unref _ => true
  | _ => false

/-- The calls in one step. -/
def frameCalls (t : EncoderThread) : EncoderEvent → List FrameCall
  | .advance input =>
    match t.pc with
    | .waiting => if t.running then (input.frame.map FrameCall.take).toList else []
    | .taken frame =>
      if (t.checkTaken frame input.nowMs).pc = .waiting then [.unref frame] else []
    | .ready frame => [.encode frame]
    | .encoding frame _ => [.encoded frame]
    | .returned frame _ _ => [.unref frame]
    | _ => []
  | _ => []

/-- The calls along a run. -/
def callsAlong (t : EncoderThread) : List EncoderEvent → List FrameCall
  | [] => []
  | e :: events => frameCalls t e ++ callsAlong (t.step e) events

/-- Every frame was released once, and not while an encode call could read it. -/
inductive Released : List FrameCall → Prop
  | nil : Released []
  | skipped {calls : List FrameCall} (frame : FrameInfo) :
    Released calls → Released (calls ++ [.take frame, .unref frame])
  | encoded {calls : List FrameCall} (frame : FrameInfo) :
    Released calls →
    Released (calls ++ [.take frame, .encode frame, .encoded frame, .unref frame])

/-- The calls so far for the frame in hand. -/
def inHand : EncodeAt → List FrameCall
  | .taken frame | .ready frame => [.take frame]
  | .encoding frame _ => [.take frame, .encode frame]
  | .returned frame _ _ => [.take frame, .encode frame, .encoded frame]
  | _ => []

/-- The frame in hand. -/
def frameAt : EncodeAt → Option FrameInfo
  | .taken frame | .ready frame | .encoding frame _ | .returned frame _ _ => some frame
  | _ => none

/-- The steps of the thread in which the frame in hand is released at the latest. -/
def stepsLeft : EncodeAt → Nat
  | .taken _ => 4
  | .ready _ => 3
  | .encoding _ _ => 2
  | .returned _ _ _ => 1
  | _ => 0

def isAdvance : EncoderEvent → Bool
  | .advance _ => true
  | _ => false

/-- 1 while a frame is in progress. -/
def inProgress (pc : EncodeAt) : Nat := (inHand pc).countP FrameCall.isTake

/-- 1 once the encoder has failed; its last frame is in no other counter. -/
def fatal : EncodeAt → Nat
  | .stopped .encoderError => 1
  | _ => 0

/-- The frames that are done with. -/
def counted (w : EncoderWorker) : Nat :=
  w.framesEncoded + w.skippedIdle + w.skippedMismatch + w.skippedBadSize + w.noOutput

/-- What holds after the calls so far. -/
structure Accounted (t : EncoderThread) (calls : List FrameCall) : Prop where
  frames : t.worker.framesIn = counted t.worker + fatal t.pc + inProgress t.pc
  takes : calls.countP FrameCall.isTake = t.worker.framesIn
  unrefs : calls.countP FrameCall.isUnref = t.unrefs
  released : ∃ done, Released done ∧ calls = done ++ inHand t.pc

theorem start_accounted (width height : UInt32) (ring : AuRing) :
    Accounted (.start (encoderWorkerCreate width height) ring) [] :=
  ⟨rfl, rfl, rfl, [], .nil, rfl⟩

/-- Scanning an access unit counts no frame. -/
theorem finishAccessUnit_counts (w : EncoderWorker) (data : Bytes) :
    (finishAccessUnit w data).2.framesIn = w.framesIn ∧
      counted (finishAccessUnit w data).2 = counted w := by
  have hparams : ∀ worker : EncoderWorker, (worker = w ∨ worker =
      { w with params := h264ParamCacheUpdate w.params data }) →
      worker.framesIn = w.framesIn ∧ counted worker = counted w := by
    intro worker hworker
    cases hworker with
    | inl h => subst h; exact ⟨rfl, rfl⟩
    | inr h => subst h; exact ⟨rfl, rfl⟩
  unfold finishAccessUnit
  dsimp only
  generalize hworker : (if ((h264AuScan data).hasSps || (h264AuScan data).hasPps) = true then
    { w with params := h264ParamCacheUpdate w.params data } else w) = worker
  have hsame := hparams worker (by
    rw [← hworker]
    split
    · exact .inr rfl
    · exact .inl rfl)
  split
  · exact hsame
  · split
    · split
      · exact hsame
      · exact hsame
    · exact hsame

section Steps
variable {t : EncoderThread} {calls : List FrameCall}

/-- A frame is looked at: it is skipped and released, or kept for the encoder. -/
theorem checkTaken_accounted {frame : FrameInfo} (h : Accounted t calls)
    (hpc : t.pc = .taken frame) (nowMs : UInt64) :
    Accounted (t.checkTaken frame nowMs) (calls ++
      if (t.checkTaken frame nowMs).pc = .waiting then [.unref frame] else []) := by
  obtain ⟨done, hdone, hcalls⟩ := h.released
  have hframes := h.frames
  have htakes := h.takes
  have hunrefs := h.unrefs
  rw [hpc] at hframes hcalls
  have hskip : ∀ u : EncoderThread, u.pc = .waiting → u.unrefs = t.unrefs + 1 →
      u.worker.framesIn = t.worker.framesIn → counted u.worker = counted t.worker + 1 →
      Accounted u (calls ++ if u.pc = .waiting then [.unref frame] else []) := by
    intro u hu hreleased hin hcounted
    rw [if_pos hu]
    refine ⟨?_, ?_, ?_, _, .skipped frame hdone, ?_⟩
    · rw [hu, hin, hcounted, hframes]
      rfl
    · rw [List.countP_append, htakes, hin]
      rfl
    · rw [List.countP_append, hunrefs, hreleased]
      rfl
    · have hnone : inHand u.pc = [] := by rw [hu]; rfl
      rw [hcalls, hnone, List.append_nil, List.append_assoc]
      rfl
  unfold EncoderThread.checkTaken
  dsimp only
  split
  · apply hskip
    · rfl
    · rfl
    · rfl
    · simp only [counted]
      omega
  · split
    · apply hskip
      · rfl
      · rfl
      · rfl
      · simp only [counted]
        omega
    · apply hskip
      · rfl
      · rfl
      · rfl
      · simp only [counted]
        omega
    · refine ⟨hframes, ?_, ?_, done, hdone, ?_⟩
      · simpa using htakes
      · simpa using hunrefs
      · simpa [inHand] using hcalls

/-- The encode call has returned, and the frame is released whatever it returned. -/
theorem handleResult_accounted {frame : FrameInfo} {forceIdr : Bool} {result : EncodeResult}
    (h : Accounted t calls) (hpc : t.pc = .returned frame forceIdr result) (nowMs : UInt64) :
    Accounted (t.handleResult forceIdr result nowMs) (calls ++ [.unref frame]) := by
  obtain ⟨done, hdone, hcalls⟩ := h.released
  have hframes := h.frames
  have htakes := h.takes
  have hunrefs := h.unrefs
  rw [hpc] at hframes hcalls
  have hdone' : ∀ u : EncoderThread, inHand u.pc = [] → u.unrefs = t.unrefs + 1 →
      u.worker.framesIn = t.worker.framesIn →
      u.worker.framesIn = counted u.worker + fatal u.pc →
      Accounted u (calls ++ [.unref frame]) := by
    intro u hhand hreleased hin hcounted
    refine ⟨?_, ?_, ?_, _, .encoded frame hdone, ?_⟩
    · rw [inProgress, hhand, hcounted]
      rfl
    · rw [List.countP_append, htakes, hin]
      rfl
    · rw [List.countP_append, hunrefs, hreleased]
      rfl
    · rw [hcalls, hhand, inHand, List.append_nil, List.append_assoc]
      rfl
  cases result with
  | fatal => exact hdone' _ rfl rfl rfl hframes
  | nothing =>
    apply hdone'
    · rfl
    · rfl
    · rfl
    · change t.worker.framesIn = counted t.worker + 0 + 1 at hframes
      simp only [EncoderThread.handleResult, counted, fatal] at hframes ⊢
      omega
  | output data auPtsUs =>
    obtain ⟨hin, hcounted⟩ := finishAccessUnit_counts t.worker data
    change t.worker.framesIn = counted t.worker + 0 + 1 at hframes
    simp only [EncoderThread.handleResult]
    split
    · rename_i w hfinish
      rw [hfinish] at hin hcounted
      apply hdone'
      · rfl
      · rfl
      · exact hin
      · simp only [counted, fatal] at hin hcounted hframes ⊢
        omega
    · rename_i au isIdr w hfinish
      rw [hfinish] at hin hcounted
      apply hdone'
      · rfl
      · rfl
      · exact hin
      · simp only [counted, fatal] at hin hcounted hframes ⊢
        omega

/-- A step that has nothing to do with frames. -/
theorem Accounted.quiet (h : Accounted t calls) {u : EncoderThread}
    (hin : u.worker.framesIn = t.worker.framesIn) (hcounted : counted u.worker = counted t.worker)
    (hunrefs : u.unrefs = t.unrefs) (hfatal : fatal u.pc = fatal t.pc)
    (hhand : inHand u.pc = inHand t.pc) : Accounted u (calls ++ []) := by
  rw [List.append_nil]
  refine ⟨?_, ?_, ?_, ?_⟩
  · rw [hin, hcounted, hfatal, inProgress, hhand]
    exact h.frames
  · rw [hin]
    exact h.takes
  · rw [hunrefs]
    exact h.unrefs
  · rw [hhand]
    exact h.released

theorem advance_accounted (h : Accounted t calls) (input : EncoderInput) :
    Accounted (t.advance input) (calls ++ frameCalls t (.advance input)) := by
  obtain ⟨done, hdone, hcalls⟩ := h.released
  simp only [EncoderThread.advance, frameCalls]
  cases hpc : t.pc with
  | waiting =>
    cases hrunning : t.running with
    | false => exact h.quiet rfl rfl rfl (by rw [hpc]; rfl) (by rw [hpc]; rfl)
    | true =>
      cases hframe : input.frame with
      | none => exact h.quiet rfl rfl rfl rfl rfl
      | some frame =>
        have hframes := h.frames
        rw [hpc] at hframes hcalls
        refine ⟨?_, ?_, ?_, done, hdone, ?_⟩
        · change t.worker.framesIn + 1 = counted t.worker + 0 + 1
          rw [hframes]
          rfl
        · rw [List.countP_append, h.takes]
          rfl
        · rw [List.countP_append, h.unrefs]
          rfl
        · have hnone : inHand .waiting = [] := rfl
          rw [hcalls, hnone, List.append_nil]
          rfl
  | taken frame => exact checkTaken_accounted h hpc input.nowMs
  | ready frame =>
    have hframes := h.frames
    rw [hpc] at hframes hcalls
    refine ⟨hframes, ?_, ?_, done, hdone, ?_⟩
    · rw [List.countP_append, h.takes]
      rfl
    · rw [List.countP_append, h.unrefs]
      rfl
    · rw [hcalls, List.append_assoc]
      rfl
  | encoding frame forceIdr =>
    have hframes := h.frames
    rw [hpc] at hframes hcalls
    refine ⟨hframes, ?_, ?_, done, hdone, ?_⟩
    · rw [List.countP_append, h.takes]
      rfl
    · rw [List.countP_append, h.unrefs]
      rfl
    · rw [hcalls, List.append_assoc]
      rfl
  | returned frame forceIdr result => exact handleResult_accounted h hpc input.nowMs
  | unsatisfied forceIdr =>
    dsimp only
    split
    · exact h.quiet rfl rfl rfl (by rw [hpc]; rfl) (by rw [hpc]; rfl)
    · exact h.quiet rfl rfl rfl (by rw [hpc]; rfl) (by rw [hpc]; rfl)
  | finished forceIdr au auPtsUs isIdr =>
    dsimp only
    split
    · exact h.quiet rfl rfl rfl (by rw [hpc]; rfl) (by rw [hpc]; rfl)
    · split
      · exact h.quiet rfl rfl rfl (by rw [hpc]; rfl) (by rw [hpc]; rfl)
      · exact h.quiet rfl rfl rfl (by rw [hpc]; rfl) (by rw [hpc]; rfl)
  | pushing au auPtsUs isIdr =>
    refine h.quiet rfl rfl rfl ?_ ?_
    · rw [hpc]
      dsimp only
      split <;> rfl
    · rw [hpc]
      dsimp only
      split <;> rfl
  | refused => exact h.quiet rfl rfl rfl (by rw [hpc]; rfl) (by rw [hpc]; rfl)
  | stopped reason => exact h.quiet rfl rfl rfl (by rw [hpc]) (by rw [hpc])

theorem step_accounted (h : Accounted t calls) (e : EncoderEvent) :
    Accounted (t.step e) (calls ++ frameCalls t e) := by
  cases e with
  | advance input => exact advance_accounted h input
  | request => exact h.quiet rfl rfl rfl rfl rfl
  | setActive active => exact h.quiet rfl rfl rfl rfl rfl
  | stop => exact h.quiet rfl rfl rfl rfl rfl
  | pop bufferCapacity => exact h.quiet rfl rfl rfl rfl rfl

end Steps

theorem run_accounted {t : EncoderThread} {calls : List FrameCall} (h : Accounted t calls)
    (events : List EncoderEvent) :
    Accounted (run EncoderThread.step t events) (calls ++ callsAlong t events) := by
  induction events generalizing t calls with
  | nil =>
    rw [callsAlong, List.append_nil]
    exact h
  | cons e events ih =>
    have hnext := ih (step_accounted h e)
    rw [List.append_assoc] at hnext
    exact hnext

section Progress
variable {t : EncoderThread} {frame : FrameInfo}

theorem checkTaken_pc (t : EncoderThread) (frame : FrameInfo) (nowMs : UInt64) :
    (t.checkTaken frame nowMs).pc = .waiting ∨ (t.checkTaken frame nowMs).pc = .ready frame := by
  unfold EncoderThread.checkTaken
  dsimp only
  split
  · exact .inl rfl
  · split
    · exact .inl rfl
    · exact .inl rfl
    · exact .inr rfl

/-- A step of the thread releases the frame in hand, or comes closer to it. -/
theorem advance_nearer (h : frameAt t.pc = some frame) (input : EncoderInput) :
    .unref frame ∈ frameCalls t (.advance input) ∨
      (frameAt (t.advance input).pc = some frame ∧
        stepsLeft (t.advance input).pc + 1 = stepsLeft t.pc) := by
  unfold frameCalls EncoderThread.advance
  cases hpc : t.pc with
  | taken taken =>
    obtain rfl : taken = frame := by simpa [hpc, frameAt] using h
    dsimp only
    cases checkTaken_pc t taken input.nowMs with
    | inl hskipped => exact .inl (by simp [hskipped])
    | inr hkept => exact .inr (by simp [hkept, frameAt, stepsLeft])
  | ready ready =>
    obtain rfl : ready = frame := by simpa [hpc, frameAt] using h
    exact .inr ⟨rfl, rfl⟩
  | encoding encoding forceIdr =>
    obtain rfl : encoding = frame := by simpa [hpc, frameAt] using h
    exact .inr ⟨rfl, rfl⟩
  | returned returned forceIdr result =>
    obtain rfl : returned = frame := by simpa [hpc, frameAt] using h
    exact .inl (List.mem_singleton.mpr rfl)
  | _ => simp [hpc, frameAt] at h

/-- Whatever else happens meanwhile, a frame in hand does not stay there. -/
theorem released_soon (h : frameAt t.pc = some frame) {later : List EncoderEvent}
    (hsteps : stepsLeft t.pc ≤ later.countP isAdvance) : .unref frame ∈ callsAlong t later := by
  induction later generalizing t with
  | nil =>
    cases hpc : t.pc <;> simp [hpc, frameAt, stepsLeft] at h hsteps
  | cons e later ih =>
    rw [callsAlong, List.mem_append]
    have hother : (t.step e).pc = t.pc → isAdvance e = false →
        .unref frame ∈ callsAlong (t.step e) later := by
      intro hsame hquiet
      apply ih (by rw [hsame]; exact h)
      rw [hsame]
      simpa [hquiet] using hsteps
    cases e with
    | advance input =>
      cases advance_nearer h input with
      | inl hreleased => exact .inl hreleased
      | inr hnearer =>
        refine .inr (ih hnearer.1 ?_)
        have hcount : stepsLeft t.pc ≤ later.countP isAdvance + 1 := by
          rwa [List.countP_cons_of_pos (show isAdvance (.advance input) = true from rfl)] at hsteps
        have hleft := hnearer.2
        show stepsLeft (t.advance input).pc ≤ _
        omega
    | request => exact .inr (hother rfl rfl)
    | setActive active => exact .inr (hother rfl rfl)
    | stop => exact .inr (hother rfl rfl)
    | pop bufferCapacity => exact .inr (hother rfl rfl)

theorem stepsLeft_le (pc : EncodeAt) : stepsLeft pc ≤ 4 := by
  cases pc <;> simp [stepsLeft]

end Progress

/-- At every point of every run the frames taken are those that were encoded, skipped or gave
no output, the one in progress, and one more if the encoder has failed. Every frame is released
once, after the encode call that was given it and within four steps of the thread. -/
theorem encoder_accounting (width height : UInt32) (ring : AuRing) (events : List EncoderEvent) :
    let start := EncoderThread.start (encoderWorkerCreate width height) ring
    let t := run EncoderThread.step start events
    let calls := callsAlong start events
    t.worker.framesIn = t.worker.framesEncoded + t.worker.skippedIdle + t.worker.skippedMismatch +
        t.worker.skippedBadSize + t.worker.noOutput +
        (if t.pc = .stopped .encoderError then 1 else 0) + inProgress t.pc ∧
      (calls.countP FrameCall.isTake = t.worker.framesIn ∧
        calls.countP FrameCall.isUnref = t.unrefs) ∧
      (∃ done, Released done ∧ calls = done ++ inHand t.pc) ∧
      ∀ frame, frameAt t.pc = some frame → ∀ later : List EncoderEvent,
        4 ≤ later.countP isAdvance → .unref frame ∈ callsAlong t later := by
  intro start t calls
  have h : Accounted t calls := by
    simpa using run_accounted (start_accounted width height ring) events
  refine ⟨?_, ⟨h.takes, h.unrefs⟩, h.released, fun frame hframe later hlater =>
    released_soon hframe ((stepsLeft_le t.pc).trans hlater)⟩
  have hframes := h.frames
  unfold counted at hframes
  cases hpc : t.pc with
  | stopped reason => cases reason <;> simpa [hpc, fatal] using hframes
  | _ => simpa [hpc, fatal] using hframes

end Camstream.Proofs.EncoderAccounting
