import Camstream.Lib.Runs
import Camstream.Media.EncoderWorker

namespace Camstream.Proofs.KeyframeRequests
open Lib Media

/-- The iteration has taken a request, by its exchange or by the store after an IDR, and
will push an IDR or store the request back. -/
def Carries : EncodeAt → Prop
  | .encoding _ forceIdr | .returned _ forceIdr _ | .unsatisfied forceIdr => forceIdr = true
  | .finished forceIdr _ _ isIdr => forceIdr = true ∨ isIdr = true
  | .pushing _ _ isIdr => isIdr = true
  | .refused => True
  | _ => False

/-- A request is on its way. -/
def Pending (t : EncoderThread) : Prop := t.forceIdr = true ∨ Carries t.pc

/-- A keyframe went into the ring after the first `n` pushes. -/
def Satisfied (n : Nat) (t : EncoderThread) : Prop :=
  ∃ p ∈ t.pushes.drop n, p.result = 0 ∧ p.isIdr = true

/-- What became of a request that was made when there were `n` pushes. -/
def Kept (n : Nat) (t : EncoderThread) : Prop :=
  t.pc = .stopped .encoderError ∨ Satisfied n t ∨ Pending t

theorem checkTaken_keeps (t : EncoderThread) (frame : FrameInfo) (nowMs : UInt64) :
    (t.checkTaken frame nowMs).forceIdr = t.forceIdr ∧
      (t.checkTaken frame nowMs).pushes = t.pushes := by
  unfold EncoderThread.checkTaken
  dsimp only
  split
  · exact ⟨rfl, rfl⟩
  · split <;> exact ⟨rfl, rfl⟩

/-- The local copy of a request outlives the encode call, unless the call failed. -/
theorem handleResult_keeps (t : EncoderThread) (forceIdr : Bool) (result : EncodeResult)
    (nowMs : UInt64) :
    (t.handleResult forceIdr result nowMs).forceIdr = t.forceIdr ∧
      (t.handleResult forceIdr result nowMs).pushes = t.pushes ∧
      ((t.handleResult forceIdr result nowMs).pc = .stopped .encoderError ∨
        (forceIdr = true → Carries (t.handleResult forceIdr result nowMs).pc)) := by
  cases result with
  | fatal => exact ⟨rfl, rfl, .inl rfl⟩
  | nothing => exact ⟨rfl, rfl, .inr id⟩
  | output data auPtsUs =>
    simp only [EncoderThread.handleResult]
    split
    · exact ⟨rfl, rfl, .inr id⟩
    · exact ⟨rfl, rfl, .inr .inl⟩

/-- The pushes so far stay on record. -/
theorem step_pushes (t : EncoderThread) (e : EncoderEvent) :
    ∃ more, (t.step e).pushes = t.pushes ++ more := by
  cases e with
  | advance input =>
    simp only [EncoderThread.step, EncoderThread.advance]
    split
    · split
      · exact ⟨[], by simp⟩
      · split <;> exact ⟨[], by simp⟩
    · exact ⟨[], by simp [(checkTaken_keeps t _ _).2]⟩
    · exact ⟨[], by simp⟩
    · exact ⟨[], by simp⟩
    · exact ⟨[], by simp [(handleResult_keeps t _ _ _).2.1]⟩
    · split <;> exact ⟨[], by simp⟩
    · split
      · exact ⟨[], by simp⟩
      · split <;> exact ⟨[], by simp⟩
    · exact ⟨_, rfl⟩
    · exact ⟨[], by simp⟩
    · exact ⟨[], by simp⟩
  | _ => exact ⟨[], by simp [EncoderThread.step]⟩

theorem Satisfied.step {n : Nat} {t : EncoderThread} (h : Satisfied n t) (e : EncoderEvent) :
    Satisfied n (t.step e) := by
  obtain ⟨p, hp, hresult, hidr⟩ := h
  obtain ⟨more, hmore⟩ := step_pushes t e
  refine ⟨p, ?_, hresult, hidr⟩
  rw [hmore, List.drop_append]
  exact List.mem_append_left _ hp

/-- The push of a keyframe satisfies the request, or is refused. -/
theorem push_kept {n : Nat} {t : EncoderThread} {au : Bytes} {auPtsUs : UInt64} {isIdr : Bool}
    (hn : n ≤ t.pushes.length) (hpc : t.pc = .pushing au auPtsUs isIdr) (h : Pending t)
    (input : EncoderInput) : Kept n (t.advance input) := by
  simp only [EncoderThread.advance, hpc]
  rcases h with hflag | hcarries
  · exact .inr (.inr (.inl hflag))
  · rw [hpc] at hcarries
    by_cases hresult : (auRingPush t.ring au auPtsUs isIdr).1 = 0
    · refine .inr (.inl ⟨⟨au, auPtsUs, isIdr, 0, t.outputs.length⟩, ?_, rfl, hcarries⟩)
      rw [hresult, List.drop_append_of_le_length hn]
      exact List.mem_append_right _ (List.mem_singleton_self _)
    · refine .inr (.inr (.inr ?_))
      rw [if_pos hresult]
      trivial

/-- A step of the worker loses no request: each place that clears the flag has an IDR in
hand, or a copy of the request that goes back. -/
theorem advance_kept {n : Nat} {t : EncoderThread} (hn : n ≤ t.pushes.length) (h : Pending t)
    (input : EncoderInput) : Kept n (t.advance input) := by
  cases hpc : t.pc with
  | waiting =>
    have hflag : t.forceIdr = true := by simpa [Pending, hpc, Carries] using h
    simp only [EncoderThread.advance, hpc]
    refine .inr (.inr (.inl ?_))
    split
    · exact hflag
    · split <;> exact hflag
  | taken frame =>
    have hflag : t.forceIdr = true := by simpa [Pending, hpc, Carries] using h
    simp only [EncoderThread.advance, hpc]
    exact .inr (.inr (.inl ((checkTaken_keeps t frame input.nowMs).1.trans hflag)))
  | ready frame =>
    have hflag : t.forceIdr = true := by simpa [Pending, hpc, Carries] using h
    simp only [EncoderThread.advance, hpc]
    exact .inr (.inr (.inr hflag))
  | encoding frame forceIdr =>
    simp only [EncoderThread.advance, hpc]
    rw [Pending, hpc] at h
    exact .inr (.inr h)
  | returned frame forceIdr result =>
    simp only [EncoderThread.advance, hpc]
    rw [Pending, hpc] at h
    obtain ⟨hsame, -, hpc'⟩ := handleResult_keeps t forceIdr result input.nowMs
    rcases h with hflag | hlocal
    · exact .inr (.inr (.inl (hsame.trans hflag)))
    · exact hpc'.imp id fun hcarries => .inr (.inr (hcarries hlocal))
  | unsatisfied forceIdr =>
    have hflag : (t.forceIdr || forceIdr) = true := by
      simpa [Pending, hpc, Carries, Bool.or_eq_true] using h
    simp only [EncoderThread.advance, hpc]
    refine .inr (.inr (.inl ?_))
    split <;> exact hflag
  | finished forceIdr au auPtsUs isIdr =>
    simp only [EncoderThread.advance, hpc]
    rw [Pending, hpc] at h
    cases isIdr with
    | true => exact .inr (.inr (.inr rfl))
    | false =>
      refine .inr (.inr (.inl ?_))
      cases forceIdr with
      | true => rfl
      | false =>
        rcases h with hflag | hcarries
        · exact hflag
        · simp [Carries] at hcarries
  | pushing au auPtsUs isIdr => exact push_kept hn hpc h input
  | refused =>
    simp only [EncoderThread.advance, hpc]
    exact .inr (.inr (.inl rfl))
  | stopped reason =>
    have hflag : t.forceIdr = true := by simpa [Pending, hpc, Carries] using h
    simp only [EncoderThread.advance, hpc]
    exact .inr (.inr (.inl hflag))

theorem step_kept {n : Nat} (t : EncoderThread) (e : EncoderEvent)
    (h : n ≤ t.pushes.length ∧ Kept n t) :
    n ≤ (t.step e).pushes.length ∧ Kept n (t.step e) := by
  obtain ⟨hn, hkept⟩ := h
  obtain ⟨more, hmore⟩ := step_pushes t e
  refine ⟨by rw [hmore, List.length_append]; omega, ?_⟩
  rcases hkept with hfatal | hsatisfied | hpending
  · refine .inl ?_
    cases e with
    | advance input => simp only [EncoderThread.step, EncoderThread.advance, hfatal]
    | _ => exact hfatal
  · exact .inr (.inl (hsatisfied.step e))
  · cases e with
    | request => exact .inr (.inr (.inl rfl))
    | advance input => exact advance_kept hn hpending input
    | _ => exact .inr (.inr hpending)

/-- Whatever happened before a request and whatever happens after it: as long as the
encoder has not failed, an access unit with a keyframe was pushed since, or the flag is
set, or the worker is in an iteration that carries the request. -/
theorem keyframe_request_kept (t : EncoderThread) (before after : List EncoderEvent) :
    let asked := run EncoderThread.step t before
    let t' := run EncoderThread.step (asked.step .request) after
    t'.pc ≠ .stopped .encoderError →
      Satisfied asked.pushes.length t' ∨ t'.forceIdr = true ∨ Carries t'.pc := by
  intro asked t' hpc
  obtain ⟨-, hkept⟩ : asked.pushes.length ≤ t'.pushes.length ∧ Kept asked.pushes.length t' :=
    run_invariant (P := fun t => asked.pushes.length ≤ t.pushes.length ∧ Kept asked.pushes.length t)
      (s := asked.step .request) ⟨Nat.le_refl _, .inr (.inr (.inl rfl))⟩ step_kept after
  exact hkept.resolve_left hpc

/-- The request comes while the encoder is at work on a frame for which none was made. -/
theorem keyframe_request_kept_during_encode : ∃ ring, auRingCreate 64 2 (some 0) = some ring ∧
    let input : EncoderInput := ⟨some ⟨2, 2, v4l2PixFmtYuyv, 4, 8, 0, 0⟩, 1000, .nothing⟩
    let asked := run EncoderThread.step (.start (encoderWorkerCreate 2 2) ring)
      [.setActive true, .advance input, .advance input, .advance input]
    let t' := run EncoderThread.step (asked.step .request) [.advance input, .advance input]
    asked.pc = .encoding ⟨2, 2, v4l2PixFmtYuyv, 4, 8, 0, 0⟩ false ∧
      (Satisfied asked.pushes.length t' ∨ t'.forceIdr = true ∨ Carries t'.pc) := by
  refine ⟨_, rfl, ?_⟩
  intro input asked t'
  have hpc : t'.pc = .unsatisfied false := by decide
  refine ⟨by decide, ?_⟩
  exact keyframe_request_kept (.start (encoderWorkerCreate 2 2) _)
    [.setActive true, .advance input, .advance input, .advance input]
    [.advance input, .advance input] (by rw [hpc]; simp)

end Camstream.Proofs.KeyframeRequests
