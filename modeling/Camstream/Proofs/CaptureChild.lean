import Camstream.Proofs.CaptureStream

namespace Camstream.Proofs.CaptureChild
open Lib Media CaptureStream

/-- The source keeps the process number exactly as long as the process is its to wait for. -/
structure Tracked (isStdin : Bool) (impl : CsiSource) (child : Child) : Prop where
  pid : impl.childPid = true ↔ child = .running ∨ child = .zombie
  absent : child = .absent ↔ isStdin = true

section Steps
variable {isStdin : Bool} {impl : CsiSource} {child : Child}

theorem Tracked.exits (h : Tracked isStdin impl child) : Tracked isStdin impl child.exits := by
  refine ⟨h.pid.trans ?_, Iff.trans ?_ h.absent⟩ <;> cases child <;> simp [Child.exits]

theorem Tracked.reap (h : Tracked isStdin impl child) :
    Tracked isStdin (reapChild impl child).2.1 (reapChild impl child).2.2 := by
  unfold reapChild
  split
  · next hzombie =>
    refine ⟨by simp, ?_⟩
    rw [← h.absent, hzombie.2]
    simp
  · exact h

theorem Tracked.reapLoop (h : Tracked isStdin impl child) (n exitAt : Nat) :
    Tracked isStdin (reapLoop n exitAt impl child).1 (reapLoop n exitAt impl child).2 := by
  induction n generalizing exitAt impl child with
  | zero => exact h
  | succ n ih =>
    have htry : Tracked isStdin impl (if exitAt = 0 then child.exits else child) := by
      split
      · exact h.exits
      · exact h
    have hreap := htry.reap
    unfold Media.reapLoop
    split
    · exact h
    · split
      · next heq => rw [heq] at hreap; exact hreap
      · next heq =>
        rw [heq] at hreap
        exact ih hreap _

/-- A process number that is not kept belongs to no process of ours. -/
theorem Tracked.gone (h : Tracked isStdin impl child) (hpid : impl.childPid = false) :
    child = if isStdin then .absent else .reaped := by
  have hnot : ¬ (child = .running ∨ child = .zombie) := by
    rw [← h.pid, hpid]
    exact Bool.false_ne_true
  cases isStdin with
  | true => exact h.absent.mpr rfl
  | false =>
    have hthere : child ≠ .absent := fun he => by cases h.absent.mp he
    cases child with
    | reaped => rfl
    | absent => exact absurd rfl hthere
    | running => exact absurd (.inl rfl) hnot
    | zombie => exact absurd (.inr rfl) hnot

theorem Tracked.kill (h : Tracked isStdin impl child) (hpid : impl.childPid = true) (fatal : Bool) :
    child.kill fatal = some (if fatal then child.exits else child) := by
  cases h.pid.mp hpid with
  | inl hrun => rw [hrun]; rfl
  | inr hzombie => rw [hzombie]; rfl

/-- A child that ignored the first signal, and everything else for a second. -/
theorem Tracked.killed (h : Tracked isStdin impl child) (hpid : impl.childPid = true) :
    (reapChild impl child.exits).2.2 = if isStdin then .absent else .reaped := by
  have hzombie : child.exits = .zombie := by
    cases h.pid.mp hpid with
    | inl hrun => rw [hrun]; rfl
    | inr hdead => rw [hdead]; rfl
  have hours : isStdin = false := by
    cases isStdin with
    | false => rfl
    | true =>
      have habsent := h.exits.absent.mpr rfl
      rw [hzombie] at habsent
      cases habsent
  simp [reapChild, hzombie, hpid, hours]

/-- Whatever is left of the child when the source is closed, it is reaped then, and no signal
goes to a process that was reaped before. -/
theorem Tracked.close (h : Tracked isStdin impl child) (exitAt : Nat) :
    ∃ impl' child', csiClose impl child exitAt = some (impl', child') ∧
      impl'.childPid = false ∧ child' = if isStdin then .absent else .reaped := by
  have hstop : Tracked isStdin { impl with running := false } child := ⟨h.pid, h.absent⟩
  unfold csiClose
  generalize { impl with running := false } = impl at hstop
  cases hpid : impl.childPid with
  | false => exact ⟨impl, child, by simp [hpid], hpid, hstop.gone hpid⟩
  | true =>
    rw [if_neg (by simp [hpid])]
    have hreap := hstop.reap
    cases hstop.pid.mp hpid with
    | inr hzombie =>
      have hfirst : reapChild impl child = (true, { impl with childPid := false }, .reaped) :=
        if_pos ⟨hpid, hzombie⟩
      rw [hfirst] at hreap ⊢
      exact ⟨_, _, rfl, rfl, hreap.gone rfl⟩
    | inl hrun =>
      have hfirst : reapChild impl child = (false, impl, child) :=
        if_neg fun hboth => by rw [hrun] at hboth; cases hboth.2
      have hterm : child.kill false = some child := hstop.kill hpid false
      have hloop := hstop.reapLoop 50 exitAt
      rw [hfirst]
      simp only [hterm, Option.bind_eq_bind, Option.bind_some]
      cases hlast : (Media.reapLoop 50 exitAt impl child).1.childPid with
      | false => exact ⟨_, _, by simp, hlast, hloop.gone hlast⟩
      | true =>
        have hfatal := hloop.kill hlast true
        rw [if_neg (by simp), hfatal]
        exact ⟨_, _, rfl, rfl, hloop.killed hlast⟩

end Steps

section Runs
variable {isStdin : Bool} {s s' : CaptureThread}

/-- What the read loop and the worker do with the child. -/
theorem captured_tracked (h : Tracked isStdin s.impl s.child) (result : CaptureResult) :
    Tracked isStdin (s.captured result).impl (s.captured result).child := h

theorem loopHead_tracked (h : Tracked isStdin s.impl s.child) (locals : FrameRead)
    (nowUs : UInt64) :
    Tracked isStdin (s.loopHead locals nowUs).impl (s.loopHead locals nowUs).child := by
  unfold CaptureThread.loopHead
  split
  · exact h
  · split
    · exact h
    · exact ⟨h.pid, h.absent⟩

theorem fail_tracked {impl : CsiSource} {child : Child} (h : Tracked isStdin impl child)
    (s : CaptureThread) (e : CsiError) :
    Tracked isStdin (CaptureThread.fail { s with impl, child } e).impl
      (CaptureThread.fail { s with impl, child } e).child := ⟨h.pid, h.absent⟩

theorem turn_tracked (h : Tracked isStdin s.impl s.child) {locals : FrameRead} {input : TurnInput}
    (hturn : s.turn locals input = some s') : Tracked isStdin s'.impl s'.child := by
  unfold CaptureThread.turn at hturn
  split at hturn
  · cases hturn; exact h
  · cases hturn; exact fail_tracked h s .poll
  · cases hturn
    have hreap := h.reap
    unfold CaptureThread.quiet
    split
    · next heq => rw [heq] at hreap; exact fail_tracked hreap s .childExited
    · split
      · exact fail_tracked h s _
      · exact h
  · split at hturn
    · cases hturn; exact h
    · cases hturn; exact fail_tracked h s .read
    · split at hturn
      · cases hturn; exact h
      · cases hturn; exact fail_tracked (h.reapLoop 5 input.exitAt) s _
      · obtain ⟨buffer, -, hs'⟩ := Option.bind_eq_some_iff.mp hturn
        cases hs'
        refine loopHead_tracked ?_ _ _
        exact ⟨h.pid, h.absent⟩

theorem step_tracked (h : Tracked isStdin s.impl s.child) {e : CaptureEvent}
    (hstep : s.step e = some s') : Tracked isStdin s'.impl s'.child := by
  cases e with
  | produce bytes =>
    cases hstep
    split
    · exact h
    · exact h
  | closePipe => cases hstep; exact h
  | childExits => cases hstep; exact h.exits
  | stop => cases hstep; exact h
  | enter nowMs nowUs =>
    simp only [CaptureThread.step] at hstep
    split at hstep
    · cases hstep
      unfold CaptureThread.enter
      split
      · exact h
      · split
        · exact h
        · split
          · exact captured_tracked h _
          · exact loopHead_tracked h _ _
    · cases hstep; exact h
  | turn input =>
    simp only [CaptureThread.step] at hstep
    split at hstep
    · cases hstep; exact h
    · exact turn_tracked h hstep

theorem run_tracked (events : List CaptureEvent) (h : Tracked isStdin s.impl s.child)
    (hrun : events.foldlM CaptureThread.step s = some s') : Tracked isStdin s'.impl s'.child := by
  induction events generalizing s with
  | nil => cases hrun; exact h
  | cons e events ih =>
    rw [List.foldlM_cons] at hrun
    obtain ⟨s₁, hstep, hrest⟩ := Option.bind_eq_some_iff.mp hrun
    exact ih (step_tracked h hstep) hrest

/-- Closed after any run, whether the child has exited by itself, was seen to exit by the
read loop, goes when asked or has to be killed: it is reaped, and never signalled after
that. -/
theorem child_reaped (source : VideoSource) (isStdin : Bool) (buffer : Bytes)
    (hsize : 0 < source.frameSize) (hbuffer : buffer.length = source.frameSize)
    (events : List CaptureEvent) (exitAt : Nat) :
    ∃ s impl child, events.foldlM CaptureThread.step (.start source isStdin buffer) = some s ∧
      csiClose s.impl s.child exitAt = some (impl, child) ∧ impl.childPid = false ∧
      child = if isStdin then .absent else .reaped := by
  obtain ⟨s, -, hrun, -⟩ := run_streaming hsize events (start_streaming isStdin hbuffer)
  have hstart : Tracked isStdin (CaptureThread.start source isStdin buffer).impl
      (CaptureThread.start source isStdin buffer).child := by
    cases isStdin <;> exact ⟨by simp [CaptureThread.start], by simp [CaptureThread.start]⟩
  obtain ⟨impl, child, hclose, hpid, hchild⟩ := (run_tracked events hstart hrun).close exitAt
  exact ⟨s, impl, child, hrun, hclose, hpid, hchild⟩

/-- A child that dies behind a stream of one frame and a half. -/
theorem child_reaped_short_stream :
    ∃ s impl child, [.produce (List.replicate 576 7), .enter 10 10000,
        .turn ⟨.ready, .bytes 400, 9, 11, 11000⟩, .childExits, .closePipe, .enter 12 12000,
        .turn ⟨.ready, .bytes 400, 9, 13, 13000⟩, .turn ⟨.ready, .bytes 0, 9, 14, 14000⟩].foldlM
        CaptureThread.step
        (.start ⟨16, 16, 30, 16, v4l2PixFmtYuv420, 384⟩ false (List.replicate 384 0)) = some s ∧
      csiClose s.impl s.child 0 = some (impl, child) ∧ impl.childPid = false ∧ child = .reaped :=
  child_reaped ⟨16, 16, 30, 16, v4l2PixFmtYuv420, 384⟩ false (List.replicate 384 0) (by simp)
    List.length_replicate _ 0

end Runs

end Camstream.Proofs.CaptureChild
