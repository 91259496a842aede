import Camstream.Lib.Runs
import Camstream.Proofs.CaptureStream

namespace Camstream.Proofs.SourceFailures
open Lib Media CaptureStream

def isError : CaptureResult → Bool
  | .error _ => true
  | _ => false

def frameData : CaptureResult → Option Bytes
  | .frame data _ _ => some data
  | _ => none

def frameTime : CaptureResult → Option UInt64
  | .frame _ timestampUs _ => some timestampUs
  | _ => none

/-- The buffer of the source that a frame is in. -/
def frameBuffer : CaptureResult → Option UInt32
  | .frame _ _ bufferIndex => some bufferIndex
  | _ => none

/-- The worker gives up after these results: the source has ended, or nothing but errors
came for too long. -/
def GivesUp (results : List CaptureResult) : Prop :=
  results.getLast? = some (.error true) ∨
    ∃ errors, errors <:+ results ∧ sourceFatalErrors.toNat ≤ errors.length ∧
      ∀ r ∈ errors, isError r = true

/-- The errors at the end of the results. -/
def errorsInARow (results : List CaptureResult) : Nat :=
  (results.reverse.takeWhile isError).length

theorem errorsInARow_concat (results : List CaptureResult) (r : CaptureResult) :
    errorsInARow (results ++ [r]) = if isError r then errorsInARow results + 1 else 0 := by
  simp only [errorsInARow, List.reverse_append, List.reverse_singleton, List.singleton_append,
    List.takeWhile_cons]
  split <;> simp

/-- Errors at the end are at most those in a row. -/
theorem suffix_errors {errors results : List CaptureResult} (h : errors <:+ results)
    (herrors : ∀ r ∈ errors, isError r = true) : errors.length ≤ errorsInARow results := by
  obtain ⟨before, rfl⟩ := h
  unfold errorsInARow
  rw [List.reverse_append, List.takeWhile_append_of_pos (fun r hr => herrors r (List.mem_reverse.mp hr)),
    List.length_append, List.length_reverse]
  exact Nat.le_add_right _ _

theorem givesUp_iff (results : List CaptureResult) :
    GivesUp results ↔ results.getLast? = some (.error true) ∨
      sourceFatalErrors.toNat ≤ errorsInARow results := by
  refine or_congr_right ⟨?_, ?_⟩
  · rintro ⟨errors, hsuffix, hlong, herrors⟩
    exact hlong.trans (suffix_errors hsuffix herrors)
  · intro hlong
    refine ⟨(results.reverse.takeWhile isError).reverse, ?_, by simpa [errorsInARow] using hlong, ?_⟩
    · rw [← List.reverse_prefix, List.reverse_reverse]
      exact List.takeWhile_prefix isError
    · intro r hr
      exact List.all_eq_true.mp List.all_takeWhile r (List.mem_reverse.mp hr)

/-- The results the thread has handled, and those that came after it had left. -/
structure Served (source : VideoSource) (served late : List CaptureResult) (w : SourceWorker) :
    Prop where
  data : w.published.map Publish.data = served.filterMap frameData
  times : (w.published.map fun p => p.info.timestampUs) = served.filterMap frameTime
  released : w.released = served.filterMap frameBuffer
  sequence : w.sequence = UInt64.ofNat w.published.length
  captured : w.captured = UInt64.ofNat w.published.length
  numbered : Numbered source w.published
  errors : w.errors = UInt64.ofNat (served.countP isError)
  row : w.consecutiveErrors.toNat = errorsInARow served
  failed : w.failed = true ↔ GivesUp served
  stopped : w.failed = true → w.stopped = true
  running : w.running = true → w.stopped = w.failed
  late : late ≠ [] → w.stopped = true
  earlier : ∀ before, before <+: served → before ≠ served → ¬ GivesUp before

section Steps
variable {source : VideoSource} {served late : List CaptureResult} {w : SourceWorker}

theorem served_create (source : VideoSource) : Served source [] [] sourceWorkerCreate where
  data := rfl
  times := rfl
  released := rfl
  sequence := rfl
  captured := rfl
  numbered := numbered_nil source
  errors := rfl
  row := rfl
  failed := by simp [givesUp_iff, sourceWorkerCreate, errorsInARow, sourceFatalErrors]
  stopped := fun h => by cases h
  running := fun _ => rfl
  late := fun h => absurd rfl h
  earlier := fun before hbefore hne => absurd (List.prefix_nil.mp hbefore) hne

/-- A prefix of one result more is the whole or a prefix of the others. -/
theorem prefix_concat {before : List CaptureResult} {r : CaptureResult}
    (h : before <+: served ++ [r]) (hne : before ≠ served ++ [r]) : before <+: served := by
  cases List.prefix_concat_iff.mp h with
  | inl heq => exact absurd heq hne
  | inr hbefore => exact hbefore

theorem Served.earlier_concat (h : Served source served late w) (hfine : w.failed = false)
    (r : CaptureResult) (before : List CaptureResult) (hbefore : before <+: served ++ [r])
    (hne : before ≠ served ++ [r]) : ¬ GivesUp before := by
  have hinside := prefix_concat hbefore hne
  by_cases hlast : before = served
  · rw [hlast, ← h.failed, hfine]
    decide
  · exact h.earlier before hinside hlast

theorem Served.publish (h : Served source served [] w)
    (hfine : w.failed = false) (data : Bytes) (timestampUs : UInt64) (bufferIndex : UInt32) :
    Served source (served ++ [.frame data timestampUs bufferIndex]) []
      (w.publish source data timestampUs bufferIndex) where
  data := by
    simp only [SourceWorker.publish, List.map_append, h.data, List.filterMap_append]
    rfl
  times := by
    simp only [SourceWorker.publish, List.map_append, h.times, List.filterMap_append]
    rfl
  released := by
    simp only [SourceWorker.publish, h.released, List.filterMap_append]
    rfl
  sequence := by
    simp only [SourceWorker.publish, h.sequence, List.length_append, List.length_singleton,
      UInt64.ofNat_add]
    rfl
  captured := by
    simp only [SourceWorker.publish, h.captured, List.length_append, List.length_singleton,
      UInt64.ofNat_add]
    rfl
  numbered := numbered_publish h.numbered h.sequence data timestampUs bufferIndex
  errors := by simp [SourceWorker.publish, h.errors, isError]
  row := by
    rw [errorsInARow_concat]
    rfl
  failed := by
    have hf : (w.publish source data timestampUs bufferIndex).failed = false := hfine
    simp [hf, givesUp_iff, errorsInARow_concat, isError, sourceFatalErrors]
  stopped := h.stopped
  running := h.running
  late := fun hl => absurd rfl hl
  earlier := h.earlier_concat hfine _

theorem Served.nothing (h : Served source served [] w) (hfine : w.failed = false) :
    Served source (served ++ [.nothing]) [] { w with consecutiveErrors := 0 } where
  data := by simp [h.data, frameData]
  times := by simp [h.times, frameTime]
  released := by simp [h.released, frameBuffer]
  sequence := h.sequence
  captured := h.captured
  numbered := h.numbered
  errors := by simp [h.errors, isError]
  row := by
    rw [errorsInARow_concat]
    rfl
  failed := by simp [hfine, givesUp_iff, errorsInARow_concat, isError, sourceFatalErrors]
  stopped := h.stopped
  running := h.running
  late := fun hl => absurd rfl hl
  earlier := h.earlier_concat hfine _

theorem Served.error (h : Served source served [] w) (hrun : w.running = true)
    (hfine : w.failed = false) (ended : Bool) :
    Served source (served ++ [.error ended]) [] (w.handle source (.error ended)) := by
  have hshort : errorsInARow served < 100 := by
    by_contra hlong
    have hgive := (givesUp_iff served).mpr (.inr (Nat.le_of_not_lt hlong))
    rw [← h.failed, hfine] at hgive
    cases hgive
  have hrow : (w.consecutiveErrors + 1).toNat = errorsInARow served + 1 := by
    rw [UInt32.toNat_add, h.row]
    exact Nat.mod_eq_of_lt (by have := UInt32.toNat_one; omega)
  have hstop : w.stopped = false := (h.running hrun).trans hfine
  have hfatal : (ended || decide (w.consecutiveErrors + 1 ≥ sourceFatalErrors)) = true ↔
      GivesUp (served ++ [.error ended]) := by
    have hle : w.consecutiveErrors + 1 ≥ sourceFatalErrors ↔ 100 ≤ errorsInARow served + 1 := by
      rw [← hrow]
      exact UInt32.le_iff_toNat_le
    rw [givesUp_iff, errorsInARow_concat, Bool.or_eq_true, decide_eq_true_iff, hle]
    simp [isError, sourceFatalErrors]
  constructor
  · simp [SourceWorker.handle, h.data, frameData]
  · simp [SourceWorker.handle, h.times, frameTime]
  · simp [SourceWorker.handle, h.released, frameBuffer]
  · exact h.sequence
  · exact h.captured
  · exact h.numbered
  · simp only [SourceWorker.handle, h.errors, List.countP_append, UInt64.ofNat_add]
    rfl
  · rw [errorsInARow_concat]
    exact hrow
  · simp only [SourceWorker.handle, hfine, Bool.false_or]
    exact hfatal
  · simp only [SourceWorker.handle, hfine, hstop, imp_self]
  · intro _
    simp only [SourceWorker.handle, hfine, hstop]
  · exact fun hl => absurd rfl hl
  · exact h.earlier_concat hfine _

/-- One turn of the worker's loop: it handles the result, or has left. -/
theorem Served.turn (h : Served source served late w) (r : CaptureResult) :
    (w.running = true ∧ late = [] ∧ Served source (served ++ [r]) [] (w.step source (.turn r))) ∨
      Served source served (late ++ [r]) (w.step source (.turn r)) := by
  by_cases hstop : w.stopped = true
  · refine .inr ?_
    simp only [SourceWorker.step, hstop, if_true]
    exact { h with late := fun _ => hstop }
  · have hlate : late = [] := by
      by_contra hne
      exact hstop (h.late hne)
    have hfine : w.failed = false := by
      by_contra hf
      exact hstop (h.stopped (by simpa using hf))
    subst hlate
    cases hrun : w.running with
    | false =>
      refine .inr ?_
      have hleave : w.step source (.turn r) = { w with stopped := true } := by
        simp [SourceWorker.step, hstop, hrun]
      rw [hleave]
      exact { h with
        late := fun _ => rfl
        stopped := fun _ => rfl
        running := fun hr => absurd (hrun.symm.trans hr) (by simp) }
    | true =>
      refine .inl ⟨rfl, rfl, ?_⟩
      simp only [SourceWorker.step, hstop, hrun, Bool.not_true, Bool.false_eq_true, if_false]
      cases r with
      | frame data timestampUs bufferIndex =>
        exact h.publish hfine data timestampUs bufferIndex
      | nothing => exact h.nothing hfine
      | error ended => exact h.error hrun hfine ended

end Steps

def isTurn : SourceEvent → Bool
  | .turn _ => true
  | .stop => false

def turnResult : SourceEvent → Option CaptureResult
  | .turn r => some r
  | .stop => none

/-- What the worker shows of its work. -/
def record (w : SourceWorker) : List Publish × List UInt32 × UInt64 × UInt64 × Bool :=
  (w.published, w.released, w.captured, w.errors, w.failed)

section Runs
variable (source : VideoSource)

/-- As long as nobody stops it, the worker handles every result, or has given up. -/
theorem run_turns (events : List SourceEvent) (h : ∀ e ∈ events, isTurn e = true) :
    ∃ served late, events.filterMap turnResult = served ++ late ∧
      (run (SourceWorker.step source) sourceWorkerCreate events).running = true ∧
      Served source served late (run (SourceWorker.step source) sourceWorkerCreate events) := by
  induction events using List.reverseRecOn with
  | nil => exact ⟨[], [], rfl, rfl, served_create source⟩
  | append_singleton events e ih =>
    obtain ⟨served, late, hresults, hrun, hserved⟩ := ih fun e he => h e (by simp [he])
    cases e with
    | stop => exact absurd (h .stop (by simp)) (by simp [isTurn])
    | turn r =>
      rw [run_append, run_cons, run_nil, List.filterMap_append, hresults]
      have hrun' : ∀ w : SourceWorker, w.running = true →
          (w.step source (.turn r)).running = true := by
        intro w hw
        simp only [SourceWorker.step]
        split
        · exact hw
        · split
          · exact hw
          · cases r <;> exact hw
      cases hserved.turn r with
      | inl hturn =>
        obtain ⟨-, hlate, hserved'⟩ := hturn
        subst hlate
        exact ⟨served ++ [r], [], by simp [turnResult], hrun' _ hrun, hserved'⟩
      | inr hserved' =>
        exact ⟨served, late ++ [r], by simp [turnResult], hrun' _ hrun, hserved'⟩

/-- A worker that was asked to stop handles nothing any more. -/
theorem run_stopped (events : List SourceEvent) {w : SourceWorker} (h : w.running = false) :
    record (run (SourceWorker.step source) w events) = record w := by
  induction events generalizing w with
  | nil => rfl
  | cons e events ih =>
    rw [run_cons]
    cases e with
    | stop => exact ih rfl
    | turn r =>
      cases hstop : w.stopped with
      | true =>
        have hstep : w.step source (.turn r) = w := by simp [SourceWorker.step, hstop]
        rw [hstep]
        exact ih h
      | false =>
        have hstep : w.step source (.turn r) = { w with stopped := true } := by
          simp [SourceWorker.step, hstop, h]
        rw [hstep]
        exact ih h

theorem run_record (events : List SourceEvent) :
    record (run (SourceWorker.step source) sourceWorkerCreate events) =
      record (run (SourceWorker.step source) sourceWorkerCreate (events.takeWhile isTurn)) := by
  conv => lhs; rw [← List.takeWhile_append_dropWhile (p := isTurn) (l := events)]
  rw [run_append]
  cases hrest : events.dropWhile isTurn with
  | nil => rfl
  | cons e rest =>
    have he : isTurn e = false := by
      have hhead := List.head_dropWhile_not isTurn
        (show events.dropWhile isTurn ≠ [] by simp [hrest])
      simpa [hrest] using hhead
    cases e with
    | turn r => cases he
    | stop =>
      rw [run_cons]
      exact run_stopped source rest rfl

/-- Over every run, the worker handles the results up to the first at which it gives up, or
up to the stop. The frames among them are what it publishes, each under its number and with
its time, and their buffers are what it gives back, once each and in their order; the counters
count them; and the worker has failed exactly if it gave up. -/
theorem source_worker_serves (events : List SourceEvent) :
    ∃ served, served <+: (events.takeWhile isTurn).filterMap turnResult ∧
      (served ≠ (events.takeWhile isTurn).filterMap turnResult → GivesUp served) ∧
      (∀ before, before <+: served → before ≠ served → ¬ GivesUp before) ∧
      let w := run (SourceWorker.step source) sourceWorkerCreate events
      (w.failed = true ↔ GivesUp served) ∧
        w.published.map Publish.data = served.filterMap frameData ∧
        (w.published.map fun p => p.info.timestampUs) = served.filterMap frameTime ∧
        Numbered source w.published ∧ w.released = served.filterMap frameBuffer ∧
        w.captured = UInt64.ofNat w.published.length ∧
        w.errors = UInt64.ofNat (served.countP isError) := by
  have hturns : ∀ e ∈ events.takeWhile isTurn, isTurn e = true := fun e he =>
    List.all_eq_true.mp List.all_takeWhile e he
  obtain ⟨served, late, hresults, hrun, h⟩ := run_turns source _ hturns
  have hrecord := run_record source events
  simp only [record, Prod.mk.injEq] at hrecord
  obtain ⟨hpublished, hreleased, hcaptured, herrors, hfailed⟩ := hrecord
  refine ⟨served, ⟨late, hresults.symm⟩, ?_, h.earlier, ?_⟩
  · intro hne
    have hlate : late ≠ [] := by
      intro hnil
      rw [hnil, List.append_nil] at hresults
      exact hne hresults.symm
    exact h.failed.mp ((h.running hrun).symm.trans (h.late hlate))
  · simp only [hpublished, hreleased, hcaptured, herrors, hfailed]
    exact ⟨h.failed, h.data, h.times, h.numbered, h.released, h.captured, h.errors⟩

end Runs

end Camstream.Proofs.SourceFailures
