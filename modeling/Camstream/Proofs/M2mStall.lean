import Camstream.Proofs.M2mOwnership

namespace Camstream.Proofs.M2mStall
open Lib Media InputLayout M2mOwnership

/-- The driver gives nothing back during a call. -/
structure Silent (a : EncodeAnswers) : Prop where
  reclaim : ∀ k, .done k ∉ a.reclaim
  reclaimAgain : ∀ k, .done k ∉ a.reclaimAgain
  takes : ∀ t ∈ [a.first, a.second], ∀ k buffer, t.dq ≠ .done k buffer

/-- The calls that are left to a silent driver. -/
def patience (e : M2mEncoder) : Nat := e.outFree.length + (m2mMaxConsecutiveErrors - e.errors)

section Calls
variable {e : M2mEncoder} {d : M2mDriver}

theorem reclaimInputs_silent {answers : List DqInput} (h : ∀ k, .done k ∉ answers) :
    (m2mReclaimInputs answers e d).2 = (e, d) := by
  cases answers with
  | nil => rfl
  | cons answer answers =>
    cases answer with
    | again => rfl
    | failed => rfl
    | done k => exact absurd List.mem_cons_self (h k)

theorem reclaim_silent {a : EncodeAnswers} (h : Silent a) :
    (m2mReclaim e d a).1.outFree = e.outFree ∧ e.errors ≤ (m2mReclaim e d a).1.errors := by
  have hfirst := reclaimInputs_silent (e := e) (d := d) h.reclaim
  unfold m2mReclaim
  generalize m2mReclaimInputs a.reclaim e d = r at hfirst ⊢
  obtain ⟨ok, s⟩ := r
  have hs : s = (e, d) := hfirst
  subst hs
  dsimp only
  split
  · rw [reclaimInputs_silent h.reclaimAgain]
    exact ⟨rfl, Nat.le_add_right _ _⟩
  · exact ⟨rfl, Nat.le_add_right _ _⟩

/-- A frame takes a free buffer, or is an error. -/
theorem feed_patience {call : EncodeCall} {a : EncodeAnswers} {q : M2mEncoder × M2mDriver}
    (hq : m2mFeed e d call a = some q) :
    q.1.outFree.length + 1 = e.outFree.length ∧ q.1.errors = e.errors ∨
      q.1.outFree.length = e.outFree.length ∧ q.1.errors = e.errors + 1 := by
  unfold m2mFeed at hq
  split at hq
  · next index rest hfree =>
    obtain ⟨buffer, -, hrest⟩ := Option.bind_eq_some_iff.mp hq
    dsimp only at hrest
    split at hrest
    · cases hrest
      exact .inl ⟨by rw [hfree, List.length_cons], rfl⟩
    · cases hrest
      exact .inr ⟨by rw [hfree], rfl⟩
  · cases hq
    exact .inr ⟨rfl, rfl⟩

theorem take_silent (e : M2mEncoder) (d : M2mDriver) (output : EncodeOutput) {answer : TakeAnswer}
    (h : ∀ k buffer, answer.dq ≠ .done k buffer) :
    ∃ taken, taken ≤ 0 ∧ m2mTakeCapture e d output answer = some (taken, e, d, output) := by
  unfold m2mTakeCapture
  split
  · exact ⟨0, Int.le_refl 0, rfl⟩
  · exact ⟨-1, by decide, rfl⟩
  · next k buffer hdone => exact absurd hdone (h k buffer)

theorem collect_silent (e : M2mEncoder) (d : M2mDriver) (output : EncodeOutput)
    {answers : List TakeAnswer}
    (h : ∀ t ∈ answers, ∀ k buffer, t.dq ≠ .done k buffer) :
    ∃ errors, e.errors ≤ errors ∧
      m2mCollect answers e d output = some ({ e with errors }, d, output) := by
  cases answers with
  | nil => exact ⟨e.errors, Nat.le_refl _, rfl⟩
  | cons answer answers =>
    unfold m2mCollect
    split
    · exact ⟨e.errors, Nat.le_refl _, rfl⟩
    · obtain ⟨taken, hneg, htake⟩ := take_silent e d output (h answer List.mem_cons_self)
      simp only [htake, Option.bind_eq_bind, Option.bind_some]
      split
      · exact ⟨e.errors + 1, Nat.le_succ _, rfl⟩
      · rw [if_pos (.inl (by omega))]
        exact ⟨e.errors, Nat.le_refl _, rfl⟩

/-- With too many errors the device is not touched any more. -/
theorem encode_failed (h : e.errors ≥ m2mMaxConsecutiveErrors) (call : EncodeCall)
    (a : EncodeAnswers) :
    ∃ output, m2mEncode e d call a = some (-1, e, d, output) :=
  ⟨_, by unfold m2mEncode; rw [if_pos h]⟩

theorem encode_silent {call : EncodeCall} {a : EncodeAnswers} (h : Silent a)
    {r : Int × M2mEncoder × M2mDriver × EncodeOutput} (hr : m2mEncode e d call a = some r)
    (hfine : e.errors < m2mMaxConsecutiveErrors) :
    patience r.2.1 < patience e ∨ r.2.1.errors ≥ m2mMaxConsecutiveErrors := by
  unfold m2mEncode at hr
  dsimp only at hr
  rw [if_neg (by omega)] at hr
  obtain ⟨q, hq, hrest⟩ := Option.bind_eq_some_iff.mp hr
  obtain ⟨hfree, herrors⟩ := reclaim_silent (e := e) (d := d) h
  obtain ⟨errors, hle, hcollect⟩ := collect_silent q.1 q.2
    ⟨call.out, 0, false, call.ptsUs⟩ h.takes
  rw [hcollect] at hrest
  simp only [Option.bind_eq_bind, Option.bind_some, Nat.lt_irrefl, gt_iff_lt, if_false,
    Option.some.injEq] at hrest
  subst hrest
  have hfeed := feed_patience hq
  rw [hfree] at hfeed
  unfold patience
  dsimp only
  omega

end Calls

section Runs
variable {backend : M2mBackend} {outs caps : Nat} {start : M2mEncoder × M2mDriver}

theorem run_failed (h : start.1.errors ≥ m2mMaxConsecutiveErrors)
    (calls : List (EncodeCall × EncodeAnswers)) : calls.foldlM encodeStep start = some start := by
  induction calls with
  | nil => rfl
  | cons c calls ih =>
    obtain ⟨output, hcall⟩ := encode_failed (d := start.2) h c.1 c.2
    rw [List.foldlM_cons, encodeStep, hcall]
    exact ih

/-- A silent driver runs out of patience. -/
theorem run_silent (hroom : Roomy backend) (calls : List (EncodeCall × EncodeAnswers))
    (hsized : ∀ c ∈ calls, Fits backend c.1) (hsilent : ∀ c ∈ calls, Silent c.2)
    (h : Owned backend outs caps start.1 start.2) (hlong : patience start.1 ≤ calls.length) :
    ∃ s, calls.foldlM encodeStep start = some s ∧ s.1.errors ≥ m2mMaxConsecutiveErrors := by
  induction calls generalizing start with
  | nil =>
    refine ⟨start, rfl, ?_⟩
    unfold patience at hlong
    rw [List.length_nil] at hlong
    omega
  | cons c calls ih =>
    by_cases hfine : start.1.errors < m2mMaxConsecutiveErrors
    · obtain ⟨r, hr, howned⟩ := h.encode hroom (hsized c List.mem_cons_self) c.2
      have hstep : encodeStep start c = some (r.2.1, r.2.2.1) := by rw [encodeStep, hr]; rfl
      cases encode_silent (hsilent c List.mem_cons_self) hr hfine with
      | inl hless =>
        rw [List.length_cons] at hlong
        obtain ⟨s, hs, herrors⟩ := @ih (r.2.1, r.2.2.1)
          (fun c' hc' => hsized c' (List.mem_cons_of_mem _ hc'))
          (fun c' hc' => hsilent c' (List.mem_cons_of_mem _ hc')) howned
          (show patience r.2.1 ≤ calls.length by omega)
        refine ⟨s, ?_, herrors⟩
        rw [List.foldlM_cons, hstep]
        exact hs
      | inr hdead =>
        refine ⟨(r.2.1, r.2.2.1), ?_, hdead⟩
        rw [List.foldlM_cons, hstep]
        exact run_failed hdead calls
    · have hdead : start.1.errors ≥ m2mMaxConsecutiveErrors := by omega
      exact ⟨start, run_failed hdead _, hdead⟩

/-- From any state that a run has reached, an encoder that gives nothing back any more is
reported after one call for each input buffer and thirty errors: every later call returns -1
and leaves the device alone, whatever it answers then. -/
theorem m2m_stall_reported {outBufs capBufs : List Bytes} {haveForceKey : Bool}
    (hroom : Roomy backend) (hsmall : ∀ b ∈ outBufs, b.length < 2 ^ 32)
    (hopen : m2mOpen backend haveForceKey outBufs capBufs = some start)
    (calls silent : List (EncodeCall × EncodeAnswers))
    (hsized : ∀ c ∈ calls ++ silent, Fits backend c.1) (hsilent : ∀ c ∈ silent, Silent c.2)
    (hlong : min m2mOutputBuffers outBufs.length + m2mMaxConsecutiveErrors ≤ silent.length) :
    ∃ s, (calls ++ silent).foldlM encodeStep start = some s ∧
      ∀ call answers, ∃ output, m2mEncode s.1 s.2 call answers = some (-1, s.1, s.2, output) := by
  obtain ⟨s, hs, h⟩ := run_owned hroom calls
    (fun c hc => hsized c (List.mem_append_left _ hc)) (open_owned hsmall hopen)
  have hlen := h.inputs.length
  rw [List.length_range] at hlen
  obtain ⟨s', hs', herrors⟩ := run_silent hroom silent
    (fun c hc => hsized c (List.mem_append_right _ hc)) hsilent h (by unfold patience; omega)
  refine ⟨s', ?_, fun call answers => encode_failed herrors call answers⟩
  rw [List.foldlM_append, hs]
  exact hs'

theorem m2m_stall_reported_one_buffer :
    ∃ start, m2mOpen ⟨4, 4, v4l2PixFmtNv12, 8, 5, 64⟩ true [List.replicate 64 0]
        [List.replicate 16 0] = some start ∧
      ∃ s, ([] ++ List.replicate 31 (
          (⟨List.replicate 16 1, [2, 3, 4, 5], [6, 7, 8, 9], 1000, true, List.replicate 8 0⟩,
            ⟨[], true, [.failed], true, true, ⟨true, .again, true⟩, ⟨false, .again, true⟩⟩) :
          EncodeCall × EncodeAnswers)).foldlM encodeStep start = some s ∧
        ∀ call answers, ∃ output,
          m2mEncode s.1 s.2 call answers = some (-1, s.1, s.2, output) :=
  ⟨_, rfl, @m2m_stall_reported _ _ [List.replicate 64 0] [List.replicate 16 0] true roomy_padded
    (by simp) rfl [] _
    (fun c hc => by rw [List.eq_of_mem_replicate hc]; exact ⟨rfl, rfl, rfl⟩)
    (fun c hc => by
      rw [List.eq_of_mem_replicate hc]
      exact ⟨by simp, by simp, by simp⟩)
    (by simp [m2mOutputBuffers, m2mMaxConsecutiveErrors])⟩

end Runs

end Camstream.Proofs.M2mStall
