import Camstream.Proofs.M2mOwnership

namespace Camstream.Proofs.M2mOutput
open Lib Media InputLayout M2mOwnership

/-- What the loop makes of the payloads that it finds: all of them, or nothing and a keyframe
request. A second buffer is only looked at behind headers. -/
structure Merged (before : Bytes) (capacity : Nat) (pending : Bool) (payloads : List Bytes)
    (e' : M2mEncoder) (output' : EncodeOutput) : Prop where
  au : output'.au =
    if (before ++ payloads.flatten).length ≤ capacity then before ++ payloads.flatten else []
  size : output'.outSize = output'.au.length
  dropped : capacity < (before ++ payloads.flatten).length → e'.pendingIdr = true
  kept : (before ++ payloads.flatten).length ≤ capacity → e'.pendingIdr = pending
  headers : ∀ first second rest, payloads = first :: second :: rest →
    (h264AuScan (before ++ first)).hasSlice = false

section Calls
variable {backend : M2mBackend} {outs caps : Nat} {e e' : M2mEncoder} {d : M2mDriver}
  {output output' : EncodeOutput}

theorem au_length (hout : output.outSize ≤ output.out.length) : output.au.length = output.outSize := by
  rw [EncodeOutput.au, List.length_take]
  omega

theorem merged_none (hout : output.outSize ≤ output.out.length) :
    Merged output.au output.out.length e.pendingIdr [] e output := by
  have hlen := au_length hout
  refine ⟨?_, hlen.symm, fun hlong => ?_, fun _ => rfl, by simp⟩
  · rw [List.flatten_nil, List.append_nil, if_pos (by omega)]
  · rw [List.flatten_nil, List.append_nil] at hlong
    omega

/-- A payload is in the output, or the output is given up. -/
theorem appended_law {payload : Bytes} (happ : Appended payload e output e' output')
    (hout : output.outSize ≤ output.out.length) :
    (output.au ++ payload).length ≤ output.out.length ∧ output'.au = output.au ++ payload ∧
        e'.pendingIdr = e.pendingIdr ∨
      output.out.length < (output.au ++ payload).length ∧ output'.outSize = 0 ∧
        e'.pendingIdr = true := by
  have hlen := au_length hout
  have hinside := happ.inside hout
  have hlen' := au_length hinside.2
  cases happ with
  | empty hnil =>
    rw [hnil, List.append_nil]
    exact .inl ⟨by omega, rfl, rfl⟩
  | whole _ hsize hau hlength =>
    refine .inl ⟨?_, hau, rfl⟩
    rw [← hau]
    omega
  | dropped hfull =>
    refine .inr ⟨?_, rfl, rfl⟩
    rw [List.length_append]
    omega

/-- One payload, and no more after it. -/
theorem merged_last {payload : Bytes} (hout : output.outSize ≤ output.out.length)
    (happ : Appended payload e output { e with pendingIdr := e'.pendingIdr } output') :
    Merged output.au output.out.length e.pendingIdr [payload] e' output' := by
  have hflat : output.au ++ [payload].flatten = output.au ++ payload := by simp
  have hsize := (au_length (happ.inside hout).2).symm
  have hheaders : ∀ first second rest, [payload] = first :: second :: rest →
      (h264AuScan (output.au ++ first)).hasSlice = false := by simp
  cases appended_law happ hout with
  | inl hwhole =>
    obtain ⟨hfit, hau, hpending⟩ := hwhole
    refine ⟨?_, hsize, fun hlong => ?_, fun _ => hpending, hheaders⟩
    · rw [hflat, if_pos hfit, hau]
    · rw [hflat] at hlong
      omega
  | inr hdropped =>
    obtain ⟨hlong, hzero, hpending⟩ := hdropped
    refine ⟨?_, hsize, fun _ => hpending, fun hfit => ?_, hheaders⟩
    · rw [hflat, if_neg (by omega), EncodeOutput.au, hzero, List.take_zero]
    · rw [hflat] at hfit
      omega

/-- The loop goes on behind headers. -/
theorem merged_more {payload : Bytes} {payloads : List Bytes} {e₁ : M2mEncoder}
    {output₁ : EncodeOutput} (hout : output.outSize ≤ output.out.length)
    (happ : Appended payload e output { e with pendingIdr := e₁.pendingIdr } output₁)
    (hsome : output₁.outSize ≠ 0) (hslice : (h264AuScan output₁.au).hasSlice = false)
    (hrest : Merged output₁.au output₁.out.length e₁.pendingIdr payloads e' output') :
    Merged output.au output.out.length e.pendingIdr (payload :: payloads) e' output' := by
  cases appended_law happ hout with
  | inr hdropped => exact absurd hdropped.2.1 hsome
  | inl hwhole =>
    obtain ⟨-, hau, hpending⟩ := hwhole
    have hpending : e₁.pendingIdr = e.pendingIdr := hpending
    rw [hau, hpending, (happ.inside hout).1] at hrest
    have hflat : output.au ++ payload ++ payloads.flatten =
        output.au ++ (payload :: payloads).flatten := by
      rw [List.append_assoc, List.flatten_cons]
    refine ⟨hflat ▸ hrest.au, hrest.size, hflat ▸ hrest.dropped, hflat ▸ hrest.kept, ?_⟩
    intro first second rest hlist
    cases hlist
    rw [← hau]
    exact hslice

/-- The loop ends without a payload. -/
theorem collected_none (hout : output.outSize ≤ output.out.length) (answers : List TakeAnswer)
    {d' : M2mDriver} (hd : d'.delivered = d.delivered) (ho : output' = output)
    (he : e'.pendingIdr = e.pendingIdr) :
    ∃ r payloads, some (e', d', output') = some r ∧
      r.2.1.delivered = d.delivered ++ payloads ∧ payloads.length ≤ answers.length ∧
      Merged output.au output.out.length e.pendingIdr payloads r.1 r.2.2 := by
  subst ho
  refine ⟨_, [], rfl, by rw [hd, List.append_nil], Nat.zero_le _, ?_⟩
  rw [← he]
  exact merged_none hout

theorem collect_merged (h : Owned backend outs caps e d) (hout : output.outSize ≤ output.out.length)
    (answers : List TakeAnswer) :
    ∃ r payloads, m2mCollect answers e d output = some r ∧
      r.2.1.delivered = d.delivered ++ payloads ∧ payloads.length ≤ answers.length ∧
      Merged output.au output.out.length e.pendingIdr payloads r.1 r.2.2 := by
  induction answers generalizing e d output with
  | nil => exact collected_none hout [] rfl rfl rfl
  | cons answer answers ih =>
    unfold m2mCollect
    split
    · exact collected_none hout _ rfl rfl rfl
    · obtain ⟨⟨taken, e₁, d₁, output₁⟩, htake, hstep⟩ := h.take hout answer
      simp only [htake, Option.bind_eq_bind, Option.bind_some]
      cases hstep.delivered with
      | inl hidle =>
        obtain ⟨hneg, hd, ho, hp⟩ := hidle
        split
        · exact collected_none hout _ hd ho hp
        · rw [if_pos (.inl (by omega))]
          exact collected_none hout _ hd ho hp
      | inr htook =>
        obtain ⟨-, payload, hd, happ⟩ := htook
        have hlast : ∀ e' : M2mEncoder, e'.pendingIdr = e₁.pendingIdr →
            Merged output.au output.out.length e.pendingIdr [payload] e' output₁ :=
          fun e' hp => merged_last hout (hp ▸ happ)
        split
        · exact ⟨_, [payload], rfl, hd, by simp, hlast _ rfl⟩
        · split
          · exact ⟨_, [payload], rfl, hd, by simp, hlast _ rfl⟩
          · next hsome =>
            split
            · exact ⟨_, [payload], rfl, hd, by simp, hlast _ rfl⟩
            · next hslice =>
              obtain ⟨r, payloads, hr, hdelivered, hcount, hmerged⟩ :=
                ih hstep.owned (happ.inside hout).2
              refine ⟨r, payload :: payloads, hr, ?_, Nat.succ_le_succ hcount, ?_⟩
              · rw [hdelivered, hd, List.append_assoc, List.singleton_append]
              · exact merged_more hout happ (fun hz => hsome (.inr hz)) (by simpa using hslice) hmerged

/-- The payloads that one call hands on. -/
structure Delivered (call : EncodeCall) (payloads : List Bytes) (r : Int × M2mEncoder × M2mDriver ×
    EncodeOutput) : Prop where
  few : payloads.length ≤ 2
  headers : ∀ first second rest, payloads = first :: second :: rest →
    (h264AuScan first).hasSlice = false
  au : r.2.2.2.au =
    if payloads.flatten.length ≤ call.out.length then payloads.flatten else []
  dropped : call.out.length < payloads.flatten.length → r.2.1.pendingIdr = true
  result : r.1 = if r.2.2.2.au ≠ [] then 1
    else if r.2.1.errors ≥ m2mMaxConsecutiveErrors then -1 else 0

theorem reclaimInputs_delivered (answers : List DqInput) (e : M2mEncoder) (d : M2mDriver) :
    (m2mReclaimInputs answers e d).2.2.delivered = d.delivered := by
  induction answers generalizing e d with
  | nil => rfl
  | cons answer answers ih =>
    cases answer with
    | again => rfl
    | failed => rfl
    | done k =>
      unfold m2mReclaimInputs
      split
      · rfl
      · split
        · exact ih _ _
        · exact ih _ _

theorem reclaim_delivered (e : M2mEncoder) (d : M2mDriver) (answers : EncodeAnswers) :
    (m2mReclaim e d answers).2.delivered = d.delivered := by
  unfold m2mReclaim
  dsimp only
  split
  · exact (reclaimInputs_delivered _ _ _).trans (reclaimInputs_delivered _ _ _)
  · exact reclaimInputs_delivered _ _ _

theorem feed_delivered {call : EncodeCall} {answers : EncodeAnswers} {r : M2mEncoder × M2mDriver}
    (h : m2mFeed e d call answers = some r) : r.2.delivered = d.delivered := by
  unfold m2mFeed at h
  split at h
  · obtain ⟨buffer, -, hrest⟩ := Option.bind_eq_some_iff.mp h
    dsimp only at hrest
    split at hrest
    · cases hrest; rfl
    · cases hrest; rfl
  · cases h; rfl

theorem encode_delivered (h : Owned backend outs caps e d) (hroom : Roomy backend)
    {call : EncodeCall} (hsized : Fits backend call) (answers : EncodeAnswers) :
    ∃ r payloads, m2mEncode e d call answers = some r ∧
      r.2.2.1.delivered = d.delivered ++ payloads ∧ Delivered call payloads r := by
  unfold m2mEncode
  dsimp only
  split
  · next herrors =>
    refine ⟨_, [], rfl, (List.append_nil _).symm, Nat.zero_le _, by simp, ?_, by simp, ?_⟩
    · simp [EncodeOutput.au]
    · simp [EncodeOutput.au, herrors]
  · obtain ⟨q, hq, hfed⟩ := (h.reclaim answers).feed hroom hsized answers
    have hout : (⟨call.out, 0, false, call.ptsUs⟩ : EncodeOutput).outSize ≤ call.out.length :=
      Nat.zero_le _
    obtain ⟨r, payloads, hr, hd, hcount, hmerged⟩ :=
      collect_merged hfed hout [answers.first, answers.second]
    have hstart : (⟨call.out, 0, false, call.ptsUs⟩ : EncodeOutput).au = [] := by
      simp [EncodeOutput.au]
    rw [hstart] at hmerged
    have hd' : r.2.1.delivered = d.delivered ++ payloads := by
      rw [hd, feed_delivered hq, reclaim_delivered]
    have hsize : 0 < r.2.2.outSize ↔ r.2.2.au ≠ [] := by
      rw [hmerged.size]
      exact List.length_pos_iff
    simp only [hq, hr, Option.bind_eq_bind, Option.bind_some]
    split
    · next hsome =>
      refine ⟨_, payloads, rfl, hd', hcount, hmerged.headers, hmerged.au, hmerged.dropped, ?_⟩
      exact (if_pos (hsize.mp hsome)).symm
    · next hnone =>
      refine ⟨_, payloads, rfl, hd', hcount, hmerged.headers, hmerged.au, hmerged.dropped, ?_⟩
      exact (if_neg (mt hsize.mpr hnone)).symm

end Calls

section Runs
variable {backend : M2mBackend} {outBufs capBufs : List Bytes} {haveForceKey : Bool}
  {start : M2mEncoder × M2mDriver}

/-- What the driver delivers during a call, after any run, is what the call returns: its
payloads joined, a header in front of a picture at most; or nothing and a request for a
keyframe, exactly if they do not fit. -/
theorem m2m_output_delivered (hroom : Roomy backend) (hsmall : ∀ b ∈ outBufs, b.length < 2 ^ 32)
    (hopen : m2mOpen backend haveForceKey outBufs capBufs = some start)
    (calls : List (EncodeCall × EncodeAnswers)) (hsized : ∀ c ∈ calls, Fits backend c.1)
    (call : EncodeCall) (hcall : Fits backend call) (answers : EncodeAnswers) :
    ∃ s r payloads, calls.foldlM encodeStep start = some s ∧
      m2mEncode s.1 s.2 call answers = some r ∧
      r.2.2.1.delivered = s.2.delivered ++ payloads ∧ Delivered call payloads r := by
  obtain ⟨s, hs, h⟩ := run_owned hroom calls hsized (open_owned hsmall hopen)
  obtain ⟨r, payloads, hr, hd, hlaw⟩ := encode_delivered h hroom hcall answers
  exact ⟨s, r, payloads, hs, hr, hd, hlaw⟩

/-- A picture of three bytes, in front of which the driver has put a byte of its own. -/
theorem m2m_output_delivered_picture :
    ∃ start, m2mOpen ⟨4, 4, v4l2PixFmtNv12, 8, 5, 64⟩ true [List.replicate 64 0]
        [List.replicate 16 0] = some start ∧
      ∃ s r payloads, ([] : List (EncodeCall × EncodeAnswers)).foldlM encodeStep start = some s ∧
        m2mEncode s.1 s.2
          ⟨List.replicate 16 1, [2, 3, 4, 5], [6, 7, 8, 9], 1000, true, List.replicate 8 0⟩
          ⟨[], true, [], true, true,
            ⟨true, .done 0 ⟨[9, 0, 0, 1], 4, 1, 1000, true⟩, true⟩, ⟨false, .again, true⟩⟩ = some r ∧
        r.2.2.1.delivered = s.2.delivered ++ payloads ∧
        Delivered ⟨List.replicate 16 1, [2, 3, 4, 5], [6, 7, 8, 9], 1000, true, List.replicate 8 0⟩
          payloads r :=
  ⟨_, rfl, @m2m_output_delivered _ [List.replicate 64 0] [List.replicate 16 0] true _ roomy_padded
    (by simp) rfl [] (by simp) _ ⟨rfl, rfl, rfl⟩ _⟩

end Runs

end Camstream.Proofs.M2mOutput
