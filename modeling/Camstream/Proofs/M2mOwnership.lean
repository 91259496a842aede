import Camstream.Lib.Loans
import Camstream.Media.M2mQueues
import Camstream.Proofs.InputLayout

namespace Camstream.Proofs.M2mOwnership
open Lib Media InputLayout

def picture (q : QueuedInput) : Planes := ⟨q.planeY, q.planeU, q.planeV⟩

def loan (q : QueuedInput) : Nat × Planes := (q.index, picture q)

/-- What the driver finds in an input buffer. -/
def shown (e : M2mEncoder) (i : Nat) : Planes := readInput e.backend (e.outBufs.getD i [])

/-- Every buffer is the encoder's or the driver's, and what the driver holds shows the
picture that was queued in it. -/
structure Owned (backend : M2mBackend) (outs caps : Nat) (e : M2mEncoder) (d : M2mDriver) :
    Prop where
  same : e.backend = backend
  inputs : Loans (List.range outs) (shown e) e.outFree (d.inputs.map loan)
  captures : (d.captures ++ d.lost).Perm (List.range caps)
  outBufs : e.outBufs.length = outs
  capBufs : e.capBufs.length = caps
  sizes : ∀ b ∈ e.outBufs, backend.sizeimage.toNat ≤ b.length ∧ b.length < 2 ^ 32
  few : outs ≤ m2mOutputBuffers

/-- A buffer may be longer than the format needs. -/
theorem fill_longer {backend : M2mBackend} (hroom : Roomy backend) {p : Planes}
    (hsized : Planes.Sized p backend.width.toNat backend.height.toNat) {dst : Bytes}
    (hdst : backend.sizeimage.toNat ≤ dst.length ∧ dst.length < 2 ^ 32) :
    ∃ dst', m2mFillInput backend p.y p.u p.v dst = some dst' ∧ dst'.length = dst.length ∧
      readInput backend dst' = p := by
  have hlen : (UInt32.ofNat dst.length).toNat = dst.length := UInt32.toNat_ofNat_of_lt' hdst.2
  have hroom' : Roomy { backend with sizeimage := UInt32.ofNat dst.length } :=
    ⟨hroom.stride, hroom.rows, hroom.size.trans (hlen.symm ▸ hdst.1)⟩
  obtain ⟨dst', hfill, hlength, -⟩ := fill_written hroom' hsized hlen.symm
  obtain ⟨dst'', hfill', hread⟩ := fill_read hroom' hsized hlen.symm
  have hsame : dst'' = dst' := Option.some.inj (hfill'.symm.trans hfill)
  subst hsame
  exact ⟨dst'', hfill, hlength.trans hlen, hread⟩

section Calls
variable {backend : M2mBackend} {outs caps : Nat} {e : M2mEncoder} {d : M2mDriver}

/-- Steps that touch neither the input buffers nor the queues. -/
theorem Owned.frame (h : Owned backend outs caps e d) {e' : M2mEncoder} {d' : M2mDriver}
    (hbackend : e'.backend = e.backend) (houts : e'.outBufs = e.outBufs ∧ e'.outFree = e.outFree)
    (hcaps : e'.capBufs.length = e.capBufs.length) (hinputs : d'.inputs = d.inputs)
    (hcaptures : (d'.captures ++ d'.lost).Perm (d.captures ++ d.lost)) :
    Owned backend outs caps e' d' := by
  obtain ⟨hbufs, hfree⟩ := houts
  have hshown : shown e' = shown e := by
    unfold shown
    rw [hbackend, hbufs]
  constructor
  · rw [hbackend]; exact h.same
  · rw [hshown, hfree, hinputs]; exact h.inputs
  · exact hcaptures.trans h.captures
  · rw [hbufs]; exact h.outBufs
  · rw [hcaps]; exact h.capBufs
  · rw [hbufs]; exact h.sizes
  · exact h.few

/-- A buffer that comes back finds its place in `out_free`. -/
theorem Owned.reclaimed (h : Owned backend outs caps e d) {k : Nat} {input : QueuedInput}
    (hk : d.inputs[k]? = some input) :
    (input.index < e.outBufs.length ∧ e.outFree.length < m2mOutputBuffers) ∧
      Owned backend outs caps { e with outFree := input.index :: e.outFree }
        { d with inputs := d.inputs.eraseIdx k } := by
  have hloan : (d.inputs.map loan)[k]? = some (loan input) := by simp [hk]
  have hback := h.inputs.back hloan
  refine ⟨⟨?_, ?_⟩, ?_⟩
  · have hmem := h.inputs.mem_lent (List.mem_of_getElem? hloan)
    rw [h.outBufs]
    exact List.mem_range.mp hmem
  · have hlen := hback.length
    have hfew := h.few
    rw [List.length_cons, List.length_range] at hlen
    omega
  · refine ⟨h.same, ?_, h.captures, h.outBufs, h.capBufs, h.sizes, h.few⟩
    rw [List.eraseIdx_map] at hback
    exact hback

theorem Owned.reclaimInputs (h : Owned backend outs caps e d) (answers : List DqInput) :
    Owned backend outs caps (m2mReclaimInputs answers e d).2.1
      (m2mReclaimInputs answers e d).2.2 := by
  induction answers generalizing e d with
  | nil => exact h
  | cons answer answers ih =>
    cases answer with
    | again => exact h
    | failed => exact h
    | done k =>
      unfold m2mReclaimInputs
      split
      · exact h
      · next input hk =>
        obtain ⟨hfits, hback⟩ := h.reclaimed hk
        rw [if_pos hfits]
        exact ih hback

theorem Owned.reclaim (h : Owned backend outs caps e d) (answers : EncodeAnswers) :
    Owned backend outs caps (m2mReclaim e d answers).1 (m2mReclaim e d answers).2 := by
  have hfirst := h.reclaimInputs answers.reclaim
  unfold m2mReclaim
  generalize m2mReclaimInputs answers.reclaim e d = r at hfirst ⊢
  have hcounted : Owned backend outs caps
      { r.2.1 with errors := r.2.1.errors + if r.1 then 0 else 1 } r.2.2 :=
    hfirst.frame rfl ⟨rfl, rfl⟩ rfl rfl (List.Perm.refl _)
  dsimp only
  split
  · exact hcounted.reclaimInputs answers.reclaimAgain
  · exact hcounted

/-- The picture goes into a buffer that the driver does not hold. -/
theorem Owned.queueInput (h : Owned backend outs caps e d) (hroom : Roomy backend) {index : Nat}
    {rest : List Nat} (hfree : e.outFree = index :: rest) {call : EncodeCall}
    (hsized : Planes.Sized ⟨call.planeY, call.planeU, call.planeV⟩ backend.width.toNat
      backend.height.toNat) (answers : EncodeAnswers) :
    ∃ r, m2mQueueInput e d index rest call answers = some r ∧ Owned backend outs caps r.1 r.2 := by
  have hindex : index < e.outBufs.length := by
    rw [h.outBufs]
    exact List.mem_range.mp (h.inputs.mem (hfree ▸ List.mem_cons_self))
  have hold : e.outBufs.getD index [] ∈ e.outBufs := by
    rw [List.getD_eq_getElem?_getD, List.getElem?_eq_getElem hindex]
    exact List.getElem_mem hindex
  obtain ⟨buffer, hfill, hlength, hread⟩ := fill_longer hroom hsized (h.sizes _ hold)
  rw [← h.same] at hfill hread
  have hshown : ∀ i, readInput e.backend ((e.outBufs.set index buffer).getD i []) =
      if i = index then ⟨call.planeY, call.planeU, call.planeV⟩ else shown e i := by
    intro i
    by_cases hi : i = index
    · rw [if_pos hi, hi, ← hread]
      simp [List.getD_eq_getElem?_getD, hindex]
    · rw [if_neg hi, shown]
      simp [List.getD_eq_getElem?_getD, List.getElem?_set_ne (Ne.symm hi)]
  have hsizes : ∀ b ∈ e.outBufs.set index buffer,
      backend.sizeimage.toNat ≤ b.length ∧ b.length < 2 ^ 32 := by
    intro b hb
    cases List.mem_or_eq_of_mem_set hb with
    | inl hother => exact h.sizes b hother
    | inr hnew =>
      rw [hnew, hlength]
      exact h.sizes _ hold
  have hwritten : Loans (List.range outs)
      (fun i => readInput e.backend ((e.outBufs.set index buffer).getD i [])) (index :: rest)
      (d.inputs.map loan) := by
    refine (show Loans _ (shown e) _ _ from hfree ▸ h.inputs).write fun i hi => ?_
    have hne : i ≠ index := fun heq => hi (by rw [heq]; exact List.mem_cons_self)
    rw [hshown, if_neg hne]
  unfold m2mQueueInput
  rw [hfill]
  simp only [Option.bind_eq_bind, Option.bind_some]
  split
  · refine ⟨_, rfl, h.same, ?_, h.captures, by simpa using h.outBufs, h.capBufs, hsizes, h.few⟩
    have hlend := hwritten.lend
    rw [hshown, if_pos rfl] at hlend
    rw [List.map_append]
    exact hlend
  · exact ⟨_, rfl, h.same, hwritten, h.captures, by simpa using h.outBufs, h.capBufs, hsizes, h.few⟩

/-- What is done with the payload of a capture buffer: it has none, it is appended, or there
is no room for it. -/
inductive Appended (payload : Bytes) (e : M2mEncoder) (output : EncodeOutput) :
    M2mEncoder → EncodeOutput → Prop
  | empty (h : payload = []) : Appended payload e output e output
  | whole (output' : EncodeOutput) (hsize : output'.outSize = output.outSize + payload.length)
      (hau : output'.au = output.au ++ payload)
      (hlength : output'.out.length = output.out.length) : Appended payload e output e output'
  | dropped (h : output.out.length < output.outSize + payload.length) :
      Appended payload e output { e with pendingIdr := true } { output with outSize := 0 }

theorem appendPayload_cases (e : M2mEncoder) (index : Nat) (buffer : CaptureBuffer)
    {output : EncodeOutput} (hout : output.outSize ≤ output.out.length) :
    ∃ r, appendPayload e index buffer output = some r ∧
      Appended (buffer.payload (e.capBufs.getD index [])) e output r.1 r.2 := by
  unfold appendPayload
  generalize e.capBufs.getD index [] = memory
  by_cases hmore : buffer.bytesused > buffer.dataOffset
  · have hlt : buffer.dataOffset.toNat < buffer.bytesused.toNat := UInt32.lt_iff_toNat_lt.mp hmore
    simp only [if_pos hmore]
    by_cases hin : buffer.bytesused.toNat ≤ memory.length
    · have hpayload : (memory.drop buffer.dataOffset.toNat).take
          (buffer.bytesused.toNat - buffer.dataOffset.toNat) = buffer.payload memory := by
        rw [CaptureBuffer.payload, if_pos hin, List.drop_take]
      have hlen : (buffer.payload memory).length =
          buffer.bytesused.toNat - buffer.dataOffset.toNat := by
        rw [← hpayload, List.length_take, List.length_drop]
        omega
      rw [if_pos (by omega)]
      split
      · next hroom =>
        have hfront : output.au.length = output.outSize := by
          rw [EncodeOutput.au, List.length_take]
          omega
        obtain ⟨out, hstore, hlength, hprefix⟩ := @storeRange_front output.out
          (output.out.take output.outSize) (buffer.payload memory)
          (List.take_prefix output.outSize output.out)
          (by rw [← EncodeOutput.au, hfront, hlen]; exact hroom)
        rw [← EncodeOutput.au, hfront] at hstore
        rw [loadRange_eq (by omega), hpayload]
        simp only [Option.bind_eq_bind, Option.bind_some, hstore]
        refine ⟨_, rfl, .whole _ (by rw [hlen]) ?_ hlength⟩
        have htake := List.prefix_iff_eq_take.mp hprefix
        rw [List.length_append, ← EncodeOutput.au, hfront, hlen] at htake
        exact htake.symm
      · next hfull => exact ⟨_, rfl, .dropped (by rw [hlen]; omega)⟩
    · rw [if_neg (by omega)]
      exact ⟨_, rfl, .empty (if_neg hin)⟩
  · have hle : buffer.bytesused.toNat ≤ buffer.dataOffset.toNat :=
      Nat.le_of_not_lt fun hlt => hmore (UInt32.lt_iff_toNat_lt.mpr hlt)
    simp only [if_neg hmore]
    rw [if_neg (by simp)]
    refine ⟨_, rfl, .empty ?_⟩
    unfold CaptureBuffer.payload
    split
    · apply List.drop_eq_nil_of_le
      rw [List.length_take]
      omega
    · rfl

theorem Appended.inside {payload : Bytes} {e e' : M2mEncoder} {output output' : EncodeOutput}
    (h : Appended payload e output e' output') (hout : output.outSize ≤ output.out.length) :
    output'.out.length = output.out.length ∧ output'.outSize ≤ output'.out.length := by
  cases h with
  | empty => exact ⟨rfl, hout⟩
  | dropped => exact ⟨rfl, Nat.zero_le _⟩
  | whole _ hsize hau hlength =>
    refine ⟨hlength, ?_⟩
    have hlen := congrArg List.length hau
    simp only [EncodeOutput.au, List.length_append, List.length_take] at hlen
    omega

theorem Owned.appended (h : Owned backend outs caps e d) {payload : Bytes} {e' : M2mEncoder}
    {output output' : EncodeOutput} (happ : Appended payload e output e' output') :
    Owned backend outs caps e' d := by
  cases happ with
  | empty => exact h
  | whole => exact h
  | dropped => exact h.frame rfl ⟨rfl, rfl⟩ rfl rfl (List.Perm.refl _)

/-- One dequeued capture buffer: a buffer of the encoder's, read and given back or lost. -/
structure Taken (backend : M2mBackend) (outs caps : Nat) (e : M2mEncoder) (d : M2mDriver)
    (output : EncodeOutput) (taken : Int) (e' : M2mEncoder) (d' : M2mDriver)
    (output' : EncodeOutput) : Prop where
  owned : Owned backend outs caps e' d'
  errors : e'.errors = e.errors
  free : e'.outFree = e.outFree
  delivered : taken ≤ 0 ∧ d'.delivered = d.delivered ∧ output' = output ∧
      e'.pendingIdr = e.pendingIdr ∨
    taken ≠ 0 ∧ ∃ payload, d'.delivered = d.delivered ++ [payload] ∧
      Appended payload e output { e with pendingIdr := e'.pendingIdr } output'

theorem Owned.take (h : Owned backend outs caps e d) {output : EncodeOutput}
    (hout : output.outSize ≤ output.out.length) (answer : TakeAnswer) :
    ∃ r, m2mTakeCapture e d output answer = some r ∧
      Taken backend outs caps e d output r.1 r.2.1 r.2.2.1 r.2.2.2 := by
  unfold m2mTakeCapture
  split
  · exact ⟨_, rfl, h, rfl, rfl, .inl ⟨Int.le_refl _, rfl, rfl, rfl⟩⟩
  · exact ⟨_, rfl, h, rfl, rfl, .inl ⟨show (-1 : Int) ≤ 0 by decide, rfl, rfl, rfl⟩⟩
  · next k buffer _ =>
    split
    · exact ⟨_, rfl, h, rfl, rfl, .inl ⟨Int.le_refl _, rfl, rfl, rfl⟩⟩
    · next index hk =>
      obtain ⟨hlt, hindex⟩ := List.getElem?_eq_some_iff.mp hk
      have hpick : (index :: d.captures.eraseIdx k).Perm d.captures :=
        hindex ▸ List.getElem_cons_eraseIdx_perm hlt
      have hcap : index < e.capBufs.length := by
        rw [h.capBufs]
        exact List.mem_range.mp (h.captures.mem_iff.mp
          (List.mem_append_left _ (List.mem_of_getElem? hk)))
      rw [if_neg (Nat.not_le_of_lt hcap)]
      obtain ⟨r, hr, happ⟩ := appendPayload_cases
        { e with capBufs := e.capBufs.set index (e.captured index buffer.contents) } index buffer hout
      have hmemory : (e.capBufs.set index (e.captured index buffer.contents)).getD index [] =
          e.captured index buffer.contents := by
        simp [List.getD_eq_getElem?_getD, hcap]
      simp only [hmemory] at happ
      have hwritten : Owned backend outs caps
          { e with capBufs := e.capBufs.set index (e.captured index buffer.contents) } d :=
        h.frame rfl ⟨rfl, rfl⟩ (List.length_set) rfl (List.Perm.refl _)
      have howned := hwritten.appended happ
      have hsame : r.1 = { r.1 with errors := e.errors, outFree := e.outFree } ∧
          Appended (buffer.payload (e.captured index buffer.contents)) e output
            { e with pendingIdr := r.1.pendingIdr } r.2 := by
        obtain ⟨e', output'⟩ := r
        cases happ with
        | empty hnil => exact ⟨rfl, .empty hnil⟩
        | whole _ hsize hau hlength => exact ⟨rfl, .whole _ hsize hau hlength⟩
        | dropped hfull => exact ⟨rfl, .dropped hfull⟩
      simp only [hr, Option.bind_eq_bind, Option.bind_some]
      split
      · refine ⟨_, rfl, ?_, ?_, ?_, .inr ⟨show (1 : Int) ≠ 0 by decide, _, rfl, hsame.2⟩⟩
        · refine howned.frame rfl ⟨rfl, rfl⟩ rfl rfl ?_
          refine List.Perm.trans ?_ (hpick.append_right d.lost)
          rw [List.append_assoc]
          exact List.perm_middle
        · rw [hsame.1]
        · rw [hsame.1]
      · refine ⟨_, rfl, ?_, ?_, ?_, .inr ⟨show (-1 : Int) ≠ 0 by decide, _, rfl, hsame.2⟩⟩
        · refine howned.frame rfl ⟨rfl, rfl⟩ rfl rfl ?_
          refine List.Perm.trans ?_ (hpick.append_right d.lost)
          rw [List.cons_append, ← List.append_assoc]
          exact List.perm_append_singleton _ _
        · rw [hsame.1]
        · rw [hsame.1]

/-- The loop that collects the output returns to its caller. -/
structure Collected (backend : M2mBackend) (outs caps : Nat) (e : M2mEncoder) (d : M2mDriver)
    (output : EncodeOutput) (e' : M2mEncoder) (d' : M2mDriver) (output' : EncodeOutput) :
    Prop where
  owned : Owned backend outs caps e' d'
  free : e'.outFree = e.outFree
  errors : e.errors ≤ e'.errors
  capacity : output'.out.length = output.out.length
  inside : output'.outSize ≤ output'.out.length

theorem Owned.collect (h : Owned backend outs caps e d) {output : EncodeOutput}
    (hout : output.outSize ≤ output.out.length) (answers : List TakeAnswer) :
    ∃ r, m2mCollect answers e d output = some r ∧
      Collected backend outs caps e d output r.1 r.2.1 r.2.2 := by
  induction answers generalizing e d output with
  | nil => exact ⟨_, rfl, h, rfl, Nat.le_refl _, rfl, hout⟩
  | cons answer answers ih =>
    unfold m2mCollect
    split
    · exact ⟨_, rfl, h, rfl, Nat.le_refl _, rfl, hout⟩
    · obtain ⟨⟨taken, e', d', output'⟩, htake, howned, herrors, hfree, hdelivered⟩ :=
        h.take hout answer
      have hinside : output'.out.length = output.out.length ∧
          output'.outSize ≤ output'.out.length := by
        cases hdelivered with
        | inl hnone =>
          obtain ⟨-, -, hsame, -⟩ := hnone
          subst hsame
          exact ⟨rfl, hout⟩
        | inr hsome =>
          obtain ⟨-, payload, -, happ⟩ := hsome
          exact happ.inside hout
      have herrors' : e.errors ≤ e'.errors := Nat.le_of_eq herrors.symm
      simp only [htake, Option.bind_eq_bind, Option.bind_some]
      split
      · exact ⟨_, rfl, howned.frame rfl ⟨rfl, rfl⟩ rfl rfl (List.Perm.refl _), hfree,
          herrors'.trans (Nat.le_succ _), hinside.1, hinside.2⟩
      · split
        · exact ⟨_, rfl, howned, hfree, herrors', hinside.1, hinside.2⟩
        · split
          · exact ⟨_, rfl, howned, hfree, herrors', hinside.1, hinside.2⟩
          · obtain ⟨r, hr, hrest⟩ := ih howned hinside.2
            exact ⟨r, hr, hrest.owned, hrest.free.trans hfree, herrors'.trans hrest.errors,
              hrest.capacity.trans hinside.1, hrest.inside⟩

/-- A call whose planes are those of a picture of the encoder's size. -/
def Fits (backend : M2mBackend) (call : EncodeCall) : Prop :=
  Planes.Sized ⟨call.planeY, call.planeU, call.planeV⟩ backend.width.toNat backend.height.toNat

theorem Owned.feed (h : Owned backend outs caps e d) (hroom : Roomy backend) {call : EncodeCall}
    (hsized : Fits backend call) (answers : EncodeAnswers) :
    ∃ r, m2mFeed e d call answers = some r ∧ Owned backend outs caps r.1 r.2 := by
  unfold m2mFeed
  split
  · next index rest hfree => exact h.queueInput hroom hfree hsized answers
  · exact ⟨_, rfl, h.frame rfl ⟨rfl, rfl⟩ rfl rfl (List.Perm.refl _)⟩

theorem Owned.encode (h : Owned backend outs caps e d) (hroom : Roomy backend) {call : EncodeCall}
    (hsized : Fits backend call) (answers : EncodeAnswers) :
    ∃ r, m2mEncode e d call answers = some r ∧ Owned backend outs caps r.2.1 r.2.2.1 := by
  unfold m2mEncode
  dsimp only
  split
  · exact ⟨_, rfl, h⟩
  · obtain ⟨q, hq, hfed⟩ := (h.reclaim answers).feed hroom hsized answers
    obtain ⟨r, hr, hcollect⟩ := hfed.collect
      (show (⟨call.out, 0, false, call.ptsUs⟩ : EncodeOutput).outSize ≤ call.out.length from
        Nat.zero_le _) [answers.first, answers.second]
    simp only [hq, hr, Option.bind_eq_bind, Option.bind_some]
    split
    · exact ⟨_, rfl, hcollect.owned.frame rfl ⟨rfl, rfl⟩ rfl rfl (List.Perm.refl _)⟩
    · exact ⟨_, rfl, hcollect.owned⟩

end Calls

/-- One call of the encoder thread. -/
def encodeStep (s : M2mEncoder × M2mDriver) (c : EncodeCall × EncodeAnswers) :
    Option (M2mEncoder × M2mDriver) :=
  (m2mEncode s.1 s.2 c.1 c.2).map fun r => (r.2.1, r.2.2.1)

section Runs
variable {backend : M2mBackend} {outBufs capBufs : List Bytes} {haveForceKey : Bool}
  {start : M2mEncoder × M2mDriver}

theorem map_taken {wanted : Nat} {given mapped : List Bytes}
    (h : m2mMapBuffers wanted given = some mapped) : mapped = given.take wanted := by
  unfold m2mMapBuffers at h
  split at h
  · cases h
  · exact (Option.some.inj h).symm

theorem open_owned (hsmall : ∀ b ∈ outBufs, b.length < 2 ^ 32)
    (hopen : m2mOpen backend haveForceKey outBufs capBufs = some start) :
    Owned backend (min m2mOutputBuffers outBufs.length) (min m2mCaptureBuffers capBufs.length)
      start.1 start.2 := by
  obtain ⟨outs, houts, hopen⟩ := Option.bind_eq_some_iff.mp hopen
  obtain ⟨caps, hcaps, hopen⟩ := Option.bind_eq_some_iff.mp hopen
  have htakenOuts := map_taken houts
  have htakenCaps := map_taken hcaps
  have houtLength : outs.length = min m2mOutputBuffers outBufs.length := by
    rw [htakenOuts, List.length_take]
  have hcapLength : caps.length = min m2mCaptureBuffers capBufs.length := by
    rw [htakenCaps, List.length_take]
  rw [← houtLength, ← hcapLength]
  split at hopen
  · cases hopen
  · next hlong =>
    cases hopen
    refine ⟨rfl, Loans.start _ (List.reverse_perm _) List.nodup_range, ?_, rfl, rfl, ?_, ?_⟩
    · exact List.Perm.of_eq (List.append_nil _)
    · intro b hb
      refine ⟨?_, hsmall b (List.mem_of_mem_take (htakenOuts ▸ hb))⟩
      have hany := mt (fun hlt => List.any_eq_true.mpr ⟨b, hb, hlt⟩) hlong
      simpa using hany
    · rw [houtLength]
      exact Nat.min_le_left _ _

theorem run_owned {outs caps : Nat} (hroom : Roomy backend)
    (calls : List (EncodeCall × EncodeAnswers)) (hsized : ∀ c ∈ calls, Fits backend c.1)
    (h : Owned backend outs caps start.1 start.2) :
    ∃ s, calls.foldlM encodeStep start = some s ∧ Owned backend outs caps s.1 s.2 := by
  induction calls generalizing start with
  | nil => exact ⟨start, rfl, h⟩
  | cons c calls ih =>
    obtain ⟨r, hr, howned⟩ := h.encode hroom (hsized c List.mem_cons_self) c.2
    obtain ⟨s, hs, hrest⟩ := @ih (r.2.1, r.2.2.1)
      (fun c' hc' => hsized c' (List.mem_cons_of_mem _ hc')) howned
    refine ⟨s, ?_, hrest⟩
    rw [List.foldlM_cons, encodeStep, hr]
    exact hs

/-- Over every run of the hardware encoder and whatever its driver answers: no access leaves a
buffer; each buffer is free, in the driver's hands or lost, once; and what the driver holds
still shows the picture that was queued in it. -/
theorem m2m_buffers_owned (hroom : Roomy backend) (hsmall : ∀ b ∈ outBufs, b.length < 2 ^ 32)
    (hopen : m2mOpen backend haveForceKey outBufs capBufs = some start)
    (calls : List (EncodeCall × EncodeAnswers)) (hsized : ∀ c ∈ calls, Fits backend c.1) :
    ∃ s, calls.foldlM encodeStep start = some s ∧
      (s.1.outFree ++ s.2.inputs.map QueuedInput.index).Perm
        (List.range (min m2mOutputBuffers outBufs.length)) ∧
      (s.2.captures ++ s.2.lost).Perm (List.range (min m2mCaptureBuffers capBufs.length)) ∧
      ∀ q ∈ s.2.inputs,
        readInput backend (s.1.outBufs.getD q.index []) = ⟨q.planeY, q.planeU, q.planeV⟩ := by
  obtain ⟨s, hs, h⟩ := run_owned hroom calls hsized (open_owned hsmall hopen)
  refine ⟨s, hs, ?_, h.captures, ?_⟩
  · have hperm := h.inputs.perm
    rw [List.map_map] at hperm
    exact hperm
  · intro q hq
    have hkept := h.inputs.kept (loan q) (List.mem_map_of_mem hq)
    rw [shown, h.same] at hkept
    exact hkept

theorem roomy_padded : Roomy ⟨4, 4, v4l2PixFmtNv12, 8, 5, 64⟩ :=
  ⟨Nat.le_of_ble_eq_true rfl, Nat.le_of_ble_eq_true rfl, Nat.le_of_ble_eq_true rfl⟩

/-- Two calls on one input buffer: the second finds it in the driver's hands. -/
theorem m2m_buffers_owned_one_buffer :
    ∃ start, m2mOpen ⟨4, 4, v4l2PixFmtNv12, 8, 5, 64⟩ true [List.replicate 64 0]
        [List.replicate 16 0] = some start ∧
      ∃ s, (List.replicate 2 (
          (⟨List.replicate 16 1, [2, 3, 4, 5], [6, 7, 8, 9], 1000, true, List.replicate 8 0⟩,
            ⟨[], true, [], true, true, ⟨false, .again, true⟩, ⟨false, .again, true⟩⟩) :
          EncodeCall × EncodeAnswers)).foldlM encodeStep start = some s ∧
        (s.1.outFree ++ s.2.inputs.map QueuedInput.index).Perm (List.range 1) ∧
        (s.2.captures ++ s.2.lost).Perm (List.range 1) ∧
        ∀ q ∈ s.2.inputs, readInput ⟨4, 4, v4l2PixFmtNv12, 8, 5, 64⟩
          (s.1.outBufs.getD q.index []) = ⟨q.planeY, q.planeU, q.planeV⟩ :=
  ⟨_, rfl, @m2m_buffers_owned _ [List.replicate 64 0] [List.replicate 16 0] true _ roomy_padded
    (by simp) rfl _
    (fun c hc => by rw [List.eq_of_mem_replicate hc]; exact ⟨rfl, rfl, rfl⟩)⟩

end Runs

end Camstream.Proofs.M2mOwnership
