import Camstream.Lib.Runs
import Camstream.Media.V4l2Source
import Camstream.Proofs.CaptureStream

namespace Camstream.Proofs.V4l2Buffers
open Lib Media CaptureStream

section Mapping
variable {queryBuf : Nat → MapAnswer}

def Maps (queryBuf : Nat → MapAnswer) (i : Nat) : Prop := ∃ memory, queryBuf i = .mapped memory

/-- Behind `done` the loop stores outside of the array iff it gets to the end of the array and
the next buffer is there. -/
theorem v4l2MapBuffers_none (count : Nat) (done : List Bytes)
    (hroom : done.length ≤ v4l2BufferCount) :
    v4l2MapBuffers queryBuf count done = none ↔
      v4l2BufferCount < done.length + count ∧
        (∀ i, done.length ≤ i → i < v4l2BufferCount → Maps queryBuf i) ∧
        queryBuf v4l2BufferCount ≠ .failed := by
  induction count generalizing done with
  | zero =>
    simp only [v4l2MapBuffers, Nat.add_zero, reduceCtorEq, false_iff]
    intro h
    omega
  | succ count ih =>
    by_cases hfull : done.length = v4l2BufferCount
    · have hleft : ∀ i, done.length ≤ i → i < v4l2BufferCount → Maps queryBuf i := by
        intro i hge hlt
        omega
      cases hanswer : queryBuf done.length with
      | failed => simp [v4l2MapBuffers, hanswer, ← hfull]
      | notMapped | mapped memory =>
        rw [hfull] at hanswer hleft
        simp [v4l2MapBuffers, hanswer, hfull]
        exact hleft
    · have hlt : done.length < v4l2BufferCount := by omega
      cases hanswer : queryBuf done.length with
      | failed | notMapped =>
        simp only [v4l2MapBuffers, hanswer, hlt, ↓reduceIte, reduceCtorEq, false_iff]
        intro h
        obtain ⟨memory, hmemory⟩ := h.2.1 done.length le_rfl hlt
        rw [hanswer] at hmemory
        cases hmemory
      | mapped memory =>
        simp only [v4l2MapBuffers, hanswer, if_pos hlt]
        rw [ih (done ++ [memory]) (by simpa using hlt)]
        simp only [List.length_append, List.length_singleton]
        constructor
        · rintro ⟨hcount, hmaps, hnext⟩
          refine ⟨by omega, fun i hge hi => ?_, hnext⟩
          by_cases hi' : i = done.length
          · exact ⟨memory, hi' ▸ hanswer⟩
          · exact hmaps i (by omega) hi
        · rintro ⟨hcount, hmaps, hnext⟩
          exact ⟨by omega, fun i hge hi => hmaps i (by omega) hi, hnext⟩

/-- A source is set up inside of its array of buffers, if the driver grants no more of them
than were asked for. With more the array is left as soon as they can be mapped. -/
theorem v4l2_source_create_leaves_array (device : V4l2Device) (fps : UInt32) :
    v4l2SourceCreate device fps = none ↔
      fps ≠ 0 ∧ device.captures = true ∧ (v4l2SetFormat device).isSome = true ∧
        ∃ count, device.reqBufs = some count ∧ v4l2BufferCount < count ∧
          (∀ i < v4l2BufferCount, Maps device.queryBuf i) ∧
          device.queryBuf v4l2BufferCount ≠ .failed := by
  unfold v4l2SourceCreate
  by_cases hbegin : fps = 0 ∨ (!device.captures) = true
  · rw [if_pos hbegin]
    simp only [reduceCtorEq, false_iff]
    rintro ⟨hfps, hcaptures, -⟩
    simp [hfps, hcaptures] at hbegin
  · rw [if_neg hbegin]
    simp only [not_or, Bool.not_eq_true', Bool.not_eq_false] at hbegin
    cases hformat : v4l2SetFormat device with
    | none => simp
    | some pix =>
      cases hcount : device.reqBufs with
      | none => simp
      | some count =>
        by_cases hfew : count < 2
        · simp only [if_pos hfew, reduceCtorEq, false_iff]
          rintro ⟨-, -, -, count', heq, hmany, -⟩
          cases heq
          unfold v4l2BufferCount at hmany
          omega
        · simp only [if_neg hfew, Option.map_eq_none_iff, Option.isSome_some, true_and]
          rw [v4l2MapBuffers_none count [] (Nat.zero_le _)]
          simp only [List.length_nil, Nat.zero_add, Nat.zero_le, true_implies]
          constructor
          · exact fun h => ⟨hbegin.1, hbegin.2, count, rfl, h⟩
          · rintro ⟨-, -, count', heq, h⟩
            cases heq
            exact h

end Mapping

/-- The driver tells no more bytes than it has written, and writes into the buffer only. -/
def BufferFits (memory : Bytes) (buffer : FilledBuffer) : Prop :=
  buffer.bytesused.toNat ≤ buffer.contents.length ∧ buffer.contents.length ≤ memory.length

/-- The buffer that comes back in a turn fits into its own memory. -/
def EventFits (s : V4l2Thread) : V4l2Event → Prop
  | .turn ⟨.done k buffer, _, _⟩ =>
    ∀ index ∈ s.driver.held[k]?, BufferFits (s.impl.buffers.getD index []) buffer
  | _ => True

instance (s : V4l2Thread) : DecidablePred (EventFits s) := fun e =>
  match e with
  | .turn ⟨.done k _, _, _⟩ => inferInstanceAs (Decidable (∀ index ∈ s.driver.held[k]?, _ ∧ _))
  | .turn ⟨.interrupted, _, _⟩ | .turn ⟨.pollFailed, _, _⟩ | .turn ⟨.timeout, _, _⟩
  | .turn ⟨.again, _, _⟩ | .turn ⟨.dqFailed, _, _⟩ | .stop => isTrue trivial

/-- So does every buffer of a run. -/
def RunFits : V4l2Thread → List V4l2Event → Prop
  | _, [] => True
  | s, e :: events => EventFits s e ∧ ∀ s' ∈ s.step e, RunFits s' events

instance decidableRunFits : (s : V4l2Thread) → (events : List V4l2Event) →
    Decidable (RunFits s events)
  | _, [] => isTrue trivial
  | s, e :: events =>
    have (s' : V4l2Thread) := decidableRunFits s' events
    inferInstanceAs (Decidable (EventFits s e ∧ ∀ s' ∈ s.step e, RunFits s' events))

def writtenFrame (buffer : FilledBuffer) : Bytes :=
  buffer.contents.take buffer.bytesused.toNat

/-- Every buffer is with the driver or lost to it, and what was published are the frames of
the usable buffers that it gave back. -/
structure Capturing (impl : V4l2Source) (s : V4l2Thread) : Prop where
  same : s.impl.source = impl.source
  lengths : s.impl.buffers.map List.length = impl.buffers.map List.length
  owned : (s.driver.held ++ s.driver.lost).Perm (List.range impl.buffers.length)
  frames : s.worker.published.map Publish.data =
    (s.dequeued.filter fun b => b.usable impl.source.frameSize).map writtenFrame
  sequence : s.worker.sequence = UInt64.ofNat s.worker.published.length
  numbered : Numbered impl.source s.worker.published
  told : ∀ b ∈ s.dequeued, b.bytesused.toNat ≤ b.contents.length

section Steps
variable {impl : V4l2Source} {s : V4l2Thread}

theorem start_capturing (impl : V4l2Source) : Capturing impl (.start impl) where
  same := rfl
  lengths := rfl
  owned := by simp [V4l2Thread.start]
  frames := rfl
  sequence := rfl
  numbered := numbered_nil impl.source
  told := by simp [V4l2Thread.start]

/-- A buffer that is taken from the driver is given back or lost. -/
theorem requeue_owned {driver : V4l2Driver} {all : List Nat} {k index : Nat}
    (h : (driver.held ++ driver.lost).Perm all) (hk : driver.held[k]? = some index) (ok : Bool) :
    let driver' := V4l2Driver.requeue { driver with held := driver.held.eraseIdx k } index ok
    (driver'.held ++ driver'.lost).Perm all := by
  obtain ⟨hlt, rfl⟩ := List.getElem?_eq_some_iff.mp hk
  have htaken : (driver.held[k] :: driver.held.eraseIdx k).Perm driver.held :=
    List.getElem_cons_eraseIdx_perm hlt
  refine List.Perm.trans ?_ h
  unfold V4l2Driver.requeue
  cases ok with
  | true =>
    apply List.Perm.append_right
    exact (List.perm_append_singleton _ _).trans htaken
  | false =>
    refine List.Perm.trans ?_ (htaken.append_right _)
    simp only [Bool.false_eq_true, ↓reduceIte, List.cons_append]
    rw [← List.append_assoc]
    exact List.perm_append_singleton _ _

/-- Nothing is published. -/
theorem Capturing.worker (h : Capturing impl s) {worker : SourceWorker}
    (hpublished : worker.published = s.worker.published)
    (hsequence : worker.sequence = s.worker.sequence) : Capturing impl { s with worker } where
  same := h.same
  lengths := h.lengths
  owned := h.owned
  frames := by
    rw [hpublished]
    exact h.frames
  sequence := by
    rw [hpublished, hsequence]
    exact h.sequence
  numbered := by
    rw [hpublished]
    exact h.numbered
  told := h.told

/-- What the turn does to the driver and the memory, without the worker. -/
structure Dequeued (impl : V4l2Source) (s s' : V4l2Thread) (buffer : FilledBuffer) : Prop where
  worker : s'.worker = s.worker
  same : s'.impl.source = impl.source
  lengths : s'.impl.buffers.map List.length = impl.buffers.map List.length
  owned : (s'.driver.held ++ s'.driver.lost).Perm (List.range impl.buffers.length)
  dequeued : s'.dequeued = s.dequeued ++ [buffer]
  told : ∀ b ∈ s'.dequeued, b.bytesused.toNat ≤ b.contents.length

/-- A buffer that cannot be used. -/
theorem Capturing.skip (h : Capturing impl s) {s' : V4l2Thread} {buffer : FilledBuffer}
    (hstep : Dequeued impl s s' buffer) (huse : buffer.usable impl.source.frameSize = false) :
    Capturing impl { s' with worker := s.worker.handle s'.impl.source .nothing } where
  same := hstep.same
  lengths := hstep.lengths
  owned := hstep.owned
  frames := by
    simp only [hstep.dequeued, List.filter_append, List.filter_singleton, huse]
    exact h.frames.trans (by simp)
  sequence := h.sequence
  numbered := h.numbered
  told := hstep.told

theorem Capturing.publish (h : Capturing impl s) {s' : V4l2Thread} {buffer : FilledBuffer}
    (hstep : Dequeued impl s s' buffer) (huse : buffer.usable impl.source.frameSize = true)
    (nowUs : UInt64) (index : UInt32) :
    Capturing impl { s' with
      worker := s.worker.handle s'.impl.source (.frame (writtenFrame buffer) nowUs index) } where
  same := hstep.same
  lengths := hstep.lengths
  owned := hstep.owned
  frames := by
    simp only [SourceWorker.handle, SourceWorker.publish, hstep.dequeued, List.filter_append,
      List.filter_singleton, huse, List.map_append, h.frames]
    rfl
  sequence := by
    simp only [SourceWorker.handle, SourceWorker.publish, h.sequence, List.length_append,
      List.length_singleton, UInt64.ofNat_add]
    rfl
  numbered := by
    rw [hstep.same]
    exact numbered_publish h.numbered h.sequence _ _ _
  told := hstep.told

theorem write_length (buffer : FilledBuffer) (memory : Bytes) :
    (buffer.write memory).length = memory.length := by
  simp only [FilledBuffer.write, List.length_take, List.length_append, List.length_drop]
  omega

/-- The front of the memory holds what the driver has written. -/
theorem write_front {buffer : FilledBuffer} {memory : Bytes}
    (hused : buffer.bytesused.toNat ≤ buffer.contents.length)
    (hfit : buffer.contents.length ≤ memory.length) :
    loadRange (buffer.write memory) 0 buffer.bytesused.toNat = some (writtenFrame buffer) := by
  rw [loadRange_eq (by rw [write_length]; omega), List.drop_zero, FilledBuffer.write, List.take_take,
    Nat.min_eq_left (by omega), List.take_append_of_le_length hused]
  rfl

/-- The turn up to the worker. -/
theorem Capturing.dequeue (h : Capturing impl s) {k index : Nat}
    (hk : s.driver.held[k]? = some index) {buffer : FilledBuffer}
    (hused : buffer.bytesused.toNat ≤ buffer.contents.length) (requeued : Bool) :
    Dequeued impl s (s.dequeue k index buffer requeued) buffer where
  worker := rfl
  same := h.same
  lengths := by
    simp only [V4l2Thread.dequeue, List.map_set, write_length]
    rw [← h.lengths]
    by_cases hindex : index < s.impl.buffers.length
    · rw [List.getD_eq_getElem?_getD, List.getElem?_eq_getElem hindex, Option.getD_some]
      apply List.ext_getElem
      · simp
      · intro i hi hi'
        by_cases hsame : index = i
        · subst hsame
          simp
        · simp [List.getElem_set_ne hsame]
    · exact List.set_eq_of_length_le (by simpa using hindex)
  owned := requeue_owned h.owned hk requeued
  dequeued := rfl
  told := by
    intro b hb
    cases List.mem_append.mp hb with
    | inl hold => exact h.told b hold
    | inr hnew =>
      rw [List.mem_singleton.mp hnew]
      exact hused

/-- What the driver holds are buffers of the source. -/
theorem Capturing.held (h : Capturing impl s) {k index : Nat}
    (hk : s.driver.held[k]? = some index) : index < s.impl.buffers.length := by
  have hcount : s.impl.buffers.length = impl.buffers.length := by
    simpa using congrArg List.length h.lengths
  rw [hcount, ← List.mem_range]
  exact h.owned.mem_iff.mp (List.mem_append_left _ (List.mem_of_getElem? hk))

theorem Capturing.frame (h : Capturing impl s) {k index : Nat}
    (hk : s.driver.held[k]? = some index) {buffer : FilledBuffer}
    (hfits : BufferFits (s.impl.buffers.getD index []) buffer) (requeued : Bool) :
    loadRange ((s.dequeue k index buffer requeued).impl.buffers.getD index []) 0
      buffer.bytesused.toNat = some (writtenFrame buffer) := by
  have hindex := h.held hk
  have hread := write_front hfits.1 hfits.2
  simpa [V4l2Thread.dequeue, List.getD_eq_getElem?_getD, hindex] using hread

theorem Capturing.capture (h : Capturing impl s) {turn : V4l2Turn}
    (hfits : EventFits s (.turn turn)) :
    ∃ s', s.capture turn = some s' ∧ Capturing impl s' := by
  obtain ⟨answer, requeued, nowUs⟩ := turn
  cases answer with
  | interrupted | timeout | again | pollFailed | dqFailed => exact ⟨_, rfl, h.worker rfl rfl⟩
  | done k buffer =>
    cases hk : s.driver.held[k]? with
    | none =>
      have hcapture : s.capture (.mk (.done k buffer) requeued nowUs) =
          some { s with worker := s.worker.handle s.impl.source .nothing } := by
        simp only [V4l2Thread.capture, hk]
      exact ⟨_, hcapture, h.worker rfl rfl⟩
    | some index =>
      have hindex := h.held hk
      have hfit := hfits index hk
      have hdequeue := h.dequeue hk hfit.1 requeued
      simp only [V4l2Thread.capture, hk, if_neg (show ¬ index ≥ s.impl.buffers.length by omega),
        h.frame hk hfit requeued, h.same]
      cases huse : buffer.usable impl.source.frameSize with
      | false =>
        have hskip := h.skip hdequeue huse
        rw [hdequeue.same] at hskip
        exact ⟨_, rfl, hskip⟩
      | true =>
        have hpublish := h.publish hdequeue huse nowUs (UInt32.ofNat index)
        rw [hdequeue.same] at hpublish
        exact ⟨_, rfl, hpublish⟩

theorem step_capturing (h : Capturing impl s) (e : V4l2Event)
    (hfits : EventFits s e) :
    ∃ s', s.step e = some s' ∧ Capturing impl s' := by
  cases e with
  | stop => exact ⟨_, rfl, h.worker rfl rfl⟩
  | turn turn =>
    simp only [V4l2Thread.step]
    split
    · exact ⟨s, rfl, h⟩
    · split
      · exact ⟨_, rfl, h.worker rfl rfl⟩
      · exact h.capture hfits

theorem run_capturing (h : Capturing impl s) (events : List V4l2Event)
    (hfits : RunFits s events) :
    ∃ s', events.foldlM V4l2Thread.step s = some s' ∧ Capturing impl s' := by
  induction events generalizing s with
  | nil => exact ⟨s, rfl, h⟩
  | cons e events ih =>
    obtain ⟨s', hstep, hs'⟩ := step_capturing h e hfits.1
    obtain ⟨s'', hrun, hs''⟩ := ih hs' (hfits.2 s' hstep)
    refine ⟨s'', ?_, hs''⟩
    rw [List.foldlM_cons, hstep]
    exact hrun

/-- A usable frame has bytes in it, and no more than the hub has room for. -/
theorem frame_size {buffer : FilledBuffer} {frameSize : Nat}
    (htold : buffer.bytesused.toNat ≤ buffer.contents.length)
    (huse : buffer.usable frameSize = true) :
    0 < (writtenFrame buffer).length ∧ (writtenFrame buffer).length ≤ frameSize := by
  simp only [FilledBuffer.usable, Bool.not_eq_true', Bool.or_eq_false_iff, beq_eq_false_iff_ne,
    decide_eq_false_iff_not, not_lt, ne_eq] at huse
  have hpos : buffer.bytesused.toNat ≠ 0 := fun hzero =>
    huse.1.2 (UInt32.toNat_inj.mp hzero)
  rw [writtenFrame, List.length_take]
  omega

theorem Capturing.published_size (h : Capturing impl s) {p : Publish}
    (hp : p ∈ s.worker.published) : 0 < p.data.length ∧ p.data.length ≤ impl.source.frameSize := by
  have hdata : p.data ∈ s.worker.published.map Publish.data := List.mem_map_of_mem hp
  rw [h.frames] at hdata
  obtain ⟨buffer, hbuffer, heq⟩ := List.mem_map.mp hdata
  obtain ⟨hin, huse⟩ := List.mem_filter.mp hbuffer
  rw [← heq]
  exact frame_size (h.told buffer hin) huse

/-- Whatever a driver answers that writes into its buffers only: every buffer is queued or
was refused, once. The frames published are what was written into the usable buffers, in the
order in which they came back, numbered from 0 and never larger than announced. -/
theorem v4l2_publishes_filled (impl : V4l2Source) (events : List V4l2Event)
    (hfits : RunFits (.start impl) events) :
    ∃ s, events.foldlM V4l2Thread.step (.start impl) = some s ∧
      (s.driver.held ++ s.driver.lost).Perm (List.range impl.buffers.length) ∧
      s.worker.published.map Publish.data =
        (s.dequeued.filter fun b => b.usable impl.source.frameSize).map writtenFrame ∧
      Numbered impl.source s.worker.published ∧
      ∀ p ∈ s.worker.published, 0 < p.data.length ∧ p.data.length ≤ impl.source.frameSize := by
  obtain ⟨s, hrun, h⟩ := run_capturing (start_capturing impl) events hfits
  exact ⟨s, hrun, h.owned, h.frames, h.numbered, fun p hp => h.published_size hp⟩

/-- So they fit into a hub that is made for the frame size of the source. -/
theorem v4l2_fits (impl : V4l2Source) (events : List V4l2Event)
    (hfits : RunFits (.start impl) events) :
    ∃ s, events.foldlM V4l2Thread.step (.start impl) = some s ∧
      ∀ steps, PublishesOf s.worker.published steps →
        ∀ e ∈ steps, FrameOwnership.Fits impl.source.frameSize e := by
  obtain ⟨s, hrun, h⟩ := run_capturing (start_capturing impl) events hfits
  exact ⟨s, hrun, fun steps hsteps => hsteps.fits fun p hp => (h.published_size hp).2⟩

/-- Two buffers, of which the second is smaller and comes back empty, and the first comes back
twice. -/
theorem v4l2_publishes_filled_two_buffers :
    ∃ s, [V4l2Event.turn ⟨.done 0 ⟨[1, 2, 3, 4], 4, false⟩, true, 10⟩,
        .turn ⟨.done 0 ⟨[], 0, false⟩, false, 20⟩, .turn ⟨.done 0 ⟨[5, 6, 7, 8], 3, false⟩, true, 30⟩,
        .turn ⟨.timeout, true, 40⟩, .stop].foldlM V4l2Thread.step
        (.start ⟨⟨2, 1, 30, 4, v4l2PixFmtYuyv, 4⟩, [[0, 0, 0, 0], [0, 0]]⟩) = some s ∧
      (s.driver.held ++ s.driver.lost).Perm (List.range 2) ∧
      s.worker.published.map Publish.data =
        (s.dequeued.filter fun b => b.usable 4).map writtenFrame ∧
      Numbered ⟨2, 1, 30, 4, v4l2PixFmtYuyv, 4⟩ s.worker.published ∧
      ∀ p ∈ s.worker.published, 0 < p.data.length ∧ p.data.length ≤ 4 :=
  v4l2_publishes_filled ⟨⟨2, 1, 30, 4, v4l2PixFmtYuyv, 4⟩, [[0, 0, 0, 0], [0, 0]]⟩ _ (by decide)

end Steps

end Camstream.Proofs.V4l2Buffers
