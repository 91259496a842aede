import Camstream.Lib.Blocks
import Camstream.Lib.Runs
import Camstream.Media.CsiCapture
import Camstream.Proofs.FrameOwnership

namespace Camstream.Proofs.CaptureStream
open Lib Media

/-- The published frames carry the numbers 0, 1, 2 and so on, and the source's own words. -/
def Numbered (source : VideoSource) (published : List Publish) : Prop :=
  ∀ i (h : i < published.length),
    published[i].info =
      { source.frame (UInt64.ofNat i) published[i].info.timestampUs with
        size := published[i].data.length }

theorem numbered_nil (source : VideoSource) : Numbered source [] := fun i h => absurd h (by simp)

theorem numbered_publish {source : VideoSource} {worker : SourceWorker}
    (h : Numbered source worker.published)
    (hsequence : worker.sequence = UInt64.ofNat worker.published.length) (data : Bytes)
    (timestampUs : UInt64) (bufferIndex : UInt32) :
    Numbered source (worker.publish source data timestampUs bufferIndex).published := by
  intro i hi
  have hlen : i < worker.published.length + 1 := by simpa [SourceWorker.publish] using hi
  by_cases hlast : i < worker.published.length
  · simp only [SourceWorker.publish, List.getElem_append_left hlast]
    exact h i hlast
  · have hi : i = worker.published.length := by omega
    subst hi
    simp [SourceWorker.publish, hsequence, VideoSource.frame]

/-- What a logged end of the stream says about it. -/
def Accurate (source : VideoSource) (consumed : Bytes) (pipe : Pipe) : CsiError → Prop
  | .ended => pipe = ⟨[], true⟩ ∧ lastBlock source.frameSize consumed = []
  | .truncated bytesRead frameSize => pipe = ⟨[], true⟩ ∧ 0 < bytesRead ∧
      bytesRead = (lastBlock source.frameSize consumed).length ∧ frameSize = source.frameSize
  | _ => True

/-- What was read of the stream is published, up to the last block that is not complete. -/
structure Published (source : VideoSource) (consumed : Bytes) (s : CaptureThread) : Prop where
  same : s.impl.source = source
  buffer : s.impl.buffer.length = source.frameSize
  blocks : s.worker.published.map Publish.data = wholeBlocks source.frameSize consumed
  sequence : s.worker.sequence = UInt64.ofNat s.worker.published.length
  numbered : Numbered source s.worker.published

/-- What holds between two steps. While the thread reads, the last block is at the front of
the buffer. -/
structure Streaming (source : VideoSource) (consumed : Bytes) (s : CaptureThread) : Prop
    extends Published source consumed s where
  stream : s.produced = consumed ++ s.pipe.unread
  alive : s.worker.stopped = false → s.impl.running = true ∧ s.errors = []
  loop : s.pc = .loop → s.worker.stopped = false → lastBlock source.frameSize consumed = []
  reading : ∀ locals, s.pc = .reading locals → s.worker.stopped = false ∧
    locals.bytesRead = (lastBlock source.frameSize consumed).length ∧
    lastBlock source.frameSize consumed <+: s.impl.buffer
  errors : ∀ e ∈ s.errors, Accurate source consumed s.pipe e

section Steps
variable {source : VideoSource} {consumed : Bytes} {s : CaptureThread}

theorem Accurate.produce {e : CsiError} (h : Accurate source consumed s.pipe e)
    (hopen : s.pipe.closed = false) (bytes : Bytes) :
    Accurate source consumed { s.pipe with unread := s.pipe.unread ++ bytes } e := by
  cases e with
  | ended | truncated =>
    have hclosed := h.1
    rw [hclosed] at hopen
    cases hopen
  | _ => trivial

theorem Accurate.close {e : CsiError} (h : Accurate source consumed s.pipe e) :
    Accurate source consumed { s.pipe with closed := true } e := by
  cases e with
  | ended | truncated =>
    refine ⟨?_, h.2⟩
    rw [h.1]
  | _ => trivial

theorem start_streaming (isStdin : Bool) {buffer : Bytes}
    (hbuffer : buffer.length = source.frameSize) :
    Streaming source [] (.start source isStdin buffer) where
  same := rfl
  buffer := hbuffer
  blocks := wholeBlocks_nil.symm
  sequence := rfl
  numbered := numbered_nil source
  stream := rfl
  alive := fun _ => ⟨rfl, rfl⟩
  loop := fun _ _ => lastBlock_nil
  reading := fun _ h => by cases h
  errors := fun _ h => by cases h

/-- A failed read stops the worker. -/
theorem Streaming.fail (h : Streaming source consumed s) (hrun : s.errors = []) {impl : CsiSource}
    (himpl : impl.source = s.impl.source ∧ impl.buffer = s.impl.buffer) (child : Child)
    {e : CsiError} (he : Accurate source consumed s.pipe e) :
    Streaming source consumed (CaptureThread.fail { s with impl, child } e) where
  same := himpl.1.trans h.same
  buffer := himpl.2 ▸ h.buffer
  blocks := h.blocks
  sequence := h.sequence
  numbered := h.numbered
  stream := h.stream
  alive := fun hstop => by
    simp [CaptureThread.fail, CaptureThread.captured, SourceWorker.handle] at hstop
  loop := fun _ hstop => by
    simp [CaptureThread.fail, CaptureThread.captured, SourceWorker.handle] at hstop
  reading := fun _ hpc => by cases hpc
  errors := fun e' he' => by
    have he' : e' ∈ s.errors ++ [e] := he'
    rw [hrun, List.nil_append, List.mem_singleton] at he'
    exact he' ▸ he

/-- What is read behind the last block either stays there or completes it. -/
theorem loopHead_streaming (hsize : 0 < source.frameSize) {before bytes : Bytes}
    (h : Published source before s) (hstream : s.produced = before ++ bytes ++ s.pipe.unread)
    (halive : s.impl.running = true ∧ s.errors = []) (hstop : s.worker.stopped = false)
    (hfront : lastBlock source.frameSize before ++ bytes <+: s.impl.buffer) {locals : FrameRead}
    (hread : locals.bytesRead = (lastBlock source.frameSize before ++ bytes).length)
    (hfit : locals.bytesRead ≤ source.frameSize) (nowUs : UInt64) :
    Streaming source (before ++ bytes) (s.loopHead locals nowUs) := by
  have hlength : (lastBlock source.frameSize before ++ bytes).length =
      before.length % source.frameSize + bytes.length := by
    rw [List.length_append, lastBlock_length]
  have hnone : ∀ (pipe : Pipe), ∀ e ∈ s.errors, Accurate source (before ++ bytes) pipe e := by
    intro pipe e he
    rw [halive.2] at he
    cases he
  by_cases hpart : locals.bytesRead < source.frameSize
  · obtain ⟨hwhole, hlast⟩ := @wholeBlocks_append_part _ source.frameSize before bytes
      (by omega)
    rw [CaptureThread.loopHead, if_pos ⟨h.same.symm ▸ hpart, halive.1⟩]
    constructor
    · exact ⟨h.same, h.buffer, h.blocks.trans hwhole.symm, h.sequence, h.numbered⟩
    · exact hstream
    · exact fun _ => halive
    · exact fun hpc => by cases hpc
    · intro locals' hpc
      cases hpc
      exact ⟨hstop, hlast ▸ hread, hlast ▸ hfront⟩
    · exact hnone s.pipe
  · obtain ⟨hwhole, hlast⟩ := @wholeBlocks_append_last _ source.frameSize before bytes
      hsize (by omega)
    have hfull : s.impl.buffer = lastBlock source.frameSize before ++ bytes := by
      refine (hfront.eq_of_length ?_).symm
      rw [h.buffer]
      omega
    have hhead : ¬ (locals.bytesRead < s.impl.source.frameSize ∧ s.impl.running) := fun hlt =>
      hpart (h.same ▸ hlt.1)
    rw [CaptureThread.loopHead, if_neg hhead, if_neg (by simp [halive.1])]
    constructor
    · constructor
      · exact h.same
      · exact h.buffer
      · change (s.worker.published ++ [_]).map Publish.data = _
        rw [List.map_append, h.blocks, hwhole, ← hfull]
        rfl
      · change s.worker.sequence + 1 = UInt64.ofNat (s.worker.published ++ [_]).length
        rw [h.sequence, List.length_append, List.length_singleton, UInt64.ofNat_add]
        rfl
      · change Numbered source (s.worker.publish s.impl.source _ _ _).published
        rw [h.same]
        exact numbered_publish h.numbered h.sequence _ _ _
    · exact hstream
    · exact fun _ => halive
    · exact fun _ _ => hlast
    · exact fun _ hpc => by cases hpc
    · exact hnone s.pipe

theorem reapChild_impl (impl : CsiSource) (child : Child) :
    (reapChild impl child).2.1.source = impl.source ∧
      (reapChild impl child).2.1.buffer = impl.buffer := by
  unfold reapChild
  split <;> exact ⟨rfl, rfl⟩

theorem reapLoop_impl (n exitAt : Nat) (impl : CsiSource) (child : Child) :
    (reapLoop n exitAt impl child).1.source = impl.source ∧
      (reapLoop n exitAt impl child).1.buffer = impl.buffer := by
  induction n generalizing exitAt impl child with
  | zero => exact ⟨rfl, rfl⟩
  | succ n ih =>
    have hreap := reapChild_impl impl (if exitAt = 0 then child.exits else child)
    unfold reapLoop
    split
    · exact ⟨rfl, rfl⟩
    · split
      · next heq => rw [heq] at hreap; exact hreap
      · next heq =>
        rw [heq] at hreap
        obtain ⟨hsource, hbuffer⟩ := ih (exitAt - 1) _ _
        exact ⟨hsource.trans hreap.1, hbuffer.trans hreap.2⟩

theorem Streaming.produce (h : Streaming source consumed s) (bytes : Bytes)
    (hopen : s.pipe.closed = false) :
    Streaming source consumed { s with
      pipe := { s.pipe with unread := s.pipe.unread ++ bytes }, produced := s.produced ++ bytes } where
  toPublished := ⟨h.same, h.buffer, h.blocks, h.sequence, h.numbered⟩
  stream := by simp [h.stream]
  alive := h.alive
  loop := h.loop
  reading := h.reading
  errors := fun e he => (h.errors e he).produce hopen bytes

theorem Streaming.close (h : Streaming source consumed s) :
    Streaming source consumed { s with pipe := { s.pipe with closed := true } } where
  toPublished := ⟨h.same, h.buffer, h.blocks, h.sequence, h.numbered⟩
  stream := h.stream
  alive := h.alive
  loop := h.loop
  reading := h.reading
  errors := fun e he => (h.errors e he).close

/-- The main thread asks the worker to stop, or the worker sees that. -/
theorem Streaming.stop (h : Streaming source consumed s) (running : Bool) {stopped : Bool}
    (hstop : s.worker.stopped = false → stopped = true → s.pc = .loop)
    (hkeep : stopped = false → s.worker.stopped = false) :
    Streaming source consumed { s with worker := { s.worker with running, stopped } } where
  toPublished := ⟨h.same, h.buffer, h.blocks, h.sequence, h.numbered⟩
  stream := h.stream
  alive := fun hs => h.alive (hkeep hs)
  loop := fun hpc hs => h.loop hpc (hkeep hs)
  reading := fun locals hpc => by
    obtain ⟨hrun, hrest⟩ := h.reading locals hpc
    refine ⟨?_, hrest⟩
    cases stopped with
    | false => rfl
    | true =>
      have hloop := hstop hrun rfl
      rw [hpc] at hloop
      cases hloop
  errors := h.errors

theorem Streaming.enter (h : Streaming source consumed s) (hsize : 0 < source.frameSize)
    (hpc : s.pc = .loop) (nowMs nowUs : UInt64) :
    Streaming source consumed (s.enter nowMs nowUs) := by
  unfold CaptureThread.enter
  split
  · exact h
  · next hstop =>
    have hstop : s.worker.stopped = false := by simpa using hstop
    obtain ⟨hrun, herrors⟩ := h.alive hstop
    have hlast := h.loop hpc hstop
    split
    · exact h.stop s.worker.running (fun _ _ => hpc) (by simp)
    · rw [if_neg (by simp [hrun])]
      have hhead : Streaming source (consumed ++ []) (s.loopHead
          ⟨0, nowMs, if s.impl.haveFrame then frameTimeoutMs else firstFrameTimeoutMs⟩ nowUs) := by
        apply loopHead_streaming hsize h.toPublished
        · rw [List.append_nil]
          exact h.stream
        · exact ⟨hrun, herrors⟩
        · exact hstop
        · rw [hlast]
          exact List.nil_prefix
        · rw [hlast]
          rfl
        · exact Nat.zero_le _
      rw [List.append_nil] at hhead
      exact hhead

theorem Streaming.quiet (h : Streaming source consumed s) (hrun : s.errors = []) (locals : FrameRead)
    (nowMs : UInt64) : Streaming source consumed (s.quiet locals nowMs) := by
  have hreap := reapChild_impl s.impl s.child
  unfold CaptureThread.quiet
  split
  · next impl child heq =>
    rw [heq] at hreap
    exact h.fail hrun hreap child trivial
  · split
    · exact h.fail hrun ⟨rfl, rfl⟩ s.child trivial
    · exact h

theorem Streaming.endOfStream (h : Streaming source consumed s) (hrun : s.errors = [])
    {locals : FrameRead} (hread : locals.bytesRead = (lastBlock source.frameSize consumed).length)
    (hpipe : s.pipe = ⟨[], true⟩) (exitAt : Nat) :
    Streaming source consumed (s.endOfStream locals exitAt) := by
  refine h.fail hrun (reapLoop_impl 5 exitAt s.impl s.child) _ ?_
  by_cases hzero : locals.bytesRead = 0
  · rw [if_pos hzero]
    exact ⟨hpipe, List.eq_nil_of_length_eq_zero (hread ▸ hzero)⟩
  · rw [if_neg hzero]
    exact ⟨hpipe, Nat.pos_of_ne_zero hzero, hread, congrArg VideoSource.frameSize h.same⟩

theorem pipe_read {pipe : Pipe} {count ready : Nat} (hcount : 0 < count) {bytes : Bytes}
    (h : pipe.read count ready = some bytes) :
    bytes.length ≤ count ∧ pipe.unread = bytes ++ pipe.unread.drop bytes.length ∧
      (bytes = [] → pipe = ⟨[], true⟩) := by
  unfold Pipe.read at h
  split at h
  · next hempty =>
    have hempty : pipe.unread = [] := by simpa using hempty
    split at h
    · next hclosed =>
      cases h
      refine ⟨Nat.zero_le _, by simp, fun _ => ?_⟩
      rw [← hempty, ← hclosed]
    · cases h
  · next hmore =>
    cases h
    have hmore : pipe.unread ≠ [] := by simpa using hmore
    have hpos := List.length_pos_iff.mpr hmore
    refine ⟨by rw [List.length_take]; omega, ?_, ?_⟩
    · rw [List.length_take]
      exact (List.take_append_drop _ pipe.unread).symm.trans (by
        congr 1
        by_cases hle : min count (max ready 1) ≤ pipe.unread.length
        · rw [Nat.min_eq_left hle]
        · rw [List.drop_of_length_le (by omega), List.drop_of_length_le (by omega)])
    · intro hnil
      have hlen := congrArg List.length hnil
      rw [List.length_take, List.length_nil] at hlen
      omega

theorem Streaming.turn (h : Streaming source consumed s) (hsize : 0 < source.frameSize)
    {locals : FrameRead} (hpc : s.pc = .reading locals) (input : TurnInput) :
    ∃ s' more, s.turn locals input = some s' ∧ Streaming source (consumed ++ more) s' := by
  obtain ⟨hstop, hread, hfront⟩ := h.reading locals hpc
  obtain ⟨hrun, herrors⟩ := h.alive hstop
  have hsame : ∀ s', Streaming source consumed s' →
      ∃ s'' more, some s' = some s'' ∧ Streaming source (consumed ++ more) s'' := fun s' hs' =>
    ⟨s', [], rfl, by rwa [List.append_nil]⟩
  have hroom : locals.bytesRead < source.frameSize := by
    rw [hread, lastBlock_length]
    exact Nat.mod_lt _ hsize
  unfold CaptureThread.turn
  split
  · exact hsame s h
  · exact hsame _ (h.fail herrors ⟨rfl, rfl⟩ s.child trivial)
  · exact hsame _ (h.quiet herrors locals input.nowMs)
  · split
    · exact hsame s h
    · exact hsame _ (h.fail herrors ⟨rfl, rfl⟩ s.child trivial)
    · split
      · exact hsame s h
      · next hnone =>
        obtain ⟨-, -, hend⟩ := pipe_read (by rw [h.same]; omega) hnone
        exact hsame _ (h.endOfStream herrors hread (hend rfl) input.exitAt)
      · next bytes _ hbytes =>
        obtain ⟨hcount, hunread, -⟩ := pipe_read (by rw [h.same]; omega) hbytes
        rw [h.same] at hcount
        obtain ⟨buffer, hstore, hlen, hfront'⟩ := @storeRange_front _ _ bytes hfront (by
          rw [h.buffer, ← hread]
          omega)
        rw [← hread] at hstore
        refine ⟨_, bytes, by rw [hstore]; rfl, ?_⟩
        apply loopHead_streaming hsize
        · exact ⟨h.same, hlen.trans h.buffer, h.blocks, h.sequence, h.numbered⟩
        · change s.produced = consumed ++ bytes ++ s.pipe.unread.drop bytes.length
          rw [List.append_assoc, ← hunread]
          exact h.stream
        · exact ⟨hrun, herrors⟩
        · exact hstop
        · exact hfront'
        · rw [List.length_append, ← hread]
        · change locals.bytesRead + bytes.length ≤ source.frameSize
          omega

theorem step_streaming (h : Streaming source consumed s) (hsize : 0 < source.frameSize)
    (e : CaptureEvent) :
    ∃ s' more, s.step e = some s' ∧ Streaming source (consumed ++ more) s' := by
  have hsame : ∀ s', Streaming source consumed s' →
      ∃ s'' more, some s' = some s'' ∧ Streaming source (consumed ++ more) s'' := fun s' hs' =>
    ⟨s', [], rfl, by rwa [List.append_nil]⟩
  cases e with
  | produce bytes =>
    apply hsame
    split
    · exact h
    · next hopen => exact h.produce bytes (by simpa using hopen)
  | closePipe => exact hsame _ h.close
  | childExits =>
    exact hsame _ ⟨⟨h.same, h.buffer, h.blocks, h.sequence, h.numbered⟩, h.stream, h.alive, h.loop,
      h.reading, h.errors⟩
  | stop => exact hsame _ (h.stop false (fun hf ht => by rw [hf] at ht; cases ht) id)
  | enter nowMs nowUs =>
    simp only [CaptureThread.step]
    split
    · next hpc => exact hsame _ (h.enter hsize hpc nowMs nowUs)
    · exact hsame s h
  | turn input =>
    simp only [CaptureThread.step]
    split
    · exact hsame s h
    · next locals hpc => exact h.turn hsize hpc input

theorem run_streaming (hsize : 0 < source.frameSize) (events : List CaptureEvent)
    (h : Streaming source consumed s) :
    ∃ s' more, events.foldlM CaptureThread.step s = some s' ∧
      Streaming source (consumed ++ more) s' := by
  induction events generalizing s consumed with
  | nil => exact ⟨s, [], rfl, by rwa [List.append_nil]⟩
  | cons e events ih =>
    obtain ⟨s', more, hstep, hs'⟩ := step_streaming h hsize e
    obtain ⟨s'', rest, hrun, hs''⟩ := ih hs'
    refine ⟨s'', more ++ rest, ?_, by rwa [← List.append_assoc]⟩
    rw [List.foldlM_cons, hstep]
    exact hrun

/-- However the stream arrives, and whatever the system calls answer: the frames published
are its complete blocks, in order and numbered from 0, each once. Nothing is written outside
of the buffer, and an end of the stream is told as it is. -/
theorem capture_publishes_blocks (source : VideoSource) (isStdin : Bool) (buffer : Bytes)
    (hsize : 0 < source.frameSize) (hbuffer : buffer.length = source.frameSize)
    (events : List CaptureEvent) :
    ∃ s consumed, events.foldlM CaptureThread.step (.start source isStdin buffer) = some s ∧
      s.produced = consumed ++ s.pipe.unread ∧
      s.worker.published.map Publish.data = wholeBlocks source.frameSize consumed ∧
      Numbered source s.worker.published ∧
      ∀ e ∈ s.errors, Accurate source consumed s.pipe e := by
  obtain ⟨s, consumed, hrun, h⟩ := run_streaming hsize events (start_streaming isStdin hbuffer)
  exact ⟨s, consumed, hrun, h.stream, h.blocks, h.numbered, h.errors⟩

/-- A stream of one frame and a half, in three pieces. -/
theorem capture_publishes_blocks_short_stream :
    ∃ s consumed, [.produce (List.replicate 576 7), .enter 10 10000,
        .turn ⟨.ready, .bytes 300, 9, 11, 11000⟩, .turn ⟨.ready, .bytes 400, 9, 12, 12000⟩,
        .closePipe, .enter 12 12000, .turn ⟨.ready, .bytes 400, 9, 13, 13000⟩,
        .turn ⟨.ready, .bytes 0, 9, 14, 14000⟩].foldlM CaptureThread.step
        (.start ⟨16, 16, 30, 16, v4l2PixFmtYuv420, 384⟩ true (List.replicate 384 0)) = some s ∧
      s.produced = consumed ++ s.pipe.unread ∧
      s.worker.published.map Publish.data = wholeBlocks 384 consumed ∧
      Numbered ⟨16, 16, 30, 16, v4l2PixFmtYuv420, 384⟩ s.worker.published ∧
      ∀ e ∈ s.errors, Accurate ⟨16, 16, 30, 16, v4l2PixFmtYuv420, 384⟩ consumed s.pipe e :=
  capture_publishes_blocks ⟨16, 16, 30, 16, v4l2PixFmtYuv420, 384⟩ true (List.replicate 384 0)
    (by simp) List.length_replicate _

end Steps

/-- The frames that go into a hub are those of a source worker. -/
def PublishesOf (published : List Publish) (steps : List HubStep) : Prop :=
  ∀ data info, .acquire data info ∈ steps → ∃ p ∈ published, p.data = data

theorem PublishesOf.fits {published : List Publish} {steps : List HubStep} {capacity : Nat}
    (h : PublishesOf published steps) (hsmall : ∀ p ∈ published, p.data.length ≤ capacity) :
    ∀ e ∈ steps, FrameOwnership.Fits capacity e := by
  rintro e he data info rfl
  obtain ⟨p, hp, rfl⟩ := h data info he
  exact hsmall p hp

/-- The hub is made for the frame size of its source, so the frames of a stream fit. -/
theorem capture_fits (source : VideoSource) (isStdin : Bool) (buffer : Bytes)
    (hsize : 0 < source.frameSize) (hbuffer : buffer.length = source.frameSize)
    (events : List CaptureEvent) :
    ∃ s, events.foldlM CaptureThread.step (.start source isStdin buffer) = some s ∧
      ∀ steps, PublishesOf s.worker.published steps →
        ∀ e ∈ steps, FrameOwnership.Fits source.frameSize e := by
  obtain ⟨s, consumed, hrun, h⟩ := run_streaming hsize events (start_streaming isStdin hbuffer)
  refine ⟨s, hrun, fun steps hsteps => hsteps.fits fun p hp => ?_⟩
  have hdata : p.data ∈ wholeBlocks source.frameSize ([] ++ consumed) :=
    h.blocks ▸ List.mem_map_of_mem hp
  exact wholeBlocks_size hdata

end Camstream.Proofs.CaptureStream
