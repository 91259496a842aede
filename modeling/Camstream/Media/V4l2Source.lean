import Camstream.Lib.Checked
import Camstream.Media.EncoderWorker
import Camstream.Media.SourceWorker

namespace Camstream.Media
open Lib

def v4l2BufferCount : Nat := 4
def v4l2CapVideoCapture : UInt32 := 0x00000001
def v4l2CapStreaming : UInt32 := 0x04000000
def v4l2CapDeviceCaps : UInt32 := 0x80000000

/-- What the driver makes of a requested format. -/
structure PixFormat where
  width : UInt32
  height : UInt32
  pixelformat : UInt32
  bytesperline : UInt32
  sizeimage : UInt32
deriving Repr, DecidableEq

/-- The answers to `VIDIOC_QUERYBUF` and `mmap` for one buffer. -/
inductive MapAnswer
  | failed
  | notMapped
  | mapped (memory : Bytes)
deriving Repr, DecidableEq

/-- A device as `v4l2_source_create` finds it; none is an ioctl that fails. `sParm` gives the
numerator and the denominator of the frame interval. -/
structure V4l2Device where
  queryCap : Option (UInt32 × UInt32)
  sFmt : UInt32 → Option PixFormat
  sParm : Option (UInt32 × UInt32)
  reqBufs : Option Nat
  queryBuf : Nat → MapAnswer

structure V4l2Source where
  source : VideoSource
  buffers : List Bytes
deriving Repr, DecidableEq

/-- The loop that maps what the driver has granted; `done` is mapped already. The outer none
is a store behind the array `buffers`, the inner one a failure. -/
def v4l2MapBuffers (queryBuf : Nat → MapAnswer) : Nat → List Bytes → Option (Option (List Bytes))
  | 0, done => some (some done)
  | n + 1, done =>
    match queryBuf done.length with
    | .failed => some none
    | .notMapped => if done.length < v4l2BufferCount then some none else none
    | .mapped memory =>
      if done.length < v4l2BufferCount then v4l2MapBuffers queryBuf n (done ++ [memory]) else none

def v4l2Formats : List UInt32 := [v4l2PixFmtYuyv, v4l2PixFmtYuv420]

/-- YUYV is tried first. -/
def v4l2SetFormat (device : V4l2Device) : Option PixFormat :=
  v4l2Formats.findSome? fun format =>
    (device.sFmt format).filter fun pix => pix.pixelformat = format

def V4l2Device.captures (device : V4l2Device) : Bool :=
  match device.queryCap with
  | none => false
  | some (capabilities, deviceCaps) =>
    let caps := if capabilities &&& v4l2CapDeviceCaps ≠ 0 then deviceCaps else capabilities
    caps &&& v4l2CapVideoCapture ≠ 0 && caps &&& v4l2CapStreaming ≠ 0

def V4l2Device.frameRate (device : V4l2Device) (fps : UInt32) : UInt32 :=
  match device.sParm with
  | some (numerator, denominator) => if numerator ≠ 0 then denominator / numerator else fps
  | none => fps

/-- The outer none is a store behind the array `buffers`. -/
def v4l2SourceCreate (device : V4l2Device) (fps : UInt32) : Option (Option V4l2Source) :=
  if fps = 0 ∨ !device.captures then some none
  else
    match v4l2SetFormat device, device.reqBufs with
    | some pix, some count =>
      if count < 2 then some none
      else
        (v4l2MapBuffers device.queryBuf count []).map fun mapped => mapped.map fun buffers =>
          { source := {
              width := pix.width, height := pix.height, fps := device.frameRate fps
              stride := pix.bytesperline, format := pix.pixelformat
              frameSize := pix.sizeimage.toNat }
            buffers }
    | _, _ => some none

/-- The buffers that the driver holds, and those it would not take back. -/
structure V4l2Driver where
  held : List Nat
  lost : List Nat
deriving Repr, DecidableEq

/-- A filled buffer, with all that the driver has written into its memory. -/
structure FilledBuffer where
  contents : Bytes
  bytesused : UInt32
  flagError : Bool
deriving Repr, DecidableEq

/-- The tests of `v4l2_capture` on a dequeued buffer. -/
def FilledBuffer.usable (buffer : FilledBuffer) (frameSize : Nat) : Bool :=
  !(buffer.flagError || buffer.bytesused == 0 || buffer.bytesused.toNat > frameSize)

/-- What `poll` and `VIDIOC_DQBUF` answer. `done` is one of the buffers the driver holds. -/
inductive V4l2Answer
  | interrupted
  | pollFailed
  | timeout
  | again
  | dqFailed
  | done (k : Nat) (buffer : FilledBuffer)
deriving Repr, DecidableEq

/-- One turn of the source worker. `requeued` is the answer to the one `VIDIOC_QBUF` that a
dequeued buffer leads to, be it in `v4l2_capture` or in `v4l2_release`. -/
structure V4l2Turn where
  answer : V4l2Answer
  requeued : Bool
  nowUs : UInt64
deriving Repr, DecidableEq

/-- `dequeued` records the buffers that `VIDIOC_DQBUF` has returned. -/
structure V4l2Thread where
  worker : SourceWorker
  impl : V4l2Source
  driver : V4l2Driver
  dequeued : List FilledBuffer
deriving Repr, DecidableEq

/-- After `v4l2_start`: every buffer is queued. -/
def V4l2Thread.start (impl : V4l2Source) : V4l2Thread :=
  ⟨sourceWorkerCreate, impl, ⟨List.range impl.buffers.length, []⟩, []⟩

def V4l2Driver.requeue (driver : V4l2Driver) (index : Nat) (ok : Bool) : V4l2Driver :=
  if ok then { driver with held := driver.held ++ [index] }
  else { driver with lost := driver.lost ++ [index] }

/-- The memory of a buffer, once the driver has written to its front. -/
def FilledBuffer.write (buffer : FilledBuffer) (memory : Bytes) : Bytes :=
  (buffer.contents ++ memory.drop buffer.contents.length).take memory.length

/-- The driver fills a buffer and gives it back, and it is queued again. -/
def V4l2Thread.dequeue (s : V4l2Thread) (k index : Nat) (buffer : FilledBuffer) (requeued : Bool) :
    V4l2Thread :=
  let memory := s.impl.buffers.getD index []
  { s with
    impl := { s.impl with buffers := s.impl.buffers.set index (buffer.write memory) }
    driver := { s.driver with held := s.driver.held.eraseIdx k }.requeue index requeued
    dequeued := s.dequeued ++ [buffer] }

/-- `v4l2_capture` and, if it has a frame, what the worker does with it. None is a read behind
a buffer. -/
def V4l2Thread.capture (s : V4l2Thread) (turn : V4l2Turn) : Option V4l2Thread :=
  match turn.answer with
  | .interrupted | .timeout | .again =>
    some { s with worker := s.worker.handle s.impl.source .nothing }
  | .pollFailed | .dqFailed =>
    some { s with worker := s.worker.handle s.impl.source (.error false) }
  | .done k buffer =>
    match s.driver.held[k]? with
    | none => some { s with worker := s.worker.handle s.impl.source .nothing }
    | some index =>
      if index ≥ s.impl.buffers.length then
        some { s with
          worker := s.worker.handle s.impl.source (.error false)
          driver := ⟨s.driver.held.eraseIdx k, s.driver.lost ++ [index]⟩ }
      else
        let s' := s.dequeue k index buffer turn.requeued
        if !buffer.usable s.impl.source.frameSize then
          some { s' with worker := s.worker.handle s.impl.source .nothing }
        else do
          let data ← loadRange (s'.impl.buffers.getD index []) 0 buffer.bytesused.toNat
          some { s' with
            worker := s.worker.handle s.impl.source
              (.frame data turn.nowUs (UInt32.ofNat index)) }

inductive V4l2Event
  | stop
  | turn (turn : V4l2Turn)
deriving Repr, DecidableEq

def V4l2Thread.step (s : V4l2Thread) : V4l2Event → Option V4l2Thread
  | .stop => some { s with worker := { s.worker with running := false } }
  | .turn turn =>
    if s.worker.stopped then some s
    else if !s.worker.running then some { s with worker := { s.worker with stopped := true } }
    else s.capture turn

end Camstream.Media
