import Camstream.Media.EncoderM2m
import Camstream.Media.H264Bitstream

namespace Camstream.Media
open Lib

def m2mOutputBuffers : Nat := 4
def m2mCaptureBuffers : Nat := 4
def m2mMaxConsecutiveErrors : Nat := 30

/-- The encoder with its buffers as they are mapped. The top of `outFree` is its first
element, and its length is `out_free_count`. -/
structure M2mEncoder where
  backend : M2mBackend
  haveForceKey : Bool
  pendingIdr : Bool
  outBufs : List Bytes
  outFree : List Nat
  capBufs : List Bytes
  errors : Nat
deriving Repr, DecidableEq

/-- An input buffer in the driver's hands, with the arguments of the call that queued it. -/
structure QueuedInput where
  index : Nat
  planeY : Bytes
  planeU : Bytes
  planeV : Bytes
  ptsUs : UInt64
deriving Repr, DecidableEq

/-- The buffers that the driver holds. `lost` are the capture buffers that it would not take
back, `keyframes` counts the forced ones, and `delivered` is what it has encoded, one entry
for each capture buffer it gave out. -/
structure M2mDriver where
  inputs : List QueuedInput
  captures : List Nat
  lost : List Nat
  keyframes : Nat
  delivered : List Bytes
deriving Repr, DecidableEq

/-- `VIDIOC_REQBUFS` may give fewer buffers than `wanted`, or more. None at all is an error. -/
def m2mMapBuffers (wanted : Nat) (given : List Bytes) : Option (List Bytes) :=
  if given.length < 1 then none else some (given.take wanted)

/-- The end of `m2m_open`, with the buffers that the driver gives to each queue. -/
def m2mOpen (backend : M2mBackend) (haveForceKey : Bool) (outGiven capGiven : List Bytes) :
    Option (M2mEncoder × M2mDriver) := do
  let outBufs ← m2mMapBuffers m2mOutputBuffers outGiven
  let capBufs ← m2mMapBuffers m2mCaptureBuffers capGiven
  if outBufs.any fun buffer => buffer.length < backend.sizeimage.toNat then none
  else some (
    { backend, haveForceKey, pendingIdr := false, outBufs
      outFree := (List.range outBufs.length).reverse, capBufs, errors := 0 },
    ⟨[], List.range capBufs.length, [], 0, []⟩)

/-- What `VIDIOC_DQBUF` answers: `EAGAIN`, another error, or one of the buffers it holds. -/
inductive DqInput
  | again
  | failed
  | done (k : Nat)
deriving Repr, DecidableEq

/-- An encoded buffer, with all that the driver has written into its memory. -/
structure CaptureBuffer where
  contents : Bytes
  bytesused : UInt32
  dataOffset : UInt32
  ptsUs : UInt64
  keyframe : Bool
deriving Repr, DecidableEq

inductive DqCapture
  | again
  | failed
  | done (k : Nat) (buffer : CaptureBuffer)
deriving Repr, DecidableEq

/-- The bytes of a buffer that carry a payload, if they are inside of it. -/
def CaptureBuffer.payload (buffer : CaptureBuffer) (memory : Bytes) : Bytes :=
  if buffer.bytesused.toNat ≤ memory.length then
    (memory.take buffer.bytesused.toNat).drop buffer.dataOffset.toNat
  else []

/-- Take back every input buffer the encoder has finished reading. A driver that holds none
has none to give. -/
def m2mReclaimInputs : List DqInput → M2mEncoder → M2mDriver → Bool × M2mEncoder × M2mDriver
  | .done k :: answers, encoder, driver =>
    match driver.inputs[k]? with
    | none => (true, encoder, driver)
    | some input =>
      let driver := { driver with inputs := driver.inputs.eraseIdx k }
      if input.index < encoder.outBufs.length ∧ encoder.outFree.length < m2mOutputBuffers then
        m2mReclaimInputs answers { encoder with outFree := input.index :: encoder.outFree } driver
      else m2mReclaimInputs answers encoder driver
  | .failed :: _, encoder, driver => (false, encoder, driver)
  | _, encoder, driver => (true, encoder, driver)

/-- The out parameters of `m2m_encode`: `out` is the caller's buffer. -/
structure EncodeOutput where
  out : Bytes
  outSize : Nat
  isIdr : Bool
  ptsUs : UInt64
deriving Repr, DecidableEq

/-- The access unit that is returned. -/
def EncodeOutput.au (output : EncodeOutput) : Bytes := output.out.take output.outSize

/-- The answers to the calls of one turn of the loop that collects the output. -/
structure TakeAnswer where
  ready : Bool
  dq : DqCapture
  requeued : Bool
deriving Repr, DecidableEq

/-- The payload of a capture buffer is appended to the output, if there is room. None is an
access outside of a buffer. -/
def appendPayload (encoder : M2mEncoder) (index : Nat) (buffer : CaptureBuffer)
    (output : EncodeOutput) : Option (M2mEncoder × EncodeOutput) :=
  let offset := buffer.dataOffset.toNat
  let bytes := if buffer.bytesused > buffer.dataOffset then buffer.bytesused.toNat - offset else 0
  let memory := encoder.capBufs.getD index []
  if bytes > 0 ∧ offset + bytes ≤ memory.length then
    if output.outSize + bytes ≤ output.out.length then do
      let payload ← loadRange memory offset bytes
      let out ← storeRange output.out output.outSize payload
      some (encoder, {
        out, outSize := output.outSize + bytes
        isIdr := output.isIdr || buffer.keyframe, ptsUs := buffer.ptsUs })
    else some ({ encoder with pendingIdr := true }, { output with outSize := 0 })
  else some (encoder, output)

/-- The memory of a capture buffer that the driver has written. -/
def M2mEncoder.captured (encoder : M2mEncoder) (index : Nat) (contents : Bytes) : Bytes :=
  contents.takeD (encoder.capBufs.getD index []).length 0

def m2mTakeCapture (encoder : M2mEncoder) (driver : M2mDriver) (output : EncodeOutput)
    (answer : TakeAnswer) : Option (Int × M2mEncoder × M2mDriver × EncodeOutput) :=
  match answer.dq with
  | .again => some (0, encoder, driver, output)
  | .failed => some (-1, encoder, driver, output)
  | .done k buffer =>
    match driver.captures[k]? with
    | none => some (0, encoder, driver, output)
    | some index =>
      let memory := encoder.captured index buffer.contents
      let driver := { driver with
        captures := driver.captures.eraseIdx k
        delivered := driver.delivered ++ [buffer.payload memory] }
      if index ≥ encoder.capBufs.length then
        some (-1, encoder, { driver with lost := driver.lost ++ [index] }, output)
      else do
        let encoder := { encoder with capBufs := encoder.capBufs.set index memory }
        let (encoder, output) ← appendPayload encoder index buffer output
        if answer.requeued then
          some (1, encoder, { driver with captures := driver.captures ++ [index] }, output)
        else some (-1, encoder, { driver with lost := driver.lost ++ [index] }, output)

/-- At most one picture, with the headers that came in a buffer of their own. -/
def m2mCollect : List TakeAnswer → M2mEncoder → M2mDriver → EncodeOutput →
    Option (M2mEncoder × M2mDriver × EncodeOutput)
  | [], encoder, driver, output => some (encoder, driver, output)
  | answer :: answers, encoder, driver, output =>
    if !answer.ready then some (encoder, driver, output)
    else do
      let (taken, encoder, driver, output) ← m2mTakeCapture encoder driver output answer
      if taken < 0 then some ({ encoder with errors := encoder.errors + 1 }, driver, output)
      else if taken = 0 ∨ output.outSize = 0 then some (encoder, driver, output)
      else if (h264AuScan output.au).hasSlice then some (encoder, driver, output)
      else m2mCollect answers encoder driver output

structure EncodeCall where
  planeY : Bytes
  planeU : Bytes
  planeV : Bytes
  ptsUs : UInt64
  forceIdr : Bool
  out : Bytes
deriving Repr, DecidableEq

/-- What the driver answers during one call of `m2m_encode`, in the order of the calls:
reclaim, wait for room and reclaim again, force a keyframe, queue, collect twice. -/
structure EncodeAnswers where
  reclaim : List DqInput
  writable : Bool
  reclaimAgain : List DqInput
  forced : Bool
  queued : Bool
  first : TakeAnswer
  second : TakeAnswer
deriving Repr, DecidableEq

/-- A free input buffer is filled and queued. -/
def m2mQueueInput (encoder : M2mEncoder) (driver : M2mDriver) (index : Nat) (rest : List Nat)
    (call : EncodeCall) (answers : EncodeAnswers) : Option (M2mEncoder × M2mDriver) := do
  let buffer ←
    m2mFillInput encoder.backend call.planeY call.planeU call.planeV (encoder.outBufs.getD index [])
  let encoder := { encoder with outBufs := encoder.outBufs.set index buffer, outFree := rest }
  let force := (call.forceIdr || encoder.pendingIdr) && encoder.haveForceKey && answers.forced
  let encoder := { encoder with pendingIdr := encoder.pendingIdr && !force }
  let driver := { driver with keyframes := driver.keyframes + if force then 1 else 0 }
  if answers.queued then
    some (encoder, { driver with inputs := driver.inputs ++
      [⟨index, call.planeY, call.planeU, call.planeV, call.ptsUs⟩] })
  else
    some ({ encoder with outFree := index :: encoder.outFree, errors := encoder.errors + 1 }, driver)

/-- The encoder holds every input buffer: this frame is dropped. -/
def m2mDropFrame (encoder : M2mEncoder) (call : EncodeCall) : M2mEncoder :=
  { encoder with
    pendingIdr := encoder.pendingIdr || call.forceIdr, errors := encoder.errors + 1 }

def m2mFeed (encoder : M2mEncoder) (driver : M2mDriver) (call : EncodeCall)
    (answers : EncodeAnswers) : Option (M2mEncoder × M2mDriver) :=
  match encoder.outFree with
  | index :: rest => m2mQueueInput encoder driver index rest call answers
  | [] => some (m2mDropFrame encoder call, driver)

/-- Both calls of `m2m_reclaim_inputs`. -/
def m2mReclaim (encoder : M2mEncoder) (driver : M2mDriver) (answers : EncodeAnswers) :
    M2mEncoder × M2mDriver :=
  let (ok, encoder, driver) := m2mReclaimInputs answers.reclaim encoder driver
  let encoder := { encoder with errors := encoder.errors + if ok then 0 else 1 }
  if encoder.outFree.isEmpty ∧ answers.writable then
    (m2mReclaimInputs answers.reclaimAgain encoder driver).2
  else (encoder, driver)

/-- `m2m_encode` as `h264_encoder_encode` calls it. None is an access outside of a buffer. -/
def m2mEncode (encoder : M2mEncoder) (driver : M2mDriver) (call : EncodeCall)
    (answers : EncodeAnswers) : Option (Int × M2mEncoder × M2mDriver × EncodeOutput) :=
  let output : EncodeOutput := ⟨call.out, 0, false, call.ptsUs⟩
  if encoder.errors ≥ m2mMaxConsecutiveErrors then some (-1, encoder, driver, output)
  else do
    let (encoder, driver) := m2mReclaim encoder driver answers
    let (encoder, driver) ← m2mFeed encoder driver call answers
    let (encoder, driver, output) ← m2mCollect [answers.first, answers.second] encoder driver output
    if output.outSize > 0 then some (1, { encoder with errors := 0 }, driver, output)
    else some (if encoder.errors ≥ m2mMaxConsecutiveErrors then -1 else 0, encoder, driver, output)

end Camstream.Media
