import Camstream.Media.AuRing
import Camstream.Media.FramePool
import Camstream.Media.H264Bitstream

namespace Camstream.Media
open Lib

def auScratchCapacity : Nat := 512 * 1024
def auFixupCapacity : Nat := auScratchCapacity + 2 * h264ParamMax
def stallFatalMs : UInt64 := 10000
def v4l2PixFmtYuyv : UInt32 := 0x56595559

structure EncoderWorker where
  width : UInt32
  height : UInt32
  params : H264ParamCache
  failed : Bool
  framesIn : Nat
  framesEncoded : Nat
  skippedIdle : Nat
  skippedMismatch : Nat
  skippedBadSize : Nat
  noOutput : Nat
  keyframes : Nat
  paramsPrepended : Nat
deriving Repr, DecidableEq

def encoderWorkerCreate (width height : UInt32) : EncoderWorker :=
  ⟨width, height, ⟨[], []⟩, false, 0, 0, 0, 0, 0, 0, 0, 0⟩

/-- The access unit to send with its keyframe flag, `none` for an output without a
picture. -/
def finishAccessUnit (worker : EncoderWorker) (auBuffer : Bytes) :
    Option (Bytes × Bool) × EncoderWorker :=
  let info := h264AuScan auBuffer
  let worker := if info.hasSps || info.hasPps then
      { worker with params := h264ParamCacheUpdate worker.params auBuffer }
    else worker
  if !info.hasSlice then (none, worker)
  else if info.hasIdr && !(info.hasSps && info.hasPps) then
    match h264PrependParams worker.params auBuffer auFixupCapacity with
    | some fixed =>
      (some (fixed, info.hasIdr), { worker with paramsPrepended := worker.paramsPrepended + 1 })
    | none => (some (auBuffer, info.hasIdr), worker)
  else (some (auBuffer, info.hasIdr), worker)

inductive FrameCheck
  | mismatch
  | badSize
  | good
deriving Repr, DecidableEq

/-- The checks of a frame before its planes are read. The smallest stride is a 32 bit
product, the size of the three planes a 64 bit sum. -/
def checkFrame (width height : UInt32) (frame : FrameInfo) : FrameCheck :=
  if frame.width ≠ width ∨ frame.height ≠ height then .mismatch
  else
    let minStride := if frame.format = v4l2PixFmtYuyv then width * 2 else width
    let stride := if frame.stride ≠ 0 then frame.stride else minStride
    if frame.size = 0 ∨ frame.size < stride.toNat * height.toNat then .badSize
    else if frame.format = v4l2PixFmtYuyv then .good
    else
      let yStride := if frame.stride ≠ 0 then frame.stride else width
      let chromaPlane := (yStride / 2).toNat * (height / 2).toNat
      if frame.size < (yStride.toNat * height.toNat + 2 * chromaPlane) % 2 ^ 64 then .badSize
      else .good

/-- `h264_encoder_encode`: a negative result, 0, or an output with its time. -/
inductive EncodeResult
  | fatal
  | nothing
  | output (data : Bytes) (auPtsUs : UInt64)
deriving Repr, DecidableEq

inductive StopReason
  | requested
  | encoderError
  | stalled
deriving Repr, DecidableEq

/-- Where `encoder_thread` is, between two of its accesses to shared state. `forceIdr`
is the local that the exchange has set. -/
inductive EncodeAt
  | waiting
  | taken (frame : FrameInfo)
  | ready (frame : FrameInfo)
  | encoding (frame : FrameInfo) (forceIdr : Bool)
  | returned (frame : FrameInfo) (forceIdr : Bool) (result : EncodeResult)
  | unsatisfied (forceIdr : Bool)
  | finished (forceIdr : Bool) (au : Bytes) (auPtsUs : UInt64) (isIdr : Bool)
  | pushing (au : Bytes) (auPtsUs : UInt64) (isIdr : Bool)
  | refused
  | stopped (reason : StopReason)
deriving Repr, DecidableEq

/-- A call of `au_ring_push`: its result, and how many outputs the encoder had
returned by then. -/
structure AuPush where
  au : Bytes
  auPtsUs : UInt64
  isIdr : Bool
  result : Int
  outputs : Nat
deriving Repr, DecidableEq

/-- The encode thread with what it shares with others (`forceIdr`, `active`, `running`
and the ring), and with a record of its calls: references given back, outputs of the
encoder, pushes. -/
structure EncoderThread where
  worker : EncoderWorker
  pc : EncodeAt
  wasActive : Bool
  lastOutputMs : UInt64
  forceIdr : Bool
  active : Bool
  running : Bool
  ring : AuRing
  unrefs : Nat
  outputs : List Bytes
  pushes : List AuPush

def EncoderThread.start (worker : EncoderWorker) (ring : AuRing) : EncoderThread :=
  ⟨worker, .waiting, false, 0, false, false, true, ring, 0, [], []⟩

/-- What the thread gets from outside in its next step. -/
structure EncoderInput where
  frame : Option FrameInfo
  nowMs : UInt64
  result : EncodeResult

/-- From the load of `active` to the last check of the frame. A skipped frame is
released at once. -/
def EncoderThread.checkTaken (t : EncoderThread) (frame : FrameInfo) (nowMs : UInt64) :
    EncoderThread :=
  let t := { t with
    lastOutputMs := if t.active && !t.wasActive then nowMs else t.lastOutputMs
    wasActive := t.active }
  let w := t.worker
  let skip (w : EncoderWorker) : EncoderThread :=
    { t with worker := w, pc := .waiting, unrefs := t.unrefs + 1 }
  if !t.active then skip { w with skippedIdle := w.skippedIdle + 1 }
  else
    match checkFrame w.width w.height frame with
    | .mismatch => skip { w with skippedMismatch := w.skippedMismatch + 1 }
    | .badSize => skip { w with skippedBadSize := w.skippedBadSize + 1 }
    | .good => { t with pc := .ready frame }

/-- After the encode call: the frame is released, and the output, if there is one,
made ready to send. -/
def EncoderThread.handleResult (t : EncoderThread) (forceIdr : Bool) (result : EncodeResult)
    (nowMs : UInt64) : EncoderThread :=
  let t := { t with unrefs := t.unrefs + 1 }
  let unsatisfied (t : EncoderThread) : EncoderThread :=
    { t with
      worker := { t.worker with noOutput := t.worker.noOutput + 1 }, pc := .unsatisfied forceIdr }
  match result with
  | .fatal => { t with worker := { t.worker with failed := true }, pc := .stopped .encoderError }
  | .nothing => unsatisfied t
  | .output data auPtsUs =>
    let t := { t with outputs := t.outputs ++ [data] }
    match finishAccessUnit t.worker data with
    | (none, w) => unsatisfied { t with worker := w }
    | (some (au, isIdr), w) =>
      { t with
        worker := { w with framesEncoded := w.framesEncoded + 1 }
        lastOutputMs := nowMs, pc := .finished forceIdr au auPtsUs isIdr }

/-- One step of `encoder_thread`, up to its next access to shared state. -/
def EncoderThread.advance (t : EncoderThread) (input : EncoderInput) : EncoderThread :=
  match t.pc with
  | .waiting =>
    if !t.running then { t with pc := .stopped .requested }
    else
      match input.frame with
      | none => t
      | some frame =>
        { t with worker := { t.worker with framesIn := t.worker.framesIn + 1 }, pc := .taken frame }
  | .taken frame => t.checkTaken frame input.nowMs
  | .ready frame => { t with forceIdr := false, pc := .encoding frame t.forceIdr }
  | .encoding frame forceIdr => { t with pc := .returned frame forceIdr input.result }
  | .returned _ forceIdr result => t.handleResult forceIdr result input.nowMs
  | .unsatisfied forceIdr =>
    let t : EncoderThread := { t with forceIdr := t.forceIdr || forceIdr }
    if t.lastOutputMs ≠ 0 ∧ input.nowMs - t.lastOutputMs > stallFatalMs then
      { t with worker := { t.worker with failed := true }, pc := .stopped .stalled }
    else { t with pc := .waiting }
  | .finished forceIdr au auPtsUs isIdr =>
    let t := { t with pc := .pushing au auPtsUs isIdr }
    if isIdr then
      { t with
        worker := { t.worker with keyframes := t.worker.keyframes + 1 }, forceIdr := false }
    else if forceIdr then { t with forceIdr := true }
    else t
  | .pushing au auPtsUs isIdr =>
    let r := auRingPush t.ring au auPtsUs isIdr
    { t with
      ring := r.2, pushes := t.pushes ++ [⟨au, auPtsUs, isIdr, r.1, t.outputs.length⟩]
      pc := if r.1 ≠ 0 then .refused else .waiting }
  | .refused => { t with forceIdr := true, pc := .waiting }
  | .stopped _ => t

/-- `request` is the store of 1 to `force_idr` by a session or the server. -/
inductive EncoderEvent
  | request
  | setActive (active : Bool)
  | stop
  | pop (bufferCapacity : Nat)
  | advance (input : EncoderInput)

def EncoderThread.step (t : EncoderThread) : EncoderEvent → EncoderThread
  | .request => { t with forceIdr := true }
  | .setActive active => { t with active }
  | .stop => { t with running := false }
  | .pop bufferCapacity => { t with ring := (auRingPop t.ring bufferCapacity).2 }
  | .advance input => t.advance input

end Camstream.Media
