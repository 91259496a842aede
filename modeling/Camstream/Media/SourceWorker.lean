import Camstream.Media.CsiSource

namespace Camstream.Media
open Lib

def sourceFatalErrors : UInt32 := 100

/-- What `capture` returns: 1 with a frame, 0 or -1. `ended` is the flag of the source. -/
inductive CaptureResult
  | frame (data : Bytes) (timestampUs : UInt64) (bufferIndex : UInt32)
  | nothing
  | error (ended : Bool)
deriving Repr, DecidableEq

/-- One call of `frame_hub_publish`. -/
structure Publish where
  data : Bytes
  info : FrameInfo
deriving Repr, DecidableEq

/-- The worker with the locals of its thread. `stopped` says that the thread has left its
loop. The calls of `frame_hub_publish` and of `release` are recorded. -/
structure SourceWorker where
  running : Bool
  captured : UInt64
  errors : UInt64
  failed : Bool
  sequence : UInt64
  consecutiveErrors : UInt32
  stopped : Bool
  published : List Publish
  released : List UInt32
deriving Repr, DecidableEq

def sourceWorkerCreate : SourceWorker := ⟨true, 0, 0, false, 0, 0, false, [], []⟩

/-- What the worker does with a captured frame. A failed publish drops it, and it has its
number all the same. -/
def SourceWorker.publish (worker : SourceWorker) (source : VideoSource) (data : Bytes)
    (timestampUs : UInt64) (bufferIndex : UInt32) : SourceWorker :=
  { worker with
    consecutiveErrors := 0
    published := worker.published ++
      [⟨data, { source.frame worker.sequence timestampUs with size := data.length }⟩]
    released := worker.released ++ [bufferIndex]
    sequence := worker.sequence + 1
    captured := worker.captured + 1 }

/-- The loop of `source_worker_thread` behind the call of `capture`. -/
def SourceWorker.handle (worker : SourceWorker) (source : VideoSource) :
    CaptureResult → SourceWorker
  | .error ended =>
    let consecutiveErrors := worker.consecutiveErrors + 1
    let fatal := ended || consecutiveErrors ≥ sourceFatalErrors
    { worker with
      errors := worker.errors + 1, consecutiveErrors
      failed := worker.failed || fatal, stopped := worker.stopped || fatal }
  | .nothing => { worker with consecutiveErrors := 0 }
  | .frame data timestampUs bufferIndex => worker.publish source data timestampUs bufferIndex

/-- `turn` is a turn of the loop, if the thread is still there to make it. -/
inductive SourceEvent
  | stop
  | turn (result : CaptureResult)
deriving Repr, DecidableEq

def SourceWorker.step (source : VideoSource) (worker : SourceWorker) : SourceEvent → SourceWorker
  | .stop => { worker with running := false }
  | .turn result =>
    if worker.stopped then worker
    else if !worker.running then { worker with stopped := true }
    else worker.handle source result

end Camstream.Media
