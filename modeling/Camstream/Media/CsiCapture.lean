import Camstream.Lib.Checked
import Camstream.Media.SourceWorker

namespace Camstream.Media
open Lib

def firstFrameTimeoutMs : UInt64 := 15000
def frameTimeoutMs : UInt64 := 5000

/-- The process behind the pipe, as the kernel knows it. The stdin source has none. -/
inductive Child
  | absent
  | running
  | zombie
  | reaped
deriving Repr, DecidableEq

def Child.exits : Child → Child
  | .running => .zombie
  | child => child

/-- What is written and not yet read. `closed` says that no writer is left. -/
structure Pipe where
  unread : Bytes
  closed : Bool
deriving Repr, DecidableEq

/-- `read` of at most `count` bytes, of which the kernel has `ready` at hand. None is
`EAGAIN`; no bytes are the end of the stream. -/
def Pipe.read (pipe : Pipe) (count ready : Nat) : Option Bytes :=
  if pipe.unread.isEmpty then if pipe.closed then some [] else none
  else some (pipe.unread.take (min count (max ready 1)))

/-- `childPid` says that a child was started and not reaped; `ended` is the flag that the
worker reads. -/
structure CsiSource where
  source : VideoSource
  running : Bool
  haveFrame : Bool
  childPid : Bool
  buffer : Bytes
  ended : Bool
deriving Repr, DecidableEq

/-- The errors that `read_full_frame` logs before it returns -1. -/
inductive CsiError
  | poll
  | childExited
  | stalled (firstFrame : Bool)
  | read
  | ended
  | truncated (bytesRead frameSize : Nat)
deriving Repr, DecidableEq

/-- The `waitpid` of `reap_child` does not wait. -/
def reapChild (impl : CsiSource) (child : Child) : Bool × CsiSource × Child :=
  if impl.childPid ∧ child = .zombie then (true, { impl with childPid := false }, .reaped)
  else (false, impl, child)

/-- Up to `n` tries to reap the child, which exits before try `exitAt` if it has not yet. -/
def reapLoop : Nat → Nat → CsiSource → Child → CsiSource × Child
  | 0, _, impl, child => (impl, child)
  | n + 1, exitAt, impl, child =>
    if !impl.childPid then (impl, child)
    else
      match reapChild impl (if exitAt = 0 then child.exits else child) with
      | (true, impl, child) => (impl, child)
      | (false, impl, child) => reapLoop n (exitAt - 1) impl child

/-- The locals of `read_full_frame`. -/
structure FrameRead where
  bytesRead : Nat
  lastDataMs : UInt64
  timeoutMs : UInt64
deriving Repr, DecidableEq

inductive CaptureAt
  | loop
  | reading (locals : FrameRead)
deriving Repr, DecidableEq

/-- The thread of the source worker on a pipe, with what its producer wrote and the errors
it logged. -/
structure CaptureThread where
  worker : SourceWorker
  impl : CsiSource
  child : Child
  pipe : Pipe
  pc : CaptureAt
  produced : Bytes
  errors : List CsiError
deriving Repr, DecidableEq

/-- After `csi_start`. The buffer is what `malloc` gave. -/
def CaptureThread.start (source : VideoSource) (isStdin : Bool) (buffer : Bytes) : CaptureThread where
  worker := sourceWorkerCreate
  impl := ⟨source, true, false, !isStdin, buffer, false⟩
  child := if isStdin then .absent else .running
  pipe := ⟨[], false⟩
  pc := .loop
  produced := []
  errors := []

inductive PollAnswer
  | interrupted
  | failed
  | quiet
  | ready
deriving Repr, DecidableEq

inductive ReadAnswer
  | again
  | failed
  | bytes (ready : Nat)
deriving Repr, DecidableEq

/-- What one turn of the loop of `read_full_frame` learns from outside. -/
structure TurnInput where
  poll : PollAnswer
  read : ReadAnswer
  exitAt : Nat
  nowMs : UInt64
  nowUs : UInt64
deriving Repr, DecidableEq

/-- `csi_capture` returns to the worker. -/
def CaptureThread.captured (s : CaptureThread) (result : CaptureResult) : CaptureThread :=
  { s with worker := s.worker.handle s.impl.source result, pc := .loop }

def CaptureThread.fail (s : CaptureThread) (error : CsiError) : CaptureThread :=
  let s := { s with
    impl := { s.impl with running := false, ended := true }, errors := s.errors ++ [error] }
  s.captured (.error s.impl.ended)

/-- The head of the loop of `read_full_frame`, and what follows the loop. -/
def CaptureThread.loopHead (s : CaptureThread) (locals : FrameRead) (nowUs : UInt64) :
    CaptureThread :=
  if locals.bytesRead < s.impl.source.frameSize ∧ s.impl.running then
    { s with pc := .reading locals }
  else if !s.impl.running then s.captured .nothing
  else
    let s := { s with impl := { s.impl with haveFrame := true } }
    s.captured (.frame s.impl.buffer nowUs 0)

/-- One turn of the worker's loop, up to the first `poll`. -/
def CaptureThread.enter (s : CaptureThread) (nowMs nowUs : UInt64) : CaptureThread :=
  if s.worker.stopped then s
  else if !s.worker.running then { s with worker := { s.worker with stopped := true } }
  else if !s.impl.running then s.captured (.error s.impl.ended)
  else
    s.loopHead ⟨0, nowMs, if s.impl.haveFrame then frameTimeoutMs else firstFrameTimeoutMs⟩ nowUs

/-- `poll` timed out. -/
def CaptureThread.quiet (s : CaptureThread) (locals : FrameRead) (nowMs : UInt64) :
    CaptureThread :=
  match reapChild s.impl s.child with
  | (true, impl, child) => { s with impl, child }.fail .childExited
  | (false, _, _) =>
    if nowMs - locals.lastDataMs ≥ locals.timeoutMs then s.fail (.stalled !s.impl.haveFrame)
    else s

/-- `read` returned 0. A dying child has a moment for its exit status. -/
def CaptureThread.endOfStream (s : CaptureThread) (locals : FrameRead) (exitAt : Nat) :
    CaptureThread :=
  let (impl, child) := reapLoop 5 exitAt s.impl s.child
  { s with impl, child }.fail
    (if locals.bytesRead = 0 then .ended
      else .truncated locals.bytesRead s.impl.source.frameSize)

/-- One turn of the loop of `read_full_frame`. None is a store outside of the buffer. -/
def CaptureThread.turn (s : CaptureThread) (locals : FrameRead) (input : TurnInput) :
    Option CaptureThread :=
  match input.poll with
  | .interrupted => some s
  | .failed => some (s.fail .poll)
  | .quiet => some (s.quiet locals input.nowMs)
  | .ready =>
    match input.read with
    | .again => some s
    | .failed => some (s.fail .read)
    | .bytes ready =>
      match s.pipe.read (s.impl.source.frameSize - locals.bytesRead) ready with
      | none => some s
      | some [] => some (s.endOfStream locals input.exitAt)
      | some bytes => do
        let buffer ← storeRange s.impl.buffer locals.bytesRead bytes
        let s := { s with
          impl := { s.impl with buffer }
          pipe := { s.pipe with unread := s.pipe.unread.drop bytes.length } }
        some (s.loopHead
          { locals with bytesRead := locals.bytesRead + bytes.length, lastDataMs := input.nowMs }
          input.nowUs)

/-- What the producer, the child, the main thread and the worker's own thread do. -/
inductive CaptureEvent
  | produce (bytes : Bytes)
  | closePipe
  | childExits
  | stop
  | enter (nowMs nowUs : UInt64)
  | turn (input : TurnInput)
deriving Repr, DecidableEq

def CaptureThread.step (s : CaptureThread) : CaptureEvent → Option CaptureThread
  | .produce bytes =>
    some (if s.pipe.closed then s else
      { s with
        pipe := { s.pipe with unread := s.pipe.unread ++ bytes }, produced := s.produced ++ bytes })
  | .closePipe => some { s with pipe := { s.pipe with closed := true } }
  | .childExits => some { s with child := s.child.exits }
  | .stop => some { s with worker := { s.worker with running := false } }
  | .enter nowMs nowUs =>
    match s.pc with
    | .loop => some (s.enter nowMs nowUs)
    | .reading _ => some s
  | .turn input =>
    match s.pc with
    | .loop => some s
    | .reading locals => s.turn locals input

/-- A signal. None is a signal to a process number that may be another's by now. -/
def Child.kill (child : Child) (fatal : Bool) : Option Child :=
  match child with
  | .absent | .reaped => none
  | child => some (if fatal then child.exits else child)

/-- The child at the end of `csi_close`: asked to go, waited for, killed. `exitAt` as for
`reapLoop`. -/
def csiClose (impl : CsiSource) (child : Child) (exitAt : Nat) : Option (CsiSource × Child) :=
  let impl := { impl with running := false }
  if !impl.childPid then some (impl, child)
  else
    match reapChild impl child with
    | (true, impl, child) => some (impl, child)
    | (false, impl, child) => do
      let child ← child.kill false
      let (impl, child) := reapLoop 50 exitAt impl child
      if !impl.childPid then some (impl, child)
      else
        let child ← child.kill true
        let (_, impl, child) := reapChild impl child
        some ({ impl with childPid := false }, child)

end Camstream.Media
