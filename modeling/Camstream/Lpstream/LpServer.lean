import Camstream.Lib.RefHeap
import Camstream.Lpstream.LpSession

namespace Camstream.Lpstream
open Lib

/-- The frame's name is its number among those created. -/
def lpFrameCreate (heap : RefHeap) (data : Bytes) (isIdr : Bool) (ptsUs : UInt64) :
    LpFrame × RefHeap :=
  (⟨heap.created, isIdr, ptsUs, data⟩, heap.alloc)

def lpFrameRef (heap : RefHeap) (frame : LpFrame) : RefHeap := heap.ref frame.id

def lpFrameUnref (heap : RefHeap) (frame : LpFrame) : RefHeap := heap.unref frame.id

/-- How far `session_thread` is: in its loop, in the last `drop_frames`, at its end. -/
inductive ThreadPhase
  | looping
  | leaving
  | ended
deriving Repr, DecidableEq

/-- A session with its thread. `batch` is what is left of the local `frames` of
`send_frames` or `drop_frames`; `pushed` and `sent` are the calls of
`lp_session_push_frame` and of `peer_connection_send_video` so far. -/
structure Viewer where
  session : LpSession
  phase : ThreadPhase
  batch : List LpFrame
  sending : Bool
  inTable : Bool
  joined : Bool
  freed : Bool
  pushed : List LpFrame
  sent : List LpFrame
deriving Repr, DecidableEq

def Viewer.start : Viewer :=
  { session := lpSessionCreate, phase := .looping, batch := [], sending := false, inTable := false,
    joined := false, freed := false, pushed := [], sent := [] }

/-- How far `media_thread` is with a frame. While it fans out it holds the lock of the
table; `next` is its loop index and `flushed` what the present push has still to release. -/
inductive MediaPhase
  | idle
  | fanning (frame : LpFrame) (next : Nat) (flushed : List LpFrame)
  | unlocked (frame : LpFrame)
deriving Repr, DecidableEq

/-- `viewers` are all sessions that were ever created, in that order. -/
structure LpServer where
  heap : RefHeap
  media : MediaPhase
  viewers : List Viewer

def LpServer.start : LpServer := ⟨.empty, .idle, []⟩

/-- One atomic step: of the media thread (`createFrame` to `unrefFrame`), of the thread of
session `i` (`connect` to `finish`), of the HTTP thread (`create` to `free`). -/
inductive LpEvent
  | createFrame (data : Bytes) (isIdr : Bool) (ptsUs : UInt64)
  | skip
  | resync
  | push
  | unrefFlushed
  | unlock
  | unrefFrame
  | connect (i : Nat)
  | takeToSend (i : Nat)
  | takeToDrop (i : Nat)
  | send (i : Nat) (sent : Bool)
  | drop (i : Nat)
  | leave (i : Nat)
  | finish (i : Nat)
  | create
  | register (i : Nat)
  | close (i : Nat)
  | remove (i : Nat)
  | join (i : Nat)
  | collect (i : Nat)
  | free (i : Nat)

def MediaPhase.holdsLock : MediaPhase → Bool
  | .fanning _ _ _ => true
  | _ => false

/-- What the push throws out of a full mailbox. -/
def flushedBy (s : LpSession) : List LpFrame :=
  if s.stop || s.finished then []
  else if s.queue.length = lpSessionMailbox then s.queue
  else []

/-- The push into session `next`. A refused push leaves the count alone. -/
def pushTo (s : LpServer) (frame : LpFrame) (next : Nat) (v : Viewer) : LpServer :=
  { heap := if v.session.stop || v.session.finished then s.heap else lpFrameRef s.heap frame
    media := .fanning frame (next + 1) (flushedBy v.session)
    viewers := s.viewers.set next { v with
      session := lpSessionPushFrame v.session frame
      pushed := v.pushed ++ [frame] } }

def takeBatch (v : Viewer) (sending : Bool) : Viewer :=
  if sending then
    { v with batch := (beginSend v.session).1, session := (beginSend v.session).2, sending }
  else { v with batch := (takeFrames v.session).1, session := dropFrames v.session, sending }

/-- One turn of the loop of `send_frames`. -/
def sendNext (v : Viewer) (frame : LpFrame) (batch : List LpFrame) (sent : Bool) : Viewer :=
  { v with
    batch
    session := (sendFrame v.session frame sent).2
    sent := if (sendFrame v.session frame sent).1 then v.sent ++ [frame] else v.sent }

/-- The steps that touch one session and no frame. None is an event the threads of the
session cannot take now. -/
def sessionStep (lockFree : Bool) (v : Viewer) : LpEvent → Option Viewer
  | .connect _ =>
    if v.phase = .looping then some { v with session := becomeConnected v.session } else none
  | .takeToSend _ =>
    if v.phase = .looping ∧ v.batch = [] ∧ v.session.connected = true then some (takeBatch v true)
    else none
  | .takeToDrop _ => if v.phase = .looping ∧ v.batch = [] then some (takeBatch v false) else none
  | .leave _ =>
    if v.phase = .looping ∧ v.batch = [] then some { takeBatch v false with phase := .leaving }
    else none
  | .finish _ =>
    if v.phase = .leaving ∧ v.batch = [] then
      some { v with session := { v.session with finished := true }, phase := .ended }
    else none
  | .register _ => if lockFree ∧ v.joined = false then some { v with inTable := true } else none
  | .close _ => if v.freed then none else some { v with session := lpSessionClose v.session }
  | .remove _ => if lockFree then some { v with inTable := false } else none
  | .join _ =>
    if v.inTable = false ∧ v.phase = .ended then some { v with joined := true } else none
  | .free _ =>
    if v.joined = true ∧ v.session.queue = [] then some { v with freed := true } else none
  | _ => none

/-- The session whose own steps these are. -/
def LpEvent.viewer : LpEvent → Option Nat
  | .connect i | .takeToSend i | .takeToDrop i | .leave i | .finish i | .register i | .close i
  | .remove i | .join i | .free i => some i
  | _ => none

/-- An event that its thread cannot take now leaves everything as it is. -/
def LpServer.step (s : LpServer) : LpEvent → LpServer
  | .createFrame data isIdr ptsUs =>
    match s.media with
    | .idle =>
      let (frame, heap) := lpFrameCreate s.heap data isIdr ptsUs
      { s with heap, media := .fanning frame 0 [] }
    | _ => s
  | .skip =>
    match s.media with
    | .fanning frame next [] => { s with media := .fanning frame (next + 1) [] }
    | _ => s
  | .resync =>
    match s.media with
    | .fanning _ next [] =>
      match s.viewers[next]? with
      | some v =>
        if v.inTable then
          { s with viewers := s.viewers.set next { v with session := lpSessionResync v.session } }
        else s
      | none => s
    | _ => s
  | .push =>
    match s.media with
    | .fanning frame next [] =>
      match s.viewers[next]? with
      | some v => if v.inTable then pushTo s frame next v else s
      | none => s
    | _ => s
  | .unrefFlushed =>
    match s.media with
    | .fanning frame next (old :: flushed) =>
      { s with heap := lpFrameUnref s.heap old, media := .fanning frame next flushed }
    | _ => s
  | .unlock =>
    match s.media with
    | .fanning frame _ [] => { s with media := .unlocked frame }
    | _ => s
  | .unrefFrame =>
    match s.media with
    | .unlocked frame => { s with heap := lpFrameUnref s.heap frame, media := .idle }
    | _ => s
  | .send i sent =>
    match s.viewers[i]? with
    | some v =>
      match v.batch with
      | frame :: batch =>
        if v.sending then
          { s with
            heap := lpFrameUnref (s.heap.touch frame.id) frame
            viewers := s.viewers.set i (sendNext v frame batch sent) }
        else s
      | [] => s
    | none => s
  | .drop i =>
    match s.viewers[i]? with
    | some v =>
      match v.batch with
      | frame :: batch =>
        if v.sending then s
        else { s with
          heap := lpFrameUnref s.heap frame
          viewers := s.viewers.set i { v with batch } }
      | [] => s
    | none => s
  | .create => { s with viewers := s.viewers ++ [.start] }
  | .collect i =>
    match s.viewers[i]? with
    | some v =>
      match v.session.queue with
      | frame :: queue =>
        if v.joined then
          { s with
            heap := lpFrameUnref s.heap frame
            viewers := s.viewers.set i { v with session := { v.session with queue } } }
        else s
      | [] => s
    | none => s
  | e =>
    match e.viewer with
    | some i =>
      match s.viewers[i]? with
      | some v =>
        match sessionStep (!s.media.holdsLock) v e with
        | some v' => { s with viewers := s.viewers.set i v' }
        | none => s
      | none => s
    | none => s

end Camstream.Lpstream
