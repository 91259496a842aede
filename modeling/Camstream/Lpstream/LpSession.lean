import Camstream.Lib.Bytes

namespace Camstream.Lpstream
open Lib

/-- `LP_SESSION_MAILBOX`: frames waiting for the session thread. -/
def lpSessionMailbox : Nat := 8

/-- An encoded access unit shared by every session; `id` stands for the
pointer. Its contents never change after `lp_frame_create`. -/
structure LpFrame where
  id : Nat
  isIdr : Bool
  ptsUs : UInt64
  data : Bytes
deriving Repr, DecidableEq

/-- The mailbox of a session (under its lock), the flags its thread owns and
the counters both threads bump. `queue_head` is 0 whenever the lock is free,
so the queue is a list, oldest frame first. -/
structure LpSession where
  stop : Bool
  resync : Bool
  queue : List LpFrame
  connected : Bool
  finished : Bool
  framesSent : Nat
  bytesSent : Nat
  framesDropped : Nat
  waitingIdr : Bool
  forceIdr : Bool
deriving Repr, DecidableEq

/-- `calloc` in `lp_session_create`. -/
def lpSessionCreate : LpSession :=
  { stop := false, resync := false, queue := [], connected := false, finished := false,
    framesSent := 0, bytesSent := 0, framesDropped := 0, waitingIdr := false, forceIdr := false }

/-- A full mailbox is flushed and the viewer told to resume on an IDR. -/
def flushFull (s : LpSession) : LpSession :=
  if s.queue.length = lpSessionMailbox then
    { s with queue := [], resync := true, framesDropped := s.framesDropped + s.queue.length }
  else s

def lpSessionPushFrame (s : LpSession) (frame : LpFrame) : LpSession :=
  if s.stop || s.finished then s
  else { flushFull s with queue := (flushFull s).queue ++ [frame] }

def lpSessionResync (s : LpSession) : LpSession := { s with resync := true }

def lpSessionClose (s : LpSession) : LpSession := { s with stop := true }

/-- The queued frames and the resync flag, in one go. -/
def takeFrames (s : LpSession) : List LpFrame × Bool × LpSession :=
  (s.queue, s.resync, { s with queue := [], resync := false })

def dropFrames (s : LpSession) : LpSession := (takeFrames s).2.2

/-- The start of `send_frames`: take the batch and act on the flag. -/
def beginSend (s : LpSession) : List LpFrame × LpSession :=
  let (frames, resync, s) := takeFrames s
  (frames, if resync && !s.waitingIdr then { s with waitingIdr := true, forceIdr := true } else s)

/-- One turn of the loop of `send_frames`: whether the frame is handed to
`peer_connection_send_video`, whose result is `sent`. -/
def sendFrame (s : LpSession) (frame : LpFrame) (sent : Bool) : Bool × LpSession :=
  if s.waitingIdr && !frame.isIdr then
    (false, { s with framesDropped := s.framesDropped + 1 })
  else
    let s := { s with waitingIdr := false }
    (true, if sent then
        { s with framesSent := s.framesSent + 1, bytesSent := s.bytesSent + frame.data.length }
      else { s with framesDropped := s.framesDropped + 1 })

/-- The session thread sees the connection come up. -/
def becomeConnected (s : LpSession) : LpSession :=
  if s.connected then s else { s with connected := true, waitingIdr := true, forceIdr := true }

end Camstream.Lpstream
