import Camstream.Lib.Runs
import Camstream.Webrtc.DtlsSrtp

namespace Camstream.Webrtc
open Lib

/-- A session with every state that it was set to. What a callback does, such as closing the
session that failed, is a call of its own. -/
structure DtlsEngine where
  dtls : DtlsSrtp
  states : List DtlsSrtpState
deriving Repr, DecidableEq

/-- `dtls_set_state`. -/
def DtlsEngine.setState (e : DtlsEngine) (state : DtlsSrtpState) : DtlsEngine :=
  if e.dtls.state = state then e else ⟨{ e.dtls with state }, e.states ++ [state]⟩

/-- The end of `pump_ssl`. -/
def DtlsEngine.finish (e : DtlsEngine) (turn : SslTurn) : DtlsEngine :=
  if e.dtls.srtpReady || !turn.initFinished then e
  else
    match deriveSrtpKeys e.dtls turn.keys with
    | (false, dtls) =>
      DtlsEngine.setState { e with dtls := { dtls with
        failureReason := if dtls.failureReason = "" then "SRTP key derivation failed"
          else dtls.failureReason
        handshakeFailures := dtls.handshakeFailures + 1 } } .failed
    | (true, dtls) =>
      DtlsEngine.setState { e with dtls := { dtls with
        failureReason := "", handshakesCompleted := dtls.handshakesCompleted + 1 } } .connected

/-- OpenSSL takes datagrams from the queue. -/
def DtlsEngine.read (e : DtlsEngine) (turn : SslTurn) : DtlsEngine :=
  { e with dtls := { e.dtls with rxq := e.dtls.rxq.drop turn.consumed } }

def DtlsEngine.fail (e : DtlsEngine) (reason : String) (failures : Nat) : DtlsEngine :=
  DtlsEngine.setState { e with dtls := { e.dtls with
    failureReason := reason, handshakeFailures := e.dtls.handshakeFailures + failures } } .failed

/-- `pump_ssl`. -/
def DtlsEngine.pump (e : DtlsEngine) (turn : SslTurn) : DtlsEngine :=
  if e.dtls.state = .closed ∨ e.dtls.state = .failed then e
  else if !e.dtls.handshakeStarted then
    let e := (DtlsEngine.setState { e with dtls := { e.dtls with
      handshakeStarted := true
      handshakesStarted := e.dtls.handshakesStarted + 1 } } .handshaking).read turn
    match turn.result with
    | .progress => e.finish turn
    | .want => e.finish turn
    | .zero error => e.fail (acceptFailure error) 1
    | .error error => e.fail (acceptFailure error) 1
  else
    let e := e.read turn
    match turn.result with
    | .progress => e.finish turn
    | .want => e.finish turn
    | .zero _ => e.setState .closed
    | .error error => e.fail ("SSL_read: error " ++ toString error) 0

/-- The calls of `dtls_srtp.c` on one session, with what OpenSSL and libsrtp answer. -/
inductive DtlsCall
  | expect (fingerprint : Bytes)
  | onUdp (packet : Bytes) (turn : SslTurn)
  | tick (turn : SslTurn)
  | close

def DtlsEngine.step (e : DtlsEngine) : DtlsCall → DtlsEngine
  | .expect fingerprint => { e with dtls := dtlsSrtpSetExpectedFingerprint e.dtls fingerprint }
  | .onUdp packet turn =>
    if e.dtls.state = .failed ∨ e.dtls.state = .closed then e
    else DtlsEngine.pump { e with dtls := { e.dtls with rxq := rxqPush e.dtls.rxq packet } } turn
  | .tick turn => if e.dtls.state ≠ .handshaking then e else e.pump turn
  | .close => e.setState .closed

/-- All sessions of the process. A session that was destroyed gets no more calls, and what it
added to `g_stats` stays. -/
abbrev DtlsProcess : Type := List DtlsEngine

inductive DtlsEvent
  | create
  | call (i : Nat) (call : DtlsCall)

def DtlsProcess.step (p : DtlsProcess) : DtlsEvent → DtlsProcess
  | .create => p ++ [⟨dtlsSrtpSessionCreate, []⟩]
  | .call i call =>
    match p[i]? with
    | some e => p.set i (e.step call)
    | none => p

/-- `g_stats`. -/
structure DtlsSrtpGlobalStats where
  handshakesStarted : Nat
  handshakesCompleted : Nat
  handshakeFailures : Nat
  fingerprintMismatches : Nat
deriving Repr, DecidableEq

def dtlsSrtpGlobalStats (p : DtlsProcess) : DtlsSrtpGlobalStats where
  handshakesStarted := (p.map fun e => e.dtls.handshakesStarted).sum
  handshakesCompleted := (p.map fun e => e.dtls.handshakesCompleted).sum
  handshakeFailures := (p.map fun e => e.dtls.handshakeFailures).sum
  fingerprintMismatches := (p.map fun e => e.dtls.fingerprintMismatches).sum

end Camstream.Webrtc
