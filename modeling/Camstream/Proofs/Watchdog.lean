import Camstream.Proofs.SessionCore

namespace Camstream.Proofs.Watchdog
open Lib Webrtc SessionFrame Lifecycle SessionLife SessionCore

/-- OpenSSL ends the handshake in this turn, one way or the other. -/
def SslTurn.ends (turn : SslTurn) : Bool :=
  match turn.result with
  | .progress => turn.initFinished
  | .want => turn.initFinished
  | .zero _ => true
  | .error _ => true

/-- What a tick past the watchdog takes out of the waiting states: it has to find
the session in ICE (or past DTLS), idle for 15 s, or with a handshake that ends in
this very tick. -/
def Reaped (s : RtcSession) (w : Answers) (now : UInt64) : Prop :=
  s.state = .ice ∨ s.state = .streaming ∨ s.state = .closed ∨
    elapsedMs now s.lastRxMs > sessionIdleTimeoutMs ∨ (s.state = .dtls ∧ SslTurn.ends w.ssl = true)

theorem finish_ends {c : Core} {turn : SslTurn} (hs : c.state = .dtls) :
    ((c.finish turn).state = .streaming ∨ (c.finish turn).state = .closed) ↔
      turn.initFinished = true := by
  unfold Core.finish
  cases turn.initFinished with
  | false => simp [hs]
  | true =>
    rw [if_neg (by simp [hs])]
    split <;> simp

theorem pump_ends {c : Core} {turn : SslTurn} (hs : c.state = .dtls) :
    ((c.pump turn).state = .streaming ∨ (c.pump turn).state = .closed) ↔
      SslTurn.ends turn = true := by
  have hnot : ¬c.state = .ice := by simp [hs]
  unfold Core.pump SslTurn.ends
  simp only [if_neg hnot]
  cases turn.result with
  | progress => exact finish_ends hs
  | want => exact finish_ends hs
  | zero error => exact iff_of_true (.inr rfl) rfl
  | error error => exact iff_of_true (.inr rfl) rfl

/-- Past the watchdog, a tick leaves an open session streaming or closed exactly when
it is reaped. -/
theorem tick_ends {c : Core} {w : Answers} {now : UInt64} (hopen : c.state ≠ .closed)
    (hage : elapsedMs now c.createdMs > sessionDtlsWatchdogMs) :
    ((c.tick w now).state = .streaming ∨ (c.tick w now).state = .closed) ↔
      c.state = .ice ∨ c.state = .streaming ∨ elapsedMs now c.lastRxMs > sessionIdleTimeoutMs ∨
        (c.state = .dtls ∧ SslTurn.ends w.ssl = true) := by
  unfold Core.tick
  by_cases hidle : elapsedMs now c.lastRxMs > sessionIdleTimeoutMs
  · rw [if_pos hidle]
    exact iff_of_true (.inr rfl) (.inr (.inr (.inl hidle)))
  rw [if_neg hidle]
  cases hs : c.state with
  | new => simp [hs, hidle]
  | ice =>
    rw [if_pos ⟨rfl, hage⟩]
    exact iff_of_true (.inr rfl) (.inl rfl)
  | dtls =>
    rw [if_neg (by simp), if_pos rfl, pump_ends hs]
    simp [hidle]
  | streaming => simp [hs]
  | closed => exact absurd hs hopen

theorem tick_watchdog {w : Answers} {s : RtcSession} {now : UInt64} (hc : (phaseOf s).Coupled)
    (hage : elapsedMs now s.createdMs > sessionDtlsWatchdogMs) :
    ((rtcSessionTick w s now).state = .streaming ∨ (rtcSessionTick w s now).state = .closed) ↔
      Reaped s w now := by
  unfold Reaped
  by_cases hclosed : s.state = .closed
  · have hsame : rtcSessionTick w s now = s := if_pos hclosed
    simp [hsame, hclosed]
  · have hstate : (rtcSessionTick w s now).state = ((coreOf s).tick w now).state :=
      congrArg Core.state (tick_core hc hclosed)
    rw [hstate, tick_ends hclosed hage]
    simp [hclosed, coreOf]

/-- In every run, a tick more than 30 s after the session was created leaves it
streaming or closed exactly when it finds it reaped. -/
theorem watchdog_iff (hmac : HmacSha1) {config : RtcSessionConfig} {a : CreateAnswers}
    {capacity : Nat} {s₀ : RtcSession} {answer : Bytes}
    (h : rtcSessionCreate config a capacity = some (s₀, answer)) (events : List RtcEvent)
    (w : Answers) (now : UInt64) :
    let s := run (RtcSession.step hmac) s₀ events
    elapsedMs now s.createdMs > sessionDtlsWatchdogMs →
      (((s.step hmac (.tick w now)).state = .streaming ∨
        (s.step hmac (.tick w now)).state = .closed) ↔ Reaped s w now) :=
  fun hage => tick_watchdog (run_alive h events).coupled hage

/-- A session nobody ever spoke to is closed by the tick at 31 s. -/
theorem watchdog_iff_silent : ∃ (s₀ : RtcSession) (answer : Bytes),
    rtcSessionCreate plainConfig plainCreate 4096 = some (s₀, answer) ∧
      elapsedMs 31000 s₀.createdMs > sessionDtlsWatchdogMs ∧
        ((s₀.step StunAuth.zeroHmac (.tick stillAnswers 31000)).state = .streaming ∨
          (s₀.step StunAuth.zeroHmac (.tick stillAnswers 31000)).state = .closed) := by
  obtain ⟨answer, h⟩ := plain_created
  have hage : elapsedMs 31000 (newSession plainConfig plainCreate).createdMs >
      sessionDtlsWatchdogMs := by decide
  have hidle : elapsedMs 31000 (newSession plainConfig plainCreate).lastRxMs >
      sessionIdleTimeoutMs := by decide
  refine ⟨_, answer, h, hage, ?_⟩
  exact (watchdog_iff StunAuth.zeroHmac h [] stillAnswers 31000 hage).mpr
    (.inr (.inr (.inr (.inl hidle))))

/-- A check that names the fragment of `plainCreate`, good for `zeroHmac`. -/
def loginRequest : Bytes :=
  [0, 1, 0, 40, 0x21, 0x12, 0xA4, 0x42] ++ List.replicate 12 7 ++
    [0, 6, 0, 9] ++ List.replicate 8 97 ++ [58, 0, 0, 0] ++ [0, 8, 0, 20] ++ List.replicate 20 0

def viewer : SockAddr := .inet 0x0A000002 5000

/-- A peer that starts a handshake, never ends it and keeps answering STUN. -/
def stalledHandshake : List RtcEvent :=
  [.onUdp stillAnswers loginRequest viewer, .onUdp stillAnswers [22] viewer,
   .onUdp { stillAnswers with rxMs := 14000 } loginRequest viewer,
   .onUdp { stillAnswers with rxMs := 28000 } loginRequest viewer]

theorem stalled_handshake_kept :
    ¬∀ (hmac : HmacSha1) (config : RtcSessionConfig) (a : CreateAnswers) (capacity : Nat)
      (s₀ : RtcSession) (answer : Bytes), rtcSessionCreate config a capacity = some (s₀, answer) →
        ∀ (events : List RtcEvent) (w : Answers) (now : UInt64),
          let s := run (RtcSession.step hmac) s₀ events
          elapsedMs now s.createdMs > sessionDtlsWatchdogMs →
            (s.step hmac (.tick w now)).state = .streaming ∨
              (s.step hmac (.tick w now)).state = .closed := by
  intro hall
  obtain ⟨answer, h⟩ := plain_created
  have hrun : elapsedMs 31000 (run (RtcSession.step StunAuth.zeroHmac)
        (newSession plainConfig plainCreate) stalledHandshake).createdMs > sessionDtlsWatchdogMs ∧
      ((run (RtcSession.step StunAuth.zeroHmac) (newSession plainConfig plainCreate)
        stalledHandshake).step StunAuth.zeroHmac (.tick stillAnswers 31000)).state = .dtls := by
    decide +kernel
  have hor := hall StunAuth.zeroHmac plainConfig plainCreate 4096 _ answer h stalledHandshake
    stillAnswers 31000 hrun.1
  rw [hrun.2] at hor
  simp at hor

end Camstream.Proofs.Watchdog
