import Camstream.Proofs.SessionCore
import Camstream.Proofs.Watchdog

namespace Camstream.Proofs.Liveness
open Lib Webrtc SessionFrame Lifecycle SessionLife SessionCore

/-- A datagram that nothing vouches for: STUN that is no binding request or fails a
check, or SRTCP that is not unprotected. -/
def Unauthenticated (hmac : HmacSha1) (w : Answers) (s : RtcSession) (buffer : Bytes) : Prop :=
  match rtcClassifyPacket buffer with
  | .stun => passes hmac s.localPwd s.localUfrag buffer = false
  | .rtp => isRtcp w buffer = true ∧
      (buffer.length > 1500 ∨ dtlsSrtpUnprotectRtcp w s buffer = none)
  | .dtls => False
  | .other => False

/-- The fields that a datagram from a stranger has no business with. -/
structure Inert (s t : RtcSession) : Prop where
  state : t.state = s.state
  remote : t.remote = s.remote
  haveRemote : t.haveRemote = s.haveRemote
  retx : t.retx = s.retx
  lastRx : t.lastRxMs = s.lastRxMs

/-- The datagram is dropped before the liveness clock is set. -/
def Dropped (s : RtcSession) (buffer : Bytes) : Prop :=
  s.state = .closed ∨ (rtcClassifyPacket buffer = .rtp ∧ s.state ≠ .streaming)

/-- It is dropped, or the clock has not moved since it was set. -/
def Unnoticed (w : Answers) (s : RtcSession) (buffer : Bytes) : Prop :=
  Dropped s buffer ∨ w.rxMs = s.lastRxMs

theorem dropped_kept {hmac : HmacSha1} {w : Answers} {s : RtcSession} {buffer : Bytes}
    (source : SockAddr) (h : Dropped s buffer) :
    Kept (Reply source) s (rtcSessionOnUdp hmac w s buffer source) ∧
      (rtcSessionOnUdp hmac w s buffer source).state = s.state := by
  unfold rtcSessionOnUdp
  by_cases hclosed : s.state = .closed
  · rw [if_pos hclosed]
    exact ⟨.refl s, rfl⟩
  · obtain ⟨hclass, hs⟩ := h.resolve_left hclosed
    rw [if_neg hclosed, hclass]
    simp only
    rw [if_neg (by simp [hs])]
    exact ⟨stats_kept s _, rfl⟩

theorem handleRtcp_refused {P : Effect → Prop} {w : Answers} {s : RtcSession} {buffer : Bytes}
    (h : buffer.length > 1500 ∨ dtlsSrtpUnprotectRtcp w s buffer = none) :
    Kept P { s with lastRxMs := w.rxMs } (handleRtcp w s buffer) ∧
      (handleRtcp w s buffer).state = s.state := by
  unfold handleRtcp
  simp only
  split
  · exact ⟨.refl _, rfl⟩
  · rename_i hlen
    have hnone : dtlsSrtpUnprotectRtcp w { s with lastRxMs := w.rxMs } buffer = none :=
      h.resolve_left hlen
    rw [hnone]
    exact ⟨.refl _, rfl⟩

/-- What is not authenticated sets the liveness clock and nothing else. -/
theorem refused_kept {hmac : HmacSha1} {w : Answers} {s : RtcSession} {buffer : Bytes}
    (source : SockAddr) (h : Unauthenticated hmac w s buffer) (hreach : ¬Dropped s buffer) :
    Kept (Reply source) { s with lastRxMs := w.rxMs } (rtcSessionOnUdp hmac w s buffer source) ∧
      (rtcSessionOnUdp hmac w s buffer source).state = s.state := by
  obtain ⟨hopen, hlive⟩ := not_or.mp hreach
  unfold Unauthenticated at h
  unfold rtcSessionOnUdp
  rw [if_neg hopen]
  cases hclass : rtcClassifyPacket buffer with
  | dtls => rw [hclass] at h; exact h.elim
  | other => rw [hclass] at h; exact h.elim
  | stun =>
    rw [hclass] at h
    obtain ⟨hkept, hstate⟩ := @handleStun_refused hmac w
      { s with stats := { s.stats with datagramsRx := s.stats.datagramsRx + 1 } } buffer source
      (formatPeer source).1 (formatPeer source).2 h
    exact ⟨(stats_kept _ _).trans hkept, hstate⟩
  | rtp =>
    rw [hclass] at h
    obtain ⟨hrtcp, hrefused⟩ := h
    have hs : s.state = .streaming := by
      by_contra hs
      exact hlive ⟨hclass, hs⟩
    obtain ⟨hkept, hstate⟩ := @handleRtcp_refused (Reply source) w
      { s with stats := { s.stats with datagramsRx := s.stats.datagramsRx + 1 } } buffer hrefused
    simp only
    rw [if_pos (by simp [hrtcp, hs])]
    exact ⟨(stats_kept _ _).trans hkept, hstate⟩

/-- A datagram without authentication is inert exactly when it goes unnoticed. -/
theorem inert_iff {hmac : HmacSha1} {w : Answers} {s : RtcSession} {buffer : Bytes}
    (source : SockAddr) (h : Unauthenticated hmac w s buffer) :
    Inert s (rtcSessionOnUdp hmac w s buffer source) ↔ Unnoticed w s buffer := by
  by_cases hdrop : Dropped s buffer
  · obtain ⟨hkept, hstate⟩ := @dropped_kept hmac w s buffer source hdrop
    exact iff_of_true ⟨hstate, hkept.remote, hkept.haveRemote, hkept.retx, hkept.lastRx⟩ (.inl hdrop)
  · obtain ⟨hkept, hstate⟩ := refused_kept source h hdrop
    have hclock : (rtcSessionOnUdp hmac w s buffer source).lastRxMs = w.rxMs := hkept.lastRx
    constructor
    · intro hinert
      exact .inr (hclock.symm.trans hinert.lastRx)
    · rintro (hd | hsame)
      · exact absurd hd hdrop
      · exact ⟨hstate, hkept.remote, hkept.haveRemote, hkept.retx, hclock.trans hsame⟩

/-- `padded` is `events` with unauthenticated datagrams put in anywhere, each of them
unnoticed where it arrives. -/
inductive Padded (hmac : HmacSha1) : RtcSession → List RtcEvent → List RtcEvent → Prop
  | done (s : RtcSession) : Padded hmac s [] []
  | same {s : RtcSession} {events padded : List RtcEvent} (e : RtcEvent)
      (h : Padded hmac (s.step hmac e) events padded) : Padded hmac s (e :: events) (e :: padded)
  | more {s : RtcSession} {events padded : List RtcEvent} (w : Answers) (buffer : Bytes)
      (source : SockAddr) (hu : Unauthenticated hmac w s buffer) (hn : Unnoticed w s buffer)
      (h : Padded hmac (s.step hmac (.onUdp w buffer source)) events padded) :
    Padded hmac s events (.onUdp w buffer source :: padded)

theorem unnoticed_core {hmac : HmacSha1} {w : Answers} {s : RtcSession} {buffer : Bytes}
    (source : SockAddr) (hu : Unauthenticated hmac w s buffer) (hn : Unnoticed w s buffer) :
    coreOf (s.step hmac (.onUdp w buffer source)) = coreOf s := by
  by_cases hdrop : Dropped s buffer
  · obtain ⟨hkept, hstate⟩ := @dropped_kept hmac w s buffer source hdrop
    refine (kept_core hkept).trans ?_
    rw [hstate]
    rfl
  · obtain ⟨hkept, hstate⟩ := refused_kept source hu hdrop
    refine (kept_core hkept).trans ?_
    rw [hstate, hn.resolve_left hdrop]
    rfl

/-- What is put in this way does not show in the core of the session. -/
theorem padded_core {hmac : HmacSha1} {config : RtcSessionConfig} {s t : RtcSession}
    {events padded : List RtcEvent} (h : Padded hmac s events padded) (hs : Alive config s)
    (ht : Alive config t) (hst : coreOf s = coreOf t) :
    coreOf (run (RtcSession.step hmac) s padded) = coreOf (run (RtcSession.step hmac) t events) := by
  induction h generalizing t with
  | done s => exact hst
  | same e h ih =>
    refine ih (step_alive e hs) (step_alive e ht) ?_
    rw [step_core hs.coupled, step_core ht.coupled, hst]
  | more w buffer source hu hn h ih =>
    exact ih (step_alive _ hs) ht ((unnoticed_core source hu hn).trans hst)

/-- In every state a session reaches, an unauthenticated datagram is inert exactly
when it goes unnoticed; and any number of unnoticed ones, put in anywhere, leave the
state, the peer and the liveness clock as they are, and what every tick makes of them. -/
theorem unauthenticated_inert (hmac : HmacSha1) {config : RtcSessionConfig} {a : CreateAnswers}
    {capacity : Nat} {s₀ : RtcSession} {answer : Bytes}
    (h : rtcSessionCreate config a capacity = some (s₀, answer)) (events : List RtcEvent) :
    let s := run (RtcSession.step hmac) s₀ events
    (∀ (w : Answers) (buffer : Bytes) (source : SockAddr), Unauthenticated hmac w s buffer →
      (Inert s (s.step hmac (.onUdp w buffer source)) ↔ Unnoticed w s buffer)) ∧
    ∀ padded, Padded hmac s₀ events padded →
      let t := run (RtcSession.step hmac) s₀ padded
      t.state = s.state ∧ t.remote = s.remote ∧ t.haveRemote = s.haveRemote ∧
        t.lastRxMs = s.lastRxMs ∧ ∀ (w : Answers) (now : UInt64),
          (t.step hmac (.tick w now)).state = (s.step hmac (.tick w now)).state := by
  intro s
  refine ⟨fun w buffer source hu => inert_iff source hu, ?_⟩
  intro padded hp t
  have hcore : coreOf t = coreOf s := padded_core hp (created_alive h) (created_alive h) rfl
  have halive : Alive config s := run_alive h events
  have halive' : Alive config t := run_alive h padded
  refine ⟨congrArg Core.state hcore, congrArg Core.remote hcore, congrArg Core.haveRemote hcore,
    congrArg Core.lastRxMs hcore, ?_⟩
  intro w now
  have htick : coreOf (t.step hmac (.tick w now)) = coreOf (s.step hmac (.tick w now)) := by
    rw [step_core halive'.coupled, step_core halive.coupled, hcore]
  exact congrArg Core.state htick

/-- `StunAuth.bareRequest` names nobody, so that the plain session refuses it. -/
theorem bare_unauthenticated {s₀ : RtcSession} {answer : Bytes} (w : Answers)
    (h : rtcSessionCreate plainConfig plainCreate 4096 = some (s₀, answer)) :
    Unauthenticated StunAuth.zeroHmac w s₀ StunAuth.bareRequest := by
  have hclass : rtcClassifyPacket StunAuth.bareRequest = .stun := by decide
  unfold Unauthenticated
  rw [hclass, created_eq h]
  simp only
  decide +kernel

/-- A refused check that arrives the moment the session is created is inert. -/
theorem unauthenticated_inert_at_once :
    ∃ s₀ answer, rtcSessionCreate plainConfig plainCreate 4096 = some (s₀, answer) ∧
      Inert s₀ (s₀.step StunAuth.zeroHmac (.onUdp stillAnswers StunAuth.bareRequest Watchdog.viewer)) := by
  obtain ⟨answer, h⟩ := plain_created
  have hclock : (newSession plainConfig plainCreate).lastRxMs = 0 := rfl
  refine ⟨_, answer, h, ?_⟩
  exact ((unauthenticated_inert StunAuth.zeroHmac h []).1 stillAnswers StunAuth.bareRequest
    Watchdog.viewer (bare_unauthenticated stillAnswers h)).mpr (.inr hclock.symm)

/-- One refused check at 10 s keeps a session that nobody speaks to over its tick at
16 s. -/
theorem refused_check_keeps_session :
    ¬∀ (hmac : HmacSha1) (config : RtcSessionConfig) (a : CreateAnswers) (capacity : Nat)
      (s₀ : RtcSession) (answer : Bytes), rtcSessionCreate config a capacity = some (s₀, answer) →
        ∀ (events : List RtcEvent) (w : Answers) (buffer : Bytes) (source : SockAddr),
          let s := run (RtcSession.step hmac) s₀ events
          Unauthenticated hmac w s buffer →
            Inert s (s.step hmac (.onUdp w buffer source)) ∧ ∀ (w' : Answers) (now : UInt64),
              ((s.step hmac (.onUdp w buffer source)).step hmac (.tick w' now)).state =
                (s.step hmac (.tick w' now)).state := by
  intro hall
  obtain ⟨answer, h⟩ := plain_created
  have hrun : (((newSession plainConfig plainCreate).step StunAuth.zeroHmac
        (.onUdp { stillAnswers with rxMs := 10000 } StunAuth.bareRequest Watchdog.viewer)).step
          StunAuth.zeroHmac (.tick stillAnswers 16000)).state = .new ∧
      ((newSession plainConfig plainCreate).step StunAuth.zeroHmac
        (.tick stillAnswers 16000)).state = .closed := by
    decide +kernel
  obtain ⟨hkept, hclosed⟩ := hrun
  have hsame := (hall StunAuth.zeroHmac plainConfig plainCreate 4096 _ answer h []
    { stillAnswers with rxMs := 10000 } StunAuth.bareRequest Watchdog.viewer
    (bare_unauthenticated _ h)).2 stillAnswers 16000
  cases hkept.symm.trans (hsame.trans hclosed)

end Camstream.Proofs.Liveness
