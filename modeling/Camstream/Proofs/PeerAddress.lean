import Mathlib.Data.FinEnum
import Camstream.Proofs.SessionCore
import Camstream.Proofs.SessionMedia
import Camstream.Proofs.Watchdog

namespace Camstream.Proofs.PeerAddress
open Lib Webrtc SessionFrame Lifecycle SessionLife SessionCore

theorem octetText_reads : ∀ n : UInt8,
    digitsValue 10 (octetText n) = n.toNat ∧ dot ∉ octetText n := by
  decide +kernel

/-- Texts without a dot are told apart from what follows the first dot. -/
theorem dotted_split {x x' y y' : Bytes} (hx : dot ∉ x) (hx' : dot ∉ x')
    (h : x ++ dot :: y = x' ++ dot :: y') : x = x' ∧ y = y' := by
  induction x generalizing x' with
  | nil =>
    cases x' with
    | nil => exact ⟨rfl, (List.cons.inj h).2⟩
    | cons c x' =>
      obtain ⟨rfl, -⟩ := List.cons.inj h
      simp at hx'
  | cons c x ih =>
    cases x' with
    | nil =>
      obtain ⟨rfl, -⟩ := List.cons.inj h
      simp at hx
    | cons c' x' =>
      obtain ⟨rfl, htail⟩ := List.cons.inj h
      obtain ⟨rfl, rfl⟩ := ih (fun hc => hx (.tail _ hc)) (fun hc => hx' (.tail _ hc)) htail
      exact ⟨rfl, rfl⟩

theorem octetText_inj {a b : UInt8} (h : octetText a = octetText b) : a = b := by
  apply UInt8.toNat_inj.mp
  rw [← (octetText_reads a).1, ← (octetText_reads b).1, h]

/-- Two addresses that are written alike are the same. -/
theorem inetNtop_inj {a b : UInt32} (h : inetNtop a = inetNtop b) : a = b := by
  have hdot : ∀ n : UInt8, dot ∉ octetText n := fun n => (octetText_reads n).2
  unfold inetNtop at h
  obtain ⟨h1, h⟩ := dotted_split (hdot _) (hdot _) h
  obtain ⟨h2, h⟩ := dotted_split (hdot _) (hdot _) h
  obtain ⟨h3, h⟩ := dotted_split (hdot _) (hdot _) h
  have hbytes : ∀ {x y : UInt32}, octetText x.toUInt8 = octetText y.toUInt8 →
      x.toNat % 256 = y.toNat % 256 := by
    intro x y hxy
    simpa using congrArg UInt8.toNat (octetText_inj hxy)
  have h1' := hbytes h1
  have h2' := hbytes h2
  have h3' := hbytes h3
  have h4' := hbytes h
  simp only [UInt32.toNat_shiftRight, UInt32.reduceToNat, Nat.reduceMod,
    Nat.shiftRight_eq_div_pow] at h1' h2' h3'
  have ha := a.toNat_lt
  have hb := b.toNat_lt
  apply UInt32.toNat_inj.mp
  omega

def SockAddr.IsInet : SockAddr → Prop
  | .inet _ _ => True
  | .other _ => False

theorem formatPeer_inj {a b : SockAddr} (ha : SockAddr.IsInet a) (hb : SockAddr.IsInet b)
    (h : formatPeer a = formatPeer b) : a = b := by
  cases a with
  | other family => exact ha.elim
  | inet addr port =>
    cases b with
    | other family => exact hb.elim
    | inet addr' port' =>
      obtain ⟨htext, rfl⟩ := Prod.mk.inj h
      rw [inetNtop_inj htext]

/-- The datagrams of an event come from an IPv4 socket. -/
def FromInet : RtcEvent → Prop
  | .onUdp _ _ source => SockAddr.IsInet source
  | _ => True

/-- The source of a check that passes, while the session still looks at it. -/
def checkSource (hmac : HmacSha1) (s : RtcSession) : RtcEvent → Option SockAddr
  | .onUdp _ buffer source =>
    if s.state ≠ .closed ∧ passes hmac s.localPwd s.localUfrag buffer = true then some source
    else none
  | _ => none

/-- The source of the last check that passes in a run, `last` if there is none. -/
def latestFrom (hmac : HmacSha1) (last : Option SockAddr) (s : RtcSession) :
    List RtcEvent → Option SockAddr
  | [] => last
  | e :: events => latestFrom hmac ((checkSource hmac s e).or last) (s.step hmac e) events

def latestCheck (hmac : HmacSha1) (s : RtcSession) (events : List RtcEvent) : Option SockAddr :=
  latestFrom hmac none s events

def Core.peer (c : Core) : Option SockAddr := if c.haveRemote then some c.remote else none

theorem follow_peer {c : Core} {source : SockAddr} (hsource : SockAddr.IsInet source)
    (hpeer : ∀ r, Core.peer c = some r → SockAddr.IsInet r) :
    Core.peer (c.follow source) = some source := by
  unfold Core.follow
  split
  · rename_i h
    have hc : Core.peer c = some c.remote := if_pos h.1
    rw [hc, formatPeer_inj (hpeer _ hc) hsource h.2]
  · rfl

theorem pump_peer (c : Core) (turn : SslTurn) : Core.peer (c.pump turn) = Core.peer c := by
  rw [pump_frame]
  rfl

/-- A session knows the source of the check it has just passed, else what it knew. -/
theorem step_peer {hmac : HmacSha1} {s : RtcSession} (hc : (phaseOf s).Coupled) {e : RtcEvent}
    (hpeer : ∀ r, peerOf s = some r → SockAddr.IsInet r) (he : FromInet e) :
    peerOf (s.step hmac e) = (checkSource hmac s e).or (peerOf s) := by
  have hcore : peerOf (s.step hmac e) = Core.peer ((coreOf s).step hmac e) :=
    congrArg Core.peer (step_core hc e)
  rw [hcore]
  unfold Core.step
  by_cases hclosed : s.state = .closed
  · rw [coreOf_state, if_pos hclosed]
    cases e with
    | onUdp w buffer source => simp [checkSource, hclosed]; rfl
    | tick w now => rfl
    | sendAccessUnit w accessUnit ptsUs isIdr => rfl
    | close w => rfl
  rw [coreOf_state, if_neg hclosed]
  cases e with
  | onUdp w buffer source =>
    have hother : rtcClassifyPacket buffer ≠ .stun → checkSource hmac s (.onUdp w buffer source) = none := by
      intro hclass
      refine if_neg ?_
      rintro ⟨-, hpass⟩
      simp only [passes, Bool.and_eq_true] at hpass
      exact hclass (request_class hpass.1).1
    simp only [Core.receive]
    cases hclass : rtcClassifyPacket buffer with
    | stun =>
      simp only
      split
      · rename_i hpass
        have hcheck : checkSource hmac s (.onUdp w buffer source) = some source :=
          if_pos ⟨hclosed, hpass⟩
        rw [hcheck]
        exact @follow_peer { coreOf s with lastRxMs := w.rxMs } source he hpeer
      · rename_i hpass
        have hcheck : checkSource hmac s (.onUdp w buffer source) = none :=
          if_neg (fun h => hpass h.2)
        rw [hcheck]
        rfl
    | dtls =>
      rw [hother (by simp [hclass])]
      simp only
      split
      · exact pump_peer _ _
      · rfl
    | rtp =>
      rw [hother (by simp [hclass])]
      simp only
      split
      · unfold Core.hear
        split <;> rfl
      · rfl
    | other =>
      rw [hother (by simp [hclass])]
      rfl
  | tick w now =>
    simp only [Core.tick]
    split
    · rfl
    split
    · rfl
    split
    · exact pump_peer _ _
    · rfl
  | sendAccessUnit w accessUnit ptsUs isIdr => rfl
  | close w => rfl

theorem checkSource_inet {hmac : HmacSha1} {s : RtcSession} {e : RtcEvent} {r : SockAddr}
    (he : FromInet e) (h : checkSource hmac s e = some r) : SockAddr.IsInet r := by
  cases e with
  | onUdp w buffer source =>
    simp only [checkSource] at h
    split at h
    · cases h
      exact he
    · cases h
  | tick w now => cases h
  | sendAccessUnit w accessUnit ptsUs isIdr => cases h
  | close w => cases h

theorem run_peer {hmac : HmacSha1} {config : RtcSessionConfig} {s : RtcSession}
    (h : Alive config s) (hpeer : ∀ r, peerOf s = some r → SockAddr.IsInet r)
    (events : List RtcEvent) (hinet : ∀ e ∈ events, FromInet e) :
    peerOf (run (RtcSession.step hmac) s events) = latestFrom hmac (peerOf s) s events := by
  induction events generalizing s with
  | nil => rfl
  | cons e events ih =>
    have he : FromInet e := hinet e (by simp)
    have hone := @step_peer hmac s h.coupled e hpeer he
    rw [run_cons, ih (step_alive e h) ?_ (fun x hx => hinet x (by simp [hx])), hone]
    · rfl
    · intro r hr
      rw [hone] at hr
      rcases Option.or_eq_some_iff.mp hr with hc | ⟨-, hr⟩
      · exact checkSource_inet he hc
      · exact hpeer r hr

/-- Where the datagrams of a step go: STUN back to where the datagram at hand came
from, everything else to the peer. -/
def Addressed (peer : Option SockAddr) (e : RtcEvent) : Effect → Prop
  | .datagram .stun _ destination => ∃ w buffer, e = .onUdp w buffer destination
  | .datagram _ _ destination => peer = some destination
  | _ => True

theorem upkeep_addressed {peer : Option SockAddr} (e : RtcEvent) (x : Effect)
    (h : Feedback peer x) : Addressed peer e x := by
  cases x with
  | datagram path data destination =>
    cases path with
    | stun => exact h.elim
    | dtls => exact h
    | rtp => exact h.elim
    | rtcp => exact h
    | retransmit sequence => exact h
  | _ => trivial

theorem media_addressed {peer : Option SockAddr} (e : RtcEvent) (x : Effect)
    (h : Media peer x) : Addressed peer e x := by
  cases x with
  | datagram path data destination =>
    cases path with
    | rtp => exact h
    | stun => exact h.elim
    | dtls => exact h.elim
    | rtcp => exact h.elim
    | retransmit sequence => exact h.elim
  | _ => trivial

theorem reply_addressed {peer : Option SockAddr} (w : Answers) (buffer : Bytes) (source : SockAddr)
    (x : Effect) (h : Reply source x) : Addressed peer (.onUdp w buffer source) x := by
  cases x with
  | datagram path data destination =>
    cases path with
    | stun => exact ⟨w, buffer, by rw [show destination = source from h]⟩
    | dtls => exact h.elim
    | rtp => exact h.elim
    | rtcp => exact h.elim
    | retransmit sequence => exact h.elim
  | _ => trivial

theorem onUdp_addressed {hmac : HmacSha1} {s : RtcSession} (hc : (phaseOf s).Coupled) (w : Answers)
    (buffer : Bytes) (source : SockAddr) :
    ∃ added, (rtcSessionOnUdp hmac w s buffer source).effects = s.effects ++ added ∧
      ∀ x ∈ added, Addressed (peerOf s) (.onUdp w buffer source) x := by
  have hnone : ∃ added, s.effects = s.effects ++ added ∧
      ∀ x ∈ added, Addressed (peerOf s) (.onUdp w buffer source) x := ⟨[], by simp, by simp⟩
  unfold rtcSessionOnUdp
  split
  · exact hnone
  rename_i hopen
  simp only
  set t : RtcSession :=
    { s with stats := { s.stats with datagramsRx := s.stats.datagramsRx + 1 } } with ht
  cases rtcClassifyPacket buffer with
  | stun =>
    simp only
    cases hpass : passes hmac t.localPwd t.localUfrag buffer with
    | true =>
      rw [handleStun_passed hpass]
      obtain ⟨added, heq, hadded⟩ := (acceptStun_kept hmac w { t with
        stats := { t.stats with stunRx := t.stats.stunRx + 1 }, lastRxMs := w.rxMs } buffer source
        (formatPeer source).1 (formatPeer source).2).effects
      rw [(followPeer_media _ _ _ _).2.2] at heq
      exact ⟨added, heq, fun x hx => reply_addressed w buffer source x (hadded x hx)⟩
    | false =>
      obtain ⟨added, heq, hadded⟩ := (@handleStun_refused hmac w t buffer source
        (formatPeer source).1 (formatPeer source).2 hpass).1.effects
      exact ⟨added, heq, fun x hx => reply_addressed w buffer source x (hadded x hx)⟩
  | dtls =>
    simp only
    split
    · exact hnone
    · obtain ⟨added, heq, hadded⟩ :=
        (dtlsSrtpOnUdp_kept w { t with lastRxMs := w.rxMs } buffer).effects
      exact ⟨added, heq, fun x hx => upkeep_addressed _ x (upkeep_feedback x (hadded x hx))⟩
  | rtp =>
    simp only
    split
    · rename_i hrtcp
      have hs : s.state = .streaming := by
        simp only [Bool.and_eq_true, beq_iff_eq] at hrtcp
        exact hrtcp.2
      have hremote : s.haveRemote = true := (hc.streaming hs).1
      unfold handleRtcp
      simp only
      split
      · exact hnone
      split
      · rename_i plain hplain
        obtain ⟨added, heq, hadded⟩ :=
          (dtlsOnRtcp_kept w { t with lastRxMs := w.rxMs } plain hremote).effects
        exact ⟨added, heq, fun x hx => upkeep_addressed _ x (hadded x hx)⟩
      · exact hnone
    · exact hnone
  | other => exact hnone

theorem step_addressed {hmac : HmacSha1} {s : RtcSession} (hc : (phaseOf s).Coupled) (e : RtcEvent) :
    ∃ added, (s.step hmac e).effects = s.effects ++ added ∧
      ∀ x ∈ added, Addressed (peerOf s) e x := by
  cases e with
  | onUdp w buffer source => exact onUdp_addressed hc w buffer source
  | tick w now =>
    obtain ⟨added, heq, hadded⟩ := (rtcSessionTick_kept w s now).effects
    exact ⟨added, heq, fun x hx => upkeep_addressed _ x (upkeep_feedback x (hadded x hx))⟩
  | sendAccessUnit w accessUnit ptsUs isIdr =>
    obtain ⟨added, heq, hadded⟩ := (sendAccessUnit_held w s accessUnit ptsUs isIdr).effects
    exact ⟨added, heq, fun x hx => media_addressed _ x (hadded x hx)⟩
  | close w =>
    obtain ⟨added, heq, hadded⟩ := (rtcSessionClose_kept w s).effects
    exact ⟨added, heq, fun x hx => upkeep_addressed _ x (upkeep_feedback x (hadded x hx))⟩

/-- In every run with IPv4 sources the peer is the source of the latest check that
passed, there is a peer exactly when there was such a check, and the next call sends
STUN to where its datagram came from and everything else to that peer. Where libsrtp
protects every packet, no media that was handed over is missing on the wire. -/
theorem media_follows_latest_check (hmac : HmacSha1) {config : RtcSessionConfig}
    {a : CreateAnswers} {capacity : Nat} {s₀ : RtcSession} {answer : Bytes}
    (h : rtcSessionCreate config a capacity = some (s₀, answer)) (events : List RtcEvent)
    (hinet : ∀ e ∈ events, FromInet e) :
    let s := run (RtcSession.step hmac) s₀ events
    let latest := latestCheck hmac s₀ events
    s.haveRemote = latest.isSome ∧ (∀ r, latest = some r → s.remote = r) ∧
      (∀ e, ∃ added, (s.step hmac e).effects = s.effects ++ added ∧
        ∀ x ∈ added, Addressed latest e x) ∧
      ∀ unprotect, (∀ e ∈ events, SessionMedia.Opens unprotect e.answers) →
        SessionMedia.Carried unprotect s := by
  intro s latest
  have hnew : peerOf s₀ = none := if_neg (by
    rw [created_eq h]
    simp [newSession])
  have hpeer : peerOf s = latest := by
    refine (run_peer (created_alive h) (by simp [hnew]) events hinet).trans ?_
    rw [hnew]
    rfl
  have halive : Alive config s := run_alive h events
  refine ⟨?_, ?_, ?_, ?_⟩
  · rw [← hpeer, peerOf]
    cases s.haveRemote <;> rfl
  · intro r hr
    rw [← hpeer, peerOf] at hr
    split at hr
    · exact Option.some.inj hr
    · cases hr
  · intro e
    rw [← hpeer]
    exact step_addressed halive.coupled e
  · exact fun _ hopen => SessionMedia.run_carried hmac h events hopen

/-- After one check from `viewer`, media goes to `viewer`. -/
theorem media_follows_viewer :
    ∃ s₀ answer, rtcSessionCreate plainConfig plainCreate 4096 = some (s₀, answer) ∧
      (run (RtcSession.step StunAuth.zeroHmac) s₀
        [.onUdp stillAnswers Watchdog.loginRequest Watchdog.viewer]).remote = Watchdog.viewer := by
  obtain ⟨answer, h⟩ := plain_created
  have hlatest : latestCheck StunAuth.zeroHmac (newSession plainConfig plainCreate)
      [.onUdp stillAnswers Watchdog.loginRequest Watchdog.viewer] = some Watchdog.viewer := by
    decide +kernel
  refine ⟨_, answer, h, ?_⟩
  exact (media_follows_latest_check StunAuth.zeroHmac h
    [.onUdp stillAnswers Watchdog.loginRequest Watchdog.viewer]
    (by simp [FromInet, SockAddr.IsInet, Watchdog.viewer])).2.1 _ hlatest

end Camstream.Proofs.PeerAddress
