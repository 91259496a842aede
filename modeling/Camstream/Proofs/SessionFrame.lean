import Camstream.Proofs.RtpPlan
import Camstream.Webrtc.SessionApi

namespace Camstream.Proofs.SessionFrame
open Lib Webrtc

/-- What the session machinery leaves alone on the way from `s` to `t`, and that
every effect it adds satisfies `P`. -/
structure Kept (P : Effect → Prop) (s t : RtcSession) : Prop where
  ufrag : t.localUfrag = s.localUfrag
  pwd : t.localPwd = s.localPwd
  remote : t.remote = s.remote
  haveRemote : t.haveRemote = s.haveRemote
  rtp : t.rtp = s.rtp
  created : t.createdMs = s.createdMs
  lastRx : t.lastRxMs = s.lastRxMs
  retx : t.retx = s.retx
  idrHook : t.onIdrRequest = s.onIdrRequest
  closedHook : t.onClosed = s.onClosed
  fingerprint : t.dtls.expectedFingerprint = s.dtls.expectedFingerprint
  effects : ∃ added, t.effects = s.effects ++ added ∧ ∀ e ∈ added, P e

theorem Kept.refl {P : Effect → Prop} (s : RtcSession) : Kept P s s :=
  ⟨rfl, rfl, rfl, rfl, rfl, rfl, rfl, rfl, rfl, rfl, rfl, [], by simp, by simp⟩

theorem Kept.trans {P : Effect → Prop} {a b c : RtcSession} (h : Kept P a b) (h' : Kept P b c) :
    Kept P a c := by
  obtain ⟨xs, hx, hpx⟩ := h.effects
  obtain ⟨ys, hy, hpy⟩ := h'.effects
  refine ⟨h'.ufrag.trans h.ufrag, h'.pwd.trans h.pwd, h'.remote.trans h.remote,
    h'.haveRemote.trans h.haveRemote, h'.rtp.trans h.rtp, h'.created.trans h.created,
    h'.lastRx.trans h.lastRx, h'.retx.trans h.retx, h'.idrHook.trans h.idrHook,
    h'.closedHook.trans h.closedHook, h'.fingerprint.trans h.fingerprint, xs ++ ys, ?_, ?_⟩
  · rw [hy, hx, List.append_assoc]
  · intro e he
    rcases List.mem_append.mp he with he | he
    · exact hpx e he
    · exact hpy e he

theorem Kept.mono {P Q : Effect → Prop} {s t : RtcSession} (h : Kept P s t) (hpq : ∀ e, P e → Q e) :
    Kept Q s t := by
  obtain ⟨added, ha, hp⟩ := h.effects
  exact { h with effects := ⟨added, ha, fun e he => hpq e (hp e he)⟩ }

/-- One effect and a change of counters. -/
theorem kept_did {P : Effect → Prop} (s : RtcSession) (e : Effect) (he : P e)
    (stats : RtcSessionStats) : Kept P s { s.did e with stats } :=
  ⟨rfl, rfl, rfl, rfl, rfl, rfl, rfl, rfl, rfl, rfl, rfl, [e], rfl, by simpa using he⟩

theorem kept_foldl {α : Type} {P : Effect → Prop} {f : RtcSession → α → RtcSession}
    (hf : ∀ s a, Kept P s (f s a)) (s : RtcSession) (l : List α) : Kept P s (l.foldl f s) := by
  induction l generalizing s with
  | nil => exact .refl s
  | cons a l ih => exact (hf s a).trans (ih (f s a))

theorem sessionSendto_kept {P : Effect → Prop} (w : Answers) (s : RtcSession) (path : SendPath)
    (data : Bytes) (destination : SockAddr) (hp : P (.datagram path data destination)) :
    Kept P s (sessionSendto w s path data destination).2 := by
  unfold sessionSendto
  simp only
  split
  · exact kept_did s _ hp s.stats
  · exact kept_did s _ hp _

/-- Where a session sends its media, once it knows. -/
def peerOf (s : RtcSession) : Option SockAddr := if s.haveRemote then some s.remote else none

/-- Effects of the DTLS machinery, the timers and the reports of a session: what is
sent goes to the peer. -/
def Upkeep (peer : Option SockAddr) : Effect → Prop
  | .state _ => True
  | .datagram .dtls _ destination => peer = some destination
  | .datagram .rtcp _ destination => peer = some destination
  | .idrRequest => True
  | .closed => True
  | _ => False

/-- `Kept` with the effects of the machinery of `s`. -/
abbrev KeptUp (s t : RtcSession) : Prop := Kept (Upkeep (peerOf s)) s t

theorem Kept.peer {P : Effect → Prop} {s t : RtcSession} (h : Kept P s t) : peerOf t = peerOf s := by
  unfold peerOf
  rw [h.remote, h.haveRemote]

theorem KeptUp.trans {a b c : RtcSession} (h : KeptUp a b) (h' : KeptUp b c) : KeptUp a c := by
  have h'' : Kept (Upkeep (peerOf a)) b c := by rw [← h.peer]; exact h'
  exact Kept.trans h h''

theorem setState_kept (s : RtcSession) (state : RtcSessionState) : KeptUp s (setState s state) := by
  unfold setState
  split
  · exact .refl s
  · exact ⟨rfl, rfl, rfl, rfl, rfl, rfl, rfl, rfl, rfl, rfl, rfl, [.state state], rfl,
      by simp [Upkeep]⟩

theorem dtlsSendUdp_kept {P : Effect → Prop} (w : Answers) (path : SendPath) (s : RtcSession)
    (packet : Bytes) (hp : peerOf s = some s.remote → P (.datagram path packet s.remote)) :
    Kept P s (dtlsSendUdp w path s packet) := by
  unfold dtlsSendUdp
  split
  · rename_i hremote
    exact sessionSendto_kept w s path packet s.remote (hp (if_pos hremote))
  · exact .refl s

theorem writeRecords_kept (w : Answers) (s : RtcSession) (records : List Bytes) :
    KeptUp s (writeRecords w s records) := by
  induction records generalizing s with
  | nil => exact .refl s
  | cons record records ih =>
    simp only [writeRecords, List.foldl_cons] at ih ⊢
    have hone : KeptUp s (if record.isEmpty then s else dtlsSendUdp w .dtls s record) := by
      split
      · exact .refl s
      · exact dtlsSendUdp_kept w .dtls s record id
    exact hone.trans (ih _)

/-- A change of the DTLS engine that leaves the expected fingerprint. -/
theorem dtls_kept {P : Effect → Prop} (s : RtcSession) (dtls : DtlsSrtp)
    (h : dtls.expectedFingerprint = s.dtls.expectedFingerprint) : Kept P s { s with dtls } :=
  ⟨rfl, rfl, rfl, rfl, rfl, rfl, rfl, rfl, rfl, rfl, h, [], by simp, by simp⟩

/-- What follows a change of the DTLS engine. -/
theorem KeptUp.afterDtls {s t : RtcSession} {dtls : DtlsSrtp} (h : KeptUp { s with dtls } t)
    (hf : dtls.expectedFingerprint = s.dtls.expectedFingerprint) : KeptUp s t :=
  KeptUp.trans (dtls_kept s dtls hf) h

theorem stats_kept {P : Effect → Prop} (s : RtcSession) (stats : RtcSessionStats) :
    Kept P s { s with stats } :=
  ⟨rfl, rfl, rfl, rfl, rfl, rfl, rfl, rfl, rfl, rfl, rfl, [], by simp, by simp⟩

theorem rtcSessionClose_closed {w : Answers} {s : RtcSession} (h : s.state = .closed) :
    rtcSessionClose w s = s := by
  rw [rtcSessionClose, dif_pos h]

/-- A session that is marked closed, with its DTLS engine shut down. -/
def shutDown (w : Answers) (s : RtcSession) : RtcSession :=
  let s := { s with state := .closed }.did (.state .closed)
  let s := if s.dtls.state = .connected then writeRecords w s w.shutdownRecords else s
  { s with dtls := { s.dtls with state := .closed } }

/-- The re-entrant calls unwind to one close sequence. -/
theorem rtcSessionClose_open {w : Answers} {s : RtcSession} (h : s.state ≠ .closed) :
    rtcSessionClose w s =
      if (shutDown w s).onClosed then (shutDown w s).did .closed else shutDown w s := by
  have hset : setState s .closed = { s with state := .closed }.did (.state .closed) := by
    rw [setState, if_neg h]
  have hdtls : ∀ t : RtcSession, t.state = .closed →
      dtlsSetState w t .closed = { t with dtls := { t.dtls with state := .closed } } := by
    intro t ht
    rw [dtlsSetState]
    split
    · rename_i hc
      rw [← hc]
    · rw [dtlsOnState]
      exact rtcSessionClose_closed ht
  have hclose : dtlsSrtpClose w (setState s .closed) = shutDown w s := by
    rw [dtlsSrtpClose, hset, hdtls]
    · rfl
    · split
      · exact writeRecords_state _ _ _
      · rfl
  rw [rtcSessionClose, dif_neg h]
  simp only [hclose]

theorem shutDown_kept (w : Answers) (s : RtcSession) : KeptUp s (shutDown w s) := by
  have hmark : KeptUp s ({ s with state := .closed }.did (.state .closed)) :=
    ⟨rfl, rfl, rfl, rfl, rfl, rfl, rfl, rfl, rfl, rfl, rfl, [.state .closed], rfl, by simp [Upkeep]⟩
  unfold shutDown
  simp only
  split
  · exact (hmark.trans (writeRecords_kept w _ _)).trans (dtls_kept _ _ rfl)
  · exact hmark.trans (dtls_kept _ _ rfl)

theorem rtcSessionClose_kept (w : Answers) (s : RtcSession) : KeptUp s (rtcSessionClose w s) := by
  by_cases h : s.state = .closed
  · rw [rtcSessionClose_closed h]
    exact .refl s
  · rw [rtcSessionClose_open h]
    split
    · exact (shutDown_kept w s).trans (kept_did _ .closed trivial _)
    · exact shutDown_kept w s

theorem dtlsOnState_kept (w : Answers) (s : RtcSession) (state : DtlsSrtpState) :
    KeptUp s (dtlsOnState w s state) := by
  rw [dtlsOnState.eq_def]
  cases state with
  | handshaking => exact setState_kept s .dtls
  | failed => exact rtcSessionClose_kept w s
  | closed => exact rtcSessionClose_kept w s
  | init => exact .refl s
  | connected => exact .refl s

theorem dtlsSetState_kept (w : Answers) (s : RtcSession) (state : DtlsSrtpState) :
    KeptUp s (dtlsSetState w s state) := by
  rw [dtlsSetState]
  split
  · exact .refl s
  · exact KeptUp.afterDtls (dtlsOnState_kept w _ state) rfl

theorem rtcSessionRequestIdr_kept (w : Answers) (s : RtcSession) :
    KeptUp s (rtcSessionRequestIdr w s) := by
  unfold rtcSessionRequestIdr
  split
  · exact .refl s
  split
  · exact .refl s
  · exact ⟨rfl, rfl, rfl, rfl, rfl, rfl, rfl, rfl, rfl, rfl, rfl, [.idrRequest], rfl,
      by simp [Upkeep]⟩

theorem nextSr_kept {P : Effect → Prop} (s : RtcSession) (nextSrMs : UInt64) :
    Kept P s { s with nextSrMs } :=
  ⟨rfl, rfl, rfl, rfl, rfl, rfl, rfl, rfl, rfl, rfl, rfl, [], by simp, by simp⟩

theorem dtlsOnConnected_kept (w : Answers) (s : RtcSession) : KeptUp s (dtlsOnConnected w s) := by
  unfold dtlsOnConnected
  exact (((setState_kept s .streaming).trans (stats_kept _ _)).trans
    (rtcSessionRequestIdr_kept w _)).trans (nextSr_kept _ _)

/-- Two engines that differ in texts, counters and the receive queue only. -/
structure SameEngine (d d' : DtlsSrtp) : Prop where
  state : d'.state = d.state
  ready : d'.srtpReady = d.srtpReady
  fingerprint : d'.expectedFingerprint = d.expectedFingerprint
  started : d'.handshakeStarted = d.handshakeStarted

/-- The peer certificate passes the comparison, or none is made. -/
def Vouched (expected : Bytes) (peer : PeerCertificate) : Prop :=
  expected = [] ∨ ∃ digest, peer = .sha256 digest ∧ fingerprintHexEqual expected digest.bytes = true

theorem verifyFingerprint_spec (d : DtlsSrtp) (peer : PeerCertificate) :
    ((verifyFingerprint d peer).1 = true ↔ Vouched d.expectedFingerprint peer) ∧
      SameEngine d (verifyFingerprint d peer).2 := by
  unfold verifyFingerprint Vouched
  split
  · rename_i he
    exact ⟨iff_of_true rfl (.inl (by simpa using he)), rfl, rfl, rfl, rfl⟩
  · rename_i he
    have hne : d.expectedFingerprint ≠ [] := by simpa using he
    cases peer with
    | missing => exact ⟨by simp [hne], rfl, rfl, rfl, rfl⟩
    | undigested => exact ⟨by simp [hne], rfl, rfl, rfl, rfl⟩
    | sha256 digest =>
      simp only
      split
      · rename_i hm
        exact ⟨by simp [hne, hm], rfl, rfl, rfl, rfl⟩
      · rename_i hm
        exact ⟨by simp [hne, hm], rfl, rfl, rfl, rfl⟩

/-- Everything the keys need besides the certificate. -/
def KeyExport.usable (keys : KeyExport) : Bool :=
  keys.profileSelected && keys.exported && keys.outboundCreated && keys.inboundCreated

/-- The keys stand exactly when the export succeeded and the certificate is
vouched for. -/
theorem deriveSrtpKeys_spec (d : DtlsSrtp) (keys : KeyExport) :
    ((deriveSrtpKeys d keys).1 = true ↔
        KeyExport.usable keys = true ∧ Vouched d.expectedFingerprint keys.peer) ∧
      SameEngine { d with srtpReady := (deriveSrtpKeys d keys).1 || d.srtpReady }
        (deriveSrtpKeys d keys).2 := by
  obtain ⟨hv, hs⟩ := verifyFingerprint_spec d keys.peer
  unfold deriveSrtpKeys KeyExport.usable
  split
  · rename_i hp
    have hp' : keys.profileSelected = false := by simpa using hp
    exact ⟨by simp [hp'], rfl, rfl, rfl, rfl⟩
  · rename_i hp
    have hp' : keys.profileSelected = true := by simpa using hp
    split
    · rename_i he
      refine ⟨?_, rfl, rfl, rfl, rfl⟩
      simp only [Bool.false_eq_true, false_iff, not_and, Bool.and_eq_true]
      intro hall
      simp [hall] at he
    · rename_i he
      simp only [Bool.or_eq_true, Bool.not_eq_true', not_or, Bool.not_eq_false] at he
      split
      · rename_i d' heq
        rw [heq] at hv hs
        exact ⟨by simpa [hp', he] using hv, hs.state, hs.ready, hs.fingerprint, hs.started⟩
      · rename_i d' heq
        rw [heq] at hv hs
        exact ⟨by simpa [hp', he] using hv, hs.state, by simp, hs.fingerprint, hs.started⟩

theorem finishHandshake_kept (w : Answers) (s : RtcSession) : KeptUp s (finishHandshake w s) := by
  obtain ⟨-, hs⟩ := deriveSrtpKeys_spec s.dtls w.ssl.keys
  unfold finishHandshake
  split
  · exact .refl s
  · split
    · rename_i d heq
      rw [heq] at hs
      exact KeptUp.afterDtls (dtlsSetState_kept w _ .failed) hs.fingerprint
    · rename_i d heq
      rw [heq] at hs
      refine KeptUp.trans ?_ (dtlsOnConnected_kept w _)
      exact KeptUp.afterDtls (dtlsSetState_kept w _ .connected) hs.fingerprint

theorem sslTurn_kept (w : Answers) (s : RtcSession) : KeptUp s (sslTurn w s) :=
  KeptUp.afterDtls (writeRecords_kept w _ _) rfl

theorem startHandshake_kept (w : Answers) (s : RtcSession) : KeptUp s (startHandshake w s) := by
  refine KeptUp.trans ?_ (sslTurn_kept w _)
  exact KeptUp.afterDtls (dtlsSetState_kept w _ .handshaking) rfl

theorem failHandshake_kept (w : Answers) (s : RtcSession) (reason : String) (failures : Nat) :
    KeptUp s (failHandshake w s reason failures) :=
  KeptUp.afterDtls (dtlsSetState_kept w _ .failed) rfl

theorem pumpSsl_kept (w : Answers) (s : RtcSession) : KeptUp s (pumpSsl w s) := by
  unfold pumpSsl
  split
  · exact .refl s
  split
  · have hs := startHandshake_kept w s
    cases w.ssl.result with
    | progress => exact hs.trans (finishHandshake_kept w _)
    | want => exact hs.trans (finishHandshake_kept w _)
    | zero error => exact hs.trans (failHandshake_kept w _ _ _)
    | error error => exact hs.trans (failHandshake_kept w _ _ _)
  · have hs := sslTurn_kept w s
    cases w.ssl.result with
    | progress => exact hs.trans (finishHandshake_kept w _)
    | want => exact hs.trans (finishHandshake_kept w _)
    | zero error => exact hs.trans (dtlsSetState_kept w _ .closed)
    | error error => exact hs.trans (failHandshake_kept w _ _ _)

theorem dtlsSrtpOnUdp_kept (w : Answers) (s : RtcSession) (packet : Bytes) :
    KeptUp s (dtlsSrtpOnUdp w s packet) := by
  unfold dtlsSrtpOnUdp
  split
  · exact .refl s
  · exact KeptUp.afterDtls (pumpSsl_kept w _) rfl

theorem dtlsSrtpTick_kept (w : Answers) (s : RtcSession) : KeptUp s (dtlsSrtpTick w s) := by
  unfold dtlsSrtpTick
  split
  · exact .refl s
  · exact (writeRecords_kept w s _).trans (pumpSsl_kept w _)

theorem sendReport_kept (w : Answers) (s : RtcSession) (now : UInt64) :
    KeptUp s (sendReport w s now) := by
  unfold sendReport dtlsSrtpSendRtcp
  simp only
  refine KeptUp.trans ?_ (nextSr_kept _ _)
  split
  · split
    · rename_i t heq
      split at heq
      · cases heq
      · split at heq
        · cases heq
        · cases heq
          exact KeptUp.trans (dtlsSendUdp_kept w .rtcp s _ id) (stats_kept _ _)
    · rename_i t heq
      split at heq
      · cases heq
        exact .refl s
      · split at heq
        · cases heq
          exact .refl s
        · cases heq
  · exact .refl s

theorem rtcSessionTick_kept (w : Answers) (s : RtcSession) (now : UInt64) :
    KeptUp s (rtcSessionTick w s now) := by
  unfold rtcSessionTick
  split
  · exact .refl s
  split
  · exact rtcSessionClose_kept w s
  split
  · exact rtcSessionClose_kept w s
  · simp only
    split
    · exact (dtlsSrtpTick_kept w s).trans (sendReport_kept w _ now)
    · exact dtlsSrtpTick_kept w s

/-- Effects of answering a check from `source`. -/
def Reply (source : SockAddr) : Effect → Prop
  | .state _ => True
  | .datagram .stun _ destination => destination = source
  | _ => False

theorem rejectStun_kept (w : Answers) (s : RtcSession) (buffer : Bytes) (source : SockAddr) :
    Kept (Reply source) s (rejectStun w s buffer source) := by
  unfold rejectStun stunSendError
  split
  · exact (stats_kept s _).trans (sessionSendto_kept w _ .stun _ source rfl)
  · exact stats_kept s _

theorem followPeer_media (s : RtcSession) (source : SockAddr) (ip : Bytes) (port : UInt16) :
    (followPeer s source ip port).rtp = s.rtp ∧ (followPeer s source ip port).retx = s.retx ∧
      (followPeer s source ip port).effects = s.effects := by
  unfold followPeer
  split
  · exact ⟨rfl, rfl, rfl⟩
  · split <;> exact ⟨rfl, rfl, rfl⟩

/-- Behind the choice of the peer, an accepted check only tells. -/
theorem acceptStun_kept (hmac : HmacSha1) (w : Answers) (s : RtcSession) (buffer : Bytes)
    (source : SockAddr) (ip : Bytes) (port : UInt16) :
    Kept (Reply source)
      (followPeer { s with stats := { s.stats with stunOk := s.stats.stunOk + 1 } } source ip port)
      (acceptStun hmac w s buffer source ip port) := by
  unfold acceptStun
  simp only
  generalize followPeer { s with stats := { s.stats with stunOk := s.stats.stunOk + 1 } } source ip
    port = t
  have hstate : Kept (Reply source) t (if t.state = .new then setState t .ice else t) := by
    split
    · unfold setState
      split
      · exact .refl t
      · exact ⟨rfl, rfl, rfl, rfl, rfl, rfl, rfl, rfl, rfl, rfl, rfl, [.state .ice], rfl,
          by simp [Reply]⟩
    · exact .refl t
  split
  · exact hstate.trans (sessionSendto_kept w _ .stun _ source rfl)
  · exact hstate

/-- Effects of feedback from the peer. -/
def Feedback (peer : Option SockAddr) : Effect → Prop
  | .datagram (.retransmit _) _ destination => peer = some destination
  | e => Upkeep peer e

theorem upkeep_feedback {peer : Option SockAddr} (e : Effect) (h : Upkeep peer e) :
    Feedback peer e := by
  cases e with
  | datagram path data destination =>
    cases path with
    | retransmit sequence => exact h.elim
    | stun => exact h
    | dtls => exact h
    | rtp => exact h
    | rtcp => exact h
  | state state => exact h
  | rtp sequence protectedPacket => exact h
  | packetize accessUnit isIdr => exact h
  | idrRequest => exact h
  | closed => exact h

theorem answerNack_kept {P : Effect → Prop} (w : Answers) (s : RtcSession) (seq : UInt16)
    (hp : ∀ data, P (.datagram (.retransmit seq) data s.remote)) :
    Kept P s (answerNack w s seq) := by
  unfold answerNack
  simp only
  split
  · exact .refl s
  · have hsend := sessionSendto_kept w s (.retransmit seq)
      ((s.retx (seq.toNat % retxCacheSize)).data.take (s.retx (seq.toNat % retxCacheSize)).len)
      s.remote (hp _)
    split
    · rename_i t heq
      rw [heq] at hsend
      exact hsend.trans (stats_kept t _)
    · rename_i t heq
      rw [heq] at hsend
      exact hsend

theorem handleNacks_kept (w : Answers) (s : RtcSession) (feedback : RtcpFeedback)
    (hremote : s.haveRemote = true) :
    Kept (Feedback (peerOf s)) s (handleNacks w s feedback) := by
  unfold handleNacks
  generalize feedback.nackSeq = seqs
  have hkeep : ∀ t, Kept (Feedback (peerOf s)) s t →
      Kept (Feedback (peerOf s)) s (seqs.foldl (answerNack w) t) := by
    induction seqs with
    | nil => exact fun t h => h
    | cons seq seqs ih =>
      intro t h
      refine ih _ (h.trans (answerNack_kept w t seq fun data => ?_))
      rw [h.remote]
      exact if_pos hremote
  exact hkeep s (.refl s)

/-- What feedback changes before its NACKs are answered. -/
def noteFeedback (w : Answers) (s : RtcSession) (feedback : RtcpFeedback) : RtcSession :=
  let ssrc := rtpH264Ssrc s.rtp
  let s := if feedback.pli > 0 ∨ feedback.fir > 0 then
      rtcSessionRequestIdr w { s with stats := { s.stats with
        pliReceived := s.stats.pliReceived + feedback.pli + feedback.fir } }
    else s
  let s := if feedback.hasRr && feedback.rrSsrc == ssrc then noteReport w s feedback else s
  { s with stats := { s.stats with
      nacksReceived := s.stats.nacksReceived + feedback.nackSeq.length } }

theorem dtlsOnRtcp_eq (w : Answers) (s : RtcSession) (packet : Bytes) :
    dtlsOnRtcp w s packet =
      if (rtcpParse packet (rtpH264Ssrc s.rtp)).bye then rtcSessionClose w s
      else handleNacks w (noteFeedback w s (rtcpParse packet (rtpH264Ssrc s.rtp)))
        (rtcpParse packet (rtpH264Ssrc s.rtp)) := by
  unfold dtlsOnRtcp noteFeedback
  simp only
  split
  · rfl
  split
  · rfl
  · rename_i hnone
    have hnil : (rtcpParse packet (rtpH264Ssrc s.rtp)).nackSeq = [] :=
      List.eq_nil_of_length_eq_zero (by omega)
    simp only [handleNacks, hnil, List.foldl_nil, List.length_nil, Nat.add_zero]

theorem noteFeedback_kept (w : Answers) (s : RtcSession) (feedback : RtcpFeedback) :
    KeptUp s (noteFeedback w s feedback) := by
  have hidr : KeptUp s (if feedback.pli > 0 ∨ feedback.fir > 0 then
      rtcSessionRequestIdr w { s with stats := { s.stats with
        pliReceived := s.stats.pliReceived + feedback.pli + feedback.fir } } else s) := by
    split
    · exact KeptUp.trans (stats_kept s _) (rtcSessionRequestIdr_kept w _)
    · exact .refl s
  have hreport : ∀ t : RtcSession, KeptUp t (if feedback.hasRr &&
      feedback.rrSsrc == rtpH264Ssrc s.rtp then noteReport w t feedback else t) := by
    intro t
    split
    · exact stats_kept t _
    · exact .refl t
  unfold noteFeedback
  exact (hidr.trans (hreport _)).trans (stats_kept _ _)

theorem dtlsOnRtcp_kept (w : Answers) (s : RtcSession) (packet : Bytes)
    (hremote : s.haveRemote = true) :
    Kept (Feedback (peerOf s)) s (dtlsOnRtcp w s packet) := by
  rw [dtlsOnRtcp_eq]
  split
  · exact (rtcSessionClose_kept w s).mono upkeep_feedback
  · have hnote := noteFeedback_kept w s (rtcpParse packet (rtpH264Ssrc s.rtp))
    have hnacks := handleNacks_kept w _ (rtcpParse packet (rtpH264Ssrc s.rtp))
      (hnote.haveRemote.trans hremote)
    rw [hnote.peer] at hnacks
    exact (hnote.mono upkeep_feedback).trans hnacks

/-- `Kept` but for the packetizer and the retransmission cache. -/
structure Held (P : Effect → Prop) (s t : RtcSession) : Prop where
  ufrag : t.localUfrag = s.localUfrag
  pwd : t.localPwd = s.localPwd
  remote : t.remote = s.remote
  haveRemote : t.haveRemote = s.haveRemote
  created : t.createdMs = s.createdMs
  lastRx : t.lastRxMs = s.lastRxMs
  dtls : t.dtls = s.dtls
  effects : ∃ added, t.effects = s.effects ++ added ∧ ∀ e ∈ added, P e

theorem Held.refl {P : Effect → Prop} (s : RtcSession) : Held P s s :=
  ⟨rfl, rfl, rfl, rfl, rfl, rfl, rfl, [], by simp, by simp⟩

theorem Held.trans {P : Effect → Prop} {a b c : RtcSession} (h : Held P a b) (h' : Held P b c) :
    Held P a c := by
  obtain ⟨xs, hx, hpx⟩ := h.effects
  obtain ⟨ys, hy, hpy⟩ := h'.effects
  refine ⟨h'.ufrag.trans h.ufrag, h'.pwd.trans h.pwd, h'.remote.trans h.remote,
    h'.haveRemote.trans h.haveRemote, h'.created.trans h.created, h'.lastRx.trans h.lastRx,
    h'.dtls.trans h.dtls, xs ++ ys, ?_, ?_⟩
  · rw [hy, hx, List.append_assoc]
  · intro e he
    rcases List.mem_append.mp he with he | he
    · exact hpx e he
    · exact hpy e he

theorem sessionSendto_dtls (w : Answers) (s : RtcSession) (path : SendPath) (data : Bytes)
    (destination : SockAddr) : (sessionSendto w s path data destination).2.dtls = s.dtls := by
  unfold sessionSendto
  simp only
  split <;> rfl

theorem sessionSendto_held {P : Effect → Prop} (w : Answers) (s : RtcSession) (path : SendPath)
    (data : Bytes) (destination : SockAddr) (hp : P (.datagram path data destination)) :
    Held P s (sessionSendto w s path data destination).2 := by
  have hk := sessionSendto_kept w s path data destination hp
  exact ⟨hk.ufrag, hk.pwd, hk.remote, hk.haveRemote, hk.created, hk.lastRx,
    sessionSendto_dtls w s path data destination, hk.effects⟩

theorem Held.peer {P : Effect → Prop} {s t : RtcSession} (h : Held P s t) : peerOf t = peerOf s := by
  unfold peerOf
  rw [h.remote, h.haveRemote]

/-- Effects of handing an access unit to a session. -/
def Media (peer : Option SockAddr) : Effect → Prop
  | .datagram .rtp _ destination => peer = some destination
  | .rtp _ _ => True
  | .packetize _ _ => True
  | .idrRequest => True
  | _ => False

theorem dtlsSrtpSendRtp_held (w : Answers) (s : RtcSession) (packet : Bytes) :
    Held (Media (peerOf s)) s (dtlsSrtpSendRtp w s packet).2 := by
  unfold dtlsSrtpSendRtp
  split
  · exact .refl s
  · split
    · exact .refl s
    · unfold dtlsSendUdp
      simp only
      split
      · rename_i hremote
        exact sessionSendto_held w s .rtp _ s.remote (if_pos hremote)
      · exact .refl s

theorem rtpPacketSink_held (w : Answers) (s : RtcSession) (packet : Bytes) (marker : Bool)
    (sequence : UInt16) : Held (Media (peerOf s)) s (rtpPacketSink w s packet marker sequence) := by
  have hdid : ∀ (t : RtcSession) (result : Option Bytes) (stats : RtcSessionStats)
      (retx : Nat → RetxSlot), Held (Media (peerOf s)) t
        ({ t with retx, stats }.did (.rtp sequence result)) := fun t result stats retx =>
    ⟨rfl, rfl, rfl, rfl, rfl, rfl, rfl, [.rtp sequence result], rfl, by simp [Media]⟩
  have hsend := dtlsSrtpSendRtp_held w s packet
  unfold rtpPacketSink
  split
  · exact hdid s none s.stats s.retx
  · split
    · rename_i t heq
      rw [heq] at hsend
      exact hsend.trans (hdid t none t.stats t.retx)
    · rename_i protectedPacket t heq
      rw [heq] at hsend
      exact hsend.trans (hdid t (some protectedPacket) _ _)

theorem handOver_held (w : Answers) (s : RtcSession) (accessUnit : Bytes) (ptsUs : UInt64)
    (isIdr : Bool) : Held (Media (peerOf s)) s (handOver w s accessUnit ptsUs isIdr).2 := by
  have hdid : Held (Media (peerOf s)) s (s.did (.packetize accessUnit isIdr)) :=
    ⟨rfl, rfl, rfl, rfl, rfl, rfl, rfl, [.packetize accessUnit isIdr], rfl, by simp [Media]⟩
  have hkeep := @RtpPlan.rtpH264Packetize_keeps _ (fun _ t => Held (Media (peerOf s)) s t)
    (rtpPacketSink w)
    (fun p t packet marker h _ _ _ _ => h.trans (h.peer ▸ rtpPacketSink_held w t packet marker _))
    (fun _ _ _ h => h) (s.did (.packetize accessUnit isIdr)).rtp accessUnit ptsUs
    (s.did (.packetize accessUnit isIdr)) hdid
  unfold handOver
  simp only
  split
  · exact ⟨hkeep.ufrag, hkeep.pwd, hkeep.remote, hkeep.haveRemote, hkeep.created, hkeep.lastRx,
      hkeep.dtls, hkeep.effects⟩
  · exact ⟨hkeep.ufrag, hkeep.pwd, hkeep.remote, hkeep.haveRemote, hkeep.created, hkeep.lastRx,
      hkeep.dtls, hkeep.effects⟩

theorem rtcSessionRequestIdr_held (w : Answers) (s : RtcSession) :
    Held (Media (peerOf s)) s (rtcSessionRequestIdr w s) := by
  unfold rtcSessionRequestIdr
  split
  · exact .refl s
  split
  · exact .refl s
  · exact ⟨rfl, rfl, rfl, rfl, rfl, rfl, rfl, [.idrRequest], rfl, by simp [Media]⟩

/-- What an access unit does to its session. -/
theorem sendAccessUnit_held (w : Answers) (s : RtcSession) (accessUnit : Bytes) (ptsUs : UInt64)
    (isIdr : Bool) :
    Held (Media (peerOf s)) s (rtcSessionSendAccessUnit w s accessUnit ptsUs isIdr).2 := by
  unfold rtcSessionSendAccessUnit
  split
  · exact .refl s
  split
  · have h := handOver_held w { s with
      idrRequested := false, stats := { s.stats with waitingKeyframe := false } } accessUnit ptsUs isIdr
    exact ⟨h.ufrag, h.pwd, h.remote, h.haveRemote, h.created, h.lastRx, h.dtls, h.effects⟩
  split
  · have h := rtcSessionRequestIdr_held w { s with
      stats := { s.stats with framesHeld := s.stats.framesHeld + 1 } }
    exact ⟨h.ufrag, h.pwd, h.remote, h.haveRemote, h.created, h.lastRx, h.dtls, h.effects⟩
  · exact handOver_held w s accessUnit ptsUs isIdr

end Camstream.Proofs.SessionFrame
