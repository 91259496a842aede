import Camstream.Proofs.SessionLife

namespace Camstream.Proofs.SessionCore
open Lib Webrtc SessionFrame Lifecycle SessionLife

/-- What decides the state of a session and where its media goes. -/
structure Core where
  state : RtcSessionState
  remote : SockAddr
  haveRemote : Bool
  ufrag : Bytes
  pwd : Bytes
  expected : Bytes
  createdMs : UInt64
  lastRxMs : UInt64

def coreOf (s : RtcSession) : Core :=
  { state := s.state, remote := s.remote, haveRemote := s.haveRemote, ufrag := s.localUfrag
    pwd := s.localPwd, expected := s.dtls.expectedFingerprint, createdMs := s.createdMs
    lastRxMs := s.lastRxMs }

@[simp] theorem coreOf_state (s : RtcSession) : (coreOf s).state = s.state := rfl

@[simp] theorem coreOf_remote (s : RtcSession) : (coreOf s).remote = s.remote := rfl

@[simp] theorem coreOf_haveRemote (s : RtcSession) : (coreOf s).haveRemote = s.haveRemote := rfl

/-- A binding request that passes both checks. -/
def passes (hmac : HmacSha1) (pwd ufrag buffer : Bytes) : Bool :=
  stunIsBindingRequest buffer && StunAuth.accepts hmac pwd ufrag buffer

/-- A peer that `format_peer` writes differently replaces the one that is known. -/
def Core.follow (c : Core) (source : SockAddr) : Core :=
  if c.haveRemote ∧ formatPeer c.remote = formatPeer source then c
  else { c with remote := source, haveRemote := true }

def Core.check (c : Core) (source : SockAddr) : Core :=
  { c.follow source with state := if c.state = .new then .ice else c.state }

section
open Classical

/-- The handshake is over: the session streams if everything the keys need is there. -/
noncomputable def Core.finish (c : Core) (turn : SslTurn) : Core :=
  if c.state = .streaming ∨ turn.initFinished = false then c
  else if KeyExport.usable turn.keys = true ∧ Vouched c.expected turn.keys.peer then
    { c with state := .streaming }
  else { c with state := .closed }

/-- One turn of OpenSSL; the first one starts the handshake. -/
noncomputable def Core.pump (c : Core) (turn : SslTurn) : Core :=
  let c := if c.state = .ice then { c with state := .dtls } else c
  match turn.result with
  | .progress => c.finish turn
  | .want => c.finish turn
  | .zero _ => { c with state := .closed }
  | .error _ => { c with state := .closed }

end

def saysBye (packet : Bytes) : Bool := (rtcpParse packet 0).bye

/-- Feedback ends a session or leaves it alone. -/
def Core.hear (c : Core) (w : Answers) (buffer : Bytes) : Core :=
  if buffer.length ≤ 1500 ∧ (w.unprotectRtcp buffer).any saysBye then { c with state := .closed }
  else c

noncomputable def Core.receive (hmac : HmacSha1) (c : Core) (w : Answers) (buffer : Bytes)
    (source : SockAddr) : Core :=
  match rtcClassifyPacket buffer with
  | .stun =>
    let c := { c with lastRxMs := w.rxMs }
    if passes hmac c.pwd c.ufrag buffer then c.check source else c
  | .dtls => if c.haveRemote then Core.pump { c with lastRxMs := w.rxMs } w.ssl else c
  | .rtp =>
    if isRtcp w buffer ∧ c.state = .streaming then Core.hear { c with lastRxMs := w.rxMs } w buffer
    else c
  | .other => c

noncomputable def Core.tick (c : Core) (w : Answers) (now : UInt64) : Core :=
  if elapsedMs now c.lastRxMs > sessionIdleTimeoutMs then { c with state := .closed }
  else if c.state = .ice ∧ elapsedMs now c.createdMs > sessionDtlsWatchdogMs then
    { c with state := .closed }
  else if c.state = .dtls then c.pump w.ssl
  else c

/-- The abstract session: what is sent, counted or cached plays no part in it. -/
noncomputable def Core.step (hmac : HmacSha1) (c : Core) (e : RtcEvent) : Core :=
  if c.state = .closed then c
  else
    match e with
    | .onUdp w buffer source => c.receive hmac w buffer source
    | .tick w now => c.tick w now
    | .sendAccessUnit _ _ _ _ => c
    | .close _ => { c with state := .closed }

theorem kept_core {P : Effect → Prop} {s t : RtcSession} (h : Kept P s t) :
    coreOf t = { coreOf s with state := t.state } := by
  simp only [coreOf, h.ufrag, h.pwd, h.remote, h.haveRemote, h.created, h.lastRx, h.fingerprint]

theorem held_core {P : Effect → Prop} {s t : RtcSession} (h : Held P s t) (hs : t.state = s.state) :
    coreOf t = coreOf s := by
  simp only [coreOf, h.ufrag, h.pwd, h.remote, h.haveRemote, h.created, h.lastRx, h.dtls, hs]

theorem request_class {buffer : Bytes} (h : stunIsBindingRequest buffer = true) :
    rtcClassifyPacket buffer = .stun ∧ stunIsBindingIndication buffer = false := by
  simp only [stunIsBindingRequest, stunHeaderIs, Bool.and_eq_true, decide_eq_true_eq,
    beq_iff_eq] at h
  obtain ⟨⟨⟨hlen, htype⟩, -⟩, -⟩ := h
  unfold stunHeaderSize at hlen
  have hfirst : (byteAt buffer 0).toNat = 0 := by
    unfold readBe16 at htype
    omega
  constructor
  · unfold rtcClassifyPacket
    rw [if_neg (by omega), if_pos]
    rw [UInt8.le_iff_toNat_le, hfirst]
    exact Nat.zero_le _
  · simp [stunIsBindingIndication, stunHeaderIs, htype]

theorem followPeer_core (s : RtcSession) (source : SockAddr) :
    coreOf (followPeer s source (formatPeer source).1 (formatPeer source).2) =
      (coreOf s).follow source := by
  unfold followPeer Core.follow
  split
  · rename_i hr
    have hr' : s.haveRemote = false := by simpa using hr
    rw [if_neg (by simp [coreOf, hr'])]
    rfl
  · rename_i hr
    have hr' : s.haveRemote = true := by simpa using hr
    split
    · rename_i hmoved
      rw [if_neg]
      · simp [coreOf, hr']
      · rintro ⟨-, heq⟩
        rw [coreOf_remote] at heq
        rw [heq] at hmoved
        simp at hmoved
    · rename_i hsame
      simp only [ne_eq, not_or, not_not] at hsame
      rw [if_pos ⟨hr', Prod.ext hsame.1 hsame.2⟩]

theorem acceptStun_core (hmac : HmacSha1) (w : Answers) (s : RtcSession) (buffer : Bytes)
    (source : SockAddr) :
    coreOf (acceptStun hmac w s buffer source (formatPeer source).1 (formatPeer source).2) =
      (coreOf s).check source := by
  have hkept := kept_core (acceptStun_kept hmac w s buffer source (formatPeer source).1
    (formatPeer source).2)
  have hstate : (acceptStun hmac w s buffer source (formatPeer source).1
      (formatPeer source).2).state = if s.state = .new then .ice else s.state := by
    have hphase := congrArg Phase.state (@acceptStun_phase hmac w s buffer source
      (formatPeer source).1 (formatPeer source).2)
    rw [apply_ite Phase.state] at hphase
    exact hphase
  rw [hkept, followPeer_core, hstate]
  rfl

/-- A check that does not pass is counted and answered, no more. -/
theorem handleStun_refused {hmac : HmacSha1} {w : Answers} {s : RtcSession} {buffer : Bytes}
    {source : SockAddr} {ip : Bytes} {port : UInt16}
    (h : passes hmac s.localPwd s.localUfrag buffer = false) :
    Kept (Reply source) { s with lastRxMs := w.rxMs } (handleStun hmac w s buffer source ip port) ∧
      (handleStun hmac w s buffer source ip port).state = s.state := by
  have hreject : ∀ t : RtcSession, Kept (Reply source) { s with lastRxMs := w.rxMs } t →
      t.state = s.state → Kept (Reply source) { s with lastRxMs := w.rxMs }
          (rejectStun w t buffer source) ∧ (rejectStun w t buffer source).state = s.state :=
    fun t hk ht => ⟨hk.trans (rejectStun_kept w t buffer source),
      (state_of_phase (stunSendError_phase w _ _ _ _)).trans ht⟩
  have hcount := stats_kept (P := Reply source) { s with lastRxMs := w.rxMs }
    { s.stats with stunRx := s.stats.stunRx + 1 }
  unfold handleStun
  simp only
  split
  · exact ⟨hcount, rfl⟩
  split
  · exact ⟨hcount, rfl⟩
  split
  · exact hreject _ hcount rfl
  split
  · exact hreject _ hcount rfl
  · rename_i hreq hmi hname
    simp only [Bool.not_eq_true', Bool.not_eq_false] at hreq hmi hname
    simp [passes, StunAuth.accepts, hreq, hmi, hname] at h

theorem handleStun_passed {hmac : HmacSha1} {w : Answers} {s : RtcSession} {buffer : Bytes}
    {source : SockAddr} {ip : Bytes} {port : UInt16}
    (h : passes hmac s.localPwd s.localUfrag buffer = true) :
    handleStun hmac w s buffer source ip port = acceptStun hmac w { s with
      stats := { s.stats with stunRx := s.stats.stunRx + 1 }
      lastRxMs := w.rxMs } buffer source ip port := by
  simp only [passes, StunAuth.accepts, Bool.and_eq_true] at h
  obtain ⟨hreq, hmi, hname⟩ := h
  simp [handleStun, (request_class hreq).2, hreq, hmi, hname]

theorem handleStun_core (hmac : HmacSha1) (w : Answers) (s : RtcSession) (buffer : Bytes)
    (source : SockAddr) :
    coreOf (handleStun hmac w s buffer source (formatPeer source).1 (formatPeer source).2) =
      if passes hmac s.localPwd s.localUfrag buffer then
        Core.check { coreOf s with lastRxMs := w.rxMs } source
      else { coreOf s with lastRxMs := w.rxMs } := by
  cases h : passes hmac s.localPwd s.localUfrag buffer with
  | true =>
    rw [handleStun_passed h]
    exact acceptStun_core hmac w _ buffer source
  | false =>
    obtain ⟨hkept, hstate⟩ := @handleStun_refused hmac w s buffer source (formatPeer source).1
      (formatPeer source).2 h
    rw [kept_core hkept, hstate]
    rfl

theorem finish_frame (c : Core) (turn : SslTurn) :
    c.finish turn = { c with state := (c.finish turn).state } := by
  unfold Core.finish
  split
  · rfl
  · split <;> rfl

theorem pump_frame (c : Core) (turn : SslTurn) :
    c.pump turn = { c with state := (c.pump turn).state } := by
  have hhello : ∀ x : Core, x = { c with state := x.state } →
      x.finish turn = { c with state := (x.finish turn).state } := by
    intro x hx
    rw [finish_frame x turn]
    rw [hx]
  have hc : (if c.state = .ice then { c with state := .dtls } else c) =
      { c with state := (if c.state = .ice then { c with state := .dtls } else c).state } := by
    split <;> rfl
  unfold Core.pump
  simp only
  generalize (if c.state = .ice then { c with state := .dtls } else c) = x at hc
  cases turn.result with
  | progress => exact hhello x hc
  | want => exact hhello x hc
  | zero error => rw [hc]
  | error error => rw [hc]

theorem finishHandshake_core {w : Answers} {s : RtcSession} (hc : (phaseOf s).Coupled)
    (hs : s.state = .dtls ∨ s.state = .streaming) :
    coreOf (finishHandshake w s) = (coreOf s).finish w.ssl := by
  have hready : s.dtls.srtpReady = true ↔ s.state = .streaming := by
    rcases hs with hs | hs
    · have : s.dtls.srtpReady = false := (hc.shaking hs).2.2.2
      simp [this, hs]
    · have : s.dtls.srtpReady = true := (hc.streaming hs).2.2.2
      simp [this, hs]
  have hkeys : (deriveSrtpKeys s.dtls w.ssl.keys).1 = true ↔ KeyExport.usable w.ssl.keys = true ∧
      Vouched (coreOf s).expected w.ssl.keys.peer := (deriveSrtpKeys_spec s.dtls w.ssl.keys).1
  have hstate : (finishHandshake w s).state = ((coreOf s).finish w.ssl).state := by
    refine (congrArg Phase.state (finishHandshake_phase (w := w) hc hs)).trans ?_
    unfold Core.finish
    by_cases hskip : (coreOf s).state = .streaming ∨ w.ssl.initFinished = false
    · rw [if_pos (hskip.imp_left hready.mpr), if_pos hskip]
      rfl
    · rw [if_neg (fun h => hskip (h.imp_left hready.mp)), if_neg hskip]
      by_cases hgood : (deriveSrtpKeys s.dtls w.ssl.keys).1 = true
      · rw [if_pos hgood, if_pos (hkeys.mp hgood)]
      · rw [if_neg hgood, if_neg (fun h => hgood (hkeys.mpr h))]
        rfl
  rw [finish_frame, kept_core (finishHandshake_kept w s), hstate]

theorem pumpSsl_core {w : Answers} {s : RtcSession} (hc : (phaseOf s).Coupled)
    (hopen : s.state ≠ .closed) (hremote : s.haveRemote = true) :
    coreOf (pumpSsl w s) = (coreOf s).pump w.ssl := by
  have hup : s.dtls.state ≠ .failed ∧ s.dtls.state ≠ .closed := hc.engine_up hopen
  have hnew : s.state ≠ .new := by
    intro h
    have := (hc.fresh h).1
    simp [phaseOf, hremote] at this
  have hshut : ∀ {t u : RtcSession} {P : Effect → Prop}, Kept P t u → u.state = .closed →
      coreOf u = { coreOf t with state := .closed } := by
    intro t u P hk hu
    rw [kept_core hk, hu]
  unfold pumpSsl Core.pump
  rw [if_neg (not_or.mpr ⟨hup.2, hup.1⟩)]
  by_cases hice : s.state = .ice
  · have hstarted : s.dtls.handshakeStarted = false := (hc.checked hice).2.2.1
    have hphase := startHandshake_phase (w := w) hc hice
    have hc' : (phaseOf (startHandshake w s)).Coupled := by
      rw [hphase]
      exact @move_coupled .missing _ _ hc (.hello _ hice)
    have hstate : (startHandshake w s).state = .dtls := congrArg Phase.state hphase
    have hcore : coreOf (startHandshake w s) = { coreOf s with state := .dtls } := by
      rw [kept_core (startHandshake_kept w s), hstate]
    have hfail : ∀ reason failures, coreOf (failHandshake w (startHandshake w s) reason failures) =
        { coreOf s with state := .closed } := by
      intro reason failures
      rw [hshut (failHandshake_kept w (startHandshake w s) reason failures) (congrArg Phase.state
        (failHandshake_phase hc' (by simp [hstate]) reason failures)), hcore]
    rw [if_pos (by simp [hstarted]), coreOf_state, if_pos hice, ← hcore]
    simp only
    cases w.ssl.result with
    | progress => exact finishHandshake_core hc' (.inl hstate)
    | want => exact finishHandshake_core hc' (.inl hstate)
    | zero error => rw [hfail, hcore]
    | error error => rw [hfail, hcore]
  · have hs : s.state = .dtls ∨ s.state = .streaming := by
      cases h : s.state <;> simp_all
    have hstarted : s.dtls.handshakeStarted = true := by
      rcases hs with hs | hs
      · exact (hc.shaking hs).2.2.1
      · exact (hc.streaming hs).2.2.1
    have hturn := sslTurn_phase w s
    have hc' : (phaseOf (sslTurn w s)).Coupled := by rw [hturn]; exact hc
    have hstate := state_of_phase hturn
    have hopen' : (sslTurn w s).state ≠ .closed := by rw [hstate]; exact hopen
    have hcore : coreOf (sslTurn w s) = coreOf s := by
      rw [kept_core (sslTurn_kept w s), hstate]
      rfl
    rw [if_neg (by simp [hstarted]), coreOf_state, if_neg hice, ← hcore]
    simp only
    cases w.ssl.result with
    | progress => exact finishHandshake_core hc' (by rw [hstate]; exact hs)
    | want => exact finishHandshake_core hc' (by rw [hstate]; exact hs)
    | zero error =>
      exact hshut (dtlsSetState_kept w _ .closed) (congrArg Phase.state
        (dtlsSetState_ends (.inr rfl) hopen' (hc'.engine_up hopen').2))
    | error error =>
      exact hshut (failHandshake_kept w _ _ 0) (congrArg Phase.state
        (failHandshake_phase hc' hopen' _ 0))

theorem parseReports_bye (body : Bytes) (mediaSsrc : UInt32) (first count i : Nat)
    (feedback : RtcpFeedback) :
    (parseReports body mediaSsrc first count i feedback).bye = feedback.bye := by
  fun_induction parseReports body mediaSsrc first count i feedback with
  | case1 => rfl
  | case2 => rfl
  | case3 i feedback h pos hfits hown ih => exact ih
  | case4 => rfl

/-- Whose stream the reports are about does not matter for a BYE. -/
theorem parsePacket_bye {body : Bytes} {a b : UInt32} {f g : RtcpFeedback} (h : f.bye = g.bye) :
    (parsePacket body a f).bye = (parsePacket body b g).bye := by
  unfold parsePacket
  simp only
  split
  · rw [parseReports_bye, parseReports_bye, h]
  · rw [parseReports_bye, parseReports_bye, h]
  · rfl
  · split <;> exact h
  · split
    · exact h
    · split <;> exact h
  · exact h

theorem parsePackets_bye {buffer : Bytes} {a b : UInt32} {offset : Nat} {f g : RtcpFeedback}
    (h : f.bye = g.bye) :
    (parsePackets buffer a offset f).bye = (parsePackets buffer b offset g).bye := by
  induction offset, f using parsePackets.induct buffer a generalizing g with
  | case1 offset f hroom hversion =>
    unfold parsePackets
    simp only [hroom, hversion, ne_eq, not_false_eq_true, ↓reduceIte]
    exact h
  | case2 offset f hroom packetLen hversion =>
    rename_i hlen
    unfold parsePackets
    simp only [hroom, hversion, hlen, packetLen, ↓reduceIte]
    exact h
  | case3 offset f hroom packetLen hversion hlen =>
    rename_i ih
    unfold parsePackets
    rw [if_pos hroom, if_pos hroom]
    simp only
    rw [if_neg hversion, if_neg hversion, if_neg hlen, if_neg hlen]
    exact ih (parsePacket_bye h)
  | case4 offset f hroom =>
    unfold parsePackets
    rw [if_neg hroom, if_neg hroom]
    exact h

theorem dtlsOnRtcp_core {w : Answers} {s : RtcSession} {packet : Bytes}
    (hremote : s.haveRemote = true) :
    coreOf (dtlsOnRtcp w s packet) =
      if saysBye packet then { coreOf s with state := .closed } else coreOf s := by
  have hbye : (rtcpParse packet (rtpH264Ssrc s.rtp)).bye = saysBye packet := parsePackets_bye rfl
  rw [kept_core (dtlsOnRtcp_kept w s packet hremote)]
  cases hb : saysBye packet with
  | true =>
    rw [dtlsOnRtcp_eq, hbye, hb, if_pos rfl, rtcSessionClose_state]
    rfl
  | false => rw [state_of_phase (dtlsOnRtcp_phase (hbye.trans hb))]; rfl

theorem handleRtcp_core {w : Answers} {s : RtcSession} {buffer : Bytes}
    (hc : (phaseOf s).Coupled) (hs : s.state = .streaming) :
    coreOf (handleRtcp w s buffer) = Core.hear { coreOf s with lastRxMs := w.rxMs } w buffer := by
  obtain ⟨hremote, -, -, hready⟩ := hc.streaming hs
  simp only [phaseOf] at hremote hready
  unfold handleRtcp Core.hear dtlsSrtpUnprotectRtcp
  simp only [hready, Bool.not_true, Bool.false_eq_true, ↓reduceIte]
  by_cases hlen : buffer.length > 1500
  · rw [if_pos hlen, if_neg (by omega)]
    rfl
  · rw [if_neg hlen]
    simp only [show buffer.length ≤ 1500 by omega, true_and]
    cases w.unprotectRtcp buffer with
    | none => rfl
    | some plain =>
      exact @dtlsOnRtcp_core w { s with lastRxMs := w.rxMs } plain hremote

theorem onUdp_core {hmac : HmacSha1} {w : Answers} {s : RtcSession} {buffer : Bytes}
    {source : SockAddr} (hc : (phaseOf s).Coupled) (hopen : s.state ≠ .closed) :
    coreOf (rtcSessionOnUdp hmac w s buffer source) = (coreOf s).receive hmac w buffer source := by
  unfold rtcSessionOnUdp Core.receive
  rw [if_neg hopen]
  simp only
  set t : RtcSession :=
    { s with stats := { s.stats with datagramsRx := s.stats.datagramsRx + 1 } } with ht
  cases rtcClassifyPacket buffer with
  | stun => exact handleStun_core hmac w t buffer source
  | dtls =>
    simp only
    by_cases hr : s.haveRemote = true
    · have hup : s.dtls.state ≠ .failed ∧ s.dtls.state ≠ .closed := hc.engine_up hopen
      rw [if_neg (by simp [hr]), coreOf_haveRemote, if_pos hr,
        dtlsSrtpOnUdp, if_neg (not_or.mpr hup)]
      exact @pumpSsl_core w { t with
        lastRxMs := w.rxMs, dtls := { s.dtls with rxq := rxqPush s.dtls.rxq buffer } } hc hopen hr
    · rw [if_pos (by simpa [ht] using hr), coreOf_haveRemote, if_neg hr]
      rfl
  | rtp =>
    simp only [Bool.and_eq_true, beq_iff_eq]
    split
    · rename_i h
      rw [coreOf_state, if_pos h]
      exact @handleRtcp_core w t buffer hc h.2
    · rename_i h
      rw [coreOf_state, if_neg h]
      rfl
  | other => rfl

theorem dtlsSrtpTick_core {w : Answers} {s : RtcSession} (hc : (phaseOf s).Coupled)
    (hopen : s.state ≠ .closed) :
    coreOf (dtlsSrtpTick w s) =
      if s.state = .dtls then (coreOf s).pump w.ssl else coreOf s := by
  have hshaking : s.dtls.state = .handshaking ↔ s.state = .dtls := by
    cases hs : s.state with
    | new =>
      have hengine : s.dtls.state = .init := (hc.fresh hs).2.1
      simp [hengine]
    | ice =>
      have hengine : s.dtls.state = .init := (hc.checked hs).2.1
      simp [hengine]
    | dtls =>
      have hengine : s.dtls.state = .handshaking := (hc.shaking hs).2.1
      simp [hengine]
    | streaming =>
      have hengine : s.dtls.state = .connected := (hc.streaming hs).2.1
      simp [hengine]
    | closed => exact absurd hs hopen
  unfold dtlsSrtpTick
  split
  · rename_i hh
    rw [if_neg (fun h => hh (hshaking.mpr h))]
  · rename_i hh
    have hs : s.state = .dtls := hshaking.mp (by simpa using hh)
    have hremote : s.haveRemote = true := (hc.shaking hs).1
    have hw := writeRecords_phase w s w.timeoutRecords
    have hkept := writeRecords_kept w s w.timeoutRecords
    have hcore : coreOf (writeRecords w s w.timeoutRecords) = coreOf s := by
      rw [kept_core hkept, state_of_phase hw]
      rfl
    rw [if_pos hs, ← hcore]
    refine pumpSsl_core (by rw [hw]; exact hc) ?_ (hkept.haveRemote.trans hremote)
    rw [state_of_phase hw]
    exact hopen

theorem tick_core {w : Answers} {s : RtcSession} {now : UInt64} (hc : (phaseOf s).Coupled)
    (hopen : s.state ≠ .closed) : coreOf (rtcSessionTick w s now) = (coreOf s).tick w now := by
  have hreport : ∀ t : RtcSession, coreOf (if t.state = .streaming ∧ now ≥ t.nextSrMs then
      sendReport w t now else t) = coreOf t := by
    intro t
    split
    · rw [kept_core (sendReport_kept w t now), state_of_phase (sendReport_phase w t now)]
      rfl
    · rfl
  have hclose : coreOf (rtcSessionClose w s) = { coreOf s with state := .closed } := by
    rw [kept_core (rtcSessionClose_kept w s), rtcSessionClose_state]
  unfold rtcSessionTick Core.tick
  rw [if_neg hopen]
  simp only [hreport, apply_ite coreOf, hclose, dtlsSrtpTick_core hc hopen]
  rfl

theorem sendAccessUnit_core (w : Answers) (s : RtcSession) (accessUnit : Bytes) (ptsUs : UInt64)
    (isIdr : Bool) :
    coreOf (rtcSessionSendAccessUnit w s accessUnit ptsUs isIdr).2 = coreOf s := by
  have hstate : (rtcSessionSendAccessUnit w s accessUnit ptsUs isIdr).2.state = s.state := by
    unfold rtcSessionSendAccessUnit
    split
    · rfl
    split
    · exact congrArg Phase.state (handOver_phase w _ accessUnit ptsUs isIdr)
    split
    · exact state_of_phase (rtcSessionRequestIdr_phase w _)
    · exact congrArg Phase.state (handOver_phase w s accessUnit ptsUs isIdr)
  exact held_core (sendAccessUnit_held w s accessUnit ptsUs isIdr) hstate

/-- Every call does to the core of a session what the abstract session does. -/
theorem step_core {hmac : HmacSha1} {s : RtcSession} (hc : (phaseOf s).Coupled) (e : RtcEvent) :
    coreOf (s.step hmac e) = (coreOf s).step hmac e := by
  unfold Core.step
  by_cases hclosed : s.state = .closed
  · rw [closed_stays hclosed e, coreOf_state, if_pos hclosed]
  · rw [coreOf_state, if_neg hclosed]
    cases e with
    | onUdp w buffer source => exact onUdp_core hc hclosed
    | tick w now => exact tick_core hc hclosed
    | sendAccessUnit w accessUnit ptsUs isIdr => exact sendAccessUnit_core w s accessUnit ptsUs isIdr
    | close w =>
      exact (kept_core (rtcSessionClose_kept w s)).trans (by rw [rtcSessionClose_state])

/-- The session refines the abstract session along every run. -/
theorem run_core {hmac : HmacSha1} {config : RtcSessionConfig} {s : RtcSession}
    (h : Alive config s) (events : List RtcEvent) :
    coreOf (run (RtcSession.step hmac) s events) = run (Core.step hmac) (coreOf s) events :=
  run_view h (fun _ e => step_alive e) (fun _ e h => step_core h.coupled e) events

end Camstream.Proofs.SessionCore
