import Mathlib.Logic.Relation
import Camstream.Proofs.RtpPlan
import Camstream.Proofs.SessionFrame

namespace Camstream.Proofs.Lifecycle
open Lib Webrtc SessionFrame

/-- Effects that tell of the life of a session. -/
def notable : Effect → Bool
  | .state _ => true
  | .closed => true
  | .packetize _ _ => true
  | _ => false

/-- What the life of a session is about. -/
structure Phase where
  state : RtcSessionState
  haveRemote : Bool
  dtls : DtlsSrtpState
  started : Bool
  ready : Bool
  waiting : Bool
  onClosed : Bool
  expected : Bytes
  trace : List Effect

def phaseOf (s : RtcSession) : Phase :=
  { state := s.state, haveRemote := s.haveRemote, dtls := s.dtls.state
    started := s.dtls.handshakeStarted, ready := s.dtls.srtpReady
    waiting := s.stats.waitingKeyframe, onClosed := s.onClosed
    expected := s.dtls.expectedFingerprint, trace := s.effects.filter notable }

theorem state_of_phase {s t : RtcSession} (h : phaseOf s = phaseOf t) : s.state = t.state :=
  congrArg Phase.state h

/-- The end: the engine is down and the hook has been called. -/
def Phase.shut (p : Phase) : Phase :=
  { p with
    state := .closed, dtls := .closed
    trace := p.trace ++ .state .closed :: (if p.onClosed then [.closed] else []) }

/-- The life of a session whose peer shows `peer`, one move at a time. -/
inductive Move (peer : PeerCertificate) : Phase → Phase → Prop
  | validate (p : Phase) (h : p.state = .new) :
    Move peer p { p with state := .ice, haveRemote := true, trace := p.trace ++ [.state .ice] }
  | hello (p : Phase) (h : p.state = .ice) :
    Move peer p { p with
      state := .dtls, dtls := .handshaking, started := true, trace := p.trace ++ [.state .dtls] }
  | connect (p : Phase) (h : p.state = .dtls) (hv : Vouched p.expected peer) :
    Move peer p { p with
      state := .streaming, dtls := .connected, ready := true, waiting := true
      trace := p.trace ++ [.state .streaming] }
  | close (p : Phase) (h : p.state ≠ .closed) : Move peer p p.shut
  | keyframe (p : Phase) (accessUnit : Bytes) (h : p.state = .streaming) :
    Move peer p { p with waiting := false, trace := p.trace ++ [.packetize accessUnit true] }
  | delta (p : Phase) (accessUnit : Bytes) (h : p.state = .streaming) (hw : p.waiting = false) :
    Move peer p { p with trace := p.trace ++ [.packetize accessUnit false] }

abbrev Moves (peer : PeerCertificate) : Phase → Phase → Prop := Relation.ReflTransGen (Move peer)

/-- The state of the session and that of its DTLS engine go together. -/
structure Phase.Coupled (p : Phase) : Prop where
  fresh : p.state = .new → p.haveRemote = false ∧ p.dtls = .init ∧ p.started = false ∧ p.ready = false
  checked : p.state = .ice → p.haveRemote = true ∧ p.dtls = .init ∧ p.started = false ∧ p.ready = false
  shaking : p.state = .dtls →
    p.haveRemote = true ∧ p.dtls = .handshaking ∧ p.started = true ∧ p.ready = false
  streaming : p.state = .streaming →
    p.haveRemote = true ∧ p.dtls = .connected ∧ p.started = true ∧ p.ready = true
  ended : p.state = .closed → p.dtls = .closed

theorem move_coupled {peer : PeerCertificate} {p q : Phase} (h : p.Coupled) (hm : Move peer p q) : q.Coupled := by
  cases hm with
  | validate hs =>
    obtain ⟨-, hd, hst, hr⟩ := h.fresh hs
    exact ⟨by simp, fun _ => ⟨rfl, hd, hst, hr⟩, by simp, by simp, by simp⟩
  | hello hs =>
    obtain ⟨hrem, -, -, hr⟩ := h.checked hs
    exact ⟨by simp, by simp, fun _ => ⟨hrem, rfl, rfl, hr⟩, by simp, by simp⟩
  | connect hs hv =>
    obtain ⟨hrem, -, hst, -⟩ := h.shaking hs
    exact ⟨by simp, by simp, by simp, fun _ => ⟨hrem, rfl, hst, rfl⟩, by simp⟩
  | close hs => exact ⟨nofun, nofun, nofun, nofun, fun _ => rfl⟩
  | keyframe accessUnit hs => exact ⟨h.fresh, h.checked, h.shaking, h.streaming, h.ended⟩
  | delta accessUnit hs hw => exact ⟨h.fresh, h.checked, h.shaking, h.streaming, h.ended⟩

/-- What every move keeps, moves keep. -/
theorem moves_keep {peer : PeerCertificate} {P : Phase → Prop}
    (hstep : ∀ {p q}, P p → Move peer p q → P q) {p q : Phase} (h : P p) (hm : Moves peer p q) : P q := by
  induction hm with
  | refl => exact h
  | tail _ hlast ih => exact hstep ih hlast

theorem sessionSendto_phase (w : Answers) (s : RtcSession) (path : SendPath) (data : Bytes)
    (destination : SockAddr) : phaseOf (sessionSendto w s path data destination).2 = phaseOf s := by
  unfold sessionSendto
  simp only
  split <;> simp [phaseOf, RtcSession.did, notable]

theorem dtlsSendUdp_phase (w : Answers) (path : SendPath) (s : RtcSession) (packet : Bytes) :
    phaseOf (dtlsSendUdp w path s packet) = phaseOf s := by
  unfold dtlsSendUdp
  split
  · exact sessionSendto_phase w s path packet s.remote
  · rfl

theorem writeRecords_phase (w : Answers) (s : RtcSession) (records : List Bytes) :
    phaseOf (writeRecords w s records) = phaseOf s := by
  induction records generalizing s with
  | nil => rfl
  | cons record records ih =>
    simp only [writeRecords, List.foldl_cons] at ih ⊢
    rw [ih]
    split
    · rfl
    · exact dtlsSendUdp_phase w .dtls s record

theorem rtcSessionRequestIdr_phase (w : Answers) (s : RtcSession) :
    phaseOf (rtcSessionRequestIdr w s) = phaseOf s := by
  unfold rtcSessionRequestIdr
  split
  · rfl
  split
  · rfl
  · simp [phaseOf, RtcSession.did, notable]

theorem shutDown_phase (w : Answers) (s : RtcSession) :
    phaseOf (shutDown w s) = { phaseOf s with
      state := .closed, dtls := .closed, trace := (phaseOf s).trace ++ [.state .closed] } := by
  have hmark : phaseOf ({ s with state := .closed }.did (.state .closed)) = { phaseOf s with
      state := .closed, trace := (phaseOf s).trace ++ [.state .closed] } := by
    simp [phaseOf, RtcSession.did, notable]
  have hdtls : ∀ t : RtcSession,
      phaseOf { t with dtls := { t.dtls with state := .closed } } =
        { phaseOf t with dtls := .closed } := fun _ => rfl
  unfold shutDown
  simp only [hdtls]
  split
  · rw [writeRecords_phase, hmark]
  · rw [hmark]

theorem rtcSessionClose_phase {w : Answers} {s : RtcSession} (h : s.state ≠ .closed) :
    phaseOf (rtcSessionClose w s) = (phaseOf s).shut := by
  have hs := shutDown_phase w s
  have hhook : (shutDown w s).onClosed = (phaseOf s).onClosed := (shutDown_kept w s).closedHook
  have hdid : phaseOf ((shutDown w s).did .closed) = { phaseOf (shutDown w s) with
      trace := (phaseOf (shutDown w s)).trace ++ [.closed] } := by
    simp [phaseOf, RtcSession.did, notable]
  rw [rtcSessionClose_open h, hhook]
  cases hc : (phaseOf s).onClosed with
  | true => simp [hdid, hs, Phase.shut, hc]
  | false => simp [hs, Phase.shut, hc]

theorem rtcSessionClose_state (w : Answers) (s : RtcSession) :
    (rtcSessionClose w s).state = .closed := by
  by_cases h : s.state = .closed
  · rw [rtcSessionClose_closed h]
    exact h
  · exact congrArg Phase.state (rtcSessionClose_phase h)

theorem rtcSessionClose_moves (w : Answers) (s : RtcSession) :
    Moves w.ssl.keys.peer (phaseOf s) (phaseOf (rtcSessionClose w s)) := by
  by_cases h : s.state = .closed
  · rw [rtcSessionClose_closed h]
  · rw [rtcSessionClose_phase h]
    exact .single (.close _ h)

/-- The engine of an open session fails or ends: the session is closed. -/
theorem dtlsSetState_ends {w : Answers} {s : RtcSession} {state : DtlsSrtpState}
    (hend : state = .failed ∨ state = .closed) (hopen : s.state ≠ .closed)
    (hne : s.dtls.state ≠ state) : phaseOf (dtlsSetState w s state) = (phaseOf s).shut := by
  rw [dtlsSetState, if_neg hne, dtlsOnState.eq_def]
  rcases hend with rfl | rfl
  · exact rtcSessionClose_phase (s := { s with dtls := { s.dtls with state := .failed } }) hopen
  · exact rtcSessionClose_phase (s := { s with dtls := { s.dtls with state := .closed } }) hopen

theorem dtlsSetState_connected {w : Answers} {s : RtcSession} (hne : s.dtls.state ≠ .connected) :
    dtlsSetState w s .connected = { s with dtls := { s.dtls with state := .connected } } := by
  rw [dtlsSetState, if_neg hne, dtlsOnState.eq_def]

theorem dtlsSetState_handshaking {w : Answers} {s : RtcSession}
    (hne : s.dtls.state ≠ .handshaking) :
    dtlsSetState w s .handshaking =
      setState { s with dtls := { s.dtls with state := .handshaking } } .dtls := by
  rw [dtlsSetState, if_neg hne, dtlsOnState.eq_def]

/-- An open session's engine has neither failed nor been closed. -/
theorem Phase.Coupled.engine_up {p : Phase} (h : p.Coupled) (hopen : p.state ≠ .closed) :
    p.dtls ≠ .failed ∧ p.dtls ≠ .closed := by
  cases hs : p.state with
  | new => simp [(h.fresh hs).2.1]
  | ice => simp [(h.checked hs).2.1]
  | dtls => simp [(h.shaking hs).2.1]
  | streaming => simp [(h.streaming hs).2.1]
  | closed => exact absurd hs hopen

theorem dtlsOnConnected_phase {w : Answers} {s : RtcSession} (h : s.state ≠ .streaming) :
    phaseOf (dtlsOnConnected w s) = { phaseOf s with
      state := .streaming, waiting := true
      trace := (phaseOf s).trace ++ [.state .streaming] } := by
  have hnext : ∀ (t : RtcSession) (n : UInt64), phaseOf { t with nextSrMs := n } = phaseOf t :=
    fun _ _ => rfl
  unfold dtlsOnConnected
  simp only [hnext, rtcSessionRequestIdr_phase]
  simp [setState, h, phaseOf, RtcSession.did, notable]

/-- The keys of a handshake that is not over yet, or is over, or fails. -/
theorem finishHandshake_phase {w : Answers} {s : RtcSession} (hc : (phaseOf s).Coupled)
    (hs : s.state = .dtls ∨ s.state = .streaming) :
    phaseOf (finishHandshake w s) =
      if s.dtls.srtpReady = true ∨ w.ssl.initFinished = false then phaseOf s
      else if (deriveSrtpKeys s.dtls w.ssl.keys).1 = true then { phaseOf s with
        state := .streaming, dtls := .connected, ready := true, waiting := true
        trace := (phaseOf s).trace ++ [.state .streaming] }
      else (phaseOf s).shut := by
  obtain ⟨-, hsame⟩ := deriveSrtpKeys_spec s.dtls w.ssl.keys
  unfold finishHandshake
  by_cases hskip : s.dtls.srtpReady = true ∨ w.ssl.initFinished = false
  · rw [if_pos hskip, if_pos (by simpa using hskip)]
  · rw [if_neg hskip, if_neg (by simpa using hskip)]
    have hready : s.dtls.srtpReady = false := by
      simpa using (not_or.mp hskip).1
    have hstate : s.state = .dtls := by
      rcases hs with hs | hs
      · exact hs
      · have := (hc.streaming hs).2.2.2
        simp only [phaseOf] at this
        rw [hready] at this
        cases this
    have hengine : s.dtls.state = .handshaking := (hc.shaking hstate).2.1
    cases hd : deriveSrtpKeys s.dtls w.ssl.keys with
    | mk ok d =>
      rw [hd] at hsame
      have hd_state : d.state = .handshaking := hsame.state.trans hengine
      have hd_started : d.handshakeStarted = s.dtls.handshakeStarted := hsame.started
      have hd_expected : d.expectedFingerprint = s.dtls.expectedFingerprint := hsame.fingerprint
      cases ok with
      | false =>
        have hd_ready : d.srtpReady = s.dtls.srtpReady := hsame.ready
        simp only [Bool.false_eq_true, ↓reduceIte]
        rw [dtlsSetState_ends (.inl rfl) (by simp [hstate]) (by simp [hd_state])]
        refine congrArg Phase.shut ?_
        simp only [phaseOf, hd_state, hengine, hd_started, hd_expected, hd_ready]
      | true =>
        have hd_ready : d.srtpReady = true := hsame.ready
        simp only [↓reduceIte]
        rw [dtlsSetState_connected (by simp [hd_state]), dtlsOnConnected_phase (by simp [hstate])]
        simp [phaseOf, hd_started, hd_expected, hd_ready]

theorem sslTurn_phase (w : Answers) (s : RtcSession) : phaseOf (sslTurn w s) = phaseOf s :=
  writeRecords_phase w _ _

theorem startHandshake_phase {w : Answers} {s : RtcSession} (hc : (phaseOf s).Coupled)
    (hs : s.state = .ice) :
    phaseOf (startHandshake w s) = { phaseOf s with
      state := .dtls, dtls := .handshaking, started := true
      trace := (phaseOf s).trace ++ [.state .dtls] } := by
  have hengine : s.dtls.state = .init := (hc.checked hs).2.1
  unfold startHandshake
  rw [sslTurn_phase, dtlsSetState_handshaking (by simp [hengine])]
  simp [setState, hs, phaseOf, RtcSession.did, notable]

theorem failHandshake_phase {w : Answers} {s : RtcSession} (hc : (phaseOf s).Coupled)
    (hopen : s.state ≠ .closed) (reason : String) (failures : Nat) :
    phaseOf (failHandshake w s reason failures) = (phaseOf s).shut := by
  unfold failHandshake
  refine (dtlsSetState_ends (.inl rfl) ?_ ?_).trans rfl
  · exact hopen
  · exact (hc.engine_up hopen).1

theorem finishHandshake_moves {w : Answers} {s : RtcSession} (hc : (phaseOf s).Coupled)
    (hs : s.state = .dtls ∨ s.state = .streaming) :
    Moves w.ssl.keys.peer (phaseOf s) (phaseOf (finishHandshake w s)) := by
  rw [finishHandshake_phase hc hs]
  split
  · exact .refl
  · rename_i hskip
    have hstate : s.state = .dtls := by
      rcases hs with hs | hs
      · exact hs
      · exact absurd (.inl (hc.streaming hs).2.2.2) hskip
    split
    · rename_i hkeys
      exact .single (.connect _ hstate ((deriveSrtpKeys_spec s.dtls w.ssl.keys).1.mp hkeys).2)
    · exact .single (.close _ (by simp [phaseOf, hstate]))

theorem pumpSsl_moves {w : Answers} {s : RtcSession} (hc : (phaseOf s).Coupled)
    (hopen : s.state ≠ .closed) (hremote : s.haveRemote = true) :
    Moves w.ssl.keys.peer (phaseOf s) (phaseOf (pumpSsl w s)) := by
  have hup : s.dtls.state ≠ .failed ∧ s.dtls.state ≠ .closed := hc.engine_up hopen
  have hnew : s.state ≠ .new := by
    intro h
    have := (hc.fresh h).1
    simp [phaseOf, hremote] at this
  unfold pumpSsl
  rw [if_neg (not_or.mpr ⟨hup.2, hup.1⟩)]
  by_cases hice : s.state = .ice
  · -- the first datagram of the handshake
    have hstarted : s.dtls.handshakeStarted = false := (hc.checked hice).2.2.1
    have hphase := startHandshake_phase (w := w) hc hice
    have hmove : Move w.ssl.keys.peer (phaseOf s) (phaseOf (startHandshake w s)) := by
      rw [hphase]
      exact .hello _ hice
    have hc' := move_coupled hc hmove
    have hstate : (startHandshake w s).state = .dtls := congrArg Phase.state hphase
    have hfail : ∀ reason failures, Move w.ssl.keys.peer (phaseOf (startHandshake w s))
        (phaseOf (failHandshake w (startHandshake w s) reason failures)) := by
      intro reason failures
      rw [failHandshake_phase hc' (by simp [hstate])]
      exact .close _ (by simp [phaseOf, hstate])
    rw [if_pos (by simp [hstarted])]
    simp only
    refine .trans (.single hmove) ?_
    cases w.ssl.result with
    | progress => exact finishHandshake_moves hc' (.inl hstate)
    | want => exact finishHandshake_moves hc' (.inl hstate)
    | zero error => exact .single (hfail _ _)
    | error error => exact .single (hfail _ _)
  · have hs : s.state = .dtls ∨ s.state = .streaming := by
      cases h : s.state <;> simp_all
    have hstarted : s.dtls.handshakeStarted = true := by
      rcases hs with hs | hs
      · exact (hc.shaking hs).2.2.1
      · exact (hc.streaming hs).2.2.1
    have hturn := sslTurn_phase w s
    have hc' : (phaseOf (sslTurn w s)).Coupled := by rw [hturn]; exact hc
    have hstate := state_of_phase hturn
    have hopen' : (sslTurn w s).state ≠ .closed := by rw [hstate]; exact hopen
    rw [if_neg (by simp [hstarted]), ← hturn]
    simp only
    cases w.ssl.result with
    | progress => exact finishHandshake_moves hc' (by rw [hstate]; exact hs)
    | want => exact finishHandshake_moves hc' (by rw [hstate]; exact hs)
    | zero error =>
      rw [dtlsSetState_ends (.inr rfl) hopen' (hc'.engine_up hopen').2]
      exact .single (.close _ hopen')
    | error error =>
      rw [failHandshake_phase hc' hopen']
      exact .single (.close _ hopen')

theorem dtlsSrtpOnUdp_moves {w : Answers} {s : RtcSession} (hc : (phaseOf s).Coupled)
    (hopen : s.state ≠ .closed) (hremote : s.haveRemote = true) (packet : Bytes) :
    Moves w.ssl.keys.peer (phaseOf s) (phaseOf (dtlsSrtpOnUdp w s packet)) := by
  unfold dtlsSrtpOnUdp
  split
  · exact .refl
  · exact pumpSsl_moves (s := { s with dtls := { s.dtls with rxq := rxqPush s.dtls.rxq packet } })
      hc hopen hremote

theorem stunSendError_phase (w : Answers) (s : RtcSession) (tid : Bytes) (code : UInt16)
    (source : SockAddr) : phaseOf (stunSendError w s tid code source) = phaseOf s := by
  unfold stunSendError
  split
  · exact sessionSendto_phase _ _ _ _ _
  · rfl

theorem followPeer_phase (s : RtcSession) (source : SockAddr) (ip : Bytes) (port : UInt16) :
    phaseOf (followPeer s source ip port) = { phaseOf s with haveRemote := true } := by
  unfold followPeer
  split
  · rfl
  · rename_i h
    have hr : s.haveRemote = true := by simpa using h
    split <;> simp [phaseOf, hr]

/-- An authenticated check validates a fresh session and leaves the phase of any
other as it is. -/
theorem acceptStun_phase {hmac : HmacSha1} {w : Answers} {s : RtcSession} {buffer : Bytes}
    {source : SockAddr} {ip : Bytes} {port : UInt16} :
    phaseOf (acceptStun hmac w s buffer source ip port) =
      if s.state = .new then
        { phaseOf s with state := .ice, haveRemote := true, trace := (phaseOf s).trace ++ [.state .ice] }
      else { phaseOf s with haveRemote := true } := by
  have hfollow := followPeer_phase { s with stats := { s.stats with stunOk := s.stats.stunOk + 1 } }
    source ip port
  unfold acceptStun
  simp only
  generalize followPeer { s with stats := { s.stats with stunOk := s.stats.stunOk + 1 } } source ip
    port = t at hfollow
  have hstate : t.state = s.state := congrArg Phase.state hfollow
  have hset : phaseOf (if t.state = .new then setState t .ice else t) = if s.state = .new then
      { phaseOf s with state := .ice, haveRemote := true, trace := (phaseOf s).trace ++ [.state .ice] }
      else { phaseOf s with haveRemote := true } := by
    rw [hstate]
    split
    · rename_i hnew
      have hne : t.state ≠ .ice := by rw [hstate, hnew]; simp
      have hph : phaseOf (setState t .ice) = { phaseOf t with
          state := .ice, trace := (phaseOf t).trace ++ [.state .ice] } := by
        simp [setState, hne, phaseOf, RtcSession.did, notable]
      rw [hph, hfollow]
      rfl
    · exact hfollow
  split
  · rw [sessionSendto_phase]
    exact hset
  · exact hset

theorem acceptStun_moves {hmac : HmacSha1} {w : Answers} {s : RtcSession} {buffer : Bytes}
    {source : SockAddr} {ip : Bytes} {port : UInt16} (hc : (phaseOf s).Coupled)
    (hopen : s.state ≠ .closed) :
    Moves w.ssl.keys.peer (phaseOf s) (phaseOf (acceptStun hmac w s buffer source ip port)) := by
  rw [acceptStun_phase]
  split
  · rename_i hnew
    exact .single (.validate _ hnew)
  · rename_i hnew
    have hr : (phaseOf s).haveRemote = true := by
      cases hs : s.state with
      | new => exact absurd hs hnew
      | ice => exact (hc.checked hs).1
      | dtls => exact (hc.shaking hs).1
      | streaming => exact (hc.streaming hs).1
      | closed => exact absurd hs hopen
    have heq : { phaseOf s with haveRemote := true } = phaseOf s := by rw [← hr]
    rw [heq]

theorem handleStun_moves {hmac : HmacSha1} {w : Answers} {s : RtcSession} {buffer : Bytes}
    {source : SockAddr} {ip : Bytes} {port : UInt16} (hc : (phaseOf s).Coupled)
    (hopen : s.state ≠ .closed) :
    Moves w.ssl.keys.peer (phaseOf s) (phaseOf (handleStun hmac w s buffer source ip port)) := by
  have hreject : ∀ t : RtcSession, phaseOf (rejectStun w t buffer source) = phaseOf t :=
    fun t => stunSendError_phase _ _ _ _ _
  unfold handleStun
  simp only
  split
  · exact .refl
  split
  · exact .refl
  split
  · rw [hreject]
    exact .refl
  split
  · rw [hreject]
    exact .refl
  · exact acceptStun_moves (s := { s with
      stats := { s.stats with stunRx := s.stats.stunRx + 1 }, lastRxMs := w.rxMs }) hc hopen

theorem answerNack_phase (w : Answers) (s : RtcSession) (seq : UInt16) :
    phaseOf (answerNack w s seq) = phaseOf s := by
  unfold answerNack
  simp only
  split
  · rfl
  · have hsend := sessionSendto_phase w s (.retransmit seq) ((s.retx (seq.toNat % retxCacheSize)).data.take
      (s.retx (seq.toNat % retxCacheSize)).len) s.remote
    split
    · rename_i t heq
      rw [heq] at hsend
      exact hsend
    · rename_i t heq
      rw [heq] at hsend
      exact hsend

theorem handleNacks_phase (w : Answers) (s : RtcSession) (feedback : RtcpFeedback) :
    phaseOf (handleNacks w s feedback) = phaseOf s := by
  unfold handleNacks
  induction feedback.nackSeq generalizing s with
  | nil => rfl
  | cons seq seqs ih => rw [List.foldl_cons, ih, answerNack_phase]

theorem noteFeedback_phase (w : Answers) (s : RtcSession) (feedback : RtcpFeedback) :
    phaseOf (noteFeedback w s feedback) = phaseOf s := by
  have hidr : phaseOf (if feedback.pli > 0 ∨ feedback.fir > 0 then
      rtcSessionRequestIdr w { s with stats := { s.stats with
        pliReceived := s.stats.pliReceived + feedback.pli + feedback.fir } } else s) = phaseOf s := by
    split
    · rw [rtcSessionRequestIdr_phase]
      rfl
    · rfl
  have hreport : ∀ t : RtcSession, phaseOf (if feedback.hasRr &&
      feedback.rrSsrc == rtpH264Ssrc s.rtp then noteReport w t feedback else t) = phaseOf t := by
    intro t
    split <;> rfl
  unfold noteFeedback
  exact (hreport _).trans hidr

/-- Feedback without a BYE leaves the life of the session alone. -/
theorem dtlsOnRtcp_phase {w : Answers} {s : RtcSession} {packet : Bytes}
    (hbye : (rtcpParse packet (rtpH264Ssrc s.rtp)).bye = false) :
    phaseOf (dtlsOnRtcp w s packet) = phaseOf s := by
  rw [dtlsOnRtcp_eq, hbye]
  exact (handleNacks_phase w _ _).trans (noteFeedback_phase w s _)

theorem dtlsOnRtcp_moves (w : Answers) (s : RtcSession) (packet : Bytes) :
    Moves w.ssl.keys.peer (phaseOf s) (phaseOf (dtlsOnRtcp w s packet)) := by
  cases hbye : (rtcpParse packet (rtpH264Ssrc s.rtp)).bye with
  | true =>
    have heq : dtlsOnRtcp w s packet = rtcSessionClose w s := by simp [dtlsOnRtcp, hbye]
    rw [heq]
    exact rtcSessionClose_moves w s
  | false => rw [dtlsOnRtcp_phase hbye]

theorem handleRtcp_moves (w : Answers) (s : RtcSession) (buffer : Bytes) :
    Moves w.ssl.keys.peer (phaseOf s) (phaseOf (handleRtcp w s buffer)) := by
  unfold handleRtcp
  simp only
  split
  · exact .refl
  split
  · exact dtlsOnRtcp_moves w { s with lastRxMs := w.rxMs } _
  · exact .refl

theorem rtcSessionOnUdp_moves {hmac : HmacSha1} {w : Answers} {s : RtcSession} {buffer : Bytes}
    {source : SockAddr} (hc : (phaseOf s).Coupled) :
    Moves w.ssl.keys.peer (phaseOf s) (phaseOf (rtcSessionOnUdp hmac w s buffer source)) := by
  unfold rtcSessionOnUdp
  split
  · exact .refl
  rename_i hopen
  simp only
  set t : RtcSession :=
    { s with stats := { s.stats with datagramsRx := s.stats.datagramsRx + 1 } } with ht
  cases rtcClassifyPacket buffer with
  | stun => exact handleStun_moves (s := t) hc hopen
  | dtls =>
    simp only
    split
    · exact .refl
    · rename_i hremote
      exact dtlsSrtpOnUdp_moves (s := { t with lastRxMs := w.rxMs }) hc hopen (by simpa using hremote)
        buffer
  | rtp =>
    simp only
    split
    · exact handleRtcp_moves w t buffer
    · exact .refl
  | other => exact .refl

theorem sendReport_phase (w : Answers) (s : RtcSession) (now : UInt64) :
    phaseOf (sendReport w s now) = phaseOf s := by
  have hnext : ∀ (t : RtcSession) (n : UInt64), phaseOf { t with nextSrMs := n } = phaseOf t :=
    fun _ _ => rfl
  have hsend : ∀ packet, phaseOf (dtlsSrtpSendRtcp w s packet).2 = phaseOf s := by
    intro packet
    unfold dtlsSrtpSendRtcp
    split
    · rfl
    · split
      · rfl
      · exact dtlsSendUdp_phase w .rtcp s _
  unfold sendReport
  simp only [hnext]
  split
  · split
    · rename_i t heq
      exact (congrArg (fun x => phaseOf x.2) heq).symm.trans (hsend _)
    · rename_i t heq
      exact (congrArg (fun x => phaseOf x.2) heq).symm.trans (hsend _)
  · rfl

theorem dtlsSrtpTick_moves {w : Answers} {s : RtcSession} (hc : (phaseOf s).Coupled)
    (hopen : s.state ≠ .closed) : Moves w.ssl.keys.peer (phaseOf s) (phaseOf (dtlsSrtpTick w s)) := by
  unfold dtlsSrtpTick
  split
  · exact .refl
  · rename_i hh
    have hh' : s.dtls.state = .handshaking := by simpa using hh
    have hremote : s.haveRemote = true := by
      cases hs : s.state with
      | new => exact absurd (hh'.symm.trans (hc.fresh hs).2.1) (by simp)
      | ice => exact (hc.checked hs).1
      | dtls => exact (hc.shaking hs).1
      | streaming => exact (hc.streaming hs).1
      | closed => exact absurd hs hopen
    have hw := writeRecords_phase w s w.timeoutRecords
    rw [← hw]
    refine pumpSsl_moves (by rw [hw]; exact hc) ?_ ?_
    · rw [state_of_phase hw]
      exact hopen
    · rw [show (writeRecords w s w.timeoutRecords).haveRemote = s.haveRemote from
        congrArg Phase.haveRemote hw]
      exact hremote

theorem rtcSessionTick_moves {w : Answers} {s : RtcSession} {now : UInt64}
    (hc : (phaseOf s).Coupled) : Moves w.ssl.keys.peer (phaseOf s) (phaseOf (rtcSessionTick w s now)) := by
  unfold rtcSessionTick
  split
  · exact .refl
  rename_i hopen
  split
  · exact rtcSessionClose_moves w s
  split
  · exact rtcSessionClose_moves w s
  · simp only
    split
    · rw [sendReport_phase]
      exact dtlsSrtpTick_moves hc hopen
    · exact dtlsSrtpTick_moves hc hopen

theorem rtpPacketSink_phase (w : Answers) (s : RtcSession) (packet : Bytes) (marker : Bool)
    (sequence : UInt16) : phaseOf (rtpPacketSink w s packet marker sequence) = phaseOf s := by
  have hsend : phaseOf (dtlsSrtpSendRtp w s packet).2 = phaseOf s := by
    unfold dtlsSrtpSendRtp
    split
    · rfl
    · split
      · rfl
      · exact dtlsSendUdp_phase w .rtp s _
  have hdid : ∀ (t : RtcSession) (result : Option Bytes),
      phaseOf (t.did (.rtp sequence result)) = phaseOf t := by
    intro t result
    simp [phaseOf, RtcSession.did, notable]
  unfold rtpPacketSink
  split
  · exact hdid s none
  · split
    · rename_i t heq
      rw [hdid]
      exact (congrArg (fun x => phaseOf x.2) heq).symm.trans hsend
    · rename_i protectedPacket t heq
      rw [hdid]
      exact (congrArg (fun x => phaseOf x.2) heq).symm.trans hsend

/-- The access unit is in the trace; everything else is as it was. -/
theorem handOver_phase (w : Answers) (s : RtcSession) (accessUnit : Bytes) (ptsUs : UInt64)
    (isIdr : Bool) :
    phaseOf (handOver w s accessUnit ptsUs isIdr).2 =
      { phaseOf s with trace := (phaseOf s).trace ++ [.packetize accessUnit isIdr] } := by
  have hdid : phaseOf (s.did (.packetize accessUnit isIdr)) =
      { phaseOf s with trace := (phaseOf s).trace ++ [.packetize accessUnit isIdr] } := by
    simp [phaseOf, RtcSession.did, notable]
  have hkeep := @RtpPlan.rtpH264Packetize_keeps _ (fun _ t => phaseOf t =
      phaseOf (s.did (.packetize accessUnit isIdr))) (rtpPacketSink w)
    (fun p t packet marker h _ _ _ _ => (rtpPacketSink_phase w t packet marker _).trans h)
    (fun _ _ _ h => h) (s.did (.packetize accessUnit isIdr)).rtp accessUnit ptsUs
    (s.did (.packetize accessUnit isIdr)) rfl
  rw [← hdid, ← hkeep]
  unfold handOver
  simp only
  split <;> rfl

theorem sendAccessUnit_moves (w : Answers) (s : RtcSession) (accessUnit : Bytes) (ptsUs : UInt64)
    (isIdr : Bool) :
    Moves w.ssl.keys.peer (phaseOf s) (phaseOf (rtcSessionSendAccessUnit w s accessUnit ptsUs isIdr).2) := by
  unfold rtcSessionSendAccessUnit
  split
  · exact .refl
  rename_i hs
  have hs' : s.state = .streaming := by simpa using hs
  cases isIdr with
  | true =>
    simp only [↓reduceIte]
    rw [handOver_phase]
    exact .single (.keyframe (phaseOf s) accessUnit hs')
  | false =>
    simp only [Bool.false_eq_true, ↓reduceIte]
    split
    · rw [rtcSessionRequestIdr_phase]
      exact .refl
    · rename_i hw
      rw [handOver_phase]
      exact .single (.delta _ accessUnit hs' (by simpa [phaseOf] using hw))

/-- Every call of the session is a sequence of moves. -/
theorem step_moves {hmac : HmacSha1} {s : RtcSession} (hc : (phaseOf s).Coupled) (e : RtcEvent) :
    Moves e.answers.ssl.keys.peer (phaseOf s) (phaseOf (s.step hmac e)) := by
  cases e with
  | onUdp w buffer source => exact rtcSessionOnUdp_moves hc
  | tick w now => exact rtcSessionTick_moves hc
  | sendAccessUnit w accessUnit ptsUs isIdr => exact sendAccessUnit_moves w s accessUnit ptsUs isIdr
  | close w => exact rtcSessionClose_moves w s

end Camstream.Proofs.Lifecycle
