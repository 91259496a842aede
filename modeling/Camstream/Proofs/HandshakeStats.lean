import Camstream.Proofs.SessionLife
import Camstream.Webrtc.DtlsEngine

namespace Camstream.Proofs.HandshakeStats
open Lib Webrtc SessionFrame Lifecycle

/-! The engine is what a session of the server runs. -/

section Refinement

/-- The callback of a failure closes the session. -/
def DtlsEngine.settle (e : DtlsEngine) : DtlsEngine :=
  if e.dtls.state = .failed then e.setState .closed else e

theorem writeRecords_dtls (w : Answers) (s : RtcSession) (records : List Bytes) :
    (writeRecords w s records).dtls = s.dtls := by
  induction records generalizing s with
  | nil => rfl
  | cons record records ih =>
    simp only [writeRecords, List.foldl_cons] at ih ⊢
    rw [ih]
    split
    · rfl
    · unfold dtlsSendUdp
      split
      · exact sessionSendto_dtls w s .dtls record s.remote
      · rfl

theorem rtcSessionClose_dtls (w : Answers) {s : RtcSession} (hopen : s.state ≠ .closed) :
    (rtcSessionClose w s).dtls = { s.dtls with state := .closed } := by
  have hshut : (shutDown w s).dtls = { s.dtls with state := .closed } := by
    unfold shutDown
    dsimp only
    split
    · rw [writeRecords_dtls]
      rfl
    · rfl
  rw [rtcSessionClose_open hopen]
  split
  · exact hshut
  · exact hshut

variable {w : Answers} {s : RtcSession} {e : DtlsEngine}

/-- A change of state with its callback, in a session that is open. -/
theorem dtlsSetState_dtls (hopen : s.state ≠ .closed) (hup : s.dtls.state ≠ .failed)
    (he : s.dtls = e.dtls) (state : DtlsSrtpState) :
    (dtlsSetState w s state).dtls = (DtlsEngine.settle (e.setState state)).dtls := by
  unfold dtlsSetState DtlsEngine.settle DtlsEngine.setState
  rw [← he]
  by_cases hsame : s.dtls.state = state
  · rw [if_pos hsame, if_pos hsame, ← he, if_neg hup]
    exact he
  · rw [if_neg hsame, if_neg hsame, dtlsOnState.eq_def]
    cases state with
    | handshaking =>
      dsimp only
      unfold setState
      split
      · rfl
      · rfl
    | failed =>
      exact rtcSessionClose_dtls w (s := { s with dtls := { s.dtls with state := .failed } }) hopen
    | closed =>
      exact rtcSessionClose_dtls w (s := { s with dtls := { s.dtls with state := .closed } }) hopen
    | init => rfl
    | connected => rfl

theorem dtlsSetState_update (hopen : s.state ≠ .closed) (d : DtlsSrtp) (hup : d.state ≠ .failed)
    (states : List DtlsSrtpState) (state : DtlsSrtpState) :
    (dtlsSetState w { s with dtls := d } state).dtls =
      (DtlsEngine.settle (DtlsEngine.setState ⟨d, states⟩ state)).dtls :=
  dtlsSetState_dtls (s := { s with dtls := d }) (e := ⟨d, states⟩) hopen hup rfl state

theorem dtlsOnConnected_dtls (w : Answers) (s : RtcSession) :
    (dtlsOnConnected w s).dtls = s.dtls := by
  unfold dtlsOnConnected rtcSessionRequestIdr setState
  dsimp only
  split
  · split
    · rfl
    · split <;> rfl
  · split
    · rfl
    · split <;> rfl

theorem finishHandshake_dtls (hopen : s.state ≠ .closed) (hup : s.dtls.state ≠ .failed)
    (he : s.dtls = e.dtls) :
    (finishHandshake w s).dtls = (DtlsEngine.settle (e.finish w.ssl)).dtls := by
  obtain ⟨-, hsame⟩ := deriveSrtpKeys_spec s.dtls w.ssl.keys
  unfold finishHandshake DtlsEngine.finish
  rw [← he]
  by_cases hskip : (s.dtls.srtpReady || !w.ssl.initFinished) = true
  · rw [if_pos hskip, if_pos hskip, DtlsEngine.settle, ← he, if_neg hup]
    exact he
  · rw [if_neg hskip, if_neg hskip]
    cases hderived : deriveSrtpKeys s.dtls w.ssl.keys with
    | mk stands dtls =>
      rw [hderived] at hsame
      have hup' : dtls.state ≠ .failed := by
        rw [hsame.state]
        exact hup
      cases stands with
      | false =>
        dsimp only
        refine dtlsSetState_update hopen _ ?_ e.states .failed
        exact hup'
      | true =>
        dsimp only
        rw [dtlsOnConnected_dtls]
        refine dtlsSetState_update hopen _ ?_ e.states .connected
        exact hup'

theorem sslTurn_dtls (he : s.dtls = e.dtls) : (sslTurn w s).dtls = (e.read w.ssl).dtls := by
  rw [sslTurn, writeRecords_dtls, DtlsEngine.read, he]

theorem sslTurn_state (w : Answers) (s : RtcSession) : (sslTurn w s).state = s.state :=
  congrArg Phase.state (sslTurn_phase w s)

theorem failHandshake_dtls (hopen : s.state ≠ .closed) (hup : s.dtls.state ≠ .failed)
    (he : s.dtls = e.dtls) (reason : String) (failures : Nat) :
    (failHandshake w s reason failures).dtls =
      (DtlsEngine.settle (e.fail reason failures)).dtls := by
  unfold failHandshake DtlsEngine.fail
  rw [← he]
  refine dtlsSetState_update hopen _ ?_ e.states .failed
  exact hup

theorem setState_open (hopen : s.state ≠ .closed) {state : RtcSessionState}
    (hstate : state ≠ .closed) : (setState s state).state ≠ .closed := by
  unfold setState
  split
  · exact hopen
  · exact hstate

/-- The start of a handshake leaves the session open. -/
theorem startHandshake_dtls (hopen : s.state ≠ .closed) (hup : s.dtls.state ≠ .failed)
    (he : s.dtls = e.dtls) :
    (startHandshake w s).state ≠ .closed ∧ (startHandshake w s).dtls.state = .handshaking ∧
      (startHandshake w s).dtls = (DtlsEngine.read (DtlsEngine.setState
        { e with dtls := { e.dtls with
          handshakeStarted := true
          handshakesStarted := e.dtls.handshakesStarted + 1 } } .handshaking) w.ssl).dtls := by
  have hsettled : ∀ e : DtlsEngine, e.dtls.state = .handshaking → DtlsEngine.settle e = e := by
    intro e hstate
    rw [DtlsEngine.settle, if_neg (by simp [hstate])]
  have hset : ∀ e : DtlsEngine, (e.setState .handshaking).dtls.state = .handshaking := by
    intro e
    unfold DtlsEngine.setState
    split
    · assumption
    · rfl
  have hopen' : ∀ {t : RtcSession}, t.state ≠ .closed →
      (dtlsSetState w t .handshaking).state ≠ .closed := by
    intro t ht
    rw [dtlsSetState]
    split
    · exact ht
    · rw [dtlsOnState.eq_def]
      exact setState_open (s := { t with dtls := { t.dtls with state := .handshaking } }) ht
        (by simp)
  have hbegun := dtlsSetState_update (w := w) hopen { s.dtls with
    handshakeStarted := true, handshakesStarted := s.dtls.handshakesStarted + 1 } hup
    e.states .handshaking
  rw [hsettled _ (hset _)] at hbegun
  refine ⟨?_, ?_, ?_⟩
  · rw [startHandshake, sslTurn_state]
    exact hopen' hopen
  · rw [startHandshake, sslTurn_dtls hbegun]
    exact hset _
  · rw [startHandshake, sslTurn_dtls hbegun, he]

theorem pumpSsl_dtls (hopen : s.state ≠ .closed) (hup : s.dtls.state ≠ .failed)
    (he : s.dtls = e.dtls) :
    (pumpSsl w s).dtls = (DtlsEngine.settle (e.pump w.ssl)).dtls := by
  unfold pumpSsl DtlsEngine.pump
  rw [← he]
  by_cases hclosed : s.dtls.state = .closed ∨ s.dtls.state = .failed
  · rw [if_pos hclosed, if_pos hclosed, DtlsEngine.settle, ← he, if_neg hup]
    exact he
  · rw [if_neg hclosed, if_neg hclosed]
    by_cases hstarted : (!s.dtls.handshakeStarted) = true
    · rw [if_pos hstarted, if_pos hstarted]
      dsimp only
      obtain ⟨hopen', hstate, he'⟩ := startHandshake_dtls (w := w) hopen hup he
      have hup' : (startHandshake w s).dtls.state ≠ .failed := by simp [hstate]
      rw [← he] at he'
      cases w.ssl.result with
      | progress => exact finishHandshake_dtls hopen' hup' he'
      | want => exact finishHandshake_dtls hopen' hup' he'
      | zero error => exact failHandshake_dtls hopen' hup' he' _ 1
      | error error => exact failHandshake_dtls hopen' hup' he' _ 1
    · rw [if_neg hstarted, if_neg hstarted]
      dsimp only
      have he' : (sslTurn w s).dtls = (e.read w.ssl).dtls := sslTurn_dtls he
      have hopen' : (sslTurn w s).state ≠ .closed := by
        rw [sslTurn_state]
        exact hopen
      have hup' : (sslTurn w s).dtls.state ≠ .failed := by
        rw [he', DtlsEngine.read, ← he]
        exact hup
      cases w.ssl.result with
      | progress => exact finishHandshake_dtls hopen' hup' he'
      | want => exact finishHandshake_dtls hopen' hup' he'
      | zero error => exact dtlsSetState_dtls hopen' hup' he' .closed
      | error error => exact failHandshake_dtls hopen' hup' he' _ 0

/-- A datagram and a tick of a session are calls of its engine, and a failure is one more. -/
theorem dtlsSrtpOnUdp_dtls (hopen : s.state ≠ .closed) (hup : s.dtls.state ≠ .failed)
    (he : s.dtls = e.dtls) (packet : Bytes) :
    (dtlsSrtpOnUdp w s packet).dtls =
      (DtlsEngine.settle (e.step (.onUdp packet w.ssl))).dtls := by
  unfold dtlsSrtpOnUdp DtlsEngine.step
  dsimp only
  rw [← he]
  split
  · rw [DtlsEngine.settle, ← he, if_neg hup]
    exact he
  · exact pumpSsl_dtls (s := { s with dtls := { s.dtls with rxq := rxqPush s.dtls.rxq packet } })
      (e := { e with dtls := { s.dtls with rxq := rxqPush s.dtls.rxq packet } }) hopen hup rfl

theorem dtlsSrtpTick_dtls (hopen : s.state ≠ .closed) (hup : s.dtls.state ≠ .failed)
    (he : s.dtls = e.dtls) :
    (dtlsSrtpTick w s).dtls = (DtlsEngine.settle (e.step (.tick w.ssl))).dtls := by
  unfold dtlsSrtpTick DtlsEngine.step
  dsimp only
  rw [← he]
  split
  · rw [DtlsEngine.settle, ← he, if_neg hup]
    exact he
  · have hsame := writeRecords_dtls w s w.timeoutRecords
    apply pumpSsl_dtls
    · exact (congrArg Phase.state (writeRecords_phase w s w.timeoutRecords)).trans_ne hopen
    · rw [hsame]
      exact hup
    · rw [hsame, he]

end Refinement

section Accounting

/-- What a session added to `handshakes_completed` and `handshake_failures`. -/
def outcomes (e : DtlsEngine) : Nat := e.dtls.handshakesCompleted + e.dtls.handshakeFailures

/-- The session was connected or has failed. -/
def Settled (e : DtlsEngine) : Prop :=
  DtlsSrtpState.connected ∈ e.states ∨ DtlsSrtpState.failed ∈ e.states

/-- Each handshake is counted once when it ends, and the sums agree with that. -/
structure HandshakesConsistent (p : DtlsProcess) : Prop where
  once : ∀ e ∈ p, outcomes e ≤ 1
  settled : ∀ e ∈ p, Settled e → outcomes e = 1
  total : (dtlsSrtpGlobalStats p).handshakesCompleted + (dtlsSrtpGlobalStats p).handshakeFailures ≤
    (dtlsSrtpGlobalStats p).handshakesStarted

/-- The turn of OpenSSL that a call comes to. -/
def DtlsEngine.pumped (e : DtlsEngine) : DtlsCall → Option SslTurn
  | .expect _ => none
  | .onUdp _ turn => if e.dtls.state = .failed ∨ e.dtls.state = .closed then none else some turn
  | .tick turn => if e.dtls.state ≠ .handshaking then none else some turn
  | .close => none

/-- The handshake is over and the keys are there, and the certificate is not the expected one. -/
def RefusedPeer (e : DtlsEngine) (turn : SslTurn) : Prop :=
  e.dtls.srtpReady = false ∧ (turn.result = .progress ∨ turn.result = .want) ∧
    turn.initFinished = true ∧ KeyExport.usable turn.keys = true ∧
    ¬ Vouched e.dtls.expectedFingerprint turn.keys.peer

/-- `SSL_read` fails before the handshake is over. -/
def BrokenRead (e : DtlsEngine) (turn : SslTurn) : Prop :=
  e.dtls.handshakeStarted = true ∧ e.dtls.srtpReady = false ∧ ∃ error, turn.result = .error error

/-- The calls whose outcome is counted once. -/
def Routine (p : DtlsProcess) : DtlsEvent → Prop
  | .create => True
  | .call i call =>
    ∀ e, p[i]? = some e → ∀ turn, DtlsEngine.pumped e call = some turn →
      ¬ RefusedPeer e turn ∧ ¬ BrokenRead e turn

/-- What a session has counted, and how far its handshake is. -/
structure Accounted (e : DtlsEngine) : Prop where
  started : e.dtls.handshakesStarted = if e.dtls.handshakeStarted then 1 else 0
  counted : Settled e → outcomes e = 1
  uncounted : ¬ Settled e → outcomes e = 0
  begun : Settled e → e.dtls.handshakeStarted = true
  ready : e.dtls.srtpReady = true ↔ DtlsSrtpState.connected ∈ e.states
  connected : e.dtls.state = .connected → DtlsSrtpState.connected ∈ e.states
  failed : DtlsSrtpState.failed ∈ e.states → e.dtls.state = .failed ∨ e.dtls.state = .closed

theorem created_accounted : Accounted ⟨dtlsSrtpSessionCreate, []⟩ where
  started := rfl
  counted := by simp [Settled]
  uncounted := fun _ => rfl
  begun := by simp [Settled]
  ready := by simp [dtlsSrtpSessionCreate]
  connected := by simp [dtlsSrtpSessionCreate]
  failed := by simp

variable {e : DtlsEngine} {turn : SslTurn}

/-- A change that leaves the counters and the progress of the handshake. -/
theorem Accounted.frame (h : Accounted e) {d : DtlsSrtp}
    (hstarted : d.handshakesStarted = e.dtls.handshakesStarted)
    (hcompleted : d.handshakesCompleted = e.dtls.handshakesCompleted)
    (hfailures : d.handshakeFailures = e.dtls.handshakeFailures)
    (hbegun : d.handshakeStarted = e.dtls.handshakeStarted)
    (hready : d.srtpReady = e.dtls.srtpReady) (hstate : d.state = e.dtls.state) :
    Accounted { e with dtls := d } where
  started := by rw [hstarted, hbegun]; exact h.started
  counted := by
    unfold outcomes
    rw [hcompleted, hfailures]
    exact h.counted
  uncounted := by
    unfold outcomes
    rw [hcompleted, hfailures]
    exact h.uncounted
  begun := fun hs => hbegun.trans (h.begun hs)
  ready := by rw [hready]; exact h.ready
  connected := by rw [hstate]; exact h.connected
  failed := by rw [hstate]; exact h.failed

theorem Accounted.close (h : Accounted e) : Accounted (e.setState .closed) := by
  unfold DtlsEngine.setState
  split
  · exact h
  · have hsame : Settled ⟨{ e.dtls with state := .closed }, e.states ++ [.closed]⟩ ↔ Settled e := by
      simp [Settled]
    refine ⟨h.started, fun hs => h.counted (hsame.mp hs), fun hn => ?_,
      fun hs => h.begun (hsame.mp hs), ?_, fun hs => ?_, fun _ => .inr rfl⟩
    · exact h.uncounted fun hs => hn (hsame.mpr hs)
    · simpa using h.ready
    · cases hs

/-- A handshake in progress has no outcome. -/
theorem Accounted.unsettled (h : Accounted e) (hready : e.dtls.srtpReady = false)
    (hup : e.dtls.state ≠ .failed ∧ e.dtls.state ≠ .closed) : ¬ Settled e := by
  intro hs
  cases hs with
  | inl hconnected =>
    rw [← h.ready, hready] at hconnected
    cases hconnected
  | inr hfailed =>
    cases h.failed hfailed with
    | inl hstate => exact hup.1 hstate
    | inr hstate => exact hup.2 hstate

/-- The outcome of a handshake, counted once. -/
theorem settle_accounted {d : DtlsSrtp} {state : DtlsSrtpState}
    (hnone : ¬ Settled e) (hend : state = .connected ∨ state = .failed)
    (hstarted : d.handshakesStarted = 1) (hbegun : d.handshakeStarted = true)
    (hcount : d.handshakesCompleted + d.handshakeFailures = 1)
    (hready : d.srtpReady = true ↔ state = .connected) (hstate : d.state ≠ state) :
    Accounted (DtlsEngine.setState ⟨d, e.states⟩ state) := by
  have hc : DtlsSrtpState.connected ∉ e.states := fun hm => hnone (.inl hm)
  have hf : DtlsSrtpState.failed ∉ e.states := fun hm => hnone (.inr hm)
  have hsettled : Settled ⟨{ d with state }, e.states ++ [state]⟩ := by
    cases hend with
    | inl hs => exact .inl (by simp [hs])
    | inr hs => exact .inr (by simp [hs])
  unfold DtlsEngine.setState
  rw [if_neg hstate]
  refine ⟨?_, fun _ => hcount, fun hn => absurd hsettled hn, fun _ => hbegun, ?_, ?_, ?_⟩
  · simp [hstarted, hbegun]
  · simp [hready, hc, eq_comm]
  · intro hs
    simp only at hs
    simp [hs]
  · intro hs
    simp only [List.mem_append, hf, List.mem_singleton, false_or] at hs
    exact .inl hs.symm

/-- What the comparison counts itself. -/
theorem verifyFingerprint_counts (d : DtlsSrtp) (peer : PeerCertificate) :
    (verifyFingerprint d peer).2.handshakesStarted = d.handshakesStarted ∧
      (verifyFingerprint d peer).2.handshakesCompleted = d.handshakesCompleted ∧
      (Vouched d.expectedFingerprint peer →
        (verifyFingerprint d peer).2.handshakeFailures = d.handshakeFailures) ∧
      (¬ Vouched d.expectedFingerprint peer →
        (verifyFingerprint d peer).2.handshakeFailures = d.handshakeFailures + 1) := by
  unfold verifyFingerprint Vouched
  split
  · rename_i hexpected
    have hnone : d.expectedFingerprint = [] := by simpa using hexpected
    exact ⟨rfl, rfl, fun _ => rfl, fun hn => absurd (.inl hnone) hn⟩
  · rename_i hexpected
    have hsome : d.expectedFingerprint ≠ [] := by simpa using hexpected
    cases peer with
    | missing => exact ⟨rfl, rfl, by simp [hsome], fun _ => rfl⟩
    | undigested => exact ⟨rfl, rfl, by simp [hsome], fun _ => rfl⟩
    | sha256 digest =>
      dsimp only
      split
      · rename_i hequal
        exact ⟨rfl, rfl, fun _ => rfl, by simp [hequal]⟩
      · rename_i hequal
        exact ⟨rfl, rfl, by simp [hsome, hequal], fun _ => rfl⟩

/-- What `derive_srtp_keys` counts itself. -/
theorem deriveSrtpKeys_counts (d : DtlsSrtp) (keys : KeyExport) :
    (deriveSrtpKeys d keys).2.handshakesStarted = d.handshakesStarted ∧
      (deriveSrtpKeys d keys).2.handshakesCompleted = d.handshakesCompleted ∧
      ((KeyExport.usable keys = true → Vouched d.expectedFingerprint keys.peer) →
        (deriveSrtpKeys d keys).2.handshakeFailures = d.handshakeFailures) ∧
      (KeyExport.usable keys = true → ¬ Vouched d.expectedFingerprint keys.peer →
        (deriveSrtpKeys d keys).2.handshakeFailures = d.handshakeFailures + 1) := by
  obtain ⟨hstarted, hcompleted, hvouched, hrefused⟩ := verifyFingerprint_counts d keys.peer
  unfold deriveSrtpKeys KeyExport.usable
  split
  · rename_i hprofile
    have hnone : keys.profileSelected = false := by simpa using hprofile
    exact ⟨rfl, rfl, fun _ => rfl, by simp [hnone]⟩
  · rename_i hprofile
    have hprofile' : keys.profileSelected = true := by simpa using hprofile
    split
    · rename_i hexport
      refine ⟨rfl, rfl, fun _ => rfl, ?_⟩
      intro husable
      simp only [Bool.and_eq_true] at husable
      simp [husable] at hexport
    · rename_i hexport
      simp only [Bool.or_eq_true, Bool.not_eq_true', not_or, Bool.not_eq_false] at hexport
      have husable : (keys.profileSelected && keys.exported && keys.outboundCreated &&
          keys.inboundCreated) = true := by simp [hprofile', hexport]
      split
      · rename_i d' hverify
        rw [hverify] at hstarted hcompleted hvouched hrefused
        exact ⟨hstarted, hcompleted, fun h => hvouched (h husable), fun _ => hrefused⟩
      · rename_i d' hverify
        rw [hverify] at hstarted hcompleted hvouched hrefused
        exact ⟨hstarted, hcompleted, fun h => hvouched (h husable), fun _ => hrefused⟩

/-- The end of a handshake is counted once, unless the peer is refused. -/
theorem Accounted.finish (h : Accounted e) (hbegun : e.dtls.handshakeStarted = true)
    (hup : e.dtls.state ≠ .failed ∧ e.dtls.state ≠ .closed)
    (hroutine : e.dtls.srtpReady = false → turn.initFinished = true →
      KeyExport.usable turn.keys = true → Vouched e.dtls.expectedFingerprint turn.keys.peer) :
    Accounted (e.finish turn) := by
  unfold DtlsEngine.finish
  split
  · exact h
  · rename_i hopen
    obtain ⟨hready, hfinished⟩ : e.dtls.srtpReady = false ∧ turn.initFinished = true := by
      simpa using hopen
    have hnone := h.unsettled hready hup
    have hzero : e.dtls.handshakesCompleted + e.dtls.handshakeFailures = 0 := h.uncounted hnone
    have hone : e.dtls.handshakesStarted = 1 := by
      rw [h.started, if_pos hbegun]
    obtain ⟨hstarted, hcompleted, hfailures, -⟩ := deriveSrtpKeys_counts e.dtls turn.keys
    have hfailures := hfailures (hroutine hready hfinished)
    obtain ⟨-, hsame⟩ := deriveSrtpKeys_spec e.dtls turn.keys
    cases hderived : deriveSrtpKeys e.dtls turn.keys with
    | mk stands d =>
      rw [hderived] at hstarted hcompleted hfailures hsame
      dsimp only at hstarted hcompleted hfailures hsame
      cases stands with
      | false =>
        apply settle_accounted hnone (.inr rfl)
        · exact hstarted.trans hone
        · exact hsame.started.trans hbegun
        · dsimp only
          omega
        · simpa [hready] using hsame.ready
        · rw [hsame.state]
          exact hup.1
      | true =>
        apply settle_accounted hnone (.inl rfl)
        · exact hstarted.trans hone
        · exact hsame.started.trans hbegun
        · dsimp only
          omega
        · simpa using hsame.ready
        · rw [hsame.state]
          exact fun hs => hnone (.inl (h.connected hs))

/-- A refused peer is counted in `derive_srtp_keys` and again in `pump_ssl`. -/
theorem finish_refused (hready : e.dtls.srtpReady = false) (hfinished : turn.initFinished = true)
    (husable : KeyExport.usable turn.keys = true)
    (hrefused : ¬ Vouched e.dtls.expectedFingerprint turn.keys.peer) :
    outcomes (e.finish turn) = outcomes e + 2 := by
  obtain ⟨-, hcompleted, -, hfailures⟩ := deriveSrtpKeys_counts e.dtls turn.keys
  have hfailures := hfailures husable hrefused
  obtain ⟨hstands, -⟩ := deriveSrtpKeys_spec e.dtls turn.keys
  unfold DtlsEngine.finish
  rw [if_neg (by simp [hready, hfinished])]
  cases hderived : deriveSrtpKeys e.dtls turn.keys with
  | mk stands d =>
    rw [hderived] at hstands hcompleted hfailures
    dsimp only at hstands hcompleted hfailures
    cases stands with
    | true => exact absurd (hstands.mp rfl).2 hrefused
    | false =>
      unfold DtlsEngine.setState outcomes
      dsimp only
      split
      · dsimp only
        omega
      · dsimp only
        omega

/-- A handshake begins. -/
theorem Accounted.begin (h : Accounted e) (hfresh : e.dtls.handshakeStarted = false) :
    Accounted (DtlsEngine.setState { e with dtls := { e.dtls with
      handshakeStarted := true
      handshakesStarted := e.dtls.handshakesStarted + 1 } } .handshaking) := by
  have hnone : ¬ Settled e := by
    intro hs
    have hbegun := h.begun hs
    rw [hfresh] at hbegun
    cases hbegun
  have hone : e.dtls.handshakesStarted + 1 = 1 := by
    rw [h.started, hfresh]
    rfl
  have hcount : Accounted { e with dtls := { e.dtls with
      handshakeStarted := true, handshakesStarted := e.dtls.handshakesStarted + 1 } } :=
    ⟨hone, h.counted, h.uncounted, fun _ => rfl, h.ready, h.connected, h.failed⟩
  unfold DtlsEngine.setState
  split
  · exact hcount
  · have hsame : Settled ⟨{ e.dtls with
        handshakeStarted := true, handshakesStarted := e.dtls.handshakesStarted + 1,
        state := .handshaking }, e.states ++ [.handshaking]⟩ ↔ Settled e := by
      simp [Settled]
    refine ⟨hone, fun hs => absurd (hsame.mp hs) hnone, fun _ => h.uncounted hnone, fun _ => rfl,
      ?_, fun hs => ?_, fun hs => ?_⟩
    · simpa using h.ready
    · cases hs
    · exact absurd (.inr (by simpa using hs)) hnone

/-- `SSL_accept` failed, which is counted. -/
theorem Accounted.fail (h : Accounted e) (hbegun : e.dtls.handshakeStarted = true)
    (hnone : ¬ Settled e) (hup : e.dtls.state ≠ .failed) (reason : String) :
    Accounted (e.fail reason 1) := by
  have hzero : e.dtls.handshakesCompleted + e.dtls.handshakeFailures = 0 := h.uncounted hnone
  apply settle_accounted hnone (.inr rfl)
  · exact h.started.trans (if_pos hbegun)
  · exact hbegun
  · dsimp only
    omega
  · simpa using fun hready => hnone (.inl (h.ready.mp hready))
  · exact hup

/-- A connected session fails without a count. -/
theorem Accounted.drop (h : Accounted e) (hready : e.dtls.srtpReady = true) (reason : String) :
    Accounted (e.fail reason 0) := by
  have hconnected := h.ready.mp hready
  have hone : outcomes e = 1 := h.counted (.inl hconnected)
  have hbegun := h.begun (.inl hconnected)
  unfold DtlsEngine.fail DtlsEngine.setState
  split
  · exact h.frame rfl rfl rfl rfl rfl rfl
  · have hin : DtlsSrtpState.connected ∈ e.states ++ [DtlsSrtpState.failed] := by
      simp [hconnected]
    exact ⟨h.started, fun _ => hone, fun hn => absurd (.inl hin) hn, fun _ => hbegun,
      iff_of_true hready hin, fun _ => hin, fun _ => .inl rfl⟩

theorem setState_frame (e : DtlsEngine) (state : DtlsSrtpState) :
    (e.setState state).dtls = { e.dtls with state } := by
  unfold DtlsEngine.setState
  split
  · rename_i hsame
    rw [← hsame]
  · rfl

theorem mem_setState {state : DtlsSrtpState} (hnew : e.dtls.state ≠ state) :
    state ∈ (e.setState state).states := by
  unfold DtlsEngine.setState
  rw [if_neg hnew]
  exact List.mem_append_right _ (List.mem_singleton.mpr rfl)

theorem Accounted.pump (h : Accounted e)
    (hup : e.dtls.state ≠ .failed ∧ e.dtls.state ≠ .closed)
    (hroutine : ¬ RefusedPeer e turn ∧ ¬ BrokenRead e turn) : Accounted (e.pump turn) := by
  have hvouched : e.dtls.srtpReady = false → (turn.result = .progress ∨ turn.result = .want) →
      turn.initFinished = true → KeyExport.usable turn.keys = true →
      Vouched e.dtls.expectedFingerprint turn.keys.peer := by
    intro hready hresult hfinished husable
    by_contra hrefused
    exact hroutine.1 ⟨hready, hresult, hfinished, husable, hrefused⟩
  unfold DtlsEngine.pump
  rw [if_neg (not_or.mpr ⟨hup.2, hup.1⟩)]
  split
  · rename_i hfirst
    -- `SSL_accept`: nothing was counted before
    have hfresh : e.dtls.handshakeStarted = false := by simpa using hfirst
    have hbegin := h.begin hfresh
    have hframe := setState_frame { e with dtls := { e.dtls with
      handshakeStarted := true, handshakesStarted := e.dtls.handshakesStarted + 1 } } .handshaking
    generalize DtlsEngine.setState { e with dtls := { e.dtls with
      handshakeStarted := true, handshakesStarted := e.dtls.handshakesStarted + 1 } }
      .handshaking = begun at hbegin hframe ⊢
    have hread : Accounted (begun.read turn) := hbegin.frame rfl rfl rfl rfl rfl rfl
    have hbegun : (begun.read turn).dtls.handshakeStarted = true := by
      rw [DtlsEngine.read, hframe]
    have hup' : (begun.read turn).dtls.state ≠ .failed ∧ (begun.read turn).dtls.state ≠ .closed := by
      rw [DtlsEngine.read, hframe]
      simp
    have hready : (begun.read turn).dtls.srtpReady = e.dtls.srtpReady := by
      rw [DtlsEngine.read, hframe]
    have hexpected : (begun.read turn).dtls.expectedFingerprint = e.dtls.expectedFingerprint := by
      rw [DtlsEngine.read, hframe]
    have hnone : ¬ Settled (begun.read turn) := by
      have hnot : e.dtls.srtpReady ≠ true := by
        intro hready
        have hstarted := h.begun (.inl (h.ready.mp hready))
        rw [hfresh] at hstarted
        cases hstarted
      exact hread.unsettled (hready.trans (by simpa using hnot)) hup'
    cases hresult : turn.result with
    | progress =>
      apply hread.finish hbegun hup'
      rw [hready, hexpected]
      exact fun hready => hvouched hready (.inl hresult)
    | want =>
      apply hread.finish hbegun hup'
      rw [hready, hexpected]
      exact fun hready => hvouched hready (.inr hresult)
    | zero error => exact hread.fail hbegun hnone hup'.1 _
    | error error => exact hread.fail hbegun hnone hup'.1 _
  · rename_i hlater
    have hbegun : e.dtls.handshakeStarted = true := by simpa using hlater
    have hread : Accounted (e.read turn) := h.frame rfl rfl rfl rfl rfl rfl
    cases hresult : turn.result with
    | progress =>
      exact hread.finish hbegun hup fun hready => hvouched hready (.inl hresult)
    | want => exact hread.finish hbegun hup fun hready => hvouched hready (.inr hresult)
    | zero error => exact hread.close
    | error error =>
      -- the handshake is over, or the read would be broken
      have hready : e.dtls.srtpReady = true := by
        cases hready : e.dtls.srtpReady with
        | true => rfl
        | false => exact absurd ⟨hbegun, hready, error, hresult⟩ hroutine.2
      exact hread.drop hready _

/-- What any other outcome of a turn is counted as. -/
theorem pump_miscounted (h : Accounted e)
    (hup : e.dtls.state ≠ .failed ∧ e.dtls.state ≠ .closed)
    (hbad : RefusedPeer e turn ∨ BrokenRead e turn) :
    outcomes (e.pump turn) = 2 ∨ Settled (e.pump turn) ∧ outcomes (e.pump turn) = 0 := by
  unfold DtlsEngine.pump
  rw [if_neg (not_or.mpr ⟨hup.2, hup.1⟩)]
  obtain ⟨hready, hresult, hfinished, husable, hrefused⟩ | ⟨hbegun, hready, error, hresult⟩ := hbad
  · have hzero : outcomes e = 0 := h.uncounted (h.unsettled hready hup)
    have hfinish : ∀ {begun : DtlsEngine}, begun.dtls.srtpReady = false →
        begun.dtls.expectedFingerprint = e.dtls.expectedFingerprint →
        outcomes begun = outcomes e → outcomes (begun.finish turn) = 2 := by
      intro begun hready' hexpected hsame
      rw [← hexpected] at hrefused
      rw [finish_refused hready' hfinished husable hrefused, hsame, hzero]
    left
    split
    · have hframe := setState_frame { e with dtls := { e.dtls with
        handshakeStarted := true, handshakesStarted := e.dtls.handshakesStarted + 1 } } .handshaking
      generalize DtlsEngine.setState { e with dtls := { e.dtls with
        handshakeStarted := true, handshakesStarted := e.dtls.handshakesStarted + 1 } }
        .handshaking = begun at hframe ⊢
      have hturn : outcomes ((begun.read turn).finish turn) = 2 := by
        apply hfinish
        · rw [DtlsEngine.read, hframe]
          exact hready
        · rw [DtlsEngine.read, hframe]
        · rw [DtlsEngine.read, outcomes, hframe]
          rfl
      cases hresult with
      | inl hresult => rw [hresult]; exact hturn
      | inr hresult => rw [hresult]; exact hturn
    · have hturn : outcomes ((e.read turn).finish turn) = 2 := hfinish hready rfl rfl
      cases hresult with
      | inl hresult => rw [hresult]; exact hturn
      | inr hresult => rw [hresult]; exact hturn
  · have hzero : outcomes e = 0 := h.uncounted (h.unsettled hready hup)
    right
    rw [if_neg (by simp [hbegun]), hresult]
    dsimp only
    have hfailed : DtlsSrtpState.failed ∈
        (DtlsEngine.fail (e.read turn) ("SSL_read: error " ++ toString error) 0).states :=
      mem_setState hup.1
    refine ⟨.inr hfailed, ?_⟩
    rw [DtlsEngine.fail, outcomes, setState_frame]
    exact hzero

/-- Every call on a session keeps its counters right, unless it comes to such a turn. -/
theorem step_accounted (h : Accounted e) (call : DtlsCall)
    (hroutine : ∀ turn, DtlsEngine.pumped e call = some turn →
      ¬ RefusedPeer e turn ∧ ¬ BrokenRead e turn) : Accounted (e.step call) := by
  cases call with
  | expect fingerprint => exact h.frame rfl rfl rfl rfl rfl rfl
  | onUdp packet turn =>
    unfold DtlsEngine.step
    dsimp only
    split
    · exact h
    · rename_i hup
      have hturn := hroutine turn (if_neg hup)
      obtain ⟨hfailed, hclosed⟩ := not_or.mp hup
      have hpush : Accounted { e with dtls := { e.dtls with rxq := rxqPush e.dtls.rxq packet } } :=
        h.frame rfl rfl rfl rfl rfl rfl
      exact hpush.pump ⟨hfailed, hclosed⟩ hturn
  | tick turn =>
    unfold DtlsEngine.step
    dsimp only
    split
    · exact h
    · rename_i hshaking
      have hturn := hroutine turn (if_neg hshaking)
      have hstate : e.dtls.state = .handshaking := by simpa using hshaking
      exact h.pump (by simp [hstate]) hturn
  | close => exact h.close

/-- Every other call leaves its session with two outcomes, or failed with none. -/
theorem step_miscounted (h : Accounted e) {call : DtlsCall}
    (hturn : DtlsEngine.pumped e call = some turn)
    (hbad : RefusedPeer e turn ∨ BrokenRead e turn) :
    outcomes (e.step call) = 2 ∨ Settled (e.step call) ∧ outcomes (e.step call) = 0 := by
  cases call with
  | expect fingerprint => cases hturn
  | onUdp packet later =>
    unfold DtlsEngine.pumped at hturn
    dsimp only at hturn
    split at hturn
    · cases hturn
    · rename_i hup
      obtain ⟨hfailed, hclosed⟩ := not_or.mp hup
      obtain rfl : later = turn := Option.some.inj hturn
      unfold DtlsEngine.step
      dsimp only
      rw [if_neg hup]
      have hpush : Accounted { e with dtls := { e.dtls with rxq := rxqPush e.dtls.rxq packet } } :=
        h.frame rfl rfl rfl rfl rfl rfl
      exact pump_miscounted hpush ⟨hfailed, hclosed⟩ hbad
  | tick later =>
    unfold DtlsEngine.pumped at hturn
    dsimp only at hturn
    split at hturn
    · cases hturn
    · rename_i hshaking
      obtain rfl : later = turn := Option.some.inj hturn
      have hstate : e.dtls.state = .handshaking := by simpa using hshaking
      unfold DtlsEngine.step
      dsimp only
      rw [if_neg hshaking]
      exact pump_miscounted h (by simp [hstate]) hbad
  | close => cases hturn

/-- A session has no more outcomes than handshakes. -/
theorem Accounted.bounded (h : Accounted e) :
    outcomes e ≤ 1 ∧ outcomes e ≤ e.dtls.handshakesStarted := by
  by_cases hs : Settled e
  · have hone := h.counted hs
    have hstarted := h.started
    rw [if_pos (h.begun hs)] at hstarted
    omega
  · have hzero := h.uncounted hs
    omega

end Accounting

/-! The process. -/

section Process
variable {p : DtlsProcess}

theorem consistent_of_accounted (h : ∀ e ∈ p, Accounted e) : HandshakesConsistent p where
  once := fun e he => (h e he).bounded.1
  settled := fun e he => (h e he).counted
  total := by
    simp only [dtlsSrtpGlobalStats]
    induction p with
    | nil => exact Nat.le_refl 0
    | cons e p ih =>
      have hone := (h e (by simp)).bounded.2
      have hrest := ih fun e he => h e (by simp [he])
      simp only [outcomes] at hone
      simp only [List.map_cons, List.sum_cons]
      omega

theorem routine_accounted (h : ∀ e ∈ p, Accounted e) {event : DtlsEvent}
    (hroutine : Routine p event) : ∀ e ∈ p.step event, Accounted e := by
  cases event with
  | create =>
    intro e he
    cases List.mem_append.mp he with
    | inl he => exact h e he
    | inr he =>
      rw [List.mem_singleton.mp he]
      exact created_accounted
  | call i call =>
    unfold DtlsProcess.step
    dsimp only
    cases hi : p[i]? with
    | none => exact h
    | some e =>
      intro e' he'
      cases List.mem_or_eq_of_mem_set he' with
      | inl he' => exact h e' he'
      | inr he' =>
        rw [he']
        exact step_accounted (h e (List.mem_of_getElem? hi)) call (hroutine e hi)

/-- The counters stay right in exactly the calls that are counted once. -/
theorem consistent_iff_routine (h : ∀ e ∈ p, Accounted e) (event : DtlsEvent) :
    HandshakesConsistent (p.step event) ↔ Routine p event := by
  refine ⟨fun hc => ?_, fun hroutine => consistent_of_accounted (routine_accounted h hroutine)⟩
  cases event with
  | create => trivial
  | call i call =>
    intro e hi turn hturn
    rw [← not_or]
    intro hbad
    have hlt : i < p.length := (List.getElem?_eq_some_iff.mp hi).1
    have hmem : e.step call ∈ p.step (.call i call) := by
      unfold DtlsProcess.step
      dsimp only
      rw [hi]
      exact List.mem_set hlt _
    cases step_miscounted (h e (List.mem_of_getElem? hi)) hturn hbad with
    | inl htwo =>
      have hone := hc.once _ hmem
      omega
    | inr hnone =>
      have hone := hc.settled _ hmem hnone.1
      omega

/-- A run leaves the statistics consistent in every state it reaches, exactly when none of its
turns refuses a peer with usable keys or fails in `SSL_read` during the handshake. -/
theorem handshakes_consistent_iff (events : List DtlsEvent) :
    Allowed DtlsProcess.step (fun p event => HandshakesConsistent (p.step event)) [] events ↔
      Allowed DtlsProcess.step Routine [] events := by
  apply @allowed_iff _ _ _ (fun p => ∀ e ∈ p, Accounted e) (fun _ _ => True)
  · intro e he
    cases he
  · intro p event h _ hroutine
    exact routine_accounted h hroutine
  · intro p event h _
    exact consistent_iff_routine h event
  · apply allowed_of_invariant (P := fun _ => True) trivial
    · intro _ _ _
      trivial
    · intro _ _ _
      trivial

/-- A peer with an unexpected certificate, whose handshake is over at once. -/
def strangerTurn : SslTurn :=
  ⟨1, [], .progress, true, ⟨true, true, true, true, SessionLife.strangeCertificate⟩⟩

/-- A handshake that waits for the peer, and a record that cannot be read. -/
def waitingTurn : SslTurn := ⟨1, [], .want, false, ⟨false, false, false, false, .missing⟩⟩

def brokenTurn : SslTurn := { waitingTurn with result := .error 1 }

/-- One handshake with two failures, and one that failed and was not counted. -/
theorem handshakes_inconsistent :
    ¬ HandshakesConsistent (run DtlsProcess.step []
        [.create, .call 0 (.expect [65]), .call 0 (.onUdp [22] strangerTurn)]) ∧
      ¬ HandshakesConsistent (run DtlsProcess.step []
        [.create, .call 0 (.onUdp [22] waitingTurn), .call 0 (.onUdp [22] brokenTurn)]) := by
  refine ⟨fun h => ?_, fun h => ?_⟩
  · have htotal := h.total
    revert htotal
    decide
  · have hsettled := h.settled _ (List.mem_singleton.mpr rfl) (.inr (by decide))
    revert hsettled
    decide

end Process

end Camstream.Proofs.HandshakeStats
