import Camstream.Lib.Runs
import Camstream.Proofs.Lifecycle
import Camstream.Proofs.StunAuth

namespace Camstream.Proofs.SessionLife
open Lib Webrtc SessionFrame Lifecycle

/-- NEW < ICE < DTLS < STREAMING < CLOSED. -/
def rank : RtcSessionState → Nat
  | .new => 0
  | .ice => 1
  | .dtls => 2
  | .streaming => 3
  | .closed => 4

def stateChange : Effect → Option RtcSessionState
  | .state state => some state
  | _ => none

/-- The states a session has gone through after NEW. -/
def stateLog (effects : List Effect) : List RtcSessionState := effects.filterMap stateChange

/-- The state a session is in after these effects. -/
def stateAfter (effects : List Effect) : RtcSessionState := (stateLog effects).getLastD .new

def handedUnit : Effect → Option (Bytes × Bool)
  | .packetize accessUnit isIdr => some (accessUnit, isIdr)
  | _ => none

/-- The access units handed to the packetizer, with their IDR flags. -/
def handedOver (effects : List Effect) : List (Bytes × Bool) := effects.filterMap handedUnit

/-- What the trace of a session tells, in every phase of its life. -/
structure Told (p : Phase) : Prop where
  forward : (.new :: stateLog p.trace).Pairwise (rank · < rank ·)
  bound : ∀ state ∈ stateLog p.trace, rank state ≤ rank p.state
  last : stateAfter p.trace = p.state
  closes : p.trace.count .closed = if p.state = .closed ∧ p.onClosed = true then 1 else 0
  streaming : ∀ before accessUnit isIdr rest,
    p.trace = before ++ .packetize accessUnit isIdr :: rest → stateAfter before = .streaming
  first : ∀ unit, (handedOver p.trace).head? = some unit → unit.2 = true
  early : rank p.state < rank .streaming → handedOver p.trace = []
  waits : p.state = .streaming → (p.waiting = true ↔ handedOver p.trace = [])

theorem stateLog_append (xs ys : List Effect) : stateLog (xs ++ ys) = stateLog xs ++ stateLog ys :=
  List.filterMap_append

theorem handedOver_append (xs ys : List Effect) :
    handedOver (xs ++ ys) = handedOver xs ++ handedOver ys := List.filterMap_append

/-- A later state at the end keeps the log in order. -/
theorem forward_concat {log : List RtcSessionState} {now next : RtcSessionState}
    (h : (.new :: log).Pairwise (rank · < rank ·)) (hb : ∀ state ∈ log, rank state ≤ rank now)
    (hlt : rank now < rank next) : (.new :: (log ++ [next])).Pairwise (rank · < rank ·) := by
  rw [← List.cons_append, List.pairwise_append]
  refine ⟨h, List.pairwise_singleton _ _, ?_⟩
  intro a ha b hb'
  obtain rfl := List.mem_singleton.mp hb'
  rcases List.mem_cons.mp ha with rfl | ha
  · simp only [rank] at hlt ⊢
    omega
  · exact Nat.lt_of_le_of_lt (hb a ha) hlt

/-- An element that the end of a list does not hold stands in its front. -/
theorem split_front {α : Type} {x : α} {xs ys before rest : List α} (hx : x ∉ ys)
    (h : xs ++ ys = before ++ x :: rest) : ∃ rest', xs = before ++ x :: rest' := by
  rcases List.append_eq_append_iff.mp h with ⟨as, -, hys⟩ | ⟨cs, hxs, hrest⟩
  · exact absurd (hys ▸ List.mem_append_right as List.mem_cons_self) hx
  · cases cs with
    | nil =>
      rw [List.nil_append] at hrest
      exact absurd (hrest ▸ List.mem_cons_self) hx
    | cons c cs =>
      obtain ⟨rfl, -⟩ := List.cons.inj hrest
      exact ⟨cs, hxs⟩

/-- A state change and the hook call that may follow it. -/
theorem told_state {p q : Phase} (h : Told p) (next : RtcSessionState) (tail : List Effect)
    (hlt : rank p.state < rank next) (htrace : q.trace = p.trace ++ .state next :: tail)
    (hstate : q.state = next) (htail : ∀ e ∈ tail, e = .closed)
    (hcloses : tail.count .closed = if next = .closed ∧ q.onClosed = true then 1 else 0)
    (hwaits : next = .streaming → q.waiting = true) : Told q := by
  have hlog : stateLog q.trace = stateLog p.trace ++ [next] := by
    have ht : stateLog tail = [] :=
      List.filterMap_eq_nil_iff.mpr fun e he => by rw [htail e he]; rfl
    rw [htrace, stateLog_append, show stateLog (.state next :: tail) = next :: stateLog tail from rfl,
      ht]
  have hhand : handedOver q.trace = handedOver p.trace := by
    have ht : handedOver tail = [] :=
      List.filterMap_eq_nil_iff.mpr fun e he => by rw [htail e he]; rfl
    rw [htrace, handedOver_append, show handedOver (.state next :: tail) = handedOver tail from rfl,
      ht, List.append_nil]
  have hopen : p.state ≠ .closed := by
    intro hc
    rw [hc] at hlt
    cases next <;> simp [rank] at hlt
  refine ⟨?_, ?_, ?_, ?_, ?_, ?_, ?_, ?_⟩
  · rw [hlog]
    exact forward_concat h.forward h.bound hlt
  · intro state hs
    rw [hstate]
    rw [hlog, List.mem_append, List.mem_singleton] at hs
    rcases hs with hs | rfl
    · exact Nat.le_of_lt (Nat.lt_of_le_of_lt (h.bound state hs) hlt)
    · exact Nat.le_refl _
  · rw [stateAfter, hlog, List.getLastD_concat, hstate]
  · rw [htrace, List.count_append, h.closes, if_neg (fun hx => hopen hx.1), hstate, ← hcloses,
      List.count_cons]
    simp
  · intro before accessUnit isIdr rest heq
    have hnot : (.packetize accessUnit isIdr : Effect) ∉ Effect.state next :: tail := by
      intro hm
      rcases List.mem_cons.mp hm with hm | hm
      · cases hm
      · cases htail _ hm
    obtain ⟨rest', hp⟩ := split_front hnot (htrace.symm.trans heq)
    exact h.streaming before accessUnit isIdr rest' hp
  · rw [hhand]
    exact h.first
  · intro hearly
    rw [hhand]
    exact h.early (by rw [hstate] at hearly; omega)
  · intro hs
    rw [hhand]
    rw [hstate] at hs
    exact iff_of_true (hwaits hs) (h.early (by rw [hs] at hlt; exact hlt))

/-- An access unit handed over while streaming. -/
theorem told_unit {p q : Phase} (h : Told p) {accessUnit : Bytes} {isIdr : Bool}
    (hs : p.state = .streaming) (hstate : q.state = p.state)
    (htrace : q.trace = p.trace ++ [.packetize accessUnit isIdr]) (hwaiting : q.waiting = false)
    (hidr : isIdr = true ∨ p.waiting = false) : Told q := by
  have hlog : stateLog q.trace = stateLog p.trace := by
    rw [htrace, stateLog_append]
    exact List.append_nil _
  have hhand : handedOver q.trace = handedOver p.trace ++ [(accessUnit, isIdr)] := by
    rw [htrace, handedOver_append]
    rfl
  have hq : q.state = .streaming := hstate.trans hs
  refine ⟨?_, ?_, ?_, ?_, ?_, ?_, ?_, ?_⟩
  · rw [hlog]
    exact h.forward
  · rw [hlog, hstate]
    exact h.bound
  · rw [stateAfter, hlog, hstate]
    exact h.last
  · rw [htrace, List.count_append, h.closes]
    simp [hs, hq]
  · intro before unit idr rest heq
    by_cases hr : rest = []
    · rw [htrace, hr] at heq
      obtain ⟨hb, -⟩ := List.append_inj' heq rfl
      rw [← hb, h.last, hs]
    · obtain ⟨init, last, rfl⟩ := (List.eq_nil_or_concat rest).resolve_left hr
      rw [htrace, List.concat_eq_append, ← List.cons_append, ← List.append_assoc] at heq
      exact h.streaming before unit idr init (List.append_inj' heq rfl).1
  · intro unit hu
    rw [hhand] at hu
    cases hp : handedOver p.trace with
    | nil =>
      rw [hp, List.nil_append, List.head?_cons, Option.some.injEq] at hu
      rw [← hu]
      exact hidr.resolve_right (by rw [(h.waits hs).mpr hp]; simp)
    | cons v vs =>
      rw [hp] at hu
      exact h.first unit (by rw [hp]; exact hu)
  · intro hearly
    rw [hq] at hearly
    exact absurd hearly (Nat.lt_irrefl _)
  · intro _
    rw [hhand]
    simp [hwaiting]

theorem move_told {peer : PeerCertificate} {p q : Phase} (h : Told p) (hm : Move peer p q) : Told q := by
  cases hm with
  | validate hs =>
    exact told_state h _ [] (by rw [hs]; decide) rfl rfl (by simp) (by simp) (by simp)
  | hello hs =>
    exact told_state h _ [] (by rw [hs]; decide) rfl rfl (by simp) (by simp) (by simp)
  | connect hs hv =>
    exact told_state h _ [] (by rw [hs]; decide) rfl rfl (by simp) (by simp) (fun _ => rfl)
  | close hs =>
    refine told_state h .closed (if p.onClosed then [.closed] else []) ?_ rfl rfl ?_ ?_ (by simp)
    · cases hp : p.state <;> simp_all [rank]
    · split <;> simp
    · cases hc : p.onClosed <;> simp [Phase.shut, hc]
  | keyframe accessUnit hs => exact told_unit h hs rfl rfl rfl (.inl rfl)
  | delta accessUnit hs hw => exact told_unit h hs rfl rfl hw (.inr hw)

theorem move_rank {peer : PeerCertificate} {p q : Phase} (hm : Move peer p q) : rank p.state ≤ rank q.state := by
  cases hm with
  | validate hs => simp [hs, rank]
  | hello hs => simp [hs, rank]
  | connect hs hv => simp [hs, rank]
  | close hs => cases hp : p.state <;> simp [Phase.shut, rank]
  | keyframe accessUnit hs => exact Nat.le_refl _
  | delta accessUnit hs hw => exact Nat.le_refl _

theorem move_setup {peer : PeerCertificate} {p q : Phase} (hm : Move peer p q) :
    q.onClosed = p.onClosed ∧ q.expected = p.expected := by
  cases hm <;> exact ⟨rfl, rfl⟩

theorem stateLog_notable (effects : List Effect) :
    stateLog (effects.filter notable) = stateLog effects := by
  unfold stateLog
  rw [List.filterMap_filter]
  congr 1
  funext e
  cases e <;> rfl

theorem handedOver_notable (effects : List Effect) :
    handedOver (effects.filter notable) = handedOver effects := by
  unfold handedOver
  rw [List.filterMap_filter]
  congr 1
  funext e
  cases e <;> rfl

/-- The session that `rtc_session_create` sets up. -/
def newSession (config : RtcSessionConfig) (a : CreateAnswers) : RtcSession :=
  { state := .new
    localUfrag := credentialText (a.raw.toList.take 8)
    localPwd := credentialText ((a.raw.toList.drop 8).take 24)
    remote := .other 0, haveRemote := false
    dtls := dtlsSrtpSetExpectedFingerprint dtlsSrtpSessionCreate config.offer.fingerprint
    rtp := rtpH264Reset rtpH264Create a.ssrc (UInt32.ofInt config.offer.h264PayloadType)
    createdMs := a.nowMs, lastRxMs := a.nowMs, lastIdrMs := 0, nextSrMs := 0
    idrRequested := false, stats := rtcSessionNoStats, retx := fun _ => ⟨[], 0, 0⟩
    onIdrRequest := config.onIdrRequest, onClosed := config.onClosed, effects := [] }

theorem created_eq {config : RtcSessionConfig} {a : CreateAnswers} {capacity : Nat}
    {s : RtcSession} {answer : Bytes} (h : rtcSessionCreate config a capacity = some (s, answer)) :
    s = newSession config a := by
  unfold rtcSessionCreate at h
  simp only at h
  split at h
  · cases h
  · obtain ⟨text, -, ht⟩ := Option.map_eq_some_iff.mp h
    exact (Prod.mk.inj ht).1.symm

theorem created_phase {config : RtcSessionConfig} {a : CreateAnswers} {capacity : Nat}
    {s : RtcSession} {answer : Bytes} (h : rtcSessionCreate config a capacity = some (s, answer)) :
    phaseOf s = ⟨.new, false, .init, false, false, false, config.onClosed,
      config.offer.fingerprint.take 127, []⟩ := by
  rw [created_eq h]
  rfl

/-- A session in the middle of its life, set up as it was created. -/
structure Alive (config : RtcSessionConfig) (s : RtcSession) : Prop where
  coupled : (phaseOf s).Coupled
  told : Told (phaseOf s)
  hook : s.onClosed = config.onClosed
  expected : s.dtls.expectedFingerprint = config.offer.fingerprint.take 127

theorem created_alive {config : RtcSessionConfig} {a : CreateAnswers} {capacity : Nat}
    {s : RtcSession} {answer : Bytes} (h : rtcSessionCreate config a capacity = some (s, answer)) :
    Alive config s := by
  have hp := created_phase h
  refine ⟨?_, ?_, congrArg Phase.onClosed hp, congrArg Phase.expected hp⟩
  · rw [hp]
    exact ⟨fun _ => ⟨rfl, rfl, rfl, rfl⟩, nofun, nofun, nofun, nofun⟩
  · rw [hp]
    exact ⟨by simp [stateLog], by simp [stateLog], rfl, by simp, by simp, by simp [handedOver],
      fun _ => rfl, nofun⟩

theorem step_alive {hmac : HmacSha1} {config : RtcSessionConfig} {s : RtcSession} (e : RtcEvent)
    (h : Alive config s) : Alive config (s.step hmac e) := by
  have hm : Moves e.answers.ssl.keys.peer (phaseOf s) (phaseOf (s.step hmac e)) :=
    step_moves h.coupled e
  have hsetup := @moves_keep _
    (fun p => p.onClosed = s.onClosed ∧ p.expected = s.dtls.expectedFingerprint)
    (fun hp hpq => ⟨(move_setup hpq).1.trans hp.1, (move_setup hpq).2.trans hp.2⟩) _ _ ⟨rfl, rfl⟩ hm
  exact ⟨moves_keep move_coupled h.coupled hm, moves_keep move_told h.told hm,
    hsetup.1.trans h.hook, hsetup.2.trans h.expected⟩

theorem run_alive {hmac : HmacSha1} {config : RtcSessionConfig} {a : CreateAnswers}
    {capacity : Nat} {s : RtcSession} {answer : Bytes}
    (h : rtcSessionCreate config a capacity = some (s, answer)) (events : List RtcEvent) :
    Alive config (run (RtcSession.step hmac) s events) :=
  run_invariant (created_alive h) (fun _ e => step_alive e) events

theorem closed_stays {hmac : HmacSha1} {s : RtcSession} (h : s.state = .closed) (e : RtcEvent) :
    s.step hmac e = s := by
  cases e with
  | onUdp w buffer source => exact if_pos h
  | tick w now => exact if_pos h
  | sendAccessUnit w accessUnit ptsUs isIdr =>
    simp [RtcSession.step, rtcSessionSendAccessUnit, h]
  | close w => exact rtcSessionClose_closed h

/-- A streaming session hands over keyframes, and past its first one everything. -/
theorem streaming_handed {hmac : HmacSha1} {s : RtcSession} (hs : s.state = .streaming)
    {isIdr : Bool} (hidr : isIdr = true ∨ s.stats.waitingKeyframe = false) (w : Answers)
    (accessUnit : Bytes) (ptsUs : UInt64) :
    handedOver (s.step hmac (.sendAccessUnit w accessUnit ptsUs isIdr)).effects =
      handedOver s.effects ++ [(accessUnit, isIdr)] := by
  have htrace : (phaseOf (s.step hmac (.sendAccessUnit w accessUnit ptsUs isIdr))).trace =
      (phaseOf s).trace ++ [.packetize accessUnit isIdr] := by
    simp only [RtcSession.step, rtcSessionSendAccessUnit, hs, ne_eq, not_true_eq_false, ↓reduceIte]
    cases isIdr with
    | true => exact congrArg Phase.trace (handOver_phase w _ accessUnit ptsUs true)
    | false =>
      simp only [Bool.false_eq_true, ↓reduceIte, hidr.resolve_left (by simp)]
      exact congrArg Phase.trace (handOver_phase w s accessUnit ptsUs false)
  rw [← handedOver_notable, ← handedOver_notable s.effects]
  exact (congrArg handedOver htrace).trans (handedOver_append _ _)

/-- The life of a session over every sequence of calls: the states go forward, the
hook is called once on the way to CLOSED, and access units are handed over only
while streaming, from the first keyframe offered there on. -/
theorem session_life (hmac : HmacSha1) {config : RtcSessionConfig} {a : CreateAnswers}
    {capacity : Nat} {s₀ : RtcSession} {answer : Bytes}
    (h : rtcSessionCreate config a capacity = some (s₀, answer)) (events : List RtcEvent) :
    let s := run (RtcSession.step hmac) s₀ events
    (.new :: stateLog s.effects).Pairwise (rank · < rank ·) ∧
    stateAfter s.effects = s.state ∧
    (∀ e, rank s.state ≤ rank (s.step hmac e).state) ∧
    (s.state = .closed → ∀ e, s.step hmac e = s) ∧
    s.effects.count .closed = (if s.state = .closed ∧ config.onClosed = true then 1 else 0) ∧
    (s.state = .dtls ∨ s.state = .streaming → s.haveRemote = true) ∧
    (∀ before accessUnit isIdr rest, s.effects = before ++ .packetize accessUnit isIdr :: rest →
      stateAfter before = .streaming) ∧
    (∀ unit, (handedOver s.effects).head? = some unit → unit.2 = true) ∧
    (s.state = .streaming → ∀ w accessUnit ptsUs isIdr,
      isIdr = true ∨ handedOver s.effects ≠ [] →
        handedOver (s.step hmac (.sendAccessUnit w accessUnit ptsUs isIdr)).effects =
          handedOver s.effects ++ [(accessUnit, isIdr)]) := by
  intro s
  have halive : Alive config s := run_alive h events
  obtain ⟨hc, ht, hhook, -⟩ := halive
  have hlog := stateLog_notable s.effects
  have hhand := handedOver_notable s.effects
  refine ⟨?_, ?_, ?_, closed_stays, ?_, ?_, ?_, ?_, ?_⟩
  · rw [← hlog]
    exact ht.forward
  · rw [stateAfter, ← hlog]
    exact ht.last
  · intro e
    have hm : Moves e.answers.ssl.keys.peer (phaseOf s) (phaseOf (s.step hmac e)) := step_moves hc e
    exact @moves_keep _ (fun p => rank s.state ≤ rank p.state)
      (fun hp hpq => Nat.le_trans hp (move_rank hpq)) _ _ (Nat.le_refl _) hm
  · rw [← hhook, ← List.count_filter (p := notable) rfl]
    exact ht.closes
  · rintro (hs | hs)
    · exact (hc.shaking hs).1
    · exact (hc.streaming hs).1
  · intro before accessUnit isIdr rest heq
    have hfilter : (phaseOf s).trace =
        before.filter notable ++ .packetize accessUnit isIdr :: rest.filter notable := by
      show s.effects.filter notable = _
      rw [heq, List.filter_append, List.filter_cons_of_pos rfl]
    rw [stateAfter, ← stateLog_notable]
    exact ht.streaming _ _ _ _ hfilter
  · rw [← hhand]
    exact ht.first
  · intro hs w accessUnit ptsUs isIdr hfirst
    refine streaming_handed hs (hfirst.imp_right fun hne => ?_) w accessUnit ptsUs
    cases hw : s.stats.waitingKeyframe with
    | false => rfl
    | true => exact absurd (hhand.symm.trans ((ht.waits hs).mp hw)) hne

/-- An outside that answers nothing: the clock at 0 and OpenSSL waiting for more. -/
def stillAnswers : Answers :=
  { rxMs := 0, idrMs := 0, srMs := 0, rrMs := 0, mediaMs := 0, monoUs := 0, wallUs := 0
    ssl := ⟨0, [], .want, false, ⟨true, true, true, true, .missing⟩⟩
    timeoutRecords := [], shutdownRecords := [], sendto := fun _ => true
    protect := fun _ _ => none, protectRtcp := fun _ => none, unprotectRtcp := fun _ => none
    stack := Vector.replicate 128 0, behind := 0 }

/-- A certificate that no offer was written for. -/
def strangeCertificate : PeerCertificate := .sha256 ⟨List.replicate 32 0, rfl⟩

/-- An offer with one H264 format. -/
def plainOffer : SdpOffer :=
  { sdpEmptyOffer with videoMline := some 0, h264PayloadType := 97 }

def plainConfig : RtcSessionConfig :=
  { candidateIps := [ascii "10.0.0.1"], offer := plainOffer, onIdrRequest := true, onClosed := true }

def plainCreate : CreateAnswers :=
  { raw := Vector.replicate 32 0, ssrc := 1, boundPort := 50000, nowMs := 0, localFingerprint := [] }

/-- There is room for the answer of the plain session. -/
theorem plain_created : ∃ answer, rtcSessionCreate plainConfig plainCreate 4096 =
    some (newSession plainConfig plainCreate, answer) := by
  have hmade : (rtcSessionCreate plainConfig plainCreate 4096).isSome = true := by decide +kernel
  obtain ⟨⟨s₀, answer⟩, h⟩ := Option.isSome_iff_exists.mp hmade
  exact ⟨answer, created_eq h ▸ h⟩

/-- A session that is closed twice has called its hook once. -/
theorem session_life_closed_twice :
    ∃ s₀ answer, rtcSessionCreate plainConfig plainCreate 4096 = some (s₀, answer) ∧
      (run (RtcSession.step StunAuth.zeroHmac) s₀
        [.close stillAnswers, .close stillAnswers]).effects.count .closed = 1 := by
  obtain ⟨answer, h⟩ := plain_created
  refine ⟨_, answer, h, ?_⟩
  have hlife := session_life StunAuth.zeroHmac h [.close stillAnswers, .close stillAnswers]
  have hstate : (run (RtcSession.step StunAuth.zeroHmac) (newSession plainConfig plainCreate)
      [.close stillAnswers, .close stillAnswers]).state = .closed :=
    rtcSessionClose_state stillAnswers _
  rw [hlife.2.2.2.2.1, hstate]
  rfl

end Camstream.Proofs.SessionLife
