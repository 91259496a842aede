import Camstream.Proofs.RtpRoundTrip
import Camstream.Proofs.SessionCore
import Camstream.Proofs.SessionLife

namespace Camstream.Proofs.SessionMedia
open Lib Webrtc SessionFrame Lifecycle SessionLife SessionCore RtpPlan RtpRoundTrip

def rtpDatagram : Effect → Option Bytes
  | .datagram .rtp data _ => some data
  | _ => none

/-- The RTP packets that a session has put on the wire, retransmissions aside. -/
def sentRtp (effects : List Effect) : List Bytes := effects.filterMap rtpDatagram

theorem sentRtp_append (xs ys : List Effect) : sentRtp (xs ++ ys) = sentRtp xs ++ sentRtp ys :=
  List.filterMap_append

/-- libsrtp protects every packet, and `unprotect` at the other end undoes that. -/
def Opens (unprotect : Bytes → Bytes) (w : Answers) : Prop :=
  ∀ n packet, ∃ protectedPacket, w.protect n packet = some protectedPacket ∧ unprotect protectedPacket = packet

/-- Payloads as the viewer finds them. -/
def openedPayloads (unprotect : Bytes → Bytes) (effects : List Effect) : List Bytes :=
  (sentRtp effects).map fun data => (unprotect data).drop rtpHeaderSize

theorem openedPayloads_append (unprotect : Bytes → Bytes) (xs ys : List Effect) :
    openedPayloads unprotect (xs ++ ys) = openedPayloads unprotect xs ++ openedPayloads unprotect ys := by
  simp [openedPayloads, sentRtp_append]

/-- Effects without media in them. -/
def plain : Effect → Bool
  | .datagram .rtp _ _ => false
  | .packetize _ _ => false
  | _ => true

section Quiet
variable {s t : RtcSession} {w : Answers}

theorem plain_media {added : List Effect} (h : ∀ e ∈ added, plain e = true) :
    sentRtp added = [] ∧ handedOver added = [] := by
  constructor
  · rw [sentRtp, List.filterMap_eq_nil_iff]
    intro e he
    have hplain := h e he
    cases e with
    | datagram path data destination => cases path <;> first | rfl | cases hplain
    | _ => rfl
  · rw [handedOver, List.filterMap_eq_nil_iff]
    intro e he
    have hplain := h e he
    cases e with
    | packetize accessUnit isIdr => cases hplain
    | _ => rfl

theorem upkeep_plain {peer : Option SockAddr} (e : Effect) (h : Upkeep peer e) : plain e = true := by
  cases e with
  | datagram path data destination =>
    cases path with
    | rtp => exact h.elim
    | _ => rfl
  | packetize accessUnit isIdr => exact h.elim
  | _ => rfl

theorem reply_plain {source : SockAddr} (e : Effect) (h : Reply source e) : plain e = true := by
  cases e with
  | datagram path data destination =>
    cases path with
    | rtp => exact h.elim
    | _ => rfl
  | packetize accessUnit isIdr => exact h.elim
  | _ => rfl

theorem feedback_plain {peer : Option SockAddr} (e : Effect) (h : Feedback peer e) :
    plain e = true := by
  cases e with
  | datagram path data destination =>
    cases path with
    | rtp => exact h.elim
    | _ => rfl
  | packetize accessUnit isIdr => exact h.elim
  | _ => rfl

/-- What is new has no media in it. -/
def Plain (s t : RtcSession) : Prop :=
  ∃ added, t.effects = s.effects ++ added ∧ ∀ e ∈ added, plain e = true

theorem Plain.of_eq (h : t.effects = s.effects) : Plain s t :=
  ⟨[], h.trans (List.append_nil _).symm, by simp⟩

theorem Plain.kept {P : Effect → Prop} (h : Kept P s t) (hp : ∀ e, P e → plain e = true) :
    Plain s t := by
  obtain ⟨added, heq, hadded⟩ := h.effects
  exact ⟨added, heq, fun e he => hp e (hadded e he)⟩

theorem Plain.after {r : RtcSession} (h : Plain s t) (hr : s.effects = r.effects) : Plain r t := by
  obtain ⟨added, heq, hadded⟩ := h
  exact ⟨added, hr ▸ heq, hadded⟩

theorem Plain.media (h : Plain s t) (unprotect : Bytes → Bytes) :
    openedPayloads unprotect t.effects = openedPayloads unprotect s.effects ∧
      handedOver t.effects = handedOver s.effects := by
  obtain ⟨added, heq, hadded⟩ := h
  obtain ⟨hsent, hhanded⟩ := plain_media hadded
  rw [heq, openedPayloads_append, handedOver_append, hhanded]
  simp [openedPayloads, hsent]

theorem handleStun_plain (hmac : HmacSha1) (s : RtcSession) (buffer : Bytes) (source : SockAddr)
    (ip : Bytes) (port : UInt16) : Plain s (handleStun hmac w s buffer source ip port) := by
  cases hpass : passes hmac s.localPwd s.localUfrag buffer with
  | false => exact (Plain.kept (handleStun_refused hpass).1 reply_plain).after rfl
  | true =>
    rw [handleStun_passed hpass]
    refine (Plain.kept (acceptStun_kept hmac w _ buffer source _ _) reply_plain).after ?_
    exact (followPeer_media _ _ _ _).2.2

theorem handleRtcp_plain (hremote : s.haveRemote = true) (buffer : Bytes) :
    Plain s (handleRtcp w s buffer) := by
  unfold handleRtcp
  simp only
  split
  · exact .of_eq rfl
  · split
    · next plain _ =>
      exact (Plain.kept (dtlsOnRtcp_kept w { s with lastRxMs := w.rxMs } plain hremote)
        feedback_plain).after rfl
    · exact .of_eq rfl

theorem onUdp_plain (hmac : HmacSha1) (hc : (phaseOf s).Coupled) (buffer : Bytes)
    (source : SockAddr) : Plain s (rtcSessionOnUdp hmac w s buffer source) := by
  unfold rtcSessionOnUdp
  split
  · exact .of_eq rfl
  · simp only
    cases rtcClassifyPacket buffer with
    | stun => exact (handleStun_plain hmac _ buffer source _ _).after rfl
    | dtls =>
      simp only
      split
      · exact .of_eq rfl
      · exact (Plain.kept (dtlsSrtpOnUdp_kept w _ buffer) upkeep_plain).after rfl
    | rtp =>
      simp only
      split
      · next hfeedback =>
        simp only [Bool.and_eq_true, beq_iff_eq] at hfeedback
        refine (handleRtcp_plain ?_ buffer).after rfl
        exact (hc.streaming hfeedback.2).1
      · exact .of_eq rfl
    | other => exact .of_eq rfl

def isMediaCall : RtcEvent → Bool
  | .sendAccessUnit .. => true
  | _ => false

/-- Only `rtc_session_send_access_unit` sends media. -/
theorem step_plain (hmac : HmacSha1) (hc : (phaseOf s).Coupled) {e : RtcEvent}
    (he : isMediaCall e = false) : Plain s (s.step hmac e) := by
  cases e with
  | onUdp w buffer source => exact onUdp_plain hmac hc buffer source
  | tick w now => exact .kept (rtcSessionTick_kept w s now) upkeep_plain
  | sendAccessUnit w accessUnit ptsUs isIdr => cases he
  | close w => exact .kept (rtcSessionClose_kept w s) upkeep_plain

end Quiet

section Packets
variable {w : Answers} {unprotect : Bytes → Bytes}

/-- Keys and peer are there, so that a packet can leave. -/
structure Sending (s : RtcSession) : Prop where
  ready : s.dtls.srtpReady = true
  remote : s.haveRemote = true

theorem sink_opened (hopen : Opens unprotect w) {s : RtcSession} (h : Sending s) {packet : Bytes}
    (hmin : rtpHeaderSize ≤ packet.length) (hmax : packet.length ≤ rtpMaxPacket) (marker : Bool)
    (sequence : UInt16) :
    let t := rtpPacketSink w s packet marker sequence
    Sending t ∧ openedPayloads unprotect t.effects =
      openedPayloads unprotect s.effects ++ [packet.drop rtpHeaderSize] := by
  intro t
  have hheld := rtpPacketSink_held w s packet marker sequence
  refine ⟨⟨hheld.dtls ▸ h.ready, hheld.haveRemote ▸ h.remote⟩, ?_⟩
  obtain ⟨protectedPacket, hprotect, hundo⟩ := hopen s.effects.length packet
  have heffects : t.effects = s.effects ++
      [.datagram .rtp protectedPacket s.remote, .rtp sequence (some protectedPacket)] := by
    simp only [t, rtpPacketSink, dtlsSrtpSendRtp, h.ready, hprotect, dtlsSendUdp, h.remote,
      sessionSendto, Bool.not_true, Bool.false_eq_true, ↓reduceIte]
    rw [if_neg (by omega)]
    split <;> simp [RtcSession.did]
  rw [heffects, openedPayloads_append]
  simp [openedPayloads, sentRtp, rtpDatagram, hundo]

theorem plan_opened (hopen : Opens unprotect w) (ts : UInt32) (plan : List Planned)
    (hsizes : ∀ q ∈ plan, q.2.length ≤ payloadBudget) (e : Emission RtcSession)
    (h : Sending e.user) :
    let e' := plan.foldl (emitOne (rtpPacketSink w) ts) e
    openedPayloads unprotect e'.user.effects =
      openedPayloads unprotect e.user.effects ++ plan.map Prod.snd := by
  induction plan generalizing e with
  | nil => simp
  | cons q plan ih =>
    have hsize := hsizes q List.mem_cons_self
    obtain ⟨hsending, hopened⟩ := @sink_opened w unprotect hopen e.user h
      (rtpHeader { e.p with sequence := e.p.sequence + 1 } q.1 ts ++ q.2)
      (by rw [List.length_append, rtpHeader_length]; omega)
      (by
        rw [List.length_append, rtpHeader_length]
        simp only [payloadBudget, rtpMaxPacket, rtpHeaderSize] at hsize ⊢
        omega) q.1 (e.p.sequence + 1)
    have hpayload : (rtpHeader { e.p with sequence := e.p.sequence + 1 } q.1 ts ++ q.2).drop
        rtpHeaderSize = q.2 := by
      rw [← rtpHeader_length { e.p with sequence := e.p.sequence + 1 } q.1 ts, List.drop_left]
    simp only [List.foldl_cons, List.map_cons]
    rw [ih (fun r hr => hsizes r (List.mem_cons_of_mem _ hr)) (emitOne (rtpPacketSink w) ts e q)
      hsending]
    rw [hpayload] at hopened
    change openedPayloads unprotect (rtpPacketSink w e.user _ q.1 _).effects ++ _ = _
    rw [hopened]
    simp

/-- The wire carries the packets of all that was handed over. -/
def Carried (unprotect : Bytes → Bytes) (s : RtcSession) : Prop :=
  openedPayloads unprotect s.effects =
    ((handedOver s.effects).flatMap fun unit => annexBUnits unit.1).flatMap nalPayloads

theorem handOver_carried (hopen : Opens unprotect w) {s : RtcSession} (h : Carried unprotect s)
    (hs : Sending s) (accessUnit : Bytes) (ptsUs : UInt64) (isIdr : Bool) :
    Carried unprotect (handOver w s accessUnit ptsUs isIdr).2 := by
  have hhanded : handedOver (handOver w s accessUnit ptsUs isIdr).2.effects =
      handedOver s.effects ++ [(accessUnit, isIdr)] := by
    rw [← handedOver_notable, ← handedOver_notable s.effects]
    exact (congrArg (fun p => handedOver p.trace) (handOver_phase w s accessUnit ptsUs isIdr)).trans
      (handedOver_append _ _)
  have heffects : (handOver w s accessUnit ptsUs isIdr).2.effects =
      (rtpH264Packetize s.rtp accessUnit ptsUs (rtpPacketSink w)
        (s.did (.packetize accessUnit isIdr))).2.2.effects := by
    unfold handOver
    simp only
    split <;> rfl
  have hdid : openedPayloads unprotect (s.did (.packetize accessUnit isIdr)).effects =
      openedPayloads unprotect s.effects := by
    simp [RtcSession.did, openedPayloads, sentRtp, rtpDatagram]
  unfold Carried at h ⊢
  rw [hhanded, List.flatMap_append, List.flatMap_append, ← h, heffects]
  by_cases hempty : accessUnit.length = 0
  · obtain rfl := List.length_eq_zero_iff.mp hempty
    rw [rtpH264Packetize, if_pos hempty, hdid]
    simp [annexBUnits, splitCodes]
  · rw [rtpH264Packetize_plan s.rtp ptsUs (rtpPacketSink w) _ hempty]
    have hplan := plan_opened hopen (rtpTimestamp (startTimeline s.rtp ptsUs) ptsUs)
      (packetPlan accessUnit 0) (packetPlan_sizes accessUnit 0)
      ⟨startTimeline s.rtp ptsUs, s.did (.packetize accessUnit isIdr), 0⟩ ⟨hs.ready, hs.remote⟩
    simp only at hplan ⊢
    rw [hplan, hdid, packetPlan_payloads, List.drop_zero]
    simp

theorem sending_of_streaming {s : RtcSession} (hc : (phaseOf s).Coupled) (hs : s.state = .streaming) :
    Sending s := by
  obtain ⟨hremote, -, -, hready⟩ := hc.streaming hs
  exact ⟨hready, hremote⟩

theorem step_carried {hmac : HmacSha1} {s : RtcSession} (hc : (phaseOf s).Coupled) {e : RtcEvent}
    (hopen : Opens unprotect e.answers) (h : Carried unprotect s) :
    Carried unprotect (s.step hmac e) := by
  have hplain : ∀ t, Plain s t → Carried unprotect t := fun t ht => by
    obtain ⟨hopened, hhanded⟩ := ht.media unprotect
    unfold Carried
    rw [hopened, hhanded]
    exact h
  cases e with
  | onUdp | tick | close => exact hplain _ (step_plain hmac hc rfl)
  | sendAccessUnit w accessUnit ptsUs isIdr =>
    simp only [RtcSession.step, rtcSessionSendAccessUnit]
    split
    · exact h
    · next hs =>
      have hsending := sending_of_streaming hc (by simpa using hs)
      split
      · next hidr =>
        exact @handOver_carried w unprotect hopen { s with
          idrRequested := false, stats := { s.stats with waitingKeyframe := false } } h
          ⟨hsending.ready, hsending.remote⟩ accessUnit ptsUs isIdr
      · split
        · refine hplain _ ((Plain.kept (rtcSessionRequestIdr_kept w _) upkeep_plain).after rfl)
        · exact handOver_carried hopen h hsending accessUnit ptsUs isIdr

/-- Over a whole life, from the creation on. -/
theorem run_carried (hmac : HmacSha1) {config : RtcSessionConfig} {a : CreateAnswers}
    {capacity : Nat} {s : RtcSession} {answer : Bytes}
    (h : rtcSessionCreate config a capacity = some (s, answer)) (events : List RtcEvent)
    (hopen : ∀ e ∈ events, Opens unprotect e.answers) :
    Carried unprotect (run (RtcSession.step hmac) s events) := by
  have hstart : Carried unprotect s := by
    rw [created_eq h]
    rfl
  exact (run_invariant_of_mem (P := fun t => Alive config t ∧ Carried unprotect t)
    (Q := fun e => Opens unprotect e.answers) ⟨created_alive h, hstart⟩
    (fun t e ht he => ⟨step_alive e ht.1, step_carried ht.1.coupled he ht.2⟩) events hopen).2

/-- NAL units of the types that a packet of their own can carry. -/
def ProperUnits (data : Bytes) : Prop :=
  ∀ nal ∈ annexBUnits data, 1 ≤ nalType (byteAt nal 0) ∧ nalType (byteAt nal 0) ≤ 23

/-- A viewer puts together what was handed over. -/
theorem Carried.received {s : RtcSession} (h : Carried unprotect s)
    (hproper : ∀ unit ∈ handedOver s.effects, ProperUnits unit.1) :
    depacketize (openedPayloads unprotect s.effects) =
      ((handedOver s.effects).flatMap fun unit => annexBUnits unit.1).map asReceived := by
  rw [h, depacketize, units_received]
  · simp
  · intro nal hnal
    obtain ⟨unit, hunit, hin⟩ := List.mem_flatMap.mp hnal
    exact hproper unit hunit nal hin
  · intro nal hnal
    obtain ⟨unit, -, hin⟩ := List.mem_flatMap.mp hnal
    exact annexBUnits_ne_nil unit.1 nal hin

end Packets

end Camstream.Proofs.SessionMedia
