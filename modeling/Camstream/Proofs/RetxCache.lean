import Camstream.Lib.DirectMapped
import Camstream.Proofs.RtcpNacks
import Camstream.Proofs.Watchdog

namespace Camstream.Proofs.RetxCache
open Lib Webrtc SessionFrame Lifecycle SessionLife SessionCore RtcpNacks

/-- The outcome of a packet that was given a sequence number. -/
def outcomeOf : Effect → Option (UInt16 × Option Bytes)
  | .rtp sequence result => some (sequence, result)
  | _ => none

/-- The packets that were given a sequence number, the latest first. -/
def assigned (effects : List Effect) : ItemLog Bytes := (effects.filterMap outcomeOf).reverse

/-- The items of the retransmission cache. -/
def heldOf (retx : Nat → RetxSlot) (i : Nat) : Option (UInt16 × Bytes) :=
  if (retx i).len = 0 then none else some ((retx i).seq, (retx i).data.take (retx i).len)

/-- Neither a packet with a number of its own nor a retransmission. -/
def quiet : Effect → Bool
  | .rtp _ _ => false
  | .datagram (.retransmit _) _ _ => false
  | _ => true

/-- Every retransmission repeats the packet last sent under its number. -/
def Faithful (effects : List Effect) : Prop :=
  ∀ before sequence data destination rest,
    effects = before ++ .datagram (.retransmit sequence) data destination :: rest →
      lastStored (assigned before) sequence = some data

theorem assigned_quiet {effects added : List Effect} (h : ∀ e ∈ added, quiet e = true) :
    assigned (effects ++ added) = assigned effects := by
  have hnone : added.filterMap outcomeOf = [] := by
    rw [List.filterMap_eq_nil_iff]
    intro e he
    cases e with
    | rtp sequence result => cases h _ he
    | _ => rfl
  rw [assigned, List.filterMap_append, hnone, List.append_nil, assigned]

theorem assigned_rtp (effects : List Effect) (sequence : UInt16) (result : Option Bytes) :
    assigned (effects ++ [.rtp sequence result]) = (sequence, result) :: assigned effects := by
  simp [assigned, outcomeOf]

theorem faithful_append {effects added : List Effect} (h : Faithful effects)
    (hadded : ∀ sequence data destination, .datagram (.retransmit sequence) data destination ∉ added) :
    Faithful (effects ++ added) := by
  intro before sequence data destination rest heq
  obtain ⟨rest', hfront⟩ := split_front (hadded sequence data destination) heq
  exact h before sequence data destination rest' hfront

theorem faithful_retransmit {effects : List Effect} {sequence : UInt16} {data : Bytes}
    {destination : SockAddr} (h : Faithful effects)
    (hlast : lastStored (assigned effects) sequence = some data) :
    Faithful (effects ++ [.datagram (.retransmit sequence) data destination]) := by
  intro before n packet receiver rest heq
  rcases List.eq_nil_or_concat rest with rfl | ⟨rest', x, rfl⟩
  · obtain ⟨rfl, hone⟩ := List.append_inj' heq rfl
    cases hone
    exact hlast
  · rw [List.concat_eq_append, ← List.cons_append, ← List.append_assoc] at heq
    exact h before n packet receiver rest' (List.append_inj' heq rfl).1

/-- The state of the cache after `last` was the latest sequence number. -/
structure Cached (last : UInt16) (s : RtcSession) : Prop where
  numbered : Numbered last (assigned s.effects)
  reflects : Reflects retxCacheSize (heldOf s.retx) (assigned s.effects)
  faithful : Faithful s.effects

theorem Cached.quiet {last : UInt16} {s t : RtcSession} (h : Cached last s) (hretx : t.retx = s.retx)
    {added : List Effect} (heq : t.effects = s.effects ++ added)
    (hadded : ∀ e ∈ added, quiet e = true) : Cached last t := by
  have hassigned : assigned t.effects = assigned s.effects := by rw [heq, assigned_quiet hadded]
  refine ⟨by rw [hassigned]; exact h.numbered, by rw [hassigned, hretx]; exact h.reflects, ?_⟩
  rw [heq]
  exact faithful_append h.faithful fun sequence data destination hm => by cases hadded _ hm

/-- A session whose cache is right. -/
def Coherent (s : RtcSession) : Prop := Cached s.rtp.sequence s

theorem Coherent.same {s t : RtcSession} (h : Coherent s)
    (hm : t.rtp = s.rtp ∧ t.retx = s.retx ∧ t.effects = s.effects) : Coherent t := by
  obtain ⟨hrtp, hretx, heffects⟩ := hm
  unfold Coherent
  rw [hrtp]
  exact Cached.quiet h hretx (heffects.trans (List.append_nil _).symm) (by simp)

theorem Coherent.kept {P : Effect → Prop} {s t : RtcSession} (h : Coherent s)
    (hk : Kept P s t) (hp : ∀ e, P e → RetxCache.quiet e = true) : Coherent t := by
  obtain ⟨added, heq, hadded⟩ := hk.effects
  unfold Coherent
  rw [hk.rtp]
  exact Cached.quiet h hk.retx heq fun e he => hp e (hadded e he)

theorem upkeep_quiet {peer : Option SockAddr} (e : Effect) (h : Upkeep peer e) : quiet e = true := by
  cases e with
  | datagram path data destination =>
    cases path with
    | retransmit sequence => exact h.elim
    | _ => rfl
  | rtp sequence result => exact h.elim
  | _ => rfl

theorem reply_quiet {source : SockAddr} (e : Effect) (h : Reply source e) : quiet e = true := by
  cases e with
  | datagram path data destination =>
    cases path with
    | retransmit sequence => exact h.elim
    | _ => rfl
  | rtp sequence result => exact h.elim
  | _ => rfl

theorem Cached.failed {last : UInt16} {s : RtcSession} (h : Cached last s) :
    Cached (last + 1) (s.did (.rtp (last + 1) none)) := by
  have hassigned : assigned (s.did (.rtp (last + 1) none)).effects =
      (last + 1, none) :: assigned s.effects := assigned_rtp s.effects _ _
  refine ⟨?_, ?_, faithful_append h.faithful (by simp)⟩
  · rw [hassigned]
    exact h.numbered.next none
  · rw [hassigned]
    exact h.reflects.lost _

theorem heldOf_store {retx : Nat → RetxSlot} {packet : Bytes} {sequence : UInt16}
    (hpos : packet.length ≠ 0) (hlen : packet.length < 65536) (i : Nat) :
    heldOf (Function.update retx i ((retx i).store packet sequence)) =
      Function.update (heldOf retx) i (some (sequence, packet)) := by
  funext j
  by_cases hj : j = i
  · subst hj
    simp [heldOf, RetxSlot.store, Nat.mod_eq_of_lt hlen, hpos]
  · simp [heldOf, Function.update_of_ne hj]

theorem Cached.stored {last : UInt16} {s : RtcSession} (h : Cached last s) {packet : Bytes}
    (hpos : packet.length ≠ 0) (hlen : packet.length < 65536) (stats : RtcSessionStats) :
    Cached (last + 1) ({ s with
      retx := Function.update s.retx ((last + 1).toNat % retxCacheSize)
        ((s.retx ((last + 1).toNat % retxCacheSize)).store packet (last + 1))
      stats }.did (.rtp (last + 1) (some packet))) := by
  have hassigned : assigned (s.effects ++ [.rtp (last + 1) (some packet)]) =
      (last + 1, some packet) :: assigned s.effects := assigned_rtp s.effects _ _
  refine ⟨?_, ?_, faithful_append h.faithful (by simp)⟩
  · show Numbered (last + 1) (assigned (s.effects ++ [.rtp (last + 1) (some packet)]))
    rw [hassigned]
    exact h.numbered.next _
  · show Reflects retxCacheSize (heldOf (Function.update s.retx _ _))
      (assigned (s.effects ++ [.rtp (last + 1) (some packet)]))
    rw [hassigned, heldOf_store hpos hlen]
    exact h.reflects.stored (by decide) h.numbered packet

/-- `srtp_protect` appends the authentication tag of 10 bytes of the default policy. -/
def AppendsTag (w : Answers) : Prop :=
  ∀ n packet protectedPacket, w.protect n packet = some protectedPacket →
    protectedPacket.length = packet.length + 10

theorem rtpPacketSink_cached {w : Answers} (hw : AppendsTag w) {last : UInt16} {s : RtcSession}
    {packet : Bytes} {marker : Bool} (h : Cached last s) (hmin : rtpHeaderSize ≤ packet.length)
    (hmax : packet.length ≤ rtpMaxPacket) :
    Cached (last + 1) (rtpPacketSink w s packet marker (last + 1)) := by
  unfold rtpPacketSink dtlsSrtpSendRtp
  rw [if_neg (by omega)]
  cases hready : s.dtls.srtpReady with
  | false => exact h.failed
  | true =>
    cases hp : w.protect s.effects.length packet with
    | none => exact h.failed
    | some protectedPacket =>
      have hlen := hw _ _ _ hp
      have hkept := @dtlsSendUdp_kept (fun e => RetxCache.quiet e = true) w .rtp s protectedPacket
        (fun _ => rfl)
      obtain ⟨added, heq, hadded⟩ := hkept.effects
      simp only [rtpMaxPacket] at hmax
      exact (h.quiet hkept.retx heq hadded).stored (by omega) (by omega) _

theorem handOver_coherent {w : Answers} (hw : AppendsTag w) {s : RtcSession} (h : Coherent s)
    (accessUnit : Bytes) (ptsUs : UInt64) (isIdr : Bool) :
    Coherent (handOver w s accessUnit ptsUs isIdr).2 := by
  have hdid : Cached s.rtp.sequence (s.did (.packetize accessUnit isIdr)) :=
    @Cached.quiet _ s _ h rfl [.packetize accessUnit isIdr] rfl (by simp [RetxCache.quiet])
  have hkeep := @RtpPlan.rtpH264Packetize_keeps _ (fun p t => Cached p.sequence t)
    (rtpPacketSink w)
    (fun p t packet marker hq hmin hmax _ _ => rtpPacketSink_cached hw hq hmin hmax)
    (fun p t ptsUs hq => by
      unfold startTimeline
      split <;> exact hq)
    (s.did (.packetize accessUnit isIdr)).rtp accessUnit ptsUs
    (s.did (.packetize accessUnit isIdr)) hdid
  unfold handOver
  simp only
  split
  · exact ⟨hkeep.numbered, hkeep.reflects, hkeep.faithful⟩
  · exact ⟨hkeep.numbered, hkeep.reflects, hkeep.faithful⟩

/-- What one requested number is answered with. -/
def answerTo (s : RtcSession) (seq : UInt16) : List Effect :=
  match heldOf s.retx (seq.toNat % retxCacheSize) with
  | some (n, packet) => if n = seq then [.datagram (.retransmit seq) packet s.remote] else []
  | none => []

theorem answerNack_effects (w : Answers) (s : RtcSession) (seq : UInt16) :
    (answerNack w s seq).effects = s.effects ++ answerTo s seq := by
  have hsend : ∀ data, (sessionSendto w s (.retransmit seq) data s.remote).2.effects =
      s.effects ++ [.datagram (.retransmit seq) data s.remote] := by
    intro data
    unfold sessionSendto
    simp only
    split <;> rfl
  unfold answerNack answerTo heldOf
  simp only
  by_cases hlen : (s.retx (seq.toNat % retxCacheSize)).len = 0
  · simp [hlen]
  · by_cases hseq : (s.retx (seq.toNat % retxCacheSize)).seq = seq
    · rw [if_neg (by simp [hlen, hseq]), if_neg hlen]
      simp only [hseq, ↓reduceIte]
      rw [← hsend]
      split
      · rename_i t heq
        rw [heq]
      · rename_i t heq
        rw [heq]
    · simp [hlen, hseq]

theorem answerTo_congr {s t : RtcSession} (hretx : t.retx = s.retx) (hremote : t.remote = s.remote) :
    answerTo t = answerTo s := by
  funext seq
  unfold answerTo
  rw [hretx, hremote]

theorem mem_answerTo {s : RtcSession} {seq n : UInt16} {data : Bytes} {destination : SockAddr}
    (h : .datagram (.retransmit n) data destination ∈ answerTo s seq) : n = seq := by
  unfold answerTo at h
  split at h
  · split at h
    · simp at h
      exact h.1
    · cases h
  · cases h

theorem answerNack_cached {last : UInt16} {w : Answers} {s : RtcSession} (h : Cached last s)
    (seq : UInt16) : Cached last (answerNack w s seq) := by
  have hretx := (@answerNack_kept (fun _ => True) w s seq fun _ => trivial).retx
  have heffects := answerNack_effects w s seq
  unfold answerTo at heffects
  cases hheld : heldOf s.retx (seq.toNat % retxCacheSize) with
  | none =>
    rw [hheld] at heffects
    exact h.quiet hretx heffects (by simp)
  | some item =>
    obtain ⟨n, packet⟩ := item
    rw [hheld] at heffects
    simp only at heffects
    by_cases hn : n = seq
    · subst hn
      rw [if_pos rfl] at heffects
      have hassigned : assigned (answerNack w s n).effects = assigned s.effects := by
        rw [heffects]
        simp [assigned, outcomeOf]
      refine ⟨by rw [hassigned]; exact h.numbered, by rw [hassigned, hretx]; exact h.reflects, ?_⟩
      rw [heffects]
      exact faithful_retransmit h.faithful (h.reflects.sound _ _ _ hheld)
    · rw [if_neg hn] at heffects
      exact h.quiet hretx heffects (by simp)

theorem handleNacks_cached {last : UInt16} {w : Answers} {s : RtcSession} (h : Cached last s)
    (feedback : RtcpFeedback) : Cached last (handleNacks w s feedback) := by
  unfold handleNacks
  induction feedback.nackSeq generalizing s with
  | nil => exact h
  | cons seq seqs ih => exact ih (answerNack_cached h seq)

theorem handleRtcp_coherent {w : Answers} {s : RtcSession} (h : Coherent s) (buffer : Bytes) :
    Coherent (handleRtcp w s buffer) := by
  have hclock : Coherent { s with lastRxMs := w.rxMs } := h.same ⟨rfl, rfl, rfl⟩
  unfold handleRtcp
  simp only
  split
  · exact hclock
  split
  · rename_i plain hplain
    rw [dtlsOnRtcp_eq]
    split
    · exact hclock.kept (rtcSessionClose_kept w _) upkeep_quiet
    · set f := rtcpParse plain (rtpH264Ssrc s.rtp)
      have hnote := hclock.kept (noteFeedback_kept w _ f) upkeep_quiet
      have hrtp : (handleNacks w (noteFeedback w { s with lastRxMs := w.rxMs } f) f).rtp =
          (noteFeedback w { s with lastRxMs := w.rxMs } f).rtp :=
        (@kept_foldl _ (fun _ => True) (answerNack w)
          (fun t n => answerNack_kept w t n fun _ => trivial) _ f.nackSeq).rtp
      unfold Coherent
      rw [hrtp]
      exact handleNacks_cached hnote f
  · exact hclock

theorem onUdp_coherent {hmac : HmacSha1} {w : Answers} {s : RtcSession} (h : Coherent s)
    (buffer : Bytes) (source : SockAddr) : Coherent (rtcSessionOnUdp hmac w s buffer source) := by
  unfold rtcSessionOnUdp
  split
  · exact h
  simp only
  set t : RtcSession :=
    { s with stats := { s.stats with datagramsRx := s.stats.datagramsRx + 1 } } with ht
  have hcount : Coherent t := h.same ⟨rfl, rfl, rfl⟩
  have hclock : Coherent { t with lastRxMs := w.rxMs } := h.same ⟨rfl, rfl, rfl⟩
  cases rtcClassifyPacket buffer with
  | stun =>
    simp only
    cases hpass : passes hmac t.localPwd t.localUfrag buffer with
    | false => exact hclock.kept (handleStun_refused hpass).1 reply_quiet
    | true =>
      rw [handleStun_passed hpass]
      refine Coherent.kept ?_ (acceptStun_kept hmac w _ buffer source _ _) reply_quiet
      exact hclock.same (followPeer_media _ _ _ _)
  | dtls =>
    simp only
    split
    · exact hcount
    · exact hclock.kept (dtlsSrtpOnUdp_kept w _ buffer) upkeep_quiet
  | rtp =>
    simp only
    split
    · exact handleRtcp_coherent hcount buffer
    · exact hcount
  | other => exact hcount

theorem sendAccessUnit_coherent {w : Answers} (hw : AppendsTag w) {s : RtcSession} (h : Coherent s)
    (accessUnit : Bytes) (ptsUs : UInt64) (isIdr : Bool) :
    Coherent (rtcSessionSendAccessUnit w s accessUnit ptsUs isIdr).2 := by
  unfold rtcSessionSendAccessUnit
  split
  · exact h
  split
  · refine handOver_coherent hw ?_ accessUnit ptsUs isIdr
    exact h.same ⟨rfl, rfl, rfl⟩
  split
  · refine Coherent.kept ?_ (rtcSessionRequestIdr_kept w _) upkeep_quiet
    exact h.same ⟨rfl, rfl, rfl⟩
  · exact handOver_coherent hw h accessUnit ptsUs isIdr

theorem step_coherent {hmac : HmacSha1} {s : RtcSession} (h : Coherent s) (e : RtcEvent)
    (he : AppendsTag e.answers) : Coherent (s.step hmac e) := by
  cases e with
  | onUdp w buffer source => exact onUdp_coherent h buffer source
  | tick w now => exact h.kept (rtcSessionTick_kept w s now) upkeep_quiet
  | sendAccessUnit w accessUnit ptsUs isIdr => exact sendAccessUnit_coherent he h accessUnit ptsUs isIdr
  | close w => exact h.kept (rtcSessionClose_kept w s) upkeep_quiet

theorem created_coherent {config : RtcSessionConfig} {a : CreateAnswers} {capacity : Nat}
    {s : RtcSession} {answer : Bytes} (h : rtcSessionCreate config a capacity = some (s, answer)) :
    Coherent s := by
  rw [created_eq h]
  exact ⟨numbered_nil _, reflects_empty _, by simp [Faithful, newSession]⟩

theorem run_coherent {hmac : HmacSha1} {s : RtcSession} (h : Coherent s) (events : List RtcEvent)
    (htag : ∀ e ∈ events, AppendsTag e.answers) : Coherent (run (RtcSession.step hmac) s events) :=
  run_invariant_of_mem h (fun _ e hs he => step_coherent hs e he) events htag

theorem handleNacks_effects (w : Answers) (s : RtcSession) (feedback : RtcpFeedback) :
    (handleNacks w s feedback).effects = s.effects ++ feedback.nackSeq.flatMap (answerTo s) := by
  unfold handleNacks
  induction feedback.nackSeq generalizing s with
  | nil => simp
  | cons seq seqs ih =>
    have hkept := @answerNack_kept (fun _ => True) w s seq fun _ => trivial
    rw [List.foldl_cons, ih, answerNack_effects, answerTo_congr hkept.retx hkept.remote,
      List.flatMap_cons, List.append_assoc]

/-- A datagram reaches a streaming session as SRTCP and is unprotected to `plain`. -/
structure Heard (w : Answers) (s : RtcSession) (buffer plain : Bytes) : Prop where
  streaming : s.state = .streaming
  rtp : rtcClassifyPacket buffer = .rtp
  rtcp : isRtcp w buffer = true
  length : buffer.length ≤ 1500
  plain : w.unprotectRtcp buffer = some plain

theorem heard_step {hmac : HmacSha1} {w : Answers} {s : RtcSession} {buffer plain : Bytes}
    {source : SockAddr} (hc : (phaseOf s).Coupled) (h : Heard w s buffer plain) :
    s.step hmac (.onUdp w buffer source) = dtlsOnRtcp w { s with
      stats := { s.stats with datagramsRx := s.stats.datagramsRx + 1 }, lastRxMs := w.rxMs } plain := by
  have hready : s.dtls.srtpReady = true := (hc.streaming h.streaming).2.2.2
  have hopen : s.state ≠ .closed := by simp [h.streaming]
  simp only [RtcSession.step, rtcSessionOnUdp, h.rtp, h.rtcp, h.streaming,
    beq_self_eq_true, Bool.and_self, ↓reduceIte, handleRtcp, Nat.not_lt.mpr h.length,
    dtlsSrtpUnprotectRtcp, hready, Bool.not_true, Bool.false_eq_true, h.plain]
  rw [← h.streaming]
  exact if_neg hopen

/-- Feedback is answered with what the cache holds for the first 128 numbers it asks
for, and with nothing when it says goodbye. -/
theorem heard_effects {hmac : HmacSha1} {w : Answers} {s : RtcSession} {buffer plain : Bytes}
    {source : SockAddr} (hc : (phaseOf s).Coupled) (h : Heard w s buffer plain) :
    ∃ more, (∀ e ∈ more, quiet e = true) ∧
      (s.step hmac (.onUdp w buffer source)).effects = s.effects ++ (more ++
        if saysBye plain then []
        else ((requestedSeqs plain).take rtcpMaxNackSeqs).flatMap (answerTo s)) := by
  rw [heard_step hc h, dtlsOnRtcp_eq]
  simp only
  set u : RtcSession := { s with
    stats := { s.stats with datagramsRx := s.stats.datagramsRx + 1 }, lastRxMs := w.rxMs }
  set feedback := rtcpParse plain (rtpH264Ssrc s.rtp)
  have hbye : feedback.bye = saysBye plain := parsePackets_bye rfl
  rw [hbye]
  split
  · obtain ⟨more, heq, hmore⟩ := (rtcSessionClose_kept w u).effects
    exact ⟨more, fun e he => upkeep_quiet e (hmore e he), by rw [heq, List.append_nil]⟩
  · have hnote := noteFeedback_kept w u feedback
    obtain ⟨more, heq, hmore⟩ := hnote.effects
    refine ⟨more, fun e he => upkeep_quiet e (hmore e he), ?_⟩
    rw [handleNacks_effects, heq, rtcpParse_nacks, List.append_assoc,
      answerTo_congr (s := s) hnote.retx hnote.remote]

/-- In every run of sends, failed protections and NACKs, a retransmission repeats
the packet last sent under its number; and feedback without a BYE that names, among
its first 128 numbers, one of the last 512 numbers given out is answered with the
packet of that number, if it was protected. -/
theorem retransmission_cache (hmac : HmacSha1) {config : RtcSessionConfig} {a : CreateAnswers}
    {capacity : Nat} {s₀ : RtcSession} {answer : Bytes}
    (h : rtcSessionCreate config a capacity = some (s₀, answer)) (events : List RtcEvent)
    (htag : ∀ e ∈ events, AppendsTag e.answers) :
    let s := run (RtcSession.step hmac) s₀ events
    (∀ before sequence data destination rest,
      s.effects = before ++ .datagram (.retransmit sequence) data destination :: rest →
        lastStored (assigned before) sequence = some data) ∧
    ∀ (w : Answers) (buffer plain : Bytes) (source : SockAddr), Heard w s buffer plain →
      saysBye plain = false → ∀ seq ∈ (requestedSeqs plain).take rtcpMaxNackSeqs, ∀ packet,
        (seq, some packet) ∈ (assigned s.effects).take retxCacheSize →
          ∃ added, (s.step hmac (.onUdp w buffer source)).effects = s.effects ++ added ∧
            .datagram (.retransmit seq) packet s.remote ∈ added := by
  intro s
  have hcoherent : Coherent s := run_coherent (created_coherent h) events htag
  have halive : Alive config s := run_alive h events
  refine ⟨hcoherent.faithful, ?_⟩
  intro w buffer plain source hheard hbye seq hseq packet hpacket
  obtain ⟨k, hk⟩ := List.mem_iff_getElem?.mp hpacket
  have hlt : k < retxCacheSize := by
    by_contra hge
    rw [List.getElem?_take_eq_none (by omega)] at hk
    cases hk
  rw [List.getElem?_take_of_lt hlt] at hk
  have hanswer : .datagram (.retransmit seq) packet s.remote ∈ answerTo s seq := by
    unfold answerTo
    rw [hcoherent.reflects.fresh k seq packet hlt hk]
    simp
  obtain ⟨more, -, heq⟩ := @heard_effects hmac w s buffer plain source halive.coupled hheard
  rw [if_neg (by simp [hbye])] at heq
  exact ⟨_, heq, List.mem_append_right _ (List.mem_flatMap_of_mem hseq hanswer)⟩

/-- OpenSSL finishes the handshake and libsrtp appends and removes tags of zeros. -/
def taggingAnswers : Answers :=
  { stillAnswers with
    ssl := ⟨1, [], .progress, true, ⟨true, true, true, true, strangeCertificate⟩⟩
    protect := fun _ packet => some (packet ++ List.replicate 10 0)
    unprotectRtcp := fun packet => some (packet.take (packet.length - 14)) }

/-- A viewer logs in and is sent one keyframe of one packet. -/
def oneKeyframe : List RtcEvent :=
  [.onUdp taggingAnswers Watchdog.loginRequest Watchdog.viewer,
   .onUdp taggingAnswers [22] Watchdog.viewer,
   .sendAccessUnit taggingAnswers [0, 0, 1, 0x65, 1, 2] 0 true]

def keyframePacket : Bytes := [128, 225, 0, 1, 0, 0, 0, 0, 0, 0, 0, 1, 101, 1, 2] ++ List.replicate 10 0

theorem taggingAnswers_appends : AppendsTag taggingAnswers := by
  intro n packet protectedPacket h
  cases h
  simp

theorem oneKeyframe_appends : ∀ e ∈ oneKeyframe, AppendsTag e.answers := by
  simp [oneKeyframe, RtcEvent.answers, taggingAnswers_appends]

theorem oneKeyframe_run : ∃ s₀ answer,
    rtcSessionCreate plainConfig plainCreate 4096 = some (s₀, answer) ∧
      (run (RtcSession.step StunAuth.zeroHmac) s₀ oneKeyframe).state = .streaming ∧
        assigned (run (RtcSession.step StunAuth.zeroHmac) s₀ oneKeyframe).effects =
          [(1, some keyframePacket)] := by
  obtain ⟨answer, h⟩ := plain_created
  have hrun : (run (RtcSession.step StunAuth.zeroHmac) (newSession plainConfig plainCreate)
        oneKeyframe).state = .streaming ∧
      assigned (run (RtcSession.step StunAuth.zeroHmac) (newSession plainConfig plainCreate)
        oneKeyframe).effects = [(1, some keyframePacket)] := by
    decide +kernel
  exact ⟨_, answer, h, hrun.1, hrun.2⟩

theorem heard_tagged {s : RtcSession} (h : s.state = .streaming) {plain : Bytes}
    (hclass : rtcClassifyPacket (plain ++ List.replicate 14 0) = .rtp)
    (hrtcp : isRtcp taggingAnswers (plain ++ List.replicate 14 0) = true) (hlen : plain.length ≤ 1400) :
    Heard taggingAnswers s (plain ++ List.replicate 14 0) plain := by
  refine ⟨h, hclass, hrtcp, by simp; omega, ?_⟩
  simp [taggingAnswers]

/-- The keyframe is sent again. -/
theorem retransmission_cache_keyframe :
    ∃ s₀ answer, rtcSessionCreate plainConfig plainCreate 4096 = some (s₀, answer) ∧
      let s := run (RtcSession.step StunAuth.zeroHmac) s₀ oneKeyframe
      ∃ added, (s.step StunAuth.zeroHmac (.onUdp taggingAnswers
          (genericNack [(1, 0)] ++ List.replicate 14 0) Watchdog.viewer)).effects = s.effects ++ added ∧
        .datagram (.retransmit 1) keyframePacket s.remote ∈ added := by
  obtain ⟨s₀, answer, h, hstate, hassigned⟩ := oneKeyframe_run
  refine ⟨s₀, answer, h, ?_⟩
  exact (retransmission_cache StunAuth.zeroHmac h oneKeyframe oneKeyframe_appends).2 taggingAnswers
    _ _ Watchdog.viewer
    (heard_tagged hstate (by decide) (by decide) (by decide))
    (by decide +kernel) 1 (by decide +kernel) keyframePacket
    (by rw [hassigned]; simp [retxCacheSize])

/-- Every NACK for one of the `asked` numbers of its datagram is answered, if the
packet was protected and its number is one of the last 512. -/
def AnswersAll (asked : Bytes → List UInt16) : Prop :=
  ∀ (hmac : HmacSha1) (config : RtcSessionConfig) (a : CreateAnswers) (capacity : Nat)
    (s₀ : RtcSession) (answer : Bytes), rtcSessionCreate config a capacity = some (s₀, answer) →
      ∀ events : List RtcEvent, (∀ e ∈ events, AppendsTag e.answers) →
        let s := run (RtcSession.step hmac) s₀ events
        ∀ (w : Answers) (buffer plain : Bytes) (source : SockAddr), Heard w s buffer plain →
          ∀ seq ∈ asked plain, ∀ packet,
            (seq, some packet) ∈ (assigned s.effects).take retxCacheSize →
              ∃ added, (s.step hmac (.onUdp w buffer source)).effects = s.effects ++ added ∧
                .datagram (.retransmit seq) packet s.remote ∈ added

/-- 136 numbers that were never given out, and then the one of the keyframe. -/
def manyNacks : Bytes := genericNack (List.replicate 8 (100, 0xFFFF) ++ [(1, 0)])

/-- A NACK for the keyframe, and a BYE. -/
def nackAndBye : Bytes := genericNack [(1, 0)] ++ [0x80, 203, 0, 1, 0, 0, 0, 1]

theorem manyNacks_asks : requestedSeqs manyNacks =
    (List.replicate 8 (Rtcp.lostSeqs 100 0xFFFF)).flatten ++ [1] := by
  decide +kernel

theorem nackAndBye_asks : 1 ∈ (requestedSeqs nackAndBye).take rtcpMaxNackSeqs := by
  decide +kernel

/-- The number of the keyframe is asked for and not answered. -/
theorem not_answersAll {asked : Bytes → List UInt16} {plain : Bytes}
    (hclass : rtcClassifyPacket (plain ++ List.replicate 14 0) = .rtp)
    (hrtcp : isRtcp taggingAnswers (plain ++ List.replicate 14 0) = true)
    (hlen : plain.length ≤ 1400) (hasked : 1 ∈ asked plain)
    (hleft : saysBye plain = true ∨ 1 ∉ (requestedSeqs plain).take rtcpMaxNackSeqs) :
    ¬AnswersAll asked := by
  intro hall
  obtain ⟨s₀, answer, h, hstate, hassigned⟩ := oneKeyframe_run
  have hheard := heard_tagged hstate hclass hrtcp hlen
  obtain ⟨added, heq, hadded⟩ := hall StunAuth.zeroHmac plainConfig plainCreate 4096 s₀ answer h
    oneKeyframe oneKeyframe_appends taggingAnswers _ plain Watchdog.viewer hheard 1 hasked
    keyframePacket (by rw [hassigned]; simp [retxCacheSize])
  obtain ⟨more, hmore, heq'⟩ := @heard_effects StunAuth.zeroHmac _ _ _ _ Watchdog.viewer
    (run_alive h oneKeyframe).coupled hheard
  rw [List.append_cancel_left (heq.symm.trans heq')] at hadded
  rcases List.mem_append.mp hadded with hquiet | hanswer
  · cases hmore _ hquiet
  · rcases hleft with hbye | hcap
    · rw [if_pos hbye] at hanswer
      cases hanswer
    · split at hanswer
      · cases hanswer
      · obtain ⟨seq, hseq, hin⟩ := List.mem_flatMap.mp hanswer
        exact hcap (mem_answerTo hin ▸ hseq)

/-- A number behind 128 others stays unanswered, and so does one that comes with a
BYE. -/
theorem nacks_left_unanswered :
    ¬AnswersAll requestedSeqs ∧
      ¬AnswersAll (fun plain => if saysBye plain then [] else requestedSeqs plain) ∧
        ¬AnswersAll (fun plain => (requestedSeqs plain).take rtcpMaxNackSeqs) := by
  have hcap : 1 ∉ (requestedSeqs manyNacks).take rtcpMaxNackSeqs := by
    rw [manyNacks_asks]
    decide
  have hlast : 1 ∈ requestedSeqs manyNacks := by simp [manyNacks_asks]
  refine ⟨?_, ?_, ?_⟩
  · exact not_answersAll (by decide) (by decide) (by decide) hlast (.inr hcap)
  · refine not_answersAll (by decide) (by decide) (by decide) ?_ (.inr hcap)
    have hstays : saysBye manyNacks = false := by decide +kernel
    rw [hstays]
    exact hlast
  · exact not_answersAll (by decide) (by decide) (by decide) nackAndBye_asks
      (.inl (by decide +kernel))

end Camstream.Proofs.RetxCache
