import Mathlib.Data.FinEnum
import Camstream.Lib.HexText
import Camstream.Proofs.Watchdog

namespace Camstream.Proofs.Fingerprint
open Lib Webrtc SessionFrame Lifecycle SessionLife SessionCore

/-- The digest a fingerprint value is written with: behind the name of the hash
function and its space, 32 bytes in hexadecimal digits, colons left out. -/
def digestOf (value : Bytes) : Option Bytes :=
  let text := if 32 ∈ value then (value.dropWhile (· ≠ 32)).tail else value
  (hexBytes (text.filter (· ≠ 58))).filter fun md => md.length = 32

theorem afterSpace_eq (value : Bytes) :
    afterSpace value = if 32 ∈ value then (value.dropWhile (· ≠ 32)).tail else value := by
  unfold afterSpace
  cases hd : value.dropWhile (· ≠ 32) with
  | nil =>
    have hnone : ∀ c ∈ value, c ≠ 32 := by simpa using hd
    rw [if_neg (fun h => hnone 32 h rfl)]
  | cons c rest =>
    have hmem : 32 ∈ value := by
      by_contra hno
      have hall : value.dropWhile (· ≠ 32) = [] := by
        simp only [List.dropWhile_eq_nil_iff, decide_eq_true_eq]
        intro x hx hx32
        exact hno (hx32 ▸ hx)
      rw [hall] at hd
      cases hd
    rw [if_pos hmem]
    rfl

/-- A letter or digit that upper case turns into the digit of `n`. -/
theorem foldHexCase_eq : ∀ (a : UInt8) (n : Fin 16), foldHexCase a = hexDigit (UInt8.ofNat n) ↔
    isHexByte a = true ∧ digitValue a = n := by
  decide +kernel

theorem byte_digits (byte : UInt8) : byte >>> 4 = UInt8.ofNat (byte.toNat / 16) ∧
    byte &&& 15 = UInt8.ofNat (byte.toNat % 16) := by
  have hbyte := byte.toNat_lt
  constructor
  · apply UInt8.toNat_inj.mp
    simp [Nat.shiftRight_eq_div_pow]
    omega
  · apply UInt8.toNat_inj.mp
    have hmod := Nat.and_two_pow_sub_one_eq_mod byte.toNat 4
    simp at hmod ⊢
    omega

theorem hexPair_eq (a b byte : UInt8) :
    (foldHexCase a = hexDigit (byte >>> 4) ∧ foldHexCase b = hexDigit (byte &&& 15)) ↔
      (isHexByte a = true ∧ isHexByte b = true) ∧
        UInt8.ofNat (digitValue a * 16 + digitValue b) = byte := by
  have hbyte := byte.toNat_lt
  obtain ⟨hhigh, hlow⟩ := byte_digits byte
  rw [hhigh, hlow, foldHexCase_eq a ⟨byte.toNat / 16, by omega⟩,
    foldHexCase_eq b ⟨byte.toNat % 16, by omega⟩]
  constructor
  · rintro ⟨⟨ha, hav⟩, hb, hbv⟩
    refine ⟨⟨ha, hb⟩, ?_⟩
    rw [hav, hbv, show byte.toNat / 16 * 16 + byte.toNat % 16 = byte.toNat by omega,
      UInt8.ofNat_toNat]
  · rintro ⟨⟨ha, hb⟩, hv⟩
    have hva := digitValue_lt ha
    have hvb := digitValue_lt hb
    have hval : byte.toNat = digitValue a * 16 + digitValue b := by
      rw [← hv, UInt8.toNat_ofNat_of_lt']
      rw [show UInt8.size = 256 from rfl]
      omega
    refine ⟨⟨ha, ?_⟩, hb, ?_⟩
    · simp only
      omega
    · simp only
      omega

/-- Reading a text as bytes and writing the bytes in upper case agree. -/
theorem hexBytes_eq (text md : Bytes) :
    hexBytes text = some md ↔ text.map foldHexCase = hexUpper md := by
  induction text using hexBytes.induct generalizing md with
  | case1 =>
    cases md with
    | nil => simp [hexBytes, hexUpper]
    | cons byte md => simp [hexBytes, hexUpper]
  | case2 c =>
    cases md with
    | nil => simp [hexBytes, hexUpper]
    | cons byte md => simp [hexBytes, hexUpper]
  | case3 a b rest hex ih =>
    cases md with
    | nil => simp [hexBytes, hexUpper, hex]
    | cons byte md =>
      have hpair := hexPair_eq a b byte
      have hcons : hexUpper (byte :: md) =
        hexDigit (byte >>> 4) :: hexDigit (byte &&& 15) :: hexUpper md := rfl
      simp only [Bool.and_eq_true] at hex
      simp only [hexBytes, hex, Bool.and_self, ↓reduceIte, Option.map_eq_some_iff, List.map_cons,
        hcons, List.cons.injEq, ← ih md, ← and_assoc, hpair]
      constructor
      · rintro ⟨tail, ⟨htail, hb⟩, rfl⟩
        exact ⟨⟨⟨trivial, trivial⟩, hb⟩, htail⟩
      · rintro ⟨⟨-, hb⟩, htail⟩
        exact ⟨md, ⟨htail, hb⟩, rfl⟩
  | case4 a b rest hex =>
    cases md with
    | nil => simp [hexBytes, hexUpper, hex]
    | cons byte md =>
      have hpair := hexPair_eq a b byte
      have hcons : hexUpper (byte :: md) =
        hexDigit (byte >>> 4) :: hexDigit (byte &&& 15) :: hexUpper md := rfl
      simp only [Bool.and_eq_true] at hex
      simp only [hexBytes, Bool.and_eq_true, hex, ↓reduceIte, List.map_cons, hcons,
        List.cons.injEq, ← and_assoc, hpair, false_and]
      simp

theorem hexUpper_length (md : Bytes) : (hexUpper md).length = 2 * md.length := by
  induction md with
  | nil => rfl
  | cons byte md ih =>
    have hcons : hexUpper (byte :: md) =
      hexDigit (byte >>> 4) :: hexDigit (byte &&& 15) :: hexUpper md := rfl
    rw [hcons, List.length_cons, List.length_cons, List.length_cons, ih]
    omega

/-- The comparison of `derive_srtp_keys` compares digests. -/
theorem fingerprintHexEqual_iff (value : Bytes) (digest : Digest) :
    fingerprintHexEqual value digest.bytes = true ↔ digestOf value = some digest.bytes := by
  have hlen : (hexUpper digest.bytes).length = 64 := by
    rw [hexUpper_length, digest.length_eq]
  have htake : ∀ text : Bytes, text.take 127 = hexUpper digest.bytes ↔
      text = hexUpper digest.bytes := by
    intro text
    constructor
    · intro h
      have := congrArg List.length h
      rw [hlen, List.length_take] at this
      rwa [List.take_of_length_le (by omega)] at h
    · rintro rfl
      exact List.take_of_length_le (by omega)
  unfold fingerprintHexEqual digestOf
  simp only [beq_iff_eq, htake, ← hexBytes_eq, afterSpace_eq, Option.filter_eq_some_iff,
    digest.length_eq, decide_true, and_true]

def fingerprintMarker : Bytes := ascii "a=fingerprint:"

/-- The value of a line that is a fingerprint attribute. -/
def fingerprintValue (line : Bytes) : Option Bytes :=
  if fingerprintMarker.isPrefixOf line then
    some ((line.drop 14).takeWhile fun c => c ≠ 0 ∧ c ≠ 13 ∧ c ≠ 10)
  else none

/-- The fingerprint of an offer. Media sections repeat the attributes of the
session, and what is written last wins. -/
def offerFingerprint (sdp : Bytes) : Option Bytes :=
  ((sdpVisited sdp).filterMap fingerprintValue).getLast?

theorem marker_apart {marker line : Bytes} (h : marker.isPrefixOf line = true)
    (hleft : ¬marker <+: fingerprintMarker) (hright : ¬fingerprintMarker <+: marker) :
    fingerprintValue line = none := by
  have hline : ¬fingerprintMarker.isPrefixOf line = true := by
    intro hf
    rcases List.prefix_or_prefix_of_prefix (List.isPrefixOf_iff_prefix.mp h)
      (List.isPrefixOf_iff_prefix.mp hf) with hp | hp
    · exact hleft hp
    · exact hright hp
  rw [fingerprintValue, if_neg hline]

theorem visitMedia_fingerprint (ctx : ParseContext) (line : Bytes) (media : Nat) :
    (visitMedia ctx line media).offer.fingerprint = ctx.offer.fingerprint ∧
      (visitMedia ctx line media).haveFingerprint = ctx.haveFingerprint := by
  unfold visitMedia
  split <;> exact ⟨rfl, rfl⟩

theorem visitSection_fingerprint (offer : SdpOffer) (line : Bytes) (media : Nat) :
    (visitSection offer line media).fingerprint = offer.fingerprint := by
  unfold visitSection
  split
  · simp only
    split <;> rfl
  split
  · simp only
    split <;> rfl
  split
  · split <;> rfl
  · rfl

/-- A fingerprint line replaces the fingerprint, every other line leaves it. -/
theorem parseVisit_fingerprint (ctx : ParseContext) (line : Bytes) (media : Option Nat) :
    (parseVisit ctx line media).offer.fingerprint =
        ((fingerprintValue line).map (·.take 127)).getD ctx.offer.fingerprint ∧
      (parseVisit ctx line media).haveFingerprint =
        (ctx.haveFingerprint || (fingerprintValue line).isSome) := by
  unfold parseVisit
  split
  · rename_i h
    rw [marker_apart h (by decide) (by decide)]
    simpa using visitMedia_fingerprint ctx line (media.getD 0)
  split
  · rename_i h
    rw [marker_apart h (by decide) (by decide)]
    simp
  split
  · rename_i h
    rw [marker_apart h (by decide) (by decide)]
    simp
  split
  · rename_i h
    have hvalue : fingerprintValue line =
        some ((line.drop 14).takeWhile fun c => c ≠ 0 ∧ c ≠ 13 ∧ c ≠ 10) := if_pos h
    rw [hvalue]
    exact ⟨rfl, by simp⟩
  split
  · rename_i h
    rw [marker_apart h (by decide) (by decide)]
    simp
  · rename_i hf _
    rw [show fingerprintValue line = none from if_neg hf]
    cases media with
    | none => simp
    | some media =>
      simp only
      split
      · simpa using visitSection_fingerprint ctx.offer line media
      · simp

theorem parseLines_fingerprint (ctx : ParseContext) (media : Option Nat) (lines : List Bytes) :
    (parseLines ctx media lines).offer.fingerprint =
        (((lines.filterMap fingerprintValue).getLast?).map (·.take 127)).getD
          ctx.offer.fingerprint ∧
      (parseLines ctx media lines).haveFingerprint =
        (ctx.haveFingerprint || ((lines.filterMap fingerprintValue).getLast?).isSome) := by
  induction lines generalizing ctx media with
  | nil => simp [parseLines]
  | cons line lines ih =>
    obtain ⟨hone, hhave⟩ := parseVisit_fingerprint ctx line (nextMedia line media)
    obtain ⟨hrest, hhaveRest⟩ := ih (parseVisit ctx line (nextMedia line media)) (nextMedia line media)
    rw [parseLines]
    simp only [hrest, hhaveRest, hone, hhave]
    cases hv : fingerprintValue line with
    | none => simp [hv]
    | some value =>
      rw [List.filterMap_cons_some hv, List.getLast?_cons]
      cases (lines.filterMap fingerprintValue).getLast? with
      | none => simp
      | some last => simp

theorem chooseH264_fingerprint (offer : SdpOffer) :
    (chooseH264 offer).fingerprint = offer.fingerprint := by
  have hfold : ∀ (formats : List SdpH264Format) (best : Nat × SdpOffer),
      (formats.foldl (fun (best : Nat × SdpOffer) format =>
        if h264Rank format > best.1 then
          (h264Rank format, { best.2 with
            h264PayloadType := format.payloadType
            h264ProfileLevelId := copyTo 8 format.profileLevelId })
        else best) best).2.fingerprint = best.2.fingerprint := by
    intro formats
    induction formats with
    | nil => intro best; rfl
    | cons format formats ih =>
      intro best
      rw [List.foldl_cons, ih]
      split <;> rfl
  exact hfold offer.h264 (0, offer)

/-- What an accepted offer keeps of its fingerprint. -/
theorem accepted_fingerprint {sdp : Bytes} {offer : SdpOffer}
    (h : sdpParseOffer sdp = .ok offer) :
    ∃ value, offerFingerprint sdp = some value ∧ offer.fingerprint = value.take 127 := by
  obtain ⟨hlast, hhave⟩ := parseLines_fingerprint ⟨sdpEmptyOffer, false, false, false, false⟩ none
    (sdpVisited sdp)
  unfold sdpParseOffer at h
  simp only at h
  split at h
  · cases h
  split at h
  · cases h
  split at h
  · cases h
  rename_i hf
  split at h
  · cases h
  split at h
  · split at h <;> cases h
  have hkeep : offer.fingerprint = (chooseH264 (parseLines
      ⟨sdpEmptyOffer, false, false, false, false⟩ none (sdpVisited sdp)).offer).fingerprint := by
    split at h
    · cases h
      rfl
    · split at h
      · cases h
      · cases h
        rfl
  simp only [hhave, Bool.false_or, Bool.not_eq_true', Bool.not_eq_false] at hf
  obtain ⟨value, hvalue⟩ := Option.isSome_iff_exists.mp hf
  refine ⟨value, hvalue, ?_⟩
  rw [hkeep, chooseH264_fingerprint, hlast, hvalue]
  rfl

/-- Whoever becomes streaming has vouched for the certificate of the peer. -/
theorem streaming_vouched {peer : PeerCertificate} {p q : Phase} (hm : Moves peer p q)
    (hp : p.state ≠ .streaming) (hq : q.state = .streaming) : Vouched p.expected peer := by
  have hkeep := @moves_keep peer (fun r => r.expected = p.expected ∧
      (r.state = .streaming → Vouched p.expected peer))
    (by
      rintro r r' ⟨he, hv⟩ hstep
      refine ⟨(move_setup hstep).2.trans he, ?_⟩
      cases hstep with
      | validate hs => exact nofun
      | hello hs => exact nofun
      | connect hs hv' => exact fun _ => he ▸ hv'
      | close hs => exact nofun
      | keyframe accessUnit hs => exact fun _ => hv hs
      | delta accessUnit hs hw => exact fun _ => hv hs)
    p q ⟨rfl, fun h => absurd h hp⟩ hm
  exact hkeep.2 hq

/-- A fingerprint value the whole way from the offer to the comparison: it is not
empty, and cut to 127 bytes it names no digest or the same one. -/
def Comparable (value : Bytes) : Prop :=
  value ≠ [] ∧
    (digestOf (value.take 127) = none ∨ digestOf (value.take 127) = digestOf value)

/-- The peer shows a certificate with the digest that the value is written with. -/
def Matches (value : Bytes) (peer : PeerCertificate) : Prop :=
  ∃ digest, peer = .sha256 digest ∧ digestOf value = some digest.bytes

theorem digestOf_length {value md : Bytes} (h : digestOf value = some md) : md.length = 32 := by
  unfold digestOf at h
  simpa using (Option.filter_eq_some_iff.mp h).2

theorem comparable_iff (value : Bytes) :
    Comparable value ↔ ∀ peer, Vouched (value.take 127) peer → Matches value peer := by
  constructor
  · rintro ⟨hne, hsame⟩ peer (hempty | ⟨digest, rfl, heq⟩)
    · exact absurd (by simpa using hempty) hne
    · rw [fingerprintHexEqual_iff] at heq
      refine ⟨digest, rfl, ?_⟩
      rcases hsame with hnone | hsame
      · rw [hnone] at heq
        cases heq
      · exact hsame ▸ heq
  · intro hall
    refine ⟨?_, ?_⟩
    · rintro rfl
      obtain ⟨digest, -, hdigest⟩ := hall strangeCertificate (.inl rfl)
      have hnone : digestOf [] = none := by decide
      cases hnone.symm.trans hdigest
    · cases hd : digestOf (value.take 127) with
      | none => exact .inl rfl
      | some md =>
        have hv : Vouched (value.take 127) (.sha256 ⟨md, digestOf_length hd⟩) :=
          .inr ⟨_, rfl, (fingerprintHexEqual_iff _ ⟨md, digestOf_length hd⟩).mpr hd⟩
        obtain ⟨digest, hp, hdigest⟩ := hall _ hv
        cases hp
        exact .inr hdigest.symm

theorem append_fits {limit : Nat} (texts : List Bytes) (out : Bytes × Nat)
    (h : out.2 + (texts.map List.length).sum < limit) :
    (texts.foldl (sdpAppend limit) out).2 = out.2 + (texts.map List.length).sum := by
  induction texts generalizing out with
  | nil => rfl
  | cons text texts ih =>
    simp only [List.map_cons, List.sum_cons] at h
    have hone : (sdpAppend limit out text).2 = out.2 + text.length := by
      rw [sdpAppend, if_neg (by omega)]
      exact if_pos (by omega)
    rw [List.foldl_cons, ih _ (by omega), hone, List.map_cons, List.sum_cons]
    omega

/-- Every offer has an answer in a large enough buffer. -/
theorem answer_fits (offer : SdpOffer) (config : SdpAnswerConfig)
    (h : config.candidateIps ≠ []) :
    ∃ capacity, (sdpBuildAnswer offer config capacity).isSome = true := by
  cases hc : config.candidateIps with
  | nil => exact absurd hc h
  | cons address others =>
    have hfit := @append_fits (((answerTexts offer config address others).map List.length).sum + 1)
      (answerTexts offer config address others) ([], 0) (by simp)
    refine ⟨((answerTexts offer config address others).map List.length).sum + 1, ?_⟩
    unfold sdpBuildAnswer
    rw [hc]
    simp only [Nat.add_one_ne_zero, ↓reduceIte, hfit]
    rw [if_neg (by omega)]
    rfl

/-- OpenSSL finishes the handshake with a peer that shows `peer`. -/
def finishAnswers (peer : PeerCertificate) : Answers :=
  { stillAnswers with ssl := ⟨1, [], .progress, true, ⟨true, true, true, true, peer⟩⟩ }

theorem login_state {s : RtcSession} (hc : (phaseOf s).Coupled) (hs : s.state = .new)
    (hu : s.localUfrag = credentialText (plainCreate.raw.toList.take 8))
    (hp : s.localPwd = credentialText ((plainCreate.raw.toList.drop 8).take 24)) :
    (s.step StunAuth.zeroHmac (.onUdp stillAnswers Watchdog.loginRequest Watchdog.viewer)).state =
      .ice := by
  have hclass : rtcClassifyPacket Watchdog.loginRequest = .stun := by decide
  have hpass : passes StunAuth.zeroHmac s.localPwd s.localUfrag Watchdog.loginRequest = true := by
    rw [hp, hu]
    decide +kernel
  refine (congrArg Core.state (step_core hc _)).trans ?_
  simp [Core.step, Core.receive, Core.check, coreOf, hs, hclass, hpass]

theorem finish_state {s : RtcSession} {peer : PeerCertificate} (hc : (phaseOf s).Coupled)
    (hs : s.state = .ice) (hv : Vouched s.dtls.expectedFingerprint peer) :
    (s.step StunAuth.zeroHmac (.onUdp (finishAnswers peer) [22] Watchdog.viewer)).state =
      .streaming := by
  have hclass : rtcClassifyPacket [22] = .dtls := by decide
  have hremote : s.haveRemote = true := (hc.checked hs).1
  refine (congrArg Core.state (step_core hc _)).trans ?_
  simp [Core.step, Core.receive, Core.pump, Core.finish, coreOf, hs, hclass, hremote, finishAnswers,
    KeyExport.usable, hv]

/-- Whatever certificate a session vouches for, some session of the offer streams
to a peer that shows it. -/
theorem vouched_streams (offer : SdpOffer) (peer : PeerCertificate)
    (hv : Vouched (offer.fingerprint.take 127) peer) :
    ∃ capacity s₀ answer,
      rtcSessionCreate { plainConfig with offer } plainCreate capacity = some (s₀, answer) ∧
        (run (RtcSession.step StunAuth.zeroHmac) s₀
          [.onUdp stillAnswers Watchdog.loginRequest Watchdog.viewer]).state ≠ .streaming ∧
        (run (RtcSession.step StunAuth.zeroHmac) s₀
          [.onUdp stillAnswers Watchdog.loginRequest Watchdog.viewer,
            .onUdp (finishAnswers peer) [22] Watchdog.viewer]).state = .streaming := by
  obtain ⟨capacity, hcap⟩ := answer_fits offer
    { fingerprint := plainCreate.localFingerprint
      iceUfrag := credentialText (plainCreate.raw.toList.take 8)
      icePwd := credentialText ((plainCreate.raw.toList.drop 8).take 24)
      candidateIps := plainConfig.candidateIps, udpPort := plainCreate.boundPort
      ssrc := plainCreate.ssrc } (by simp [plainConfig])
  obtain ⟨text, htext⟩ := Option.isSome_iff_exists.mp hcap
  obtain ⟨⟨s₀, answer⟩, hcreate⟩ : ∃ created,
      rtcSessionCreate { plainConfig with offer } plainCreate capacity = some created := by
    simp only [rtcSessionCreate]
    rw [if_neg (by decide), htext]
    exact ⟨_, rfl⟩
  have hice := login_state (created_alive hcreate).coupled (by rw [created_eq hcreate]; rfl)
    (by rw [created_eq hcreate]; rfl) (by rw [created_eq hcreate]; rfl)
  have halive : Alive { plainConfig with offer } (s₀.step StunAuth.zeroHmac
      (.onUdp stillAnswers Watchdog.loginRequest Watchdog.viewer)) :=
    step_alive _ (created_alive hcreate)
  refine ⟨capacity, s₀, answer, hcreate, ?_, ?_⟩
  · intro h
    cases hice.symm.trans h
  · exact finish_state halive.coupled hice (by rw [halive.expected]; exact hv)

/-- Every session of the offer becomes streaming only with a peer whose certificate
has the digest that the offer is written with. -/
def Gated (sdp : Bytes) (offer : SdpOffer) : Prop :=
  ∀ (hmac : HmacSha1) (config : RtcSessionConfig) (a : CreateAnswers) (capacity : Nat)
    (s₀ : RtcSession) (answer : Bytes), config.offer = offer →
      rtcSessionCreate config a capacity = some (s₀, answer) →
        ∀ (events : List RtcEvent) (e : RtcEvent),
          (run (RtcSession.step hmac) s₀ events).state ≠ .streaming →
            ((run (RtcSession.step hmac) s₀ events).step hmac e).state = .streaming →
              ∃ value, offerFingerprint sdp = some value ∧ Matches value e.answers.ssl.keys.peer

theorem gated_comparable {sdp : Bytes} {offer : SdpOffer} (h : sdpParseOffer sdp = .ok offer)
    (hgated : Gated sdp offer) : ∃ value, offerFingerprint sdp = some value ∧ Comparable value := by
  obtain ⟨value, hvalue, hoffer⟩ := accepted_fingerprint h
  refine ⟨value, hvalue, (comparable_iff value).mpr ?_⟩
  intro peer hv
  obtain ⟨capacity, s₀, answer, hcreate, hbefore, hafter⟩ :=
    vouched_streams offer peer (by rw [hoffer, List.take_take]; exact hv)
  obtain ⟨value', hvalue', hmatch⟩ := hgated StunAuth.zeroHmac { plainConfig with offer } plainCreate
    capacity s₀ answer rfl hcreate [_] (.onUdp (finishAnswers peer) [22] Watchdog.viewer) hbefore
    hafter
  cases hvalue.symm.trans hvalue'
  exact hmatch

theorem comparable_gated {sdp : Bytes} {offer : SdpOffer} (h : sdpParseOffer sdp = .ok offer)
    {value : Bytes} (hvalue : offerFingerprint sdp = some value) (hcomp : Comparable value) :
    Gated sdp offer := by
  obtain ⟨value', hvalue', hoffer⟩ := accepted_fingerprint h
  cases hvalue.symm.trans hvalue'
  rintro hmac config a capacity s₀ answer rfl hcreate events e hbefore hafter
  refine ⟨value, hvalue, (comparable_iff value).mp hcomp _ ?_⟩
  have halive : Alive config (run (RtcSession.step hmac) s₀ events) := run_alive hcreate events
  have hmoves : Moves e.answers.ssl.keys.peer (phaseOf (run (RtcSession.step hmac) s₀ events))
      (phaseOf ((run (RtcSession.step hmac) s₀ events).step hmac e)) := step_moves halive.coupled e
  have hexpected : (phaseOf (run (RtcSession.step hmac) s₀ events)).expected = value.take 127 :=
    halive.expected.trans (by rw [hoffer, List.take_take]; rfl)
  rw [← hexpected]
  exact streaming_vouched hmoves hbefore hafter

/-- An accepted offer gates its sessions exactly when its fingerprint survives the
way to the comparison. -/
theorem fingerprint_gate_iff (sdp : Bytes) (offer : SdpOffer)
    (h : sdpParseOffer sdp = .ok offer) :
    Gated sdp offer ↔ ∃ value, offerFingerprint sdp = some value ∧ Comparable value := by
  constructor
  · exact gated_comparable h
  · rintro ⟨value, hvalue, hcomp⟩
    exact comparable_gated h hvalue hcomp

/-- An offer whose fingerprint attribute has this value. -/
def offerWith (fingerprint : Bytes) : Bytes :=
  ascii "m=video 9 UDP/TLS/RTP/SAVPF 97" ++ crlf ++ ascii "a=ice-ufrag:u" ++ crlf ++
    ascii "a=ice-pwd:p" ++ crlf ++ ascii "a=fingerprint:" ++ fingerprint ++ crlf ++
    ascii "a=rtpmap:97 H264/90000" ++ crlf ++ ascii "a=fmtp:97 packetization-mode=1" ++ crlf

/-- A digest of 32 bytes 0xAB. -/
def someDigest : Bytes := ascii "sha-256 " ++ (List.replicate 32 (ascii "Ab")).flatten

/-- Both offers can be read. -/
theorem offers_read :
    ((sdpParseOffer (offerWith someDigest)).isOk = true ∧
      offerFingerprint (offerWith someDigest) = some someDigest) ∧
    (sdpParseOffer (offerWith [])).isOk = true ∧ offerFingerprint (offerWith []) = some [] := by
  decide +kernel

theorem fingerprint_gate_digest :
    ∃ offer, sdpParseOffer (offerWith someDigest) = .ok offer ∧ Gated (offerWith someDigest) offer := by
  cases h : sdpParseOffer (offerWith someDigest) with
  | error reason =>
    have hok := offers_read.1.1
    rw [h] at hok
    cases hok
  | ok offer =>
    refine ⟨offer, rfl, (fingerprint_gate_iff _ offer h).mpr ⟨someDigest, offers_read.1.2, ?_⟩⟩
    unfold Comparable
    decide

/-- An offer with an empty fingerprint attribute is accepted and compares nothing. -/
theorem empty_fingerprint_ungated :
    ¬∀ (sdp : Bytes) (offer : SdpOffer), sdpParseOffer sdp = .ok offer → Gated sdp offer := by
  intro hall
  cases h : sdpParseOffer (offerWith []) with
  | error reason =>
    have hok := offers_read.2.1
    rw [h] at hok
    cases hok
  | ok offer =>
    obtain ⟨value, hvalue, hne, -⟩ := gated_comparable h (hall _ offer h)
    cases offers_read.2.2.symm.trans hvalue
    exact hne rfl

end Camstream.Proofs.Fingerprint
