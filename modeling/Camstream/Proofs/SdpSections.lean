import Camstream.Proofs.SdpMirror

namespace Camstream.Proofs.SdpSections
open Lib Webrtc SdpAnswer SdpMirror

/-- The attributes that an offer may give at session level and in its sections. -/
inductive TransportValue
  | iceUfrag | icePwd | fingerprint | setup
deriving Repr, DecidableEq

def TransportValue.marker : TransportValue → Bytes
  | .iceUfrag => ascii "a=ice-ufrag:"
  | .icePwd => ascii "a=ice-pwd:"
  | .fingerprint => ascii "a=fingerprint:"
  | .setup => ascii "a=setup:"

/-- The size of its field in the parsed offer. -/
def TransportValue.size : TransportValue → Nat
  | .iceUfrag => 80
  | .icePwd => 128
  | .fingerprint => 128
  | .setup => 24

def TransportValue.field (offer : SdpOffer) : TransportValue → Bytes
  | .iceUfrag => offer.iceUfrag
  | .icePwd => offer.icePwd
  | .fingerprint => offer.fingerprint
  | .setup => offer.setup

/-- The value that a line gives, up to its end. -/
def givenBy (a : TransportValue) (line : Bytes) : Option Bytes :=
  if a.marker.isPrefixOf line then
    some ((line.drop a.marker.length).takeWhile fun c => c ≠ 0 ∧ c ≠ 13 ∧ c ≠ 10)
  else none

/-- The value that some lines give, the last one where they give several. -/
def given (a : TransportValue) (lines : List Bytes) : Option Bytes :=
  (lines.filterMap (givenBy a)).getLast?

/-- An `m=` line and the lines up to the next one. -/
structure SdpSection where
  head : Bytes
  body : List Bytes

def SdpSection.lines (s : SdpSection) : List Bytes := s.head :: s.body

def SdpSection.isVideo (s : SdpSection) : Bool := firstToken (s.head.drop 2) == ascii "video"

/-- The session level lines and the sections of a document. -/
def splitSections : List Bytes → List Bytes × List SdpSection
  | [] => ([], [])
  | line :: lines =>
    if isMedia line then ([], ⟨line, (splitSections lines).1⟩ :: (splitSections lines).2)
    else (line :: (splitSections lines).1, (splitSections lines).2)

/-- The lines of an offer as C strings. -/
def offerLines (sdp : Bytes) : List Bytes := (documentLines sdp).map cString

def sessionPart (sdp : Bytes) : List Bytes := (splitSections (offerLines sdp)).1

/-- The sections in front of the first video section. -/
def beforeVideo (sdp : Bytes) : List SdpSection :=
  (splitSections (offerLines sdp)).2.takeWhile fun s => !s.isVideo

/-- The first video section and all behind it. -/
def fromVideo (sdp : Bytes) : List SdpSection :=
  (splitSections (offerLines sdp)).2.dropWhile fun s => !s.isVideo

def videoPart (sdp : Bytes) : List Bytes := (fromVideo sdp).head?.elim [] SdpSection.lines

def behindVideo (sdp : Bytes) : List SdpSection := (fromVideo sdp).tail

/-- The value for the first video section: its own, or that of the session. -/
def inEffect (sdp : Bytes) (a : TransportValue) : Bytes :=
  ((given a (videoPart sdp)).or (given a (sessionPart sdp))).getD []

/-- The value of another section that comes after the one in effect. -/
def overriding (sdp : Bytes) (a : TransportValue) : Option Bytes :=
  (given a ((behindVideo sdp).flatMap SdpSection.lines)).or
    (if (given a (videoPart sdp)).isSome then none
      else given a ((beforeVideo sdp).flatMap SdpSection.lines))

/-- Without a setup the parser assumes actpass. -/
def withDefault (a : TransportValue) (value : Bytes) : Bytes :=
  if a = .setup then orElse value (ascii "actpass") else value

/-- No other section gives the value after the one in effect, or it gives the same; and it
fits its field. -/
def Undisturbed (sdp : Bytes) (a : TransportValue) : Prop :=
  match overriding sdp a with
  | none => (inEffect sdp a).length < a.size
  | some other => withDefault a (copyTo a.size other) = withDefault a (inEffect sdp a)

/-- What the lines of a document leave in the offer. -/
def visitedOffer (sdp : Bytes) : SdpOffer :=
  (parseLines ⟨sdpEmptyOffer, false, false, false, false⟩ none (sdpVisited sdp)).offer

theorem given_append (a : TransportValue) (xs ys : List Bytes) :
    given a (xs ++ ys) = (given a ys).or (given a xs) := by
  rw [given, List.filterMap_append, List.getLast?_append]
  rfl

theorem markers_apart {p q line : Bytes} (h : p.isPrefixOf line = true)
    (hpq : p.isPrefixOf q = false) (hqp : q.isPrefixOf p = false) : q.isPrefixOf line = false := by
  rw [Bool.eq_false_iff] at hpq hqp ⊢
  intro hq
  rcases List.prefix_or_prefix_of_prefix (List.isPrefixOf_iff_prefix.mp h)
    (List.isPrefixOf_iff_prefix.mp hq) with hle | hle
  · exact hpq (List.isPrefixOf_iff_prefix.mpr hle)
  · exact hqp (List.isPrefixOf_iff_prefix.mpr hle)

theorem marker_apart {a b : TransportValue} (h : a ≠ b) : a.marker.isPrefixOf b.marker = false := by
  cases a <;> cases b <;> first | exact absurd rfl h | decide

theorem media_gives_none {line : Bytes} (h : isMedia line = true) (a : TransportValue) :
    givenBy a line = none := by
  refine if_neg ?_
  rw [markers_apart h (by cases a <;> decide) (by cases a <;> decide)]
  decide

theorem other_gives_none {a b : TransportValue} {line : Bytes}
    (h : b.marker.isPrefixOf line = true) (hne : a ≠ b) : givenBy a line = none := by
  refine if_neg ?_
  rw [markers_apart h (marker_apart hne.symm) (marker_apart hne)]
  decide

theorem visitMedia_field (ctx : ParseContext) (line : Bytes) (media : Nat) (a : TransportValue) :
    a.field (visitMedia ctx line media).offer = a.field ctx.offer := by
  unfold visitMedia
  split
  · rfl
  · cases a <;> rfl

theorem visitSection_field (offer : SdpOffer) (line : Bytes) (media : Nat) (a : TransportValue) :
    a.field (visitSection offer line media) = a.field offer := by
  unfold visitSection
  dsimp only
  split
  · split <;> cases a <;> rfl
  · split
    · split <;> cases a <;> rfl
    · split
      · split <;> cases a <;> rfl
      · rfl

/-- A line about `b` has been stored in its field. -/
theorem visit_value {offer offer' : SdpOffer} {line : Bytes} {b : TransportValue}
    (hb : b.marker.isPrefixOf line = true)
    (hset : ∀ a, a.field offer' =
      if a = b then copyValue line b.marker b.size else a.field offer) (a : TransportValue) :
    a.field offer' = ((givenBy a line).map (copyTo a.size)).getD (a.field offer) := by
  rw [hset]
  by_cases hab : a = b
  · subst hab
    rw [if_pos rfl, givenBy, if_pos hb]
    rfl
  · rw [if_neg hab, other_gives_none hb hab]
    rfl

/-- A line leaves its value in the field it is about. -/
theorem parseVisit_field (ctx : ParseContext) (line : Bytes) (media : Option Nat)
    (a : TransportValue) : a.field (parseVisit ctx line media).offer =
      ((givenBy a line).map (copyTo a.size)).getD (a.field ctx.offer) := by
  unfold parseVisit
  split
  · rename_i hmedia
    rw [visitMedia_field, media_gives_none hmedia]
    rfl
  · split
    · rename_i hufrag
      exact @visit_value _ _ _ .iceUfrag hufrag (fun a => by cases a <;> rfl) a
    · split
      · rename_i hpwd
        exact @visit_value _ _ _ .icePwd hpwd (fun a => by cases a <;> rfl) a
      · split
        · rename_i hfingerprint
          exact @visit_value _ _ _ .fingerprint hfingerprint (fun a => by cases a <;> rfl) a
        · split
          · rename_i hsetup
            exact @visit_value _ _ _ .setup hsetup (fun a => by cases a <;> rfl) a
          · rename_i hufrag hpwd hfingerprint hsetup
            have hnone : givenBy a line = none := by
              cases a
              · exact if_neg hufrag
              · exact if_neg hpwd
              · exact if_neg hfingerprint
              · exact if_neg hsetup
            rw [hnone]
            split
            · rfl
            · split
              · exact visitSection_field _ _ _ a
              · rfl

/-- The last value of a document stays. -/
theorem parseLines_field (ctx : ParseContext) (media : Option Nat) (lines : List Bytes)
    (a : TransportValue) : a.field (parseLines ctx media lines).offer =
      ((given a lines).map (copyTo a.size)).getD (a.field ctx.offer) := by
  induction lines generalizing ctx media with
  | nil => rfl
  | cons line lines ih =>
    have hone : given a [line] = givenBy a line := by
      rw [given, List.filterMap_cons]
      cases givenBy a line <;> rfl
    rw [parseLines, ih, parseVisit_field, ← List.singleton_append, given_append, hone]
    cases given a lines <;> rfl

theorem splitSections_lines (lines : List Bytes) :
    lines = (splitSections lines).1 ++ (splitSections lines).2.flatMap SdpSection.lines := by
  induction lines with
  | nil => rfl
  | cons line lines ih =>
    rw [splitSections]
    split
    · rw [List.nil_append, List.flatMap_cons, SdpSection.lines, List.cons_append, ← ih]
    · rw [List.cons_append, ← ih]

/-- The parts of an offer, in order. -/
theorem offerLines_parts (sdp : Bytes) : offerLines sdp =
    sessionPart sdp ++ ((beforeVideo sdp).flatMap SdpSection.lines ++
      (videoPart sdp ++ (behindVideo sdp).flatMap SdpSection.lines)) := by
  have hfrom : (fromVideo sdp).flatMap SdpSection.lines =
      videoPart sdp ++ (behindVideo sdp).flatMap SdpSection.lines := by
    unfold videoPart behindVideo
    cases fromVideo sdp <;> rfl
  have hall : (splitSections (offerLines sdp)).2 = beforeVideo sdp ++ fromVideo sdp :=
    List.takeWhile_append_dropWhile.symm
  rw [← hfrom, ← List.flatMap_append, ← hall]
  exact splitSections_lines _

/-- The last value of an offer overrides the one in effect. -/
theorem given_offer (sdp : Bytes) (a : TransportValue) :
    (given a (offerLines sdp)).getD [] = (overriding sdp a).getD (inEffect sdp a) := by
  rw [offerLines_parts, given_append, given_append, given_append, overriding, inEffect]
  cases given a ((behindVideo sdp).flatMap SdpSection.lines) <;>
    cases given a (videoPart sdp) <;>
    cases given a ((beforeVideo sdp).flatMap SdpSection.lines) <;> rfl

theorem size_pos (a : TransportValue) : 0 < a.size := by cases a <;> decide

theorem copyTo_eq_iff {size : Nat} (hsize : 0 < size) (text : Bytes) :
    copyTo size text = text ↔ text.length < size := by
  rw [copyTo, List.take_eq_self_iff]
  omega

/-- Cutting a value never makes room for the default. -/
theorem withDefault_cut (a : TransportValue) (value : Bytes) :
    withDefault a (copyTo a.size value) = withDefault a value ↔ value.length < a.size := by
  rw [← copyTo_eq_iff (size_pos a), withDefault, withDefault]
  split
  · rename_i hsetup
    subst hsetup
    cases value with
    | nil => simp [copyTo]
    | cons c value => rfl
  · exact Iff.rfl

/-- With short lines only, all of them are visited. -/
theorem visited_all {sdp : Bytes} (hshort : ∀ line ∈ documentLines sdp, line.length < 512) :
    sdpVisited sdp = offerLines sdp := by
  have hlines : sdpLines sdp = documentLines sdp := sdpLines_eq sdp
  have hkept : (documentLines sdp).filter (fun line => line.length < sdpLineMax) =
      documentLines sdp :=
    List.filter_eq_self.mpr fun line hline => decide_eq_true (hshort line hline)
  rw [sdpVisited, hlines, hkept]
  rfl

/-- The last value of a document, cut to its field. -/
theorem visitedOffer_field {sdp : Bytes} (hshort : ∀ line ∈ documentLines sdp, line.length < 512)
    (a : TransportValue) : a.field (visitedOffer sdp) =
      copyTo a.size ((overriding sdp a).getD (inEffect sdp a)) := by
  have hempty : a.field sdpEmptyOffer = [] := by cases a <;> rfl
  rw [visitedOffer, parseLines_field, visited_all hshort, hempty, ← given_offer]
  cases given a (offerLines sdp) with
  | none => simp [copyTo]
  | some value => rfl

/-- The stored value is the one in effect exactly when no other section disturbs it. -/
theorem stored_iff {sdp : Bytes} (hshort : ∀ line ∈ documentLines sdp, line.length < 512)
    (a : TransportValue) : withDefault a (a.field (visitedOffer sdp)) =
      withDefault a (inEffect sdp a) ↔ Undisturbed sdp a := by
  rw [visitedOffer_field hshort, Undisturbed]
  cases overriding sdp a with
  | none => exact withDefault_cut a _
  | some other => exact Iff.rfl

/-- Choosing a format leaves the transport alone. -/
theorem chooseH264_field (offer : SdpOffer) (a : TransportValue) :
    a.field (chooseH264 offer) = a.field offer := by
  have hrun : ∀ (formats : List SdpH264Format) (best : Nat × SdpOffer),
      a.field (formats.foldl (fun (best : Nat × SdpOffer) format =>
        if h264Rank format > best.1 then
          (h264Rank format, { best.2 with
            h264PayloadType := format.payloadType
            h264ProfileLevelId := copyTo 8 format.profileLevelId })
        else best) best).2 = a.field best.2 := by
    intro formats
    induction formats with
    | nil => exact fun _ => rfl
    | cons format formats ih =>
      intro best
      rw [List.foldl_cons, ih]
      split
      · cases a <;> rfl
      · rfl
  exact hrun offer.h264 (0, offer)

/-- An accepted offer has what its lines have left there, and the default setup. -/
theorem sdpParseOffer_field {sdp : Bytes} {offer : SdpOffer} (h : sdpParseOffer sdp = .ok offer)
    (a : TransportValue) : a.field offer = withDefault a (a.field (visitedOffer sdp)) := by
  unfold sdpParseOffer at h
  unfold visitedOffer
  generalize parseLines ⟨sdpEmptyOffer, false, false, false, false⟩ none (sdpVisited sdp) = ctx
    at h ⊢
  dsimp only at h
  split at h
  · cases h
  · split at h
    · cases h
    · split at h
      · cases h
      · split at h
        · cases h
        · split at h
          · split at h <;> cases h
          · generalize hsetup : (if (chooseH264 ctx.offer).setup.isEmpty then
              { chooseH264 ctx.offer with setup := ascii "actpass" }
              else chooseH264 ctx.offer) = chosen at h
            split at h
            · cases h
            · cases h
              rw [← hsetup, ← chooseH264_field ctx.offer a]
              split
              · rename_i hempty
                cases a <;> first | rfl | exact (if_pos hempty).symm
              · rename_i hempty
                cases a <;> first | rfl | exact (if_neg hempty).symm

/-- What an offer leaves in its transport fields, and what of it is accepted, is the value for
the first video section exactly when no other section disturbs it. -/
theorem stored_in_effect_iff {sdp : Bytes}
    (hshort : ∀ line ∈ documentLines sdp, line.length < 512) (a : TransportValue) :
    (withDefault a (a.field (visitedOffer sdp)) = withDefault a (inEffect sdp a) ↔
      Undisturbed sdp a) ∧
    ∀ offer, sdpParseOffer sdp = .ok offer →
      (a.field offer = withDefault a (inEffect sdp a) ↔ Undisturbed sdp a) := by
  refine ⟨stored_iff hshort a, fun offer hoffer => ?_⟩
  rw [sdpParseOffer_field hoffer a]
  exact stored_iff hshort a

/-- An offer with a video section and an application section that have certificates of their
own. -/
def twoCertificates (other : Bytes) : Bytes :=
  crlfText [ascii "v=0", ascii "o=- 1 2 IN IP4 127.0.0.1", ascii "s=-", ascii "t=0 0",
    ascii "a=ice-ufrag:u", ascii "a=ice-pwd:p", ascii "a=setup:actpass",
    ascii "m=video 9 UDP/TLS/RTP/SAVPF 102", ascii "a=mid:0",
    ascii "a=fingerprint:sha-256 00:11", ascii "a=rtpmap:102 H264/90000",
    ascii "a=fmtp:102 packetization-mode=1;profile-level-id=42e01f",
    ascii "m=application 9 UDP/DTLS/SCTP webrtc-datachannel", ascii "a=mid:1",
    ascii "a=fingerprint:sha-256 " ++ other]

theorem accepted_of_any {sdp : Bytes} {check : SdpOffer → Bool}
    (h : (sdpParseOffer sdp).toOption.any check = true) :
    ∃ offer, sdpParseOffer sdp = .ok offer ∧ check offer = true := by
  cases hparse : sdpParseOffer sdp with
  | error _ => rw [hparse] at h; cases h
  | ok offer => rw [hparse] at h; exact ⟨offer, rfl, h⟩

theorem stored_in_effect_iff_same : ∃ offer,
    sdpParseOffer (twoCertificates (ascii "00:11")) = .ok offer ∧
      offer.fingerprint = ascii "sha-256 00:11" := by
  obtain ⟨offer, hparse, -⟩ := @accepted_of_any (twoCertificates (ascii "00:11")) (fun _ => true)
    (by decide +kernel)
  have hoverriding : overriding (twoCertificates (ascii "00:11")) .fingerprint =
      some (ascii "sha-256 00:11") := by decide
  have heffect : inEffect (twoCertificates (ascii "00:11")) .fingerprint =
      ascii "sha-256 00:11" := by decide
  have hundisturbed : Undisturbed (twoCertificates (ascii "00:11")) .fingerprint := by
    rw [Undisturbed, hoverriding, heffect]
    rfl
  have hstored := ((stored_in_effect_iff (by decide) .fingerprint).2 offer hparse).mpr
    hundisturbed
  rw [heffect] at hstored
  exact ⟨offer, hparse, hstored⟩

/-- The certificate of the application section replaces that of the video section. -/
theorem other_certificate_stored : ∃ offer,
    sdpParseOffer (twoCertificates (ascii "AA:BB")) = .ok offer ∧
      (∀ line ∈ documentLines (twoCertificates (ascii "AA:BB")), line.length < 512) ∧
      inEffect (twoCertificates (ascii "AA:BB")) .fingerprint = ascii "sha-256 00:11" ∧
      offer.fingerprint = ascii "sha-256 AA:BB" := by
  obtain ⟨offer, hparse, hcheck⟩ := @accepted_of_any (twoCertificates (ascii "AA:BB"))
    (fun offer => offer.fingerprint = ascii "sha-256 AA:BB") (by decide +kernel)
  exact ⟨offer, hparse, by decide +kernel, by decide +kernel, of_decide_eq_true hcheck⟩

end Camstream.Proofs.SdpSections
