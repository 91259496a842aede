import Camstream.Proofs.FmtpItems

namespace Camstream.Proofs.FormatChoice
open Lib Webrtc SdpAnswer SdpMirror SdpSections FmtpItems

/-- The second word of an `a=rtpmap` line. -/
def encodingOf (line : Bytes) : Bytes :=
  firstToken (((line.drop 9).dropWhile (· = 32)).dropWhile (· ≠ 32))

/-- The encoding is H264 at a clock rate of 90000; parameters may follow. -/
def namesH264 (line : Bytes) : Bool :=
  encodingOf line == ascii "H264/90000" || (ascii "H264/90000/").isPrefixOf (encodingOf line)

/-- The payload type that an `a=rtpmap` line gives to H264/90000. -/
def h264Type (line : Bytes) : Option Int :=
  if (ascii "a=rtpmap:").isPrefixOf line ∧ namesH264 line = true ∧
      0 < atoi (line.drop 9) ∧ atoi (line.drop 9) < 128 then some (atoi (line.drop 9))
  else none

/-- The payload type that `parse_visit` takes from a line. -/
def acceptedType (line : Bytes) : Option Int :=
  if (ascii "a=rtpmap:").isPrefixOf line ∧ containsText line (ascii " H264/90000") = true ∧
      0 < atoi (line.drop 9) ∧ atoi (line.drop 9) < 128 then some (atoi (line.drop 9))
  else none

/-- No `a=rtpmap` line has the text of the encoding without naming it, as a rate of 900000
does. -/
def ExactRates (lines : List Bytes) : Prop :=
  ∀ line ∈ lines, (ascii "a=rtpmap:").isPrefixOf line = true →
    containsText line (ascii " H264/90000") = true → namesH264 line = true

instance (lines : List Bytes) : Decidable (ExactRates lines) := by
  unfold ExactRates
  infer_instance

/-- The H264 payload types of some lines, in the order of their first lines. -/
def h264Types (lines : List Bytes) : List Int := (lines.filterMap h264Type).eraseDups

/-- The payload type that an `a=fmtp` line is about. -/
def fmtpType (line : Bytes) : Option Int :=
  if (ascii "a=fmtp:").isPrefixOf line then some (atoi (line.drop 7)) else none

/-- The items of a line about `pt`: they stand behind its first blank. -/
def lineItems (pt : Int) (line : Bytes) : List Bytes :=
  if fmtpType line = some pt then fmtpItems ((line.dropWhile (· ≠ 32)).drop 1) else []

def itemsOf (lines : List Bytes) (pt : Int) : List Bytes := lines.flatMap (lineItems pt)

/-- A payload type has its `a=rtpmap` in front of its `a=fmtp`. -/
def RtpmapFirst (lines : List Bytes) : Prop :=
  ∀ i < lines.length, ∀ pt ∈ h264Types lines, (lines[i]?).bind fmtpType = some pt →
    pt ∈ h264Types (lines.take i)

instance (lines : List Bytes) : Decidable (RtpmapFirst lines) := by
  unfold RtpmapFirst
  infer_instance

/-- What a section says of a payload type. -/
def formatOf (lines : List Bytes) (pt : Int) : SdpH264Format :=
  ⟨pt, packetizationMode (itemsOf lines pt), (profileLevelId (itemsOf lines pt)).getD []⟩

/-- The class of a payload type; without packetization-mode=1 it cannot be used. -/
def classOf (lines : List Bytes) (pt : Int) : ProfileClass :=
  if packetizationMode (itemsOf lines pt) = 1 then profileClass (profileLevelId (itemsOf lines pt))
  else .unusable

/-- The formats after a line of the video section. -/
def noteFormat (formats : List SdpH264Format) (line : Bytes) : List SdpH264Format :=
  match acceptedType line with
  | some pt =>
    if formats.length < sdpMaxH264 ∧ pt ∉ formats.map SdpH264Format.payloadType then
      formats ++ [⟨pt, 0, []⟩]
    else formats
  | none =>
    match fmtpType line with
    | some pt => updateH264 formats pt fun format =>
        (fmtpItems ((line.dropWhile (· ≠ 32)).drop 1)).foldl noteItem format
    | none => formats

theorem updateH264_id {formats : List SdpH264Format} {pt : Int}
    {f : SdpH264Format → SdpH264Format} (h : ∀ format, f format = format) :
    updateH264 formats pt f = formats := by
  induction formats with
  | nil => rfl
  | cons format formats ih =>
    rw [updateH264, h, ih]
    split <;> rfl

theorem h264Format_none (offer : SdpOffer) (pt : Int) :
    h264Format offer pt = none ↔ pt ∉ offer.h264.map SdpH264Format.payloadType := by
  simp [h264Format, List.find?_eq_none]

/-- A line that names the encoding has its text. -/
theorem names_contains {line : Bytes} (h : namesH264 line = true) :
    containsText line (ascii " H264/90000") = true := by
  let rest := ((line.drop 9).dropWhile (· = 32)).dropWhile (· ≠ 32)
  have hword : ascii "H264/90000" <+: rest.dropWhile (· = 32) := by
    have hencoding : ascii "H264/90000" <+: encodingOf line := by
      rcases Bool.or_eq_true_iff.mp h with hsame | hlonger
      · rw [beq_iff_eq.mp hsame]
      · exact List.IsPrefix.trans ⟨ascii "/", rfl⟩ (List.isPrefixOf_iff_prefix.mp hlonger)
    exact hencoding.trans (List.takeWhile_prefix _)
  have hne : rest ≠ [] := by
    intro hnil
    rw [hnil] at hword
    exact absurd (List.prefix_nil.mp hword) (by decide)
  obtain ⟨c, more, hrest⟩ := List.exists_cons_of_ne_nil hne
  -- the first word ends at a blank
  have hblank : c = 32 := by
    have hhead := List.head?_dropWhile_not (· ≠ (32 : UInt8)) ((line.drop 9).dropWhile (· = 32))
    rw [show ((line.drop 9).dropWhile (· = 32)).dropWhile (· ≠ 32) = c :: more from hrest] at hhead
    simpa using hhead
  have hblanks : rest.takeWhile (· = 32) =
      List.replicate (more.takeWhile (· = 32)).length 32 ++ [32] := by
    rw [hrest, hblank, List.takeWhile_cons_of_pos (by simp), ← List.replicate_succ',
      List.replicate_succ]
    refine congrArg (32 :: ·) (List.eq_replicate_of_mem fun b hb => ?_)
    simpa using List.mem_takeWhile_imp hb
  obtain ⟨tail, htail⟩ := hword
  have hinside : ascii " H264/90000" <:+: rest := by
    refine ⟨List.replicate (more.takeWhile (· = 32)).length 32, tail, ?_⟩
    rw [← List.takeWhile_append_dropWhile (p := (· = 32)) (l := rest), hblanks, ← htail]
    simp [ascii]
  have hsuffix : rest <:+ line := by
    exact (List.dropWhile_suffix _).trans ((List.dropWhile_suffix _).trans (List.drop_suffix _ _))
  exact containsText_iff.mpr (hinside.trans hsuffix.isInfix)

theorem ExactRates.accepted {lines : List Bytes} (h : ExactRates lines) :
    ∀ line ∈ lines, acceptedType line = h264Type line := by
  intro line hline
  unfold acceptedType h264Type
  by_cases hrtpmap : (ascii "a=rtpmap:").isPrefixOf line = true
  · have hsame : containsText line (ascii " H264/90000") = namesH264 line := by
      rw [Bool.eq_iff_iff]
      exact ⟨h line hline hrtpmap, names_contains⟩
    rw [hsame]
  · rw [if_neg fun hall => hrtpmap hall.1, if_neg fun hall => hrtpmap hall.1]

/-- A line of the video section that is none of the lines for the whole offer. -/
theorem visitSection_h264 {offer : SdpOffer} {media : Nat} (hvideo : offer.videoMline = some media)
    (line : Bytes) : (visitSection offer line media).h264 = noteFormat offer.h264 line := by
  unfold visitSection
  dsimp only
  split
  · rename_i hmid
    have hrtpmap := @markers_apart _ (ascii "a=rtpmap:") _ hmid (by decide) (by decide)
    have hfmtp := @markers_apart _ (ascii "a=fmtp:") _ hmid (by decide) (by decide)
    have hsame : noteFormat offer.h264 line = offer.h264 := by
      unfold noteFormat acceptedType fmtpType
      rw [hrtpmap, hfmtp]
      rfl
    rw [hsame]
    split <;> rfl
  · by_cases hrtpmap : (ascii "a=rtpmap:").isPrefixOf line = true ∧
        containsText line (ascii " H264/90000") = true
    · have hfmtp : fmtpType line = none := by
        unfold fmtpType
        rw [@markers_apart _ (ascii "a=fmtp:") _ hrtpmap.1 (by decide) (by decide)]
        rfl
      have htest : (some media = offer.videoMline && (ascii "a=rtpmap:").isPrefixOf line &&
          containsText line (ascii " H264/90000")) = true := by
        simp [hvideo, hrtpmap]
      rw [if_pos htest]
      unfold noteFormat
      by_cases hrange : 0 < atoi (line.drop 9) ∧ atoi (line.drop 9) < 128
      · have htype : acceptedType line = some (atoi (line.drop 9)) :=
          if_pos ⟨hrtpmap.1, hrtpmap.2, hrange⟩
        rw [htype, apply_ite SdpOffer.h264]
        simp only [hrange.1, hrange.2, true_and, h264Format_none]
      · have htype : acceptedType line = none := if_neg fun h => hrange h.2.2
        rw [htype, hfmtp, if_neg fun h => hrange ⟨h.1, h.2.1⟩]
    · have htype : acceptedType line = none := if_neg fun h => hrtpmap ⟨h.1, h.2.1⟩
      have htest : (some media = offer.videoMline && (ascii "a=rtpmap:").isPrefixOf line &&
          containsText line (ascii " H264/90000")) = false := by
        simpa [hvideo] using hrtpmap
      rw [htest, if_neg Bool.false_ne_true]
      unfold noteFormat
      rw [htype]
      unfold fmtpType
      by_cases hfmtp : (ascii "a=fmtp:").isPrefixOf line = true
      · rw [if_pos (by simp [hvideo, hfmtp]), if_pos hfmtp]
        dsimp only
        split
        · rename_i hblank
          rw [hblank]
          exact (updateH264_id fun _ => rfl).symm
        · rename_i hblank
          rw [hblank]
          simp only [parseH264Fmtp_eq]
          rfl
      · rw [if_neg (by simp [hfmtp]), if_neg hfmtp]

/-- Every other line of the video section. -/
theorem parseVisit_h264 {ctx : ParseContext} {media : Nat}
    (hvideo : ctx.offer.videoMline = some media) (hmedia : media < sdpMaxMlines) {line : Bytes}
    (hline : isMedia line = false) :
    (parseVisit ctx line (some media)).offer.h264 = noteFormat ctx.offer.h264 line := by
  have hsame : ∀ a : TransportValue, a.marker.isPrefixOf line = true →
      noteFormat ctx.offer.h264 line = ctx.offer.h264 := by
    intro a ha
    have hrtpmap := @markers_apart _ (ascii "a=rtpmap:") _ ha (by cases a <;> decide)
      (by cases a <;> decide)
    have hfmtp := @markers_apart _ (ascii "a=fmtp:") _ ha (by cases a <;> decide)
      (by cases a <;> decide)
    unfold noteFormat acceptedType fmtpType
    rw [hrtpmap, hfmtp]
    rfl
  unfold parseVisit
  rw [show (ascii "m=").isPrefixOf line = false from hline, if_neg Bool.false_ne_true]
  split
  · exact (hsame .iceUfrag (by assumption)).symm
  · split
    · exact (hsame .icePwd (by assumption)).symm
    · split
      · exact (hsame .fingerprint (by assumption)).symm
      · split
        · exact (hsame .setup (by assumption)).symm
        · dsimp only
          rw [if_pos hmedia]
          exact visitSection_h264 hvideo line

theorem h264Types_snoc (lines : List Bytes) (line : Bytes) :
    h264Types (lines ++ [line]) = match h264Type line with
      | some pt => if pt ∈ h264Types lines then h264Types lines else h264Types lines ++ [pt]
      | none => h264Types lines := by
  unfold h264Types
  rw [List.filterMap_append]
  cases htype : h264Type line with
  | none => rw [List.filterMap_cons_none htype, List.filterMap_nil, List.append_nil]
  | some pt =>
    rw [List.filterMap_cons_some htype, List.filterMap_nil, List.eraseDups_append]
    dsimp only
    generalize lines.filterMap h264Type = types
    by_cases hm : pt ∈ types
    · rw [if_pos (List.mem_eraseDups.mpr hm)]
      simp [List.removeAll, hm]
    · rw [if_neg fun h => hm (List.mem_eraseDups.mp h)]
      simp [List.removeAll, hm, List.eraseDups_cons]

theorem h264Types_append_mem {xs : List Bytes} (ys : List Bytes) {pt : Int}
    (h : pt ∈ h264Types xs) : pt ∈ h264Types (xs ++ ys) := by
  unfold h264Types at h ⊢
  rw [List.mem_eraseDups] at h ⊢
  rw [List.filterMap_append]
  exact List.mem_append_left _ h

theorem h264Types_nodup (lines : List Bytes) : (h264Types lines).Nodup := by
  induction lines using List.reverseRecOn with
  | nil => exact List.nodup_nil
  | append_singleton lines line ih =>
    rw [h264Types_snoc]
    split
    · split
      · exact ih
      · rename_i pt _ hnew
        exact List.nodup_append'.mpr ⟨ih, List.nodup_singleton _, List.disjoint_singleton.mpr hnew⟩
    · exact ih

theorem itemsOf_snoc (lines : List Bytes) (line : Bytes) (pt : Int) :
    itemsOf (lines ++ [line]) pt = itemsOf lines pt ++ lineItems pt line := by
  unfold itemsOf
  rw [List.flatMap_append, List.flatMap_singleton]

theorem RtpmapFirst.front {xs ys : List Bytes} (h : RtpmapFirst (xs ++ ys)) : RtpmapFirst xs := by
  intro i hi pt hpt hline
  have hall := h i (by rw [List.length_append]; omega) pt (h264Types_append_mem ys hpt) (by
    rwa [List.getElem?_append_left hi])
  rwa [List.take_append_of_le_length (Nat.le_of_lt hi)] at hall

/-- A payload type that is new has no `a=fmtp` yet. -/
theorem new_without_items {lines : List Bytes} {line : Bytes} (h : RtpmapFirst (lines ++ [line]))
    {pt : Int} (htype : h264Type line = some pt) (hnew : pt ∉ h264Types lines) :
    itemsOf lines pt = [] := by
  unfold itemsOf
  rw [List.flatMap_eq_nil_iff]
  intro line' hline'
  refine if_neg fun hfmtp => hnew ?_
  obtain ⟨i, hi, rfl⟩ := List.mem_iff_getElem.mp hline'
  have hall : pt ∈ h264Types (lines ++ [line]) := by
    rw [h264Types_snoc, htype]
    dsimp only
    rw [if_neg hnew]
    exact List.mem_append_right _ List.mem_cons_self
  have hbefore := h i (by rw [List.length_append]; omega) pt hall (by
    rw [List.getElem?_append_left hi, List.getElem?_eq_getElem hi]
    exact hfmtp)
  rw [List.take_append_of_le_length (Nat.le_of_lt hi)] at hbefore
  have hwhole := h264Types_append_mem (lines.drop i) hbefore
  rwa [List.take_append_drop] at hwhole

theorem updateH264_map {types : List Int} (h : types.Nodup) {g : Int → SdpH264Format}
    (hg : ∀ pt, (g pt).payloadType = pt) (pt : Int) (f : SdpH264Format → SdpH264Format) :
    updateH264 (types.map g) pt f = types.map fun q => if q = pt then f (g q) else g q := by
  induction types with
  | nil => rfl
  | cons q types ih =>
    obtain ⟨hq, hrest⟩ := List.nodup_cons.mp h
    rw [List.map_cons, updateH264, hg, List.map_cons]
    by_cases heq : q = pt
    · subst heq
      rw [if_pos rfl, if_pos rfl]
      refine congrArg (f (g q) :: ·) (List.map_congr_left fun r hr => (if_neg ?_).symm)
      rintro rfl
      exact hq hr
    · rw [if_neg heq, if_neg heq, ih hrest]

/-- The items of a line are noted behind those of the lines before. -/
theorem formatOf_snoc (lines : List Bytes) {line : Bytes} {pt : Int}
    (hfmtp : fmtpType line = some pt) :
    (fmtpItems ((line.dropWhile (· ≠ 32)).drop 1)).foldl noteItem (formatOf lines pt) =
      formatOf (lines ++ [line]) pt := by
  have hitems : lineItems pt line = fmtpItems ((line.dropWhile (· ≠ 32)).drop 1) := if_pos hfmtp
  unfold formatOf
  rw [itemsOf_snoc, hitems, noteItems_eq]
  unfold packetizationMode profileLevelId
  rw [List.filterMap_append, List.filterMap_append, List.getLast?_append, List.getLast?_append]
  generalize fmtpItems ((line.dropWhile (· ≠ 32)).drop 1) = items
  cases (items.filterMap modeOf).getLast? <;> cases (items.filterMap levelOf).getLast? <;> rfl

theorem formatOf_other (lines : List Bytes) {line : Bytes} {pt : Int}
    (hfmtp : fmtpType line ≠ some pt) : formatOf (lines ++ [line]) pt = formatOf lines pt := by
  have hitems : lineItems pt line = [] := if_neg hfmtp
  unfold formatOf
  rw [itemsOf_snoc, hitems, List.append_nil]

/-- The lines of the video section leave the formats that they declare. -/
theorem formats_eq {lines : List Bytes} (hexact : ExactRates lines) (hfirst : RtpmapFirst lines)
    (hfew : (h264Types lines).length ≤ sdpMaxH264) :
    lines.foldl noteFormat [] = (h264Types lines).map (formatOf lines) := by
  induction lines using List.reverseRecOn with
  | nil => rfl
  | append_singleton lines line ih =>
    have hsnoc := h264Types_snoc lines line
    have hfront : ExactRates lines := fun l hl => hexact l (List.mem_append_left _ hl)
    have haccepted := hexact.accepted line (by simp)
    cases htype : h264Type line with
    | some pt =>
      have hfmtp : fmtpType line = none := by
        have hrtpmap : (ascii "a=rtpmap:").isPrefixOf line = true := by
          by_contra hnot
          rw [h264Type, if_neg fun h => hnot h.1] at htype
          cases htype
        unfold fmtpType
        rw [@markers_apart _ (ascii "a=fmtp:") _ hrtpmap (by decide) (by decide)]
        rfl
      have hsame : ∀ q, formatOf (lines ++ [line]) q = formatOf lines q := fun q =>
        formatOf_other lines (by rw [hfmtp]; exact fun h => nomatch h)
      have hnames : ((h264Types lines).map (formatOf lines)).map SdpH264Format.payloadType =
          h264Types lines := by
        rw [List.map_map]
        exact List.map_id _
      rw [htype] at hsnoc
      dsimp only at hsnoc
      have hpart : (h264Types lines).length ≤ sdpMaxH264 := by
        rw [hsnoc] at hfew
        split at hfew
        · exact hfew
        · rw [List.length_append] at hfew
          omega
      rw [List.foldl_append, ih hfront hfirst.front hpart, List.foldl_cons, List.foldl_nil]
      unfold noteFormat
      rw [haccepted, htype]
      dsimp only
      rw [hnames, List.length_map, hsnoc, List.map_congr_left fun q _ => hsame q]
      by_cases hm : pt ∈ h264Types lines
      · rw [if_neg fun h => h.2 hm, if_pos hm]
      · rw [hsnoc, if_neg hm, List.length_append] at hfew
        have hnone := new_without_items hfirst htype hm
        have hformat : formatOf lines pt = ⟨pt, 0, []⟩ := by
          unfold formatOf
          rw [hnone]
          rfl
        rw [if_pos ⟨Nat.lt_of_succ_le hfew, hm⟩, if_neg hm, List.map_append, List.map_singleton,
          hformat]
    | none =>
      rw [htype] at hsnoc
      dsimp only at hsnoc
      rw [hsnoc] at hfew ⊢
      rw [List.foldl_append, ih hfront hfirst.front hfew, List.foldl_cons, List.foldl_nil]
      unfold noteFormat
      rw [haccepted, htype]
      dsimp only
      cases hfmtp : fmtpType line with
      | none =>
        exact List.map_congr_left fun q _ =>
          (formatOf_other lines (by rw [hfmtp]; exact fun h => nomatch h)).symm
      | some pt =>
        dsimp only
        rw [updateH264_map (h264Types_nodup lines) fun _ => rfl]
        apply List.map_congr_left
        intro q _
        split
        · rename_i heq
          subst heq
          exact formatOf_snoc lines hfmtp
        · rename_i hne
          refine (formatOf_other lines ?_).symm
          rw [hfmtp]
          exact fun h => hne (Option.some.inj h).symm

/-- The number of `m=` lines in front of the next one, for the index of the last one. -/
def nextIndex (media : Option Nat) : Nat := media.elim 0 (· + 1)

def mediaAfter (media : Option Nat) (lines : List Bytes) : Option Nat :=
  lines.foldl (fun media line => nextMedia line media) media

theorem parseLines_append (ctx : ParseContext) (media : Option Nat) (xs ys : List Bytes) :
    parseLines ctx media (xs ++ ys) =
      parseLines (parseLines ctx media xs) (mediaAfter media xs) ys := by
  induction xs generalizing ctx media with
  | nil => rfl
  | cons line xs ih =>
    rw [List.cons_append, parseLines, ih]
    rfl

theorem nextIndex_after (media : Option Nat) (lines : List Bytes) :
    nextIndex (mediaAfter media lines) = nextIndex media + lines.countP isMedia := by
  induction lines generalizing media with
  | nil => rfl
  | cons line lines ih =>
    rw [mediaAfter, List.foldl_cons, ← mediaAfter, ih, List.countP_cons]
    unfold nextMedia
    rw [show (ascii "m=").isPrefixOf line = isMedia line from rfl]
    cases isMedia line <;> simp [nextIndex]
    omega

theorem visitMedia_h264 (ctx : ParseContext) (line : Bytes) (media : Nat) :
    (visitMedia ctx line media).offer.h264 = ctx.offer.h264 := by
  unfold visitMedia
  split <;> rfl

theorem parseVisit_media {line : Bytes} (h : isMedia line = true) (ctx : ParseContext) (media : Nat) :
    parseVisit ctx line (some media) = visitMedia ctx line media := by
  unfold parseVisit
  exact if_pos h

/-- A line that is no `m=` line leaves the sections as they are. -/
theorem parseVisit_sections {line : Bytes} (h : isMedia line = false) (ctx : ParseContext)
    (media : Option Nat) :
    (parseVisit ctx line media).offer.videoMline = ctx.offer.videoMline ∧
      (parseVisit ctx line media).tooManyMlines = ctx.tooManyMlines := by
  have hsection : ∀ media, (visitSection ctx.offer line media).videoMline = ctx.offer.videoMline := by
    intro media
    unfold visitSection
    dsimp only
    repeat' split
    all_goals rfl
  unfold parseVisit
  rw [show (ascii "m=").isPrefixOf line = false from h, if_neg Bool.false_ne_true]
  repeat' split
  all_goals first | exact ⟨rfl, rfl⟩ | exact ⟨hsection _, rfl⟩

/-- Outside the video section no line changes the formats. -/
theorem parseVisit_elsewhere {ctx : ParseContext} {media : Option Nat}
    (h : ∀ m, media = some m → ctx.offer.videoMline ≠ some m) (line : Bytes) :
    (parseVisit ctx line media).offer.h264 = ctx.offer.h264 := by
  have hsection : ∀ m, media = some m →
      (visitSection ctx.offer line m).h264 = ctx.offer.h264 := by
    intro m hm
    have hne : decide (some m = ctx.offer.videoMline) = false :=
      decide_eq_false fun he => h m hm he.symm
    unfold visitSection
    rw [hne]
    simp only [Bool.false_and, Bool.false_eq_true, if_false]
    repeat' split
    all_goals rfl
  unfold parseVisit
  split
  · exact visitMedia_h264 _ _ _
  · repeat' split
    all_goals first | rfl | exact hsection _ (by assumption) | exact hsection _ rfl

/-- A text that has room is not cut. -/
theorem copyTo_short {size : Nat} {short text : Bytes} (h : short.length + 1 < size) :
    copyTo size text = short ↔ text = short := by
  unfold copyTo
  constructor
  · intro he
    have hlen := congrArg List.length he
    rw [List.length_take] at hlen
    rwa [List.take_of_length_le (by omega)] at he
  · rintro rfl
    exact List.take_of_length_le (by omega)

/-- Without a video section no line finds one or changes the formats. -/
theorem early_lines {lines : List Bytes}
    (h : ∀ line ∈ lines, isMedia line = true → firstToken (line.drop 2) ≠ ascii "video")
    {ctx : ParseContext} (hnone : ctx.offer.videoMline = none) (media : Option Nat) :
    (parseLines ctx media lines).offer.videoMline = none ∧
      (parseLines ctx media lines).offer.h264 = ctx.offer.h264 := by
  induction lines generalizing ctx media with
  | nil => exact ⟨hnone, rfl⟩
  | cons line lines ih =>
    have hone : (parseVisit ctx line (nextMedia line media)).offer.videoMline = none := by
      cases hline : isMedia line with
      | false => rw [(parseVisit_sections hline _ _).1, hnone]
      | true =>
        have hkind := h line List.mem_cons_self hline
        have hnext : nextMedia line media = some (nextIndex media) := if_pos hline
        rw [hnext, parseVisit_media hline]
        unfold visitMedia
        split
        · exact hnone
        · refine (if_neg fun hvideo => hkind ?_).trans hnone
          have htoken := hvideo.2
          dsimp only at htoken
          rw [copyToken_zero] at htoken
          exact (copyTo_short (by decide)).mp htoken
    obtain ⟨hrest, hformats⟩ := ih (fun l hl => h l (List.mem_cons_of_mem line hl)) hone
      (nextMedia line media)
    rw [parseLines]
    refine ⟨hrest, hformats.trans (parseVisit_elsewhere ?_ line)⟩
    intro m _
    rw [hnone]
    exact (Option.some_ne_none m).symm

/-- Behind the video section neither does. -/
theorem later_lines {ctx : ParseContext} {m : Nat} (hvideo : ctx.offer.videoMline = some m)
    {lines : List Bytes} {j : Nat} (hj : m < j) :
    (parseLines ctx (some j) lines).offer.videoMline = some m ∧
      (parseLines ctx (some j) lines).offer.h264 = ctx.offer.h264 := by
  induction lines generalizing ctx j with
  | nil => exact ⟨hvideo, rfl⟩
  | cons line lines ih =>
    obtain ⟨k, hnext, hk⟩ : ∃ k, nextMedia line (some j) = some k ∧ m < k := by
      unfold nextMedia
      split
      · exact ⟨j + 1, rfl, Nat.lt_succ_of_lt hj⟩
      · exact ⟨j, rfl, hj⟩
    have hone : (parseVisit ctx line (some k)).offer.videoMline = some m := by
      cases hline : isMedia line with
      | false => rw [(parseVisit_sections hline _ _).1, hvideo]
      | true =>
        rw [parseVisit_media hline]
        unfold visitMedia
        split
        · exact hvideo
        · dsimp only
          rw [hvideo, if_neg fun h => nomatch h.1]
    obtain ⟨hrest, hformats⟩ := ih hone hk
    rw [parseLines, hnext]
    refine ⟨hrest, hformats.trans (parseVisit_elsewhere ?_ line)⟩
    intro i hi
    cases hi
    rw [hvideo]
    exact fun h => Nat.ne_of_lt hk (Option.some.inj h)

/-- In the video section the formats are noted line by line. -/
theorem video_lines {ctx : ParseContext} {m : Nat} (hvideo : ctx.offer.videoMline = some m)
    (hm : m < sdpMaxMlines) {lines : List Bytes} (hlines : ∀ line ∈ lines, isMedia line = false) :
    (parseLines ctx (some m) lines).offer.videoMline = some m ∧
      mediaAfter (some m) lines = some m ∧
      (parseLines ctx (some m) lines).offer.h264 = lines.foldl noteFormat ctx.offer.h264 := by
  induction lines generalizing ctx with
  | nil => exact ⟨hvideo, rfl, rfl⟩
  | cons line lines ih =>
    have hline := hlines line List.mem_cons_self
    have hnext : nextMedia line (some m) = some m := by
      unfold nextMedia
      exact if_neg (Bool.eq_false_iff.mp hline)
    obtain ⟨hrest, hafter, hformats⟩ := ih ((parseVisit_sections hline ctx (some m)).1.trans hvideo)
      fun l hl => hlines l (List.mem_cons_of_mem line hl)
    rw [parseLines, mediaAfter, List.foldl_cons, hnext, List.foldl_cons]
    exact ⟨hrest, hafter, hformats.trans (by rw [parseVisit_h264 hvideo hm hline])⟩

theorem splitSections_wellFormed (lines : List Bytes) :
    (∀ line ∈ (splitSections lines).1, isMedia line = false) ∧
      (∀ s ∈ (splitSections lines).2, isMedia s.head = true ∧ ∀ line ∈ s.body, isMedia line = false) ∧
      lines.countP isMedia = (splitSections lines).2.length := by
  induction lines with
  | nil => exact ⟨fun _ h => absurd h List.not_mem_nil, fun _ h => absurd h List.not_mem_nil, rfl⟩
  | cons line lines ih =>
    obtain ⟨hsession, hsections, hcount⟩ := ih
    rw [splitSections]
    split
    · rename_i hline
      refine ⟨fun _ h => absurd h List.not_mem_nil, ?_, ?_⟩
      · intro s hs
        rcases List.mem_cons.mp hs with rfl | hs
        · exact ⟨hline, hsession⟩
        · exact hsections s hs
      · rw [List.countP_cons_of_pos hline, hcount]
        rfl
    · rename_i hline
      refine ⟨?_, hsections, ?_⟩
      · intro l hl
        rcases List.mem_cons.mp hl with rfl | hl
        · exact Bool.eq_false_iff.mpr hline
        · exact hsession l hl
      · rw [List.countP_cons_of_neg hline, hcount]

/-- All lines in front of the video section. -/
def frontLines (sdp : Bytes) : List Bytes :=
  sessionPart sdp ++ (beforeVideo sdp).flatMap SdpSection.lines

theorem frontLines_none (sdp : Bytes) : ∀ line ∈ frontLines sdp, isMedia line = true →
    firstToken (line.drop 2) ≠ ascii "video" := by
  obtain ⟨hsession, hsections, -⟩ := splitSections_wellFormed (offerLines sdp)
  intro line hline hmedia hvideo
  rcases List.mem_append.mp hline with hline | hline
  · rw [hsession line hline] at hmedia
    cases hmedia
  · obtain ⟨s, hs, hline⟩ := List.mem_flatMap.mp hline
    have hother : s.isVideo = false := by
      have hnot := List.mem_takeWhile_imp hs
      simpa using hnot
    rcases List.mem_cons.mp hline with rfl | hline
    · exact beq_eq_false_iff_ne.mp hother hvideo
    · rw [(hsections s ((List.takeWhile_prefix _).subset hs)).2 line hline] at hmedia
      cases hmedia

/-- The number of sections decides whether there are too many. -/
theorem tooMany_iff (ctx : ParseContext) (media : Option Nat) (lines : List Bytes) :
    (parseLines ctx media lines).tooManyMlines = true ↔ ctx.tooManyMlines = true ∨
      0 < lines.countP isMedia ∧ sdpMaxMlines < nextIndex media + lines.countP isMedia := by
  induction lines generalizing ctx media with
  | nil => simp [parseLines]
  | cons line lines ih =>
    rw [parseLines, ih]
    cases hline : isMedia line with
    | false =>
      have hnext : nextMedia line media = media := if_neg (Bool.eq_false_iff.mp hline)
      rw [hnext, (parseVisit_sections hline ctx media).2,
        List.countP_cons_of_neg (Bool.eq_false_iff.mp hline)]
    | true =>
      have hnext : nextMedia line media = some (nextIndex media) := if_pos hline
      have hone : (visitMedia ctx line (nextIndex media)).tooManyMlines = true ↔
          ctx.tooManyMlines = true ∨ sdpMaxMlines ≤ nextIndex media := by
        unfold visitMedia
        split
        · simp only [true_iff]
          exact .inr (by assumption)
        · rename_i hroom
          exact ⟨.inl, fun h => h.resolve_right hroom⟩
      have hafter : nextIndex (some (nextIndex media)) = nextIndex media + 1 := rfl
      rw [hnext, parseVisit_media hline, hone, hafter, List.countP_cons_of_pos hline, or_assoc]
      apply or_congr_right
      omega

theorem behind_lines {ctx : ParseContext} {m : Nat} (hvideo : ctx.offer.videoMline = some m)
    {sections : List SdpSection} (hheads : ∀ s ∈ sections, isMedia s.head = true) :
    (parseLines ctx (some m) (sections.flatMap SdpSection.lines)).offer.videoMline = some m ∧
      (parseLines ctx (some m) (sections.flatMap SdpSection.lines)).offer.h264 = ctx.offer.h264 := by
  cases sections with
  | nil => exact ⟨hvideo, rfl⟩
  | cons s sections =>
    have hhead := hheads s List.mem_cons_self
    have hnext : nextMedia s.head (some m) = some (m + 1) := if_pos hhead
    have hone : (visitMedia ctx s.head (m + 1)).offer.videoMline = some m := by
      unfold visitMedia
      split
      · exact hvideo
      · dsimp only
        rw [hvideo, if_neg fun h => nomatch h.1]
    obtain ⟨hrest, hformats⟩ := @later_lines _ m hone
      (s.body ++ sections.flatMap SdpSection.lines) (m + 1) (Nat.lt_succ_self m)
    rw [List.flatMap_cons, SdpSection.lines, List.cons_append, parseLines, hnext,
      parseVisit_media hhead]
    exact ⟨hrest, hformats.trans (visitMedia_h264 _ _ _)⟩

/-- A section with its `m=` line. -/
theorem section_lines {ctx : ParseContext} {media : Option Nat}
    (hnone : ctx.offer.videoMline = none) (hroom : nextIndex media < sdpMaxMlines) {s : SdpSection}
    (hhead : isMedia s.head = true) (hbody : ∀ line ∈ s.body, isMedia line = false)
    (hvideo : s.isVideo = true) {behind : List SdpSection}
    (hheads : ∀ s ∈ behind, isMedia s.head = true) :
    let last := parseLines ctx media ((s :: behind).flatMap SdpSection.lines)
    last.offer.videoMline = some (nextIndex media) ∧
      last.offer.h264 = s.body.foldl noteFormat ctx.offer.h264 := by
  have hnext : nextMedia s.head media = some (nextIndex media) := if_pos hhead
  have hone : (visitMedia ctx s.head (nextIndex media)).offer.videoMline =
      some (nextIndex media) := by
    have hkind : copyToken (s.head.drop 2) 0 16 = ascii "video" := by
      rw [copyToken_zero]
      exact (copyTo_short (by decide)).mpr (beq_iff_eq.mp hvideo)
    unfold visitMedia
    rw [if_neg (Nat.not_le_of_lt hroom)]
    exact if_pos ⟨hnone, hkind⟩
  obtain ⟨hfound, hafter, hformats⟩ := video_lines hone hroom hbody
  obtain ⟨hlast, hsame⟩ := behind_lines hfound hheads
  intro last
  unfold last
  rw [List.flatMap_cons, SdpSection.lines, List.cons_append, parseLines, hnext,
    parseVisit_media hhead, parseLines_append, hafter]
  exact ⟨hlast, hsame.trans (hformats.trans (by rw [visitMedia_h264]))⟩

/-- An `m=` line declares no format. -/
theorem noteFormat_media {line : Bytes} (h : isMedia line = true) (formats : List SdpH264Format) :
    noteFormat formats line = formats := by
  have hrtpmap := @markers_apart _ (ascii "a=rtpmap:") _ h (by decide) (by decide)
  have hfmtp := @markers_apart _ (ascii "a=fmtp:") _ h (by decide) (by decide)
  unfold noteFormat acceptedType fmtpType
  rw [hrtpmap, hfmtp]
  rfl

/-- What a document with few sections leaves in the offer. -/
theorem visited_formats {sdp : Bytes} (hshort : ∀ line ∈ documentLines sdp, line.length < 512)
    (hroom : (splitSections (offerLines sdp)).2.length ≤ sdpMaxMlines) :
    ((visitedOffer sdp).videoMline = none ↔ fromVideo sdp = []) ∧
      (visitedOffer sdp).h264 = (videoPart sdp).foldl noteFormat [] := by
  obtain ⟨-, hsections, hcount⟩ := splitSections_wellFormed (offerLines sdp)
  have hparts : offerLines sdp = frontLines sdp ++ (fromVideo sdp).flatMap SdpSection.lines := by
    have hall : (splitSections (offerLines sdp)).2 = beforeVideo sdp ++ fromVideo sdp :=
      List.takeWhile_append_dropWhile.symm
    unfold frontLines
    rw [List.append_assoc, ← List.flatMap_append, ← hall]
    exact splitSections_lines _
  obtain ⟨hnone, hempty⟩ := @early_lines _ (frontLines_none sdp)
    ⟨sdpEmptyOffer, false, false, false, false⟩ rfl none
  unfold visitedOffer videoPart
  rw [visited_all hshort, hparts, parseLines_append]
  cases hfrom : fromVideo sdp with
  | nil => exact ⟨iff_of_true hnone rfl, hempty⟩
  | cons s behind =>
    have hvideo : s.isVideo = true := by
      have hhead := List.head?_dropWhile_not (fun s : SdpSection => !s.isVideo)
        (splitSections (offerLines sdp)).2
      rw [show (splitSections (offerLines sdp)).2.dropWhile (fun s => !s.isVideo) = s :: behind
        from hfrom] at hhead
      simpa using hhead
    have hmem : ∀ t ∈ s :: behind, t ∈ (splitSections (offerLines sdp)).2 := fun t ht =>
      (List.dropWhile_suffix _).mem (hfrom ▸ ht)
    have hbody := hsections s (hmem s List.mem_cons_self)
    have hindex : nextIndex (mediaAfter none (frontLines sdp)) < sdpMaxMlines := by
      have hall := congrArg (List.countP isMedia) hparts
      rw [hcount, List.countP_append, hfrom, List.flatMap_cons, SdpSection.lines, List.cons_append,
        List.countP_cons_of_pos hbody.1] at hall
      rw [nextIndex_after]
      change 0 + _ < _
      omega
    obtain ⟨hfound, hformats⟩ := section_lines hnone hindex hbody.1 hbody.2 hvideo
      fun t ht => (hsections t (hmem t (List.mem_cons_of_mem s ht))).1
    refine ⟨iff_of_false (by rw [hfound]; exact Option.some_ne_none _) (List.cons_ne_nil _ _), ?_⟩
    rw [hformats, hempty]
    change _ = (s.head :: s.body).foldl noteFormat []
    rw [List.foldl_cons, noteFormat_media hbody.1]
    rfl

/-- The test that `sdp_parse_offer` makes of a value; a setup may be absent. -/
def TransportValue.found (ctx : ParseContext) : TransportValue → Bool
  | .iceUfrag => ctx.haveUfrag
  | .icePwd => ctx.havePwd
  | .fingerprint => ctx.haveFingerprint
  | .setup => true

theorem parseVisit_found (ctx : ParseContext) (line : Bytes) (media : Option Nat)
    {a : TransportValue} (ha : a ≠ .setup) : TransportValue.found (parseVisit ctx line media) a =
      (TransportValue.found ctx a || (givenBy a line).isSome) := by
  have hgiven : ∀ b : TransportValue, b.marker.isPrefixOf line = true →
      (givenBy a line).isSome = decide (a = b) := by
    intro b hb
    by_cases hab : a = b
    · subst hab
      rw [givenBy, if_pos hb]
      exact (decide_eq_true rfl).symm
    · rw [other_gives_none hb hab]
      exact (decide_eq_false hab).symm
  unfold parseVisit
  split
  · rename_i hmedia
    rw [media_gives_none hmedia]
    unfold visitMedia
    split <;> cases a <;> simp [TransportValue.found]
  · split
    · rename_i hb
      rw [hgiven .iceUfrag hb]
      cases a <;> simp [TransportValue.found]
    · split
      · rename_i hb
        rw [hgiven .icePwd hb]
        cases a <;> simp [TransportValue.found]
      · split
        · rename_i hb
          rw [hgiven .fingerprint hb]
          cases a <;> simp [TransportValue.found]
        · split
          · rename_i hb
            rw [hgiven .setup hb]
            cases a <;> simp [TransportValue.found]
          · rename_i hufrag hpwd hfingerprint _
            have hnone : givenBy a line = none := by
              cases a with
              | iceUfrag => exact if_neg hufrag
              | icePwd => exact if_neg hpwd
              | fingerprint => exact if_neg hfingerprint
              | setup => exact absurd rfl ha
            rw [hnone]
            repeat' split
            all_goals cases a <;> simp [TransportValue.found]

/-- A value is found exactly when a line gives it. -/
theorem parseLines_found (ctx : ParseContext) (media : Option Nat) (lines : List Bytes)
    {a : TransportValue} (ha : a ≠ .setup) : TransportValue.found (parseLines ctx media lines) a =
      (TransportValue.found ctx a || (given a lines).isSome) := by
  induction lines generalizing ctx media with
  | nil => exact (Bool.or_false _).symm
  | cons line lines ih =>
    have hone : given a [line] = givenBy a line := by
      rw [given, List.filterMap_cons]
      cases givenBy a line <;> rfl
    rw [parseLines, ih, parseVisit_found _ _ _ ha, ← List.singleton_append, given_append, hone,
      Bool.or_assoc]
    cases given a lines <;> cases givenBy a line <;> rfl

theorem parseLines_unchosen (ctx : ParseContext) (media : Option Nat) (lines : List Bytes) :
    (parseLines ctx media lines).offer.h264PayloadType = ctx.offer.h264PayloadType := by
  have hsection : ∀ (offer : SdpOffer) (line : Bytes) (m : Nat),
      (visitSection offer line m).h264PayloadType = offer.h264PayloadType := by
    intro offer line m
    unfold visitSection
    dsimp only
    repeat' split
    all_goals rfl
  induction lines generalizing ctx media with
  | nil => rfl
  | cons line lines ih =>
    rw [parseLines, ih]
    unfold parseVisit
    split
    · unfold visitMedia
      split <;> rfl
    · repeat' split
      all_goals first | rfl | exact hsection _ _ _

/-- The offer with a chosen format. -/
def withFormat (offer : SdpOffer) (format : SdpH264Format) : SdpOffer :=
  { offer with
    h264PayloadType := format.payloadType
    h264ProfileLevelId := copyTo 8 format.profileLevelId }

/-- The format that a list starts its best rank with. -/
def FirstBest {α : Type} (rank : α → Nat) (l : List α) (x : α) : Prop :=
  ∃ before after, l = before ++ x :: after ∧ 0 < rank x ∧ (∀ y ∈ before, rank y < rank x) ∧
    ∀ y ∈ after, rank y ≤ rank x

theorem FirstBest.of_map {α β : Type} {rank : β → Nat} {f : α → β} {l : List α} {y : β}
    (h : FirstBest rank (l.map f) y) : ∃ x, f x = y ∧ FirstBest (fun x => rank (f x)) l x := by
  obtain ⟨before, after, hl, hpos, hbefore, hafter⟩ := h
  obtain ⟨before, rest, rfl, rfl, hrest⟩ := List.map_eq_append_iff.mp hl
  obtain ⟨x, after, rfl, rfl, rfl⟩ := List.map_eq_cons_iff.mp hrest
  exact ⟨x, rfl, before, after, rfl, hpos, fun y hy => hbefore _ (List.mem_map_of_mem hy),
    fun y hy => hafter _ (List.mem_map_of_mem hy)⟩

theorem FirstBest.unique {α : Type} {rank : α → Nat} {l : List α} {x y : α}
    (hx : FirstBest rank l x) (hy : FirstBest rank l y) : x = y := by
  obtain ⟨before, after, rfl, -, hbefore, hafter⟩ := hx
  obtain ⟨before', after', hl, -, hbefore', hafter'⟩ := hy
  rcases List.append_eq_append_iff.mp hl with ⟨gap, rfl, hrest⟩ | ⟨gap, rfl, hrest⟩
  · cases gap with
    | nil => exact (List.cons.inj hrest).1
    | cons z gap =>
      obtain ⟨rfl, rfl⟩ := List.cons.inj hrest
      have hless := hbefore' x (by simp)
      have hmost := hafter y (by simp)
      omega
  · cases gap with
    | nil => exact (List.cons.inj hrest).1.symm
    | cons z gap =>
      obtain ⟨rfl, rfl⟩ := List.cons.inj hrest
      have hless := hbefore y (by simp)
      have hmost := hafter' x (by simp)
      omega

/-- The loop of `choose_h264` over some of the formats. -/
theorem choose_run (formats : List SdpH264Format) (offer : SdpOffer) :
    let last := formats.foldl (fun (best : Nat × SdpOffer) format =>
      if h264Rank format > best.1 then
        (h264Rank format, { best.2 with
          h264PayloadType := format.payloadType
          h264ProfileLevelId := copyTo 8 format.profileLevelId })
      else best) (0, offer)
    last = (0, offer) ∧ (∀ format ∈ formats, h264Rank format = 0) ∨
      ∃ format, FirstBest h264Rank formats format ∧
        last = (h264Rank format, withFormat offer format) := by
  induction formats using List.reverseRecOn with
  | nil => exact .inl ⟨rfl, fun _ h => absurd h List.not_mem_nil⟩
  | append_singleton formats format ih =>
    dsimp only at ih ⊢
    rw [List.foldl_append, List.foldl_cons, List.foldl_nil]
    rcases ih with ⟨hlast, hzero⟩ | ⟨best, ⟨before, after, rfl, hpos, hbefore, hafter⟩, hlast⟩
    · rw [hlast]
      by_cases hrank : h264Rank format > 0
      · right
        refine ⟨format, ⟨formats, [], rfl, hrank, ?_, fun _ h => absurd h List.not_mem_nil⟩,
          if_pos hrank⟩
        intro other hother
        rw [hzero other hother]
        exact hrank
      · left
        refine ⟨if_neg hrank, ?_⟩
        intro other hother
        rcases List.mem_append.mp hother with hother | hother
        · exact hzero other hother
        · rw [List.mem_singleton.mp hother]
          exact Nat.eq_zero_of_not_pos hrank
    · right
      rw [hlast]
      by_cases hrank : h264Rank format > h264Rank best
      · refine ⟨format, ⟨before ++ best :: after, [], rfl, Nat.lt_trans hpos hrank, ?_,
          fun _ h => absurd h List.not_mem_nil⟩, if_pos hrank⟩
        intro other hother
        rcases List.mem_append.mp hother with hother | hother
        · exact Nat.lt_trans (hbefore other hother) hrank
        · rcases List.mem_cons.mp hother with rfl | hother
          · exact hrank
          · exact Nat.lt_of_le_of_lt (hafter other hother) hrank
      · refine ⟨best, ⟨before, after ++ [format], by simp, hpos, hbefore, ?_⟩, if_neg hrank⟩
        intro other hother
        rcases List.mem_append.mp hother with hother | hother
        · exact hafter other hother
        · rw [List.mem_singleton.mp hother]
          exact Nat.le_of_not_lt hrank

/-- The choice over all formats of an offer. -/
theorem chooseH264_cases (offer : SdpOffer) :
    chooseH264 offer = offer ∧ (∀ format ∈ offer.h264, h264Rank format = 0) ∨
      ∃ format, FirstBest h264Rank offer.h264 format ∧
        chooseH264 offer = withFormat offer format := by
  rcases choose_run offer.h264 offer with ⟨hlast, hzero⟩ | ⟨format, hbest, hlast⟩
  · exact .inl ⟨congrArg Prod.snd hlast, hzero⟩
  · exact .inr ⟨format, hbest, congrArg Prod.snd hlast⟩

/-- The error texts for want of a codec. -/
inductive CodecError : String → Prop
  | noCodec : CodecError
      "offer advertises no H264/90000 video codec (browser without H264 support?)"
  | noProfile (n : Nat) : CodecError
      ("offer has H264 but no packetization-mode=1 baseline profile (" ++ toString n ++
        " H264 formats offered)")

def CodecFailure (result : Except String SdpOffer) : Prop :=
  ∃ text, CodecError text ∧ result = .error text

theorem CodecError.start {text : String} (h : CodecError text) :
    text.toList.take 11 = "offer adver".toList ∨ text.toList.take 11 = "offer has H".toList := by
  cases h with
  | noCodec => exact .inl (by decide)
  | noProfile n =>
    right
    rw [String.toList_append, String.toList_append, List.append_assoc,
      List.take_append_of_le_length (by decide)]
    decide

/-- The checks before the codec pass. -/
structure CodecReached (sdp : Bytes) : Prop where
  sections : (splitSections (offerLines sdp)).2.length ≤ sdpMaxMlines
  transport : ∀ a ≠ .setup, (given a (offerLines sdp)).isSome = true
  video : fromVideo sdp ≠ []

/-- The rest of `sdp_parse_offer`, with the chosen format. -/
def codecStage (offer : SdpOffer) : Except String SdpOffer :=
  if offer.h264PayloadType < 0 then
    if offer.h264.length > 0 then
      .error ("offer has H264 but no packetization-mode=1 baseline profile (" ++
        toString offer.h264.length ++ " H264 formats offered)")
    else
      .error "offer advertises no H264/90000 video codec (browser without H264 support?)"
  else
    let offer := if offer.setup.isEmpty then { offer with setup := ascii "actpass" } else offer
    if offer.setup = ascii "passive" then
      .error ("offer requests setup:passive; camstream always answers setup:passive and needs " ++
        "a DTLS client")
    else .ok offer

theorem other_error {text : String} (h : text.toList.take 11 ≠ "offer adver".toList ∧
    text.toList.take 11 ≠ "offer has H".toList) : ¬CodecError text := by
  intro herror
  rcases herror.start with hstart | hstart
  · exact h.1 hstart
  · exact h.2 hstart

section Stages
variable {sdp : Bytes} (hshort : ∀ line ∈ documentLines sdp, line.length < 512)
include hshort

/-- What the first checks of `sdp_parse_offer` look at. -/
theorem first_checks :
    let ctx := parseLines ⟨sdpEmptyOffer, false, false, false, false⟩ none (sdpVisited sdp)
    (ctx.tooManyMlines = true ↔ sdpMaxMlines < (splitSections (offerLines sdp)).2.length) ∧
      ctx.haveUfrag = (given .iceUfrag (offerLines sdp)).isSome ∧
      ctx.havePwd = (given .icePwd (offerLines sdp)).isSome ∧
      ctx.haveFingerprint = (given .fingerprint (offerLines sdp)).isSome := by
  intro ctx
  unfold ctx
  rw [visited_all hshort]
  refine ⟨?_, ?_, ?_, ?_⟩
  · rw [tooMany_iff, (splitSections_wellFormed _).2.2]
    simp only [Bool.false_eq_true, false_or, nextIndex, Option.elim_none, Nat.zero_add,
      and_iff_right_iff_imp]
    exact fun h => Nat.lt_of_le_of_lt (Nat.zero_le _) h
  · exact @parseLines_found ⟨sdpEmptyOffer, false, false, false, false⟩ none _ .iceUfrag (by decide)
  · exact @parseLines_found ⟨sdpEmptyOffer, false, false, false, false⟩ none _ .icePwd (by decide)
  · exact @parseLines_found ⟨sdpEmptyOffer, false, false, false, false⟩ none _ .fingerprint
      (by decide)

theorem sdpParseOffer_reached (h : CodecReached sdp) :
    sdpParseOffer sdp = codecStage (chooseH264 (visitedOffer sdp)) := by
  obtain ⟨hmany, hufrag, hpwd, hfingerprint⟩ := first_checks hshort
  have hvideo := fun hnone => h.video ((visited_formats hshort h.sections).1.mp hnone)
  rw [h.transport _ (by decide)] at hufrag hpwd hfingerprint
  unfold sdpParseOffer codecStage
  unfold visitedOffer at hvideo ⊢
  generalize parseLines ⟨sdpEmptyOffer, false, false, false, false⟩ none (sdpVisited sdp) = ctx
    at hmany hufrag hpwd hfingerprint hvideo ⊢
  dsimp only
  rw [if_neg fun hm => Nat.not_lt_of_le h.sections (hmany.mp hm), hufrag, hpwd, hfingerprint,
    if_neg (by decide), if_neg (by decide), if_neg hvideo]

theorem sdpParseOffer_unreached (h : ¬CodecReached sdp) :
    ∃ text, sdpParseOffer sdp = .error text ∧ ¬CodecError text := by
  obtain ⟨hmany, hufrag, hpwd, hfingerprint⟩ := first_checks hshort
  have hvideo := fun hroom => (visited_formats hshort hroom).1.mpr
  unfold sdpParseOffer
  unfold visitedOffer at hvideo
  generalize parseLines ⟨sdpEmptyOffer, false, false, false, false⟩ none (sdpVisited sdp) = ctx
    at hmany hufrag hpwd hfingerprint hvideo ⊢
  dsimp only
  split
  · exact ⟨_, rfl, other_error (by decide)⟩
  · rename_i hroom
    have hsections := Nat.le_of_not_lt fun hm => hroom (hmany.mpr hm)
    split
    · exact ⟨_, rfl, other_error (by decide)⟩
    · rename_i hcredentials
      split
      · exact ⟨_, rfl, other_error (by decide)⟩
      · rename_i hprint
        split
        · exact ⟨_, rfl, other_error (by decide)⟩
        · rename_i hfound
          rw [hufrag, hpwd] at hcredentials
          rw [hfingerprint] at hprint
          simp only [Bool.or_eq_true, Bool.not_eq_true', not_or, Bool.not_eq_false] at hcredentials
          rw [Bool.not_eq_true', Bool.not_eq_false] at hprint
          refine absurd ⟨hsections, ?_, fun hempty => hfound (hvideo hsections hempty)⟩ h
          intro a ha
          cases a with
          | iceUfrag => exact hcredentials.1
          | icePwd => exact hcredentials.2
          | fingerprint => exact hprint
          | setup => exact absurd rfl ha

end Stages

theorem codecStage_failure (offer : SdpOffer) :
    CodecFailure (codecStage offer) ↔ offer.h264PayloadType < 0 := by
  unfold codecStage
  split
  · rename_i hnone
    refine iff_of_true ?_ hnone
    split
    · exact ⟨_, .noProfile _, rfl⟩
    · exact ⟨_, .noCodec, rfl⟩
  · rename_i hchosen
    refine iff_of_false ?_ hchosen
    rintro ⟨text, herror, hresult⟩
    revert hresult
    generalize (if offer.setup.isEmpty = true then { offer with setup := ascii "actpass" }
      else offer) = chosen
    intro hresult
    dsimp only at hresult
    split at hresult
    · have htext := Except.error.inj hresult
      rcases herror.start with hstart | hstart <;>
        · rw [← htext] at hstart
          revert hstart
          decide
    · cases hresult

theorem codecStage_ok {chosen offer : SdpOffer} (h : codecStage chosen = .ok offer) :
    ¬chosen.h264PayloadType < 0 ∧ offer.h264PayloadType = chosen.h264PayloadType ∧
      offer.h264ProfileLevelId = chosen.h264ProfileLevelId := by
  unfold codecStage at h
  split at h
  · split at h <;> cases h
  · rename_i hchosen
    refine ⟨hchosen, ?_⟩
    generalize hsetup : (if chosen.setup.isEmpty = true then { chosen with setup := ascii "actpass" }
      else chosen) = full at h
    dsimp only at h
    split at h
    · cases h
    · cases h
      rw [← hsetup]
      split <;> exact ⟨rfl, rfl⟩

theorem profileLevelId_length (items : List Bytes) : ∀ level ∈ profileLevelId items,
    level.length = 6 := by
  intro level hlevel
  obtain ⟨item, -, hitem⟩ := List.mem_filterMap.mp (List.mem_of_getLast? hlevel)
  unfold levelOf at hitem
  split at hitem
  · rename_i hlength
    rw [← Option.some.inj hitem, List.length_drop, hlength.2]
  · cases hitem

theorem formatOf_rank (lines : List Bytes) (pt : Int) :
    h264Rank (formatOf lines pt) = (classOf lines pt).rank := by
  unfold formatOf classOf
  rw [h264Rank_eq _ _ (profileLevelId_length _)]
  split <;> rfl

theorem h264Types_pos {lines : List Bytes} {pt : Int} (h : pt ∈ h264Types lines) : 0 < pt := by
  obtain ⟨line, -, hline⟩ := List.mem_filterMap.mp (List.mem_eraseDups.mp h)
  unfold h264Type at hline
  split at hline
  · rename_i hrange
    rw [← Option.some.inj hline]
    exact hrange.2.2.1
  · cases hline

/-- A payload type that can be used, the first one of the best class. -/
def Chosen (lines : List Bytes) (pt : Int) : Prop :=
  FirstBest (fun pt => (classOf lines pt).rank) (h264Types lines) pt

theorem chosen_usable {lines : List Bytes} {pt : Int} (h : Chosen lines pt) :
    pt ∈ h264Types lines ∧ classOf lines pt ≠ .unusable := by
  obtain ⟨before, after, hl, hpos, -⟩ := h
  refine ⟨by rw [hl]; simp, fun hclass => ?_⟩
  dsimp only at hpos
  rw [hclass] at hpos
  exact absurd hpos (by decide)

/-- The format that a document chooses, if there is one. -/
theorem visited_choice {sdp : Bytes} (hshort : ∀ line ∈ documentLines sdp, line.length < 512)
    (hexact : ExactRates (videoPart sdp)) (hfew : (h264Types (videoPart sdp)).length ≤ sdpMaxH264)
    (hfirst : RtpmapFirst (videoPart sdp))
    (hroom : (splitSections (offerLines sdp)).2.length ≤ sdpMaxMlines) :
    let offer := chooseH264 (visitedOffer sdp)
    (∀ pt ∈ h264Types (videoPart sdp), classOf (videoPart sdp) pt = .unusable) ∧
        offer.h264PayloadType = -1 ∨
      Chosen (videoPart sdp) offer.h264PayloadType ∧ offer.h264ProfileLevelId =
        (profileLevelId (itemsOf (videoPart sdp) offer.h264PayloadType)).getD [] := by
  have hformats := (visited_formats hshort hroom).2
  rw [formats_eq hexact hfirst hfew] at hformats
  intro offer
  rcases chooseH264_cases (visitedOffer sdp) with ⟨hsame, hzero⟩ | ⟨format, hbest, hchosen⟩
  · left
    refine ⟨?_, (congrArg SdpOffer.h264PayloadType hsame).trans (parseLines_unchosen _ _ _)⟩
    intro pt hpt
    have hrank := hzero (formatOf (videoPart sdp) pt) (hformats ▸ List.mem_map_of_mem hpt)
    rw [formatOf_rank] at hrank
    cases hclass : classOf (videoPart sdp) pt with
    | unusable => rfl
    | unspecified | baseline | constrainedBaseline =>
      rw [hclass] at hrank
      cases hrank
  · right
    rw [hformats] at hbest
    obtain ⟨pt, rfl, hfirst⟩ := hbest.of_map
    have hlevel : ((profileLevelId (itemsOf (videoPart sdp) pt)).getD []).length ≤ 6 := by
      cases h : profileLevelId (itemsOf (videoPart sdp) pt) with
      | none => exact Nat.zero_le 6
      | some level => exact Nat.le_of_eq (profileLevelId_length _ level h)
    unfold offer
    rw [hchosen]
    refine ⟨?_, List.take_of_length_le (Nat.le_succ_of_le hlevel)⟩
    simp only [formatOf_rank] at hfirst
    exact hfirst

/-- An offer fails for want of a codec exactly when no H264 payload type of its video section
can be used, and an accepted one gets the first of the best class. -/
theorem choice_or_failure {sdp : Bytes} (hshort : ∀ line ∈ documentLines sdp, line.length < 512)
    (hexact : ExactRates (videoPart sdp)) (hfew : (h264Types (videoPart sdp)).length ≤ sdpMaxH264)
    (hfirst : RtpmapFirst (videoPart sdp)) :
    (CodecFailure (sdpParseOffer sdp) ↔ CodecReached sdp ∧
      ¬∃ pt ∈ h264Types (videoPart sdp), classOf (videoPart sdp) pt ≠ .unusable) ∧
    ∀ offer, sdpParseOffer sdp = .ok offer →
      Chosen (videoPart sdp) offer.h264PayloadType ∧ offer.h264ProfileLevelId =
        (profileLevelId (itemsOf (videoPart sdp) offer.h264PayloadType)).getD [] := by
  by_cases hreached : CodecReached sdp
  · have hstage := sdpParseOffer_reached hshort hreached
    rw [hstage, codecStage_failure]
    rcases visited_choice hshort hexact hfew hfirst hreached.sections with
      ⟨hnone, hpt⟩ | ⟨hbest, hlevel⟩
    · constructor
      · refine iff_of_true (by rw [hpt]; decide) ⟨hreached, ?_⟩
        rintro ⟨pt, hm, husable⟩
        exact husable (hnone pt hm)
      · intro offer hoffer
        refine absurd ?_ (codecStage_ok hoffer).1
        rw [hpt]
        decide
    · obtain ⟨hm, husable⟩ := chosen_usable hbest
      constructor
      · refine iff_of_false (fun hneg => ?_) (fun h => h.2 ⟨_, hm, husable⟩)
        exact absurd hneg (Int.not_lt.mpr (Int.le_of_lt (h264Types_pos hm)))
      · intro offer hoffer
        obtain ⟨-, hpt, hsame⟩ := codecStage_ok hoffer
        rw [hpt, hsame]
        exact ⟨hbest, hlevel⟩
  · obtain ⟨text, hresult, hother⟩ := sdpParseOffer_unreached hshort hreached
    rw [hresult]
    constructor
    · refine iff_of_false ?_ (fun h => hreached h.1)
      rintro ⟨other, herror, hsame⟩
      cases hsame
      exact hother herror
    · intro offer hoffer
      cases hoffer

/-- The choice is sound and the best one, and no other section has a part in it. -/
theorem format_choice {sdp : Bytes} (hshort : ∀ line ∈ documentLines sdp, line.length < 512)
    (hexact : ExactRates (videoPart sdp)) (hfew : (h264Types (videoPart sdp)).length ≤ sdpMaxH264)
    (hfirst : RtpmapFirst (videoPart sdp)) :
    (CodecFailure (sdpParseOffer sdp) ↔ CodecReached sdp ∧
      ¬∃ pt ∈ h264Types (videoPart sdp), classOf (videoPart sdp) pt ≠ .unusable) ∧
    ∀ offer, sdpParseOffer sdp = .ok offer →
      Chosen (videoPart sdp) offer.h264PayloadType ∧
      offer.h264ProfileLevelId =
        (profileLevelId (itemsOf (videoPart sdp) offer.h264PayloadType)).getD [] ∧
      ∀ sdp' offer', (∀ line ∈ documentLines sdp', line.length < 512) →
        videoPart sdp' = videoPart sdp → sdpParseOffer sdp' = .ok offer' →
        offer'.h264PayloadType = offer.h264PayloadType ∧
          offer'.h264ProfileLevelId = offer.h264ProfileLevelId := by
  obtain ⟨hfailure, hchosen⟩ := choice_or_failure hshort hexact hfew hfirst
  refine ⟨hfailure, ?_⟩
  intro offer hoffer
  obtain ⟨hbest, hlevel⟩ := hchosen offer hoffer
  refine ⟨hbest, hlevel, ?_⟩
  intro sdp' offer' hshort' hsame hoffer'
  obtain ⟨-, hchosen'⟩ := choice_or_failure hshort' (hsame ▸ hexact) (hsame ▸ hfew)
    (hsame ▸ hfirst)
  obtain ⟨hbest', hlevel'⟩ := hchosen' offer' hoffer'
  rw [hsame] at hbest' hlevel'
  have hpt := hbest'.unique hbest
  rw [hlevel', hlevel, hpt]
  exact ⟨rfl, rfl⟩

/-- An offer with an audio section in front and a video section that has these lines. -/
def offerOf (lines : List Bytes) : Bytes :=
  crlfText ([ascii "a=ice-ufrag:u", ascii "a=ice-pwd:p", ascii "a=fingerprint:f", ascii "m=audio",
    ascii "a=rtpmap:96 H264/90000", ascii "m=video"] ++ lines)

/-- The second of three formats is the first of the best class. -/
def threeFormats : Bytes :=
  offerOf [ascii "a=rtpmap:97 H264/90000", ascii "a=fmtp:97 packetization-mode=1",
    ascii "a=rtpmap:98 H264/90000", ascii "a=fmtp:98 profile-level-id=42e01f; packetization-mode=1",
    ascii "a=rtpmap:99 H264/90000", ascii "a=fmtp:99 packetization-mode=1;profile-level-id=42e01f"]

theorem format_choice_three : ∃ offer, sdpParseOffer threeFormats = .ok offer ∧
    offer.h264PayloadType = 98 ∧ Chosen (videoPart threeFormats) 98 := by
  have hfacts : (∀ line ∈ documentLines threeFormats, line.length < 512) ∧
      ExactRates (videoPart threeFormats) ∧
      (h264Types (videoPart threeFormats)).length ≤ sdpMaxH264 ∧
      RtpmapFirst (videoPart threeFormats) ∧
      (sdpParseOffer threeFormats).toOption.any (fun offer => offer.h264PayloadType = 98) = true := by
    decide +kernel
  obtain ⟨hshort, hexact, hfew, hfirst, haccepted⟩ := hfacts
  obtain ⟨offer, hparse, hpt⟩ := accepted_of_any haccepted
  have hchosen := ((format_choice hshort hexact hfew hfirst).2 offer hparse).1
  rw [of_decide_eq_true hpt] at hchosen
  exact ⟨offer, hparse, of_decide_eq_true hpt, hchosen⟩

/-- A video section and nothing else. -/
def bareVideo : Bytes := crlfText [ascii "m=video"]

/-- The only clock rate starts with 90000. -/
def wideRate : Bytes :=
  offerOf [ascii "a=rtpmap:97 H264/900000", ascii "a=fmtp:97 packetization-mode=1"]

/-- A video section without any payload type fails, but for want of credentials; and a rate that
only starts with 90000 is taken for it. -/
theorem bare_and_wide :
    (fromVideo bareVideo ≠ [] ∧ h264Types (videoPart bareVideo) = [] ∧
      ¬CodecFailure (sdpParseOffer bareVideo)) ∧
    h264Types (videoPart wideRate) = [] ∧
      ∃ offer, sdpParseOffer wideRate = .ok offer ∧ offer.h264PayloadType = 97 := by
  refine ⟨⟨by decide +kernel, by decide +kernel, ?_⟩, by decide +kernel, ?_⟩
  · have hunreached : ¬CodecReached bareVideo := by
      intro h
      have hufrag := h.transport .iceUfrag (by decide)
      revert hufrag
      decide +kernel
    obtain ⟨text, hresult, hother⟩ := sdpParseOffer_unreached (by decide +kernel) hunreached
    rw [hresult]
    rintro ⟨other, herror, hsame⟩
    cases hsame
    exact hother herror
  · obtain ⟨offer, hparse, hpt⟩ := @accepted_of_any wideRate
      (fun offer => offer.h264PayloadType = 97) (by decide +kernel)
    exact ⟨offer, hparse, of_decide_eq_true hpt⟩

end Camstream.Proofs.FormatChoice
