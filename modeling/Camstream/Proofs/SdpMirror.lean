import Camstream.Proofs.SdpAnswer

namespace Camstream.Proofs.SdpMirror
open Lib Webrtc SdpAnswer

/-- The first section of the kind `video`. -/
def firstVideo (sections : List MediaSection) : Option Nat :=
  sections.findIdx? (·.kind = ascii "video")

/-- One section for every section, in the same order, of the same kind and with the same
mid when there is one; only the first video section has a port. -/
def Mirrors (offered answered : List MediaSection) : Prop :=
  answered.length = offered.length ∧
    ∀ i o a, offered[i]? = some o → answered[i]? = some a →
      a.kind = o.kind ∧ (o.mid ≠ [] → a.mid = o.mid) ∧
        (a.port = ascii "0" ↔ firstVideo offered ≠ some i)

/-- What the parser makes of an `m=` line. -/
def parsedMedia (line : Bytes) : SdpMediaLine :=
  ⟨copyToken (line.drop 2) 0 16, copyToken (line.drop 2) 2 32, copyToken (line.drop 2) 3 32, []⟩

/-- The parser's own `noteLine`. -/
def noteParsed (mlines : List SdpMediaLine) (line : Bytes) : List SdpMediaLine :=
  if isMedia line then mlines ++ [parsedMedia line]
  else if isMid line then
    mlines.modify (mlines.length - 1) ({ · with mid := copyValue line (ascii "a=mid:") 24 })
  else mlines

/-- The section the parser is in, as its index. -/
def currentMedia (mlines : List SdpMediaLine) : Option Nat :=
  if mlines = [] then none else some (mlines.length - 1)

/-- How the parts of the offer that concern its sections hang together. -/
structure Tracked (offer : SdpOffer) : Prop where
  room : offer.mlines.length ≤ sdpMaxMlines
  video : offer.videoMline = offer.mlines.findIdx? (·.kind = ascii "video")
  mid : ∀ m, (offer.videoMline.bind (offer.mlines[·]?)) = some m → m.mid = offer.videoMid
  absent : offer.videoMline = none → offer.videoMid = []

theorem empty_tracked : Tracked sdpEmptyOffer :=
  ⟨Nat.zero_le _, rfl, by simp [sdpEmptyOffer], fun _ => rfl⟩

theorem Tracked.congr {offer offer' : SdpOffer} (h : Tracked offer)
    (hmlines : offer'.mlines = offer.mlines) (hvideo : offer'.videoMline = offer.videoMline)
    (hmid : offer'.videoMid = offer.videoMid) : Tracked offer' := by
  refine ⟨?_, ?_, ?_, ?_⟩
  · rw [hmlines]
    exact h.room
  · rw [hvideo, hmlines]
    exact h.video
  · rw [hvideo, hmlines, hmid]
    exact h.mid
  · rw [hvideo, hmid]
    exact h.absent

theorem modify_kinds {mlines : List SdpMediaLine} (i : Nat) (mid : Bytes) :
    (mlines.modify i ({ · with mid })).findIdx? (·.kind = ascii "video") =
      mlines.findIdx? (·.kind = ascii "video") := by
  induction mlines generalizing i with
  | nil => simp
  | cons m mlines ih =>
    cases i with
    | zero => simp [List.findIdx?_cons]
    | succ i =>
      rw [List.modify_succ_cons, List.findIdx?_cons, List.findIdx?_cons, ih]

/-- A new section at the end. -/
theorem Tracked.append {offer : SdpOffer} (h : Tracked offer)
    (hroom : offer.mlines.length < sdpMaxMlines) {m : SdpMediaLine} (hm : m.mid = []) :
    Tracked { offer with
      mlines := offer.mlines ++ [m]
      videoMline := if offer.videoMline = none ∧ m.kind = ascii "video" then
        some offer.mlines.length else offer.videoMline } := by
  refine ⟨?_, ?_, ?_, ?_⟩
  · simp only [List.length_append, List.length_singleton]
    omega
  · simp only [List.findIdx?_append, ← h.video]
    cases hv : offer.videoMline with
    | some v => simp
    | none =>
      by_cases hkind : m.kind = ascii "video" <;> simp [hkind]
  · intro x
    dsimp only
    split
    · rename_i hnew
      intro hx
      simp only [Option.bind_some, List.getElem?_append_right (Nat.le_refl _), Nat.sub_self,
        List.getElem?_cons_zero, Option.some.injEq] at hx
      rw [← hx, hm, h.absent hnew.1]
    · intro hx
      cases hv : offer.videoMline with
      | none => simp [hv] at hx
      | some v =>
        rw [hv, Option.bind_some] at hx
        have hlt : v < offer.mlines.length := by
          have hfound := h.video
          rw [hv] at hfound
          exact (List.findIdx?_eq_some_iff_getElem.mp hfound.symm).1
        rw [List.getElem?_append_left hlt] at hx
        exact h.mid x (by rw [hv]; exact hx)
  · dsimp only
    split
    · exact fun hnone => by cases hnone
    · exact h.absent

/-- A mid for the last section. -/
theorem Tracked.modify {offer : SdpOffer} (h : Tracked offer) {i : Nat} (mid : Bytes) :
    Tracked (if some i = offer.videoMline then
      { offer with mlines := offer.mlines.modify i ({ · with mid }), videoMid := mid }
      else { offer with mlines := offer.mlines.modify i ({ · with mid }) }) := by
  have hroom : (offer.mlines.modify i ({ · with mid })).length ≤ sdpMaxMlines := by
    rw [List.length_modify]
    exact h.room
  have hvideo := h.video.trans (modify_kinds i mid).symm
  split
  · rename_i hsame
    refine ⟨hroom, hvideo, ?_, ?_⟩
    · intro m hm
      simp only [← hsame, Option.bind_some, List.getElem?_modify_eq, Option.map_eq_map,
        Option.map_eq_some_iff] at hm
      obtain ⟨x, -, rfl⟩ := hm
      rfl
    · intro hnone
      rw [← hsame] at hnone
      cases hnone
  · rename_i hother
    refine ⟨hroom, hvideo, ?_, h.absent⟩
    intro m hm
    dsimp only at hm ⊢
    cases hv : offer.videoMline with
    | none => simp [hv] at hm
    | some v =>
      have hne : i ≠ v := fun heq => hother (by rw [hv, heq])
      rw [hv, Option.bind_some, List.getElem?_modify_ne _ _ hne] at hm
      exact h.mid m (by rw [hv]; exact hm)

theorem mem_of_copyToken {text : Bytes} {n size : Nat} {c : UInt8}
    (h : c ∈ copyToken text n size) : c ∈ text ∧ c ≠ 32 := by
  induction n generalizing text with
  | zero =>
    unfold copyToken at h
    split at h
    · cases h
    · have htoken := List.mem_of_mem_take h
      have hne := List.mem_takeWhile_imp htoken
      have hmem := (List.takeWhile_sublist _).mem htoken
      exact ⟨(List.dropWhile_suffix _).mem hmem, by simpa using hne⟩
  | succ n ih =>
    unfold copyToken at h
    split at h
    · cases h
    · obtain ⟨hmem, hne⟩ := ih h
      exact ⟨(List.dropWhile_suffix _).mem (List.mem_of_mem_drop hmem), hne⟩

theorem parsedMedia_plain {line : Bytes} (h : 10 ∉ line) : PlainMedia (parsedMedia line) := by
  have htoken : ∀ n size, 10 ∉ copyToken (line.drop 2) n size := fun n size hm =>
    h (List.mem_of_mem_drop (mem_of_copyToken hm).1)
  exact ⟨⟨fun hm => (mem_of_copyToken hm).2 rfl, htoken _ _⟩, htoken _ _, htoken _ _,
    fun c hc => by cases hc⟩

theorem copyValue_lineValue (line marker : Bytes) (size : Nat) :
    LineValue (copyValue line marker size) := by
  intro c hc
  simpa using List.mem_takeWhile_imp (List.mem_of_mem_take hc)

theorem parseH264Fmtp_plain {format : SdpH264Format} {params : Bytes} (hp : 10 ∉ params)
    (hf : 10 ∉ format.profileLevelId) : 10 ∉ (parseH264Fmtp format params).profileLevelId := by
  induction hn : params.length using Nat.strong_induction_on generalizing format params with
  | _ n ih =>
    rw [parseH264Fmtp]
    split
    · exact hf
    · rename_i c rest hskip
      have hsuffix := List.dropWhile_suffix (l := params) fun c => decide (c = 32 ∨ c = 59)
      rw [hskip] at hsuffix
      have hrest : 10 ∉ c :: rest := fun hm => hp (hsuffix.mem hm)
      have hle := hsuffix.length_le
      rw [List.length_cons] at hle
      refine ih _ ?_ (fun hm => hrest ?_) ?_ rfl
      · rw [List.length_drop]
        omega
      · exact List.mem_cons_of_mem c (List.mem_of_mem_drop hm)
      · split
        · exact hf
        · split
          · exact fun hm => hrest (List.mem_of_mem_drop (List.mem_of_mem_take hm))
          · exact hf

theorem updateH264_plain {formats : List SdpH264Format} (h : ∀ f ∈ formats, 10 ∉ f.profileLevelId)
    (pt : Int) {update : SdpH264Format → SdpH264Format}
    (hu : ∀ f, 10 ∉ f.profileLevelId → 10 ∉ (update f).profileLevelId) :
    ∀ f ∈ updateH264 formats pt update, 10 ∉ f.profileLevelId := by
  induction formats with
  | nil => exact h
  | cons format rest ih =>
    have hrest : ∀ f ∈ rest, 10 ∉ f.profileLevelId := fun f hf => h f (by simp [hf])
    have hformat := h format (by simp)
    rw [updateH264]
    split
    · rw [List.forall_mem_cons]
      exact ⟨hu format hformat, hrest⟩
    · rw [List.forall_mem_cons]
      exact ⟨hformat, ih hrest⟩

/-- Where the parser is after some lines with this list of sections. -/
structure Parsing (ctx : ParseContext) (media : Option Nat) (parsed : List SdpMediaLine) : Prop where
  mlines : ctx.offer.mlines = parsed
  media : media = currentMedia parsed
  tracked : Tracked ctx.offer
  plain : PlainOffer ctx.offer

theorem visitMedia_parsing {ctx : ParseContext} {media : Option Nat} {mlines : List SdpMediaLine}
    (h : Parsing ctx media mlines) {line : Bytes} (hline : 10 ∉ line) :
    (visitMedia ctx line mlines.length).tooManyMlines = true ∨
      Parsing (visitMedia ctx line mlines.length) (some mlines.length)
        (mlines ++ [parsedMedia line]) := by
  unfold visitMedia
  split
  · exact .inl rfl
  · rename_i hroom
    refine .inr ⟨?_, ?_, ?_, ?_, ?_, ?_, ?_⟩
    · dsimp only
      rw [h.mlines]
      rfl
    · simp [currentMedia]
    · have happend := h.tracked.append (m := parsedMedia line)
        (by rw [h.mlines]; exact Nat.lt_of_not_le hroom) rfl
      rw [h.mlines] at happend
      dsimp only
      rw [h.mlines]
      exact happend
    · dsimp only
      intro m hm
      rcases List.mem_append.mp hm with hm | hm
      · exact h.plain.mlines m hm
      · rw [List.mem_singleton.mp hm]
        exact parsedMedia_plain hline
    · exact h.plain.videoMid
    · exact h.plain.formats
    · exact h.plain.profile

/-- The same sections in a context that differs elsewhere. -/
theorem Parsing.congr {ctx ctx' : ParseContext} {media : Option Nat} {mlines : List SdpMediaLine}
    (h : Parsing ctx media mlines) (hmlines : ctx'.offer.mlines = ctx.offer.mlines)
    (hvideo : ctx'.offer.videoMline = ctx.offer.videoMline)
    (hmid : ctx'.offer.videoMid = ctx.offer.videoMid)
    (hformats : ∀ f ∈ ctx'.offer.h264, 10 ∉ f.profileLevelId)
    (hprofile : ctx'.offer.h264ProfileLevelId = ctx.offer.h264ProfileLevelId) :
    Parsing ctx' media mlines := by
  refine ⟨hmlines.trans h.mlines, h.media, h.tracked.congr hmlines hvideo hmid,
    ⟨?_, ?_, hformats, ?_⟩⟩
  · rw [hmlines]
    exact h.plain.mlines
  · rw [hmid]
    exact h.plain.videoMid
  · rw [hprofile]
    exact h.plain.profile

theorem currentMedia_some {mlines : List SdpMediaLine} {i : Nat} (h : currentMedia mlines = some i) :
    i = mlines.length - 1 := by
  unfold currentMedia at h
  split at h
  · cases h
  · exact (Option.some.inj h).symm

/-- A mid line in a section. -/
theorem visitMid_parsing {ctx : ParseContext} {i : Nat} {mlines : List SdpMediaLine}
    (h : Parsing ctx (some i) mlines) {line : Bytes} (hmid : isMid line = true) :
    Parsing { ctx with offer := visitSection ctx.offer line i } (some i)
      (mlines.modify i ({ · with mid := copyValue line (ascii "a=mid:") 24 })) := by
  have hclean := copyValue_lineValue line (ascii "a=mid:") 24
  unfold isMid at hmid
  rw [visitSection, if_pos hmid]
  generalize copyValue line (ascii "a=mid:") 24 = mid at hclean
  dsimp only
  have hplain : ∀ m ∈ mlines.modify i ({ · with mid }), PlainMedia m := by
    intro m hm
    obtain ⟨j, hj⟩ := List.mem_iff_getElem?.mp hm
    rw [List.getElem?_modify] at hj
    obtain ⟨x, hx, rfl⟩ := Option.map_eq_some_iff.mp hj
    have hold := h.plain.mlines x (by rw [h.mlines]; exact List.mem_of_getElem? hx)
    split
    · exact ⟨hold.kind, hold.proto, hold.fmt, hclean⟩
    · exact hold
  have hcurrent : some i = currentMedia (mlines.modify i ({ · with mid })) := by
    rw [h.media]
    simp [currentMedia]
  have htracked := h.tracked.modify (i := i) mid
  rw [← h.mlines] at hplain hcurrent ⊢
  by_cases hvideo : some i = ctx.offer.videoMline
  · rw [if_pos hvideo] at htracked ⊢
    exact ⟨rfl, hcurrent, htracked, hplain, hclean, h.plain.formats, h.plain.profile⟩
  · rw [if_neg hvideo] at htracked ⊢
    exact ⟨rfl, hcurrent, htracked, hplain, h.plain.videoMid, h.plain.formats, h.plain.profile⟩

/-- Every other attribute of a section leaves the list of sections as it is. -/
theorem visitAttribute_parsing {ctx : ParseContext} {i : Nat} {mlines : List SdpMediaLine}
    (h : Parsing ctx (some i) mlines) {line : Bytes} (hline : 10 ∉ line)
    (hmid : ¬ isMid line = true) :
    Parsing { ctx with offer := visitSection ctx.offer line i } (some i) mlines := by
  unfold isMid at hmid
  rw [visitSection, if_neg hmid]
  split
  · dsimp only
    split
    · refine h.congr rfl rfl rfl ?_ rfl
      intro f hf
      rcases List.mem_append.mp hf with hf | hf
      · exact h.plain.formats f hf
      · rw [List.mem_singleton.mp hf]
        exact List.not_mem_nil
    · exact h
  · split
    · split
      · exact h
      · rename_i space params hparams
        have hsuffix := List.dropWhile_suffix (l := line) fun c => decide (c ≠ 32)
        rw [hparams] at hsuffix
        have hfree : 10 ∉ params := fun hm => hline (hsuffix.mem (List.mem_cons_of_mem space hm))
        refine h.congr rfl rfl rfl ?_ rfl
        exact updateH264_plain h.plain.formats _ fun f hf => parseH264Fmtp_plain hfree hf
    · exact h

/-- What is left inside a section, and at the level of the session. -/
theorem visitRest_parsing {ctx : ParseContext} {media : Option Nat} {mlines : List SdpMediaLine}
    (h : Parsing ctx media mlines) {line : Bytes} (hline : 10 ∉ line) :
    Parsing (match media with
      | none => ctx
      | some media =>
        if media < sdpMaxMlines then { ctx with offer := visitSection ctx.offer line media }
        else ctx) media
      (if isMid line then
        mlines.modify (mlines.length - 1) ({ · with mid := copyValue line (ascii "a=mid:") 24 })
      else mlines) := by
  cases media with
  | none =>
    have hempty : mlines = [] := by
      have hnone := h.media
      unfold currentMedia at hnone
      split at hnone
      · assumption
      · cases hnone
    subst hempty
    simpa using h
  | some i =>
    have hlast := currentMedia_some h.media.symm
    have hroom : i < sdpMaxMlines := by
      have hle := h.tracked.room
      rw [h.mlines] at hle
      have hmax : 0 < sdpMaxMlines := by decide
      omega
    dsimp only
    rw [if_pos hroom]
    by_cases hmid : isMid line = true
    · rw [if_pos hmid, ← hlast]
      exact visitMid_parsing h hmid
    · rw [if_neg hmid]
      exact visitAttribute_parsing h hline hmid

/-- One line of the document: one section too many, or the list of sections goes on. -/
theorem parseVisit_parsing {ctx : ParseContext} {media : Option Nat} {mlines : List SdpMediaLine}
    (h : Parsing ctx media mlines) {line : Bytes} (hline : 10 ∉ line) :
    (parseVisit ctx line (nextMedia line media)).tooManyMlines = true ∨
      Parsing (parseVisit ctx line (nextMedia line media)) (nextMedia line media)
        (noteParsed mlines line) := by
  unfold parseVisit nextMedia noteParsed isMedia isMid
  by_cases hm : (ascii "m=").isPrefixOf line = true
  · have hnext : (media.elim 0 (· + 1)) = mlines.length := by
      rw [h.media, currentMedia]
      cases mlines <;> simp
    rw [if_pos hm, if_pos hm, if_pos hm, hnext]
    exact visitMedia_parsing h hline
  · rw [if_neg hm, if_neg hm, if_neg hm]
    refine .inr ?_
    -- the names of the other attributes differ from "mid" in their first letter
    have hnot : ∀ {marker : Bytes} {letter : UInt8}, marker.isPrefixOf line = true →
        marker[2]? = some letter → letter ≠ 109 → ¬ (ascii "a=mid:").isPrefixOf line = true := by
      intro marker letter hmarker hletter hne hmid
      obtain ⟨value, hvalue⟩ := List.isPrefixOf_iff_prefix.mp hmid
      obtain ⟨other, rfl⟩ := List.isPrefixOf_iff_prefix.mp hmarker
      have hthird := congrArg (·[2]?) hvalue
      obtain ⟨hlt, -⟩ := List.getElem?_eq_some_iff.mp hletter
      simp only [List.getElem?_append_left hlt, hletter] at hthird
      exact hne (Option.some.inj hthird).symm
    split
    · rw [if_neg (hnot ‹_› rfl (by decide))]
      exact h.congr rfl rfl rfl h.plain.formats rfl
    · split
      · rw [if_neg (hnot ‹_› rfl (by decide))]
        exact h.congr rfl rfl rfl h.plain.formats rfl
      · split
        · rw [if_neg (hnot ‹_› rfl (by decide))]
          exact h.congr rfl rfl rfl h.plain.formats rfl
        · split
          · rw [if_neg (hnot ‹_› rfl (by decide))]
            exact h.congr rfl rfl rfl h.plain.formats rfl
          · exact visitRest_parsing h hline

theorem parseLines_tooMany {ctx : ParseContext} (h : ctx.tooManyMlines = true) (media : Option Nat)
    (lines : List Bytes) : (parseLines ctx media lines).tooManyMlines = true := by
  induction lines generalizing ctx media with
  | nil => exact h
  | cons line lines ih =>
    refine ih ?_ _
    unfold parseVisit visitMedia
    repeat' split
    all_goals first | rfl | exact h

theorem parseLines_parsing {ctx : ParseContext} {media : Option Nat} {mlines : List SdpMediaLine}
    (h : Parsing ctx media mlines) {lines : List Bytes} (hlines : ∀ l ∈ lines, 10 ∉ l)
    (hroom : (parseLines ctx media lines).tooManyMlines = false) :
    ∃ last, Parsing (parseLines ctx media lines) last (lines.foldl noteParsed mlines) := by
  induction lines generalizing ctx media mlines with
  | nil => exact ⟨media, h⟩
  | cons line lines ih =>
    rw [parseLines] at hroom ⊢
    rcases parseVisit_parsing h (hlines line (by simp)) with hmany | hnext
    · have hall := parseLines_tooMany hmany (nextMedia line media) lines
      rw [hall] at hroom
      cases hroom
    · exact ih hnext (fun l hl => hlines l (by simp [hl])) hroom

/-- Choosing a format leaves the sections alone. -/
theorem chooseH264_keeps (offer : SdpOffer) (h : PlainOffer offer) :
    (chooseH264 offer).mlines = offer.mlines ∧
      (chooseH264 offer).videoMline = offer.videoMline ∧
      (chooseH264 offer).videoMid = offer.videoMid ∧ PlainOffer (chooseH264 offer) := by
  have hrun : ∀ (formats : List SdpH264Format), (∀ f ∈ formats, 10 ∉ f.profileLevelId) →
      ∀ best : Nat × SdpOffer, PlainOffer best.2 →
      let last := (formats.foldl (fun (best : Nat × SdpOffer) format =>
        if h264Rank format > best.1 then
          (h264Rank format, { best.2 with
            h264PayloadType := format.payloadType
            h264ProfileLevelId := copyTo 8 format.profileLevelId })
        else best) best).2
      last.mlines = best.2.mlines ∧ last.videoMline = best.2.videoMline ∧
        last.videoMid = best.2.videoMid ∧ PlainOffer last := by
    intro formats
    induction formats with
    | nil => exact fun _ best hbest => ⟨rfl, rfl, rfl, hbest⟩
    | cons format formats ih =>
      intro hformats best hbest
      have hfree : 10 ∉ copyTo 8 format.profileLevelId := fun hm =>
        hformats format (by simp) (List.mem_of_mem_take hm)
      rw [List.foldl_cons]
      split
      · exact ih (fun f hf => hformats f (by simp [hf])) _
          ⟨hbest.mlines, hbest.videoMid, hbest.formats, hfree⟩
      · exact ih (fun f hf => hformats f (by simp [hf])) best hbest
  exact hrun offer.h264 h.formats (0, offer) h

theorem sdpLines_lineFree (sdp : Bytes) : ∀ l ∈ sdpLines sdp, 10 ∉ l := by
  intro l hl
  rw [sdpLines_eq] at hl
  obtain ⟨line, hline, rfl⟩ := List.mem_map.mp hl
  exact fun hm => textLines_clean sdp line hline ((stripLine_le line).mem hm)

/-- The sections of an offer that was accepted. -/
theorem sdpParseOffer_parsed {sdp : Bytes} {offer : SdpOffer} (h : sdpParseOffer sdp = .ok offer) :
    offer.mlines = (sdpVisited sdp).foldl noteParsed [] ∧ Tracked offer ∧ PlainOffer offer ∧
      offer.videoMline ≠ none := by
  have hstart : Parsing ⟨sdpEmptyOffer, false, false, false, false⟩ none [] :=
    ⟨rfl, rfl, empty_tracked, fun m hm => (List.not_mem_nil hm).elim,
      fun c hc => (List.not_mem_nil hc).elim, fun f hf => (List.not_mem_nil hf).elim,
      List.not_mem_nil⟩
  have hvisited : ∀ l ∈ sdpVisited sdp, 10 ∉ l := by
    intro l hl
    obtain ⟨line, hline, rfl⟩ := List.mem_map.mp hl
    exact fun hm => sdpLines_lineFree sdp line (List.mem_filter.mp hline).1
      ((List.takeWhile_sublist _).mem hm)
  have hrun := @parseLines_parsing _ _ _ hstart _ hvisited
  unfold sdpParseOffer at h
  generalize parseLines ⟨sdpEmptyOffer, false, false, false, false⟩ none (sdpVisited sdp) = ctx
    at h hrun
  dsimp only at h
  split at h
  · cases h
  · rename_i hmany
    obtain ⟨last, hlast⟩ := hrun (by simpa using hmany)
    split at h
    · cases h
    · split at h
      · cases h
      · split at h
        · cases h
        · rename_i hvideo
          obtain ⟨hmlines, hindex, hmid, hplain⟩ := chooseH264_keeps ctx.offer hlast.plain
          have hkept : ∀ offer', offer'.mlines = (chooseH264 ctx.offer).mlines →
              offer'.videoMline = (chooseH264 ctx.offer).videoMline →
              offer'.videoMid = (chooseH264 ctx.offer).videoMid → PlainOffer offer' →
              offer'.mlines = (sdpVisited sdp).foldl noteParsed [] ∧ Tracked offer' ∧
                PlainOffer offer' ∧ offer'.videoMline ≠ none := by
            intro offer' hmlines' hindex' hmid' hplain'
            exact ⟨hmlines'.trans (hmlines.trans hlast.mlines),
              hlast.tracked.congr (hmlines'.trans hmlines) (hindex'.trans hindex)
                (hmid'.trans hmid), hplain', by rw [hindex', hindex]; exact hvideo⟩
          split at h
          · split at h <;> cases h
          · generalize hsetup : (if (chooseH264 ctx.offer).setup.isEmpty then
              { chooseH264 ctx.offer with setup := ascii "actpass" }
              else chooseH264 ctx.offer) = chosen at h
            split at h
            · cases h
            · cases h
              rw [← hsetup]
              split
              · exact hkept _ rfl rfl rfl
                  ⟨hplain.mlines, hplain.videoMid, hplain.formats, hplain.profile⟩
              · exact hkept _ rfl rfl rfl hplain

/-- The `m=` lines are short enough to be seen and the values fit the parser's fields. -/
structure Fits (lines : List Bytes) : Prop where
  seen : ∀ line ∈ lines, isMedia line = true → line.length < sdpLineMax
  kinds : ∀ s ∈ mediaSections lines, s.kind ≠ [] ∧ s.kind.length < 16 ∧ 0 ∉ s.kind
  mids : ∀ s ∈ mediaSections lines, s.mid.length < 24 ∧ ∀ c ∈ s.mid, c ≠ 0 ∧ c ≠ 13

/-- What the parser keeps of a section of the document. -/
structure Kept (s : MediaSection) (m : SdpMediaLine) : Prop where
  kind : m.kind = copyTo 16 (cString s.kind)
  short : m.mid.length < 24
  mid : s.mid.length < 24 → LineValue s.mid → m.mid = s.mid
  lineFree : 10 ∉ s.mid

def AllKept (sections : List MediaSection) (mlines : List SdpMediaLine) : Prop :=
  sections.length = mlines.length ∧
    ∀ (i : Nat) s m, sections[i]? = some s → mlines[i]? = some m → Kept s m

theorem isPrefixOf_cString {marker : Bytes} (h : 0 ∉ marker) (line : Bytes) :
    marker.isPrefixOf (cString line) = marker.isPrefixOf line := by
  induction marker generalizing line with
  | nil => rfl
  | cons c marker ih =>
    obtain ⟨hc, hmarker⟩ : 0 ≠ c ∧ 0 ∉ marker := by simpa using h
    cases line with
    | nil => rfl
    | cons d line =>
      by_cases hd : d = 0
      · subst hd
        have hne : (c == 0) = false := by simpa using Ne.symm hc
        rw [List.isPrefixOf_cons_cons, hne]
        rfl
      · have hcons : cString (d :: line) = d :: cString line := by simp [cString, hd]
        rw [hcons, List.isPrefixOf_cons_cons, List.isPrefixOf_cons_cons, ih hmarker]

/-- Cutting at NUL and taking the first token can be done in either order. -/
theorem firstToken_cString (text : Bytes) : firstToken (cString text) = cString (firstToken text) := by
  have htoken : ∀ l : Bytes, (cString l).takeWhile (· ≠ 32) = cString (l.takeWhile (· ≠ 32)) := by
    intro l
    unfold cString
    rw [List.takeWhile_takeWhile, List.takeWhile_takeWhile]
    congr 1
    funext c
    exact decide_eq_decide.mpr and_comm
  induction text with
  | nil => rfl
  | cons c text ih =>
    by_cases hspace : c = 32
    · subst hspace
      exact ih
    · have hfirst : ∀ l : Bytes, firstToken (c :: l) = (c :: l).takeWhile (· ≠ 32) := by
        intro l
        rw [firstToken, List.dropWhile_cons_of_neg (by simpa using hspace)]
      by_cases hzero : c = 0
      · subst hzero
        rfl
      · have hcons : cString (c :: text) = c :: cString text := by simp [cString, hzero]
        rw [hfirst, ← htoken, hcons, hfirst]

theorem copyToken_zero (text : Bytes) (size : Nat) :
    copyToken text 0 size = copyTo size (firstToken text) := by
  unfold copyToken
  split
  · rename_i hempty
    rw [List.isEmpty_iff.mp hempty]
    simp [copyTo, firstToken]
  · rfl

theorem parsedMedia_kept {line : Bytes} (h : isMedia line = true) :
    Kept (mediaSection line) (parsedMedia (cString line)) := by
  obtain ⟨value, rfl⟩ := List.isPrefixOf_iff_prefix.mp h
  have hkind : (parsedMedia (cString (ascii "m=" ++ value))).kind =
      copyTo 16 (cString (firstToken value)) := by
    rw [cString_append (by decide), ← firstToken_cString, ← copyToken_zero]
    rfl
  exact ⟨hkind, Nat.zero_lt_succ 23, fun _ _ => rfl, List.not_mem_nil⟩

theorem copyValue_kept {line : Bytes} (h : isMid line = true) :
    (copyValue (cString line) (ascii "a=mid:") 24).length < 24 ∧
      ((line.drop 6).length < 24 → LineValue (line.drop 6) →
        copyValue (cString line) (ascii "a=mid:") 24 = line.drop 6) := by
  obtain ⟨value, rfl⟩ := List.isPrefixOf_iff_prefix.mp h
  have hdrop : (ascii "a=mid:" ++ value).drop 6 = value := rfl
  have hvalue : copyValue (cString (ascii "a=mid:" ++ value)) (ascii "a=mid:") 24 =
      copyTo 24 ((cString value).takeWhile fun c => c ≠ 0 ∧ c ≠ 13 ∧ c ≠ 10) := by
    rw [cString_append (by decide)]
    rfl
  rw [hvalue, hdrop]
  refine ⟨?_, fun hshort hclean => ?_⟩
  · have hle := List.length_take_le 23
      ((cString value).takeWhile fun c => c ≠ 0 ∧ c ≠ 13 ∧ c ≠ 10)
    exact Nat.lt_of_le_of_lt hle (by decide)
  · have hkeep : cString value = value :=
      List.takeWhile_eq_self_iff.mpr fun c hc => by simpa using (hclean c hc).1
    have hall : value.takeWhile (fun c => c ≠ 0 ∧ c ≠ 13 ∧ c ≠ 10) = value :=
      List.takeWhile_eq_self_iff.mpr fun c hc => by simpa using hclean c hc
    rw [hkeep, hall, copyTo]
    exact List.take_of_length_le (by omega)

theorem AllKept.append {sections : List MediaSection} {mlines : List SdpMediaLine}
    (h : AllKept sections mlines) {s : MediaSection} {m : SdpMediaLine} (hs : Kept s m) :
    AllKept (sections ++ [s]) (mlines ++ [m]) := by
  refine ⟨by simp [h.1], fun i s' m' hs' hm' => ?_⟩
  by_cases hi : i < sections.length
  · rw [List.getElem?_append_left hi] at hs'
    rw [List.getElem?_append_left (h.1 ▸ hi)] at hm'
    exact h.2 i s' m' hs' hm'
  · rw [List.getElem?_append_right (Nat.le_of_not_lt hi), List.getElem?_singleton] at hs'
    rw [List.getElem?_append_right (h.1 ▸ Nat.le_of_not_lt hi), List.getElem?_singleton, ← h.1] at hm'
    split at hs'
    · rename_i hlast
      rw [if_pos hlast] at hm'
      rw [← Option.some.inj hs', ← Option.some.inj hm']
      exact hs
    · cases hs'

/-- A line that changes the last section on both sides. -/
theorem AllKept.modify {sections : List MediaSection} {mlines : List SdpMediaLine}
    (h : AllKept sections mlines) (i : Nat) {f : MediaSection → MediaSection}
    {g : SdpMediaLine → SdpMediaLine} (hfg : ∀ s m, Kept s m → Kept (f s) (g m)) :
    AllKept (sections.modify i f) (mlines.modify i g) := by
  refine ⟨by simp [h.1], fun j s m hs hm => ?_⟩
  rw [List.getElem?_modify] at hs hm
  obtain ⟨s', hs', rfl⟩ := Option.map_eq_some_iff.mp hs
  obtain ⟨m', hm', rfl⟩ := Option.map_eq_some_iff.mp hm
  have hold := h.2 j s' m' hs' hm'
  split
  · exact hfg s' m' hold
  · exact hold

theorem noteLine_kept {sections : List MediaSection} {mlines : List SdpMediaLine}
    (h : AllKept sections mlines) {line : Bytes} (hline : 10 ∉ line) :
    AllKept (noteLine sections line) (noteParsed mlines (cString line)) := by
  have hmedia : isMedia (cString line) = isMedia line := isPrefixOf_cString (by decide) line
  have hmid : isMid (cString line) = isMid line := isPrefixOf_cString (by decide) line
  unfold noteLine noteParsed
  rw [hmedia, hmid]
  split
  · rename_i hopen
    exact h.append (parsedMedia_kept hopen)
  · split
    · rename_i hvalue
      obtain ⟨hshort, hkeep⟩ := copyValue_kept hvalue
      rw [← h.1]
      exact h.modify _ fun s m hs =>
        ⟨hs.kind, hshort, hkeep, fun hm => hline (List.mem_of_mem_drop hm)⟩
    · exact h

/-- A line the parser does not see, and that opens no section. -/
theorem noteLine_unseen {sections : List MediaSection} {mlines : List SdpMediaLine}
    (h : AllKept sections mlines) {line : Bytes} (hline : 10 ∉ line)
    (hlong : ¬ line.length < sdpLineMax) (hmedia : ¬ isMedia line = true) :
    AllKept (noteLine sections line) mlines := by
  unfold noteLine
  rw [if_neg hmedia]
  split
  · have hsame : mlines = mlines.modify (sections.length - 1) id := by simp
    rw [hsame]
    refine h.modify _ fun s m hs => ⟨hs.kind, hs.short, fun hfit => ?_,
      fun hm => hline (List.mem_of_mem_drop hm)⟩
    have hlen : (line.drop 6).length < 24 := hfit
    rw [List.length_drop] at hlen
    unfold sdpLineMax at hlong
    omega
  · exact h

theorem sections_kept {lines : List Bytes} (hclean : ∀ l ∈ lines, 10 ∉ l)
    (hseen : ∀ l ∈ lines, isMedia l = true → l.length < sdpLineMax)
    {sections : List MediaSection} {mlines : List SdpMediaLine} (h : AllKept sections mlines) :
    AllKept (lines.foldl noteLine sections)
      (((lines.filter fun l => l.length < sdpLineMax).map cString).foldl noteParsed mlines) := by
  induction lines generalizing sections mlines with
  | nil => exact h
  | cons line lines ih =>
    have hline := hclean line (by simp)
    have hrest := @ih (fun l hl => hclean l (by simp [hl])) (fun l hl => hseen l (by simp [hl]))
    rw [List.foldl_cons]
    by_cases hshort : line.length < sdpLineMax
    · rw [List.filter_cons_of_pos (by simpa using hshort), List.map_cons, List.foldl_cons]
      exact hrest (noteLine_kept h hline)
    · rw [List.filter_cons_of_neg (by simpa using hshort)]
      exact hrest (noteLine_unseen h hline hshort fun hm => hshort (hseen line (by simp) hm))

theorem noteLine_length (sections : List MediaSection) (lines : List Bytes) :
    (lines.foldl noteLine sections).length = sections.length + lines.countP isMedia := by
  induction lines generalizing sections with
  | nil => rfl
  | cons line lines ih =>
    rw [List.foldl_cons, ih, List.countP_cons, noteLine]
    split
    · simp
      omega
    · split <;> simp

theorem noteParsed_length (mlines : List SdpMediaLine) (lines : List Bytes) :
    (lines.foldl noteParsed mlines).length = mlines.length + lines.countP isMedia := by
  induction lines generalizing mlines with
  | nil => rfl
  | cons line lines ih =>
    rw [List.foldl_cons, ih, List.countP_cons, noteParsed]
    split
    · simp
      omega
    · split <;> simp

/-- Every section is counted exactly when every `m=` line is seen. -/
theorem seen_of_length {lines : List Bytes}
    (h : (((lines.filter fun l => l.length < sdpLineMax).map cString).foldl noteParsed []).length =
      (mediaSections lines).length) :
    ∀ line ∈ lines, isMedia line = true → line.length < sdpLineMax := by
  have hcount : ∀ ls : List Bytes, (ls.map cString).countP isMedia = ls.countP isMedia := by
    intro ls
    rw [List.countP_map]
    exact List.countP_congr fun l _ => by
      rw [Function.comp_apply, isMedia, isPrefixOf_cString (by decide), ← isMedia]
  rw [noteParsed_length, mediaSections, noteLine_length, hcount, List.countP_filter] at h
  intro line hline hmedia
  by_contra hlong
  have hlt : lines.countP (fun l => isMedia l && decide (l.length < sdpLineMax)) <
      lines.countP isMedia := by
    obtain ⟨before, behind, rfl⟩ := List.append_of_mem hline
    have hmono : ∀ ls : List Bytes,
        ls.countP (fun l => isMedia l && decide (l.length < sdpLineMax)) ≤ ls.countP isMedia := by
      intro ls
      exact List.countP_mono_left fun l _ hl => (Bool.and_eq_true _ _ ▸ hl).1
    have hbefore := hmono before
    have hbehind := hmono behind
    simp only [List.countP_append, List.countP_cons, hmedia, hlong, decide_false, Bool.and_false,
      if_true]
    simp only [Bool.false_eq_true, if_false]
    omega
  simp only [List.length_nil, Nat.zero_add] at h
  omega

/-- The lines of a document, without their ends. -/
def documentLines (document : Bytes) : List Bytes := (textLines document).map stripLine

/-- A text that is not longer than it may be and has nothing the field would cut. -/
theorem kind_of_kept {kind : Bytes} (h : orElse (copyTo 16 (cString kind)) (ascii "audio") = kind) :
    kind ≠ [] ∧ kind.length < 16 ∧ 0 ∉ kind := by
  have hlen : (copyTo 16 (cString kind)).length < 16 :=
    Nat.lt_of_le_of_lt (List.length_take_le _ _) (by decide)
  have hclean : 0 ∉ copyTo 16 (cString kind) := fun hm =>
    cString_clean kind (List.mem_of_mem_take hm)
  unfold orElse at h
  split at h
  · rw [← h]
    decide
  · rename_i hne
    rw [h] at hlen hclean hne
    exact ⟨fun hnil => hne (by rw [hnil]; rfl), hlen, hclean⟩

theorem kept_of_kind {kind : Bytes} (hne : kind ≠ []) (hlen : kind.length < 16) (hclean : 0 ∉ kind) :
    copyTo 16 (cString kind) = kind ∧ orElse kind (ascii "audio") = kind := by
  have hkeep : cString kind = kind := List.takeWhile_eq_self_iff.mpr fun c hc => by
    simp only [ne_eq, decide_not, Bool.not_eq_true', decide_eq_false_iff_not]
    exact fun heq => hclean (heq ▸ hc)
  refine ⟨?_, ?_⟩
  · rw [hkeep]
    exact List.take_of_length_le (by omega)
  · rw [orElse, if_neg (by simpa using hne)]

section Sections
variable {offer : SdpOffer} {sections : List MediaSection} (ht : Tracked offer)
  (hp : PlainOffer offer) (hk : AllKept sections offer.mlines)
include ht hp hk

omit hp hk in
/-- The section that is answered as video. -/
theorem video_section {i : Nat} (hi : some i = offer.videoMline) {m : SdpMediaLine}
    (hm : offer.mlines[i]? = some m) : m.kind = ascii "video" ∧ m.mid = offer.videoMid := by
  refine ⟨?_, ht.mid m (by rw [← hi]; exact hm)⟩
  have hfound := ht.video
  rw [← hi] at hfound
  obtain ⟨hlt, hkind, -⟩ := List.findIdx?_eq_some_iff_getElem.mp hfound.symm
  obtain ⟨_, rfl⟩ := List.getElem?_eq_some_iff.mp hm
  exact of_decide_eq_true hkind

omit hp in
theorem firstVideo_kept (hkinds : ∀ s ∈ sections, copyTo 16 (cString s.kind) = s.kind) :
    firstVideo sections = offer.videoMline := by
  have hsame : sections.map (·.kind) = offer.mlines.map (·.kind) := by
    refine List.ext_getElem? fun i => ?_
    rw [List.getElem?_map, List.getElem?_map]
    cases hs : sections[i]? with
    | none =>
      have hout := List.getElem?_eq_none_iff.mp hs
      rw [List.getElem?_eq_none_iff.mpr (hk.1 ▸ hout)]
      rfl
    | some s =>
      obtain ⟨hlt, -⟩ := List.getElem?_eq_some_iff.mp hs
      have hm := List.getElem?_eq_getElem (hk.1 ▸ hlt)
      rw [hm, Option.map_some, Option.map_some, (hk.2 i s _ hs hm).kind,
        hkinds s (List.mem_of_getElem? hs)]
  have hleft : (sections.map (·.kind)).findIdx? (· = ascii "video") = firstVideo sections := by
    rw [List.findIdx?_map]
    rfl
  have hright : (offer.mlines.map (·.kind)).findIdx? (· = ascii "video") =
      offer.mlines.findIdx? (·.kind = ascii "video") := by
    rw [List.findIdx?_map]
    rfl
  rw [← hleft, hsame, hright]
  exact ht.video.symm

omit hp in
theorem mirrors_of_kept
    (hkinds : ∀ s ∈ sections, s.kind ≠ [] ∧ s.kind.length < 16 ∧ 0 ∉ s.kind)
    (hmids : ∀ s ∈ sections, s.mid.length < 24 ∧ ∀ c ∈ s.mid, c ≠ 0 ∧ c ≠ 13) :
    Mirrors sections (offer.mlines.mapIdx (answerSection offer)) := by
  have hfirst := firstVideo_kept ht hk fun s hs =>
    (kept_of_kind (hkinds s hs).1 (hkinds s hs).2.1 (hkinds s hs).2.2).1
  refine ⟨by rw [List.length_mapIdx, hk.1], fun i o a ho ha => ?_⟩
  rw [List.getElem?_mapIdx] at ha
  obtain ⟨m, hm, rfl⟩ := Option.map_eq_some_iff.mp ha
  have hkept := hk.2 i o m ho hm
  have hmem := List.mem_of_getElem? ho
  obtain ⟨hne, hlen, hclean⟩ := hkinds o hmem
  obtain ⟨hcopy, hor⟩ := kept_of_kind hne hlen hclean
  have hmid : m.mid = o.mid := hkept.mid (hmids o hmem).1 fun c hc =>
    ⟨((hmids o hmem).2 c hc).1, ((hmids o hmem).2 c hc).2, fun heq => hkept.lineFree (heq ▸ hc)⟩
  have hkind : m.kind = o.kind := hkept.kind.trans hcopy
  rw [hfirst, answerSection]
  split
  · rename_i hvideo
    obtain ⟨hname, hvideoMid⟩ := video_section ht hvideo hm
    refine ⟨hname.symm.trans hkind, fun hsome => ?_, ?_⟩
    · rw [← hvideoMid, hmid, orElse, if_neg (by simpa using hsome)]
    · rw [← hvideo]
      simp [ascii]
  · rename_i hother
    refine ⟨by rw [hkind, hor], fun _ => hmid, ?_⟩
    simp only [true_iff]
    exact fun heq => hother heq.symm

theorem fits_of_mirrors (hm : Mirrors sections (offer.mlines.mapIdx (answerSection offer))) :
    ∀ s ∈ sections, (s.kind ≠ [] ∧ s.kind.length < 16 ∧ 0 ∉ s.kind) ∧
      s.mid.length < 24 ∧ ∀ c ∈ s.mid, c ≠ 0 ∧ c ≠ 13 := by
  intro s hs
  obtain ⟨i, hi⟩ := List.mem_iff_getElem?.mp hs
  obtain ⟨hlt, -⟩ := List.getElem?_eq_some_iff.mp hi
  obtain ⟨m, hline⟩ : ∃ m, offer.mlines[i]? = some m :=
    ⟨_, List.getElem?_eq_getElem (hk.1 ▸ hlt)⟩
  have hkept := hk.2 i s m hi hline
  have hplain := hp.mlines m (List.mem_of_getElem? hline)
  obtain ⟨hkind, hmid, -⟩ := hm.2 i s (answerSection offer i m) hi
    (by rw [List.getElem?_mapIdx, hline, Option.map_some])
  have hfit : ∀ mid : Bytes, mid.length < 24 → LineValue mid → (s.mid ≠ [] → mid = s.mid) →
      s.mid.length < 24 ∧ ∀ c ∈ s.mid, c ≠ 0 ∧ c ≠ 13 := by
    intro mid hlen hclean hsame
    by_cases hnil : s.mid = []
    · rw [hnil]
      exact ⟨by decide, fun c hc => (List.not_mem_nil hc).elim⟩
    · rw [← hsame hnil]
      exact ⟨hlen, fun c hc => ⟨(hclean c hc).1, (hclean c hc).2.1⟩⟩
  unfold answerSection at hkind hmid
  split at hkind
  · rename_i hvideo
    rw [if_pos hvideo] at hmid
    obtain ⟨-, hvideoMid⟩ := video_section ht hvideo hline
    have hname : ascii "video" = s.kind := hkind
    refine ⟨by rw [← hname]; decide, hfit _ ?_ ?_ hmid⟩
    · unfold orElse
      split
      · decide
      · rw [← hvideoMid]
        exact hkept.short
    · exact hp.videoMid.orElse (lineValue_of_all (by decide))
  · rename_i hother
    rw [if_neg hother] at hmid
    rw [hkept.kind] at hkind
    exact ⟨kind_of_kept hkind, hfit m.mid hkept.short hplain.mid hmid⟩

end Sections

/-- The answer mirrors the offer exactly when the parser sees every `m=` line and keeps
kinds and mids whole. -/
theorem answer_mirrors_offer {sdp : Bytes} {offer : SdpOffer} (hparse : sdpParseOffer sdp = .ok offer)
    {config : SdpAnswerConfig} (hconfig : PlainConfig config) {capacity : Nat} {answer : Bytes}
    (hbuild : sdpBuildAnswer offer config capacity = some answer) :
    Mirrors (mediaSections (documentLines sdp)) (mediaSections (documentLines answer)) ↔
      Fits (documentLines sdp) := by
  obtain ⟨hmlines, htracked, hplain, hvideo⟩ := sdpParseOffer_parsed hparse
  have hne : offer.mlines ≠ [] := by
    intro hnil
    have hfound := htracked.video
    rw [hnil] at hfound
    exact hvideo hfound
  have hanswer := answer_sections hplain hne hconfig hbuild
  rw [sdpLines_eq] at hanswer
  have hvisited : sdpVisited sdp = ((documentLines sdp).filter fun l => l.length < sdpLineMax).map
      cString := by
    rw [sdpVisited, sdpLines_eq, documentLines]
  have hclean : ∀ l ∈ documentLines sdp, 10 ∉ l := by
    rw [documentLines, ← sdpLines_eq]
    exact sdpLines_lineFree sdp
  have hkept : (∀ l ∈ documentLines sdp, isMedia l = true → l.length < sdpLineMax) →
      AllKept (mediaSections (documentLines sdp)) offer.mlines := by
    intro hseen
    have hstart : AllKept [] [] := ⟨rfl, fun i s m hs => by simp at hs⟩
    rw [hmlines, hvisited]
    exact sections_kept hclean hseen hstart
  have hmade : mediaSections (documentLines answer) = offer.mlines.mapIdx (answerSection offer) :=
    hanswer
  rw [hmade]
  constructor
  · intro hmirror
    have hlength := hmirror.1
    rw [List.length_mapIdx, hmlines, hvisited] at hlength
    have hseen := seen_of_length hlength
    have hall := fits_of_mirrors htracked hplain (hkept hseen) hmirror
    exact ⟨hseen, fun s hs => (hall s hs).1, fun s hs => (hall s hs).2⟩
  · intro hfits
    exact mirrors_of_kept htracked (hkept hfits.seen) hfits.kinds hfits.mids

instance (lines : List Bytes) : Decidable (Fits lines) :=
  decidable_of_iff ((lines.all fun l => !isMedia l || decide (l.length < sdpLineMax)) = true ∧
    ((mediaSections lines).all fun s => decide (s.kind ≠ [] ∧ s.kind.length < 16 ∧ 0 ∉ s.kind)) =
      true ∧
    ((mediaSections lines).all fun s => decide (s.mid.length < 24) &&
      s.mid.all fun c => decide (c ≠ 0 ∧ c ≠ 13)) = true) (by
    simp only [List.all_eq_true, decide_eq_true_eq, Bool.and_eq_true, Bool.or_eq_true,
      Bool.not_eq_true', Bool.eq_false_iff, ← imp_iff_not_or]
    exact ⟨fun h => ⟨h.1, h.2.1, h.2.2⟩, fun h => ⟨h.seen, h.kinds, h.mids⟩⟩)

/-- An offer with an audio section and a video section with these mids. -/
def offerWith (audioMid videoMid : Bytes) : Bytes :=
  crlfText [ascii "v=0", ascii "o=- 1 2 IN IP4 127.0.0.1", ascii "s=-", ascii "t=0 0",
    ascii "a=group:BUNDLE " ++ audioMid ++ ascii " " ++ videoMid,
    ascii "a=fingerprint:sha-256 00:11", ascii "a=ice-ufrag:u", ascii "a=ice-pwd:p",
    ascii "a=setup:actpass", ascii "m=audio 9 UDP/TLS/RTP/SAVPF 111", ascii "a=mid:" ++ audioMid,
    ascii "m=video 9 UDP/TLS/RTP/SAVPF 102", ascii "a=mid:" ++ videoMid,
    ascii "a=rtpmap:102 H264/90000",
    ascii "a=fmtp:102 packetization-mode=1;profile-level-id=42e01f"]

def camAnswer : SdpAnswerConfig :=
  ⟨ascii "sha-256 AA:BB", ascii "cam", ascii "secret", [ascii "10.0.0.1"], 5000, 1⟩

theorem answered_of_any {sdp : Bytes} {config : SdpAnswerConfig} {capacity : Nat}
    {check : Bytes → Bool}
    (h : ((sdpParseOffer sdp).toOption.bind (sdpBuildAnswer · config capacity)).any check = true) :
    ∃ offer answer, sdpParseOffer sdp = .ok offer ∧
      sdpBuildAnswer offer config capacity = some answer ∧ check answer = true := by
  obtain ⟨answer, hanswer, hcheck⟩ := Option.any_eq_true _ _ |>.mp h
  obtain ⟨offer, hoffer, hbuild⟩ := Option.bind_eq_some_iff.mp hanswer
  refine ⟨offer, answer, ?_, hbuild, hcheck⟩
  cases hparse : sdpParseOffer sdp with
  | error _ => rw [hparse] at hoffer; cases hoffer
  | ok parsed => rw [hparse] at hoffer; cases hoffer; rfl

theorem answer_mirrors_offer_plain : ∃ offer answer,
    sdpParseOffer (offerWith (ascii "0") (ascii "1")) = .ok offer ∧
      sdpBuildAnswer offer camAnswer 4096 = some answer ∧
      Mirrors (mediaSections (documentLines (offerWith (ascii "0") (ascii "1"))))
        (mediaSections (documentLines answer)) := by
  obtain ⟨offer, answer, hparse, hbuild, -⟩ := @answered_of_any
    (offerWith (ascii "0") (ascii "1")) camAnswer 4096 (fun _ => true) (by decide +kernel)
  have hconfig : PlainConfig camAnswer := ⟨by decide, by decide, by decide, by decide⟩
  have hfits : Fits (documentLines (offerWith (ascii "0") (ascii "1"))) := by decide
  exact ⟨offer, answer, hparse, hbuild, (answer_mirrors_offer hparse hconfig hbuild).mpr hfits⟩

/-- A mid of 36 letters comes back cut. -/
theorem long_mid_cut : ∃ offer answer,
    sdpParseOffer (offerWith (ascii "6f1ed002-ab5d-4c8e-9a0e-0f6b3c1d2e4f") (ascii "1")) =
        .ok offer ∧
      sdpBuildAnswer offer camAnswer 4096 = some answer ∧
      ¬ Mirrors (mediaSections (documentLines
          (offerWith (ascii "6f1ed002-ab5d-4c8e-9a0e-0f6b3c1d2e4f") (ascii "1"))))
        (mediaSections (documentLines answer)) := by
  obtain ⟨offer, answer, hparse, hbuild, hcheck⟩ := @answered_of_any
    (offerWith (ascii "6f1ed002-ab5d-4c8e-9a0e-0f6b3c1d2e4f") (ascii "1")) camAnswer 4096
    (fun answer => (mediaSections (documentLines answer))[0]? =
      some ⟨ascii "audio", ascii "0", ascii "6f1ed002-ab5d-4c8e-9a0e"⟩) (by decide +kernel)
  refine ⟨offer, answer, hparse, hbuild, fun hmirror => ?_⟩
  have hoffered : (mediaSections (documentLines
      (offerWith (ascii "6f1ed002-ab5d-4c8e-9a0e-0f6b3c1d2e4f") (ascii "1"))))[0]? =
      some ⟨ascii "audio", ascii "9", ascii "6f1ed002-ab5d-4c8e-9a0e-0f6b3c1d2e4f"⟩ := by
    decide +kernel
  obtain ⟨-, hmid, -⟩ := hmirror.2 0 _ _ hoffered (of_decide_eq_true hcheck)
  exact absurd (hmid (by decide)) (by decide)

end Camstream.Proofs.SdpMirror
