import Camstream.Lib.Lines
import Camstream.Webrtc.Sdp

namespace Camstream.Proofs.SdpAnswer
open Lib Webrtc

/-- A line without the CR and LF at its end. -/
def stripLine (line : Bytes) : Bytes := line.rdropWhile fun c => c = 13 ∨ c = 10

theorem stripLine_cr (line : Bytes) : stripLine (line ++ [13]) = stripLine line := by
  rw [stripLine, List.rdropWhile_concat_pos _ _ _ (by decide)]
  rfl

/-- What the loop of `sdp_for_each_line` meets are the lines of the text. -/
theorem sdpLines_eq (sdp : Bytes) : sdpLines sdp = (textLines sdp).map stripLine := by
  induction hn : sdp.length using Nat.strong_induction_on generalizing sdp with
  | _ n ih =>
    cases sdp with
    | nil =>
      rw [sdpLines]
      rfl
    | cons c rest =>
      have hsplit := (List.takeWhile_append_dropWhile (p := fun c => decide (c ≠ 10))
        (l := c :: rest)).symm
      have hclean : 10 ∉ (c :: rest).takeWhile fun c => decide (c ≠ 10) := fun h => by
        simpa using List.mem_takeWhile_imp h
      rw [sdpLines]
      cases hd : (c :: rest).dropWhile fun c => decide (c ≠ 10) with
      | nil =>
        rw [hd, List.append_nil] at hsplit
        rw [← hsplit, List.drop_eq_nil_of_le (Nat.le_succ _), textLines_last (hsplit ▸ hclean)
          (List.cons_ne_nil c rest), sdpLines]
        rfl
      | cons d behind =>
        have hlf : d = 10 := by
          have hnot := List.head?_dropWhile_not (fun c => decide (c ≠ 10)) (c :: rest)
          rw [hd] at hnot
          simpa using hnot
        rw [hd, hlf] at hsplit
        generalize ((c :: rest).takeWhile fun c => decide (c ≠ 10)) = line at hsplit hclean
        have hshort : behind.length < n := by
          rw [← hn, hsplit, List.length_append, List.length_cons]
          omega
        have hbehind : (line ++ 10 :: behind).drop (line.length + 1) = behind := by
          rw [List.drop_append]
          simp
        rw [hsplit, hbehind, textLines_cons hclean, ih behind.length hshort behind rfl]
        rfl

def isMedia (line : Bytes) : Bool := (ascii "m=").isPrefixOf line

def isMid (line : Bytes) : Bool := (ascii "a=mid:").isPrefixOf line

def firstToken (text : Bytes) : Bytes := (text.dropWhile (· = 32)).takeWhile (· ≠ 32)

/-- A media section as a reader of the document sees it. An absent mid is empty. -/
structure MediaSection where
  kind : Bytes
  port : Bytes
  mid : Bytes
deriving Repr, DecidableEq

/-- `m=<media> <port> ...` -/
def mediaSection (line : Bytes) : MediaSection :=
  ⟨firstToken (line.drop 2),
    firstToken (((line.drop 2).dropWhile (· = 32)).dropWhile (· ≠ 32)), []⟩

/-- A mid belongs to the section it stands in, and what is written last wins. -/
def noteLine (sections : List MediaSection) (line : Bytes) : List MediaSection :=
  if isMedia line then sections ++ [mediaSection line]
  else if isMid line then
    sections.modify (sections.length - 1) ({ · with mid := line.drop 6 })
  else sections

/-- The media sections of a document. -/
def mediaSections (lines : List Bytes) : List MediaSection := lines.foldl noteLine []

theorem stripLine_behind (a b : Bytes) {c : UInt8} (hc : c ≠ 13 ∧ c ≠ 10) :
    stripLine (a ++ c :: b) = a ++ c :: stripLine b := by
  have hkeep : ∀ l : Bytes, stripLine (l ++ [c]) = l ++ [c] := by
    intro l
    exact List.rdropWhile_concat_neg _ _ _ (by simp [hc])
  induction b using List.reverseRecOn with
  | nil => exact hkeep a
  | append_singleton b x ih =>
    have hassoc : a ++ c :: (b ++ [x]) = (a ++ c :: b) ++ [x] := by simp
    rw [hassoc]
    by_cases hx : x = 13 ∨ x = 10
    · have hdrop : ∀ l : Bytes, stripLine (l ++ [x]) = stripLine l := by
        intro l
        exact List.rdropWhile_concat_pos _ _ _ (by simpa using hx)
      rw [hdrop, hdrop, ih]
    · have hstay : ∀ l : Bytes, stripLine (l ++ [x]) = l ++ [x] := by
        intro l
        exact List.rdropWhile_concat_neg _ _ _ (by simpa using hx)
      rw [hstay, hstay]
      simp

theorem stripLine_le (line : Bytes) : stripLine line <+: line := List.rdropWhile_prefix _ _

theorem stripLine_clean {line : Bytes} (h : ∀ c ∈ line, c ≠ 13 ∧ c ≠ 10) :
    stripLine line = line := by
  cases hl : line.reverse with
  | nil => rw [List.reverse_eq_nil_iff.mp hl]; rfl
  | cons c rest =>
    have hline : line = rest.reverse ++ [c] := by
      rw [← List.reverse_reverse line, hl, List.reverse_cons]
    have hc := h c (by rw [hline]; simp)
    rw [hline]
    exact List.rdropWhile_concat_neg _ _ _ (by simpa using hc)

/-- The line opens no section and carries no mid. -/
def Neutral (line : Bytes) : Prop := isMedia line = false ∧ isMid line = false

theorem Neutral.strip {line : Bytes} (h : Neutral line) : Neutral (stripLine line) := by
  have hshort : ∀ {marker : Bytes}, marker.isPrefixOf line = false →
      marker.isPrefixOf (stripLine line) = false := by
    intro marker hnot
    rw [← Bool.not_eq_true] at hnot ⊢
    intro hmarker
    refine hnot (List.isPrefixOf_iff_prefix.mpr ?_)
    exact (List.isPrefixOf_iff_prefix.mp hmarker).trans (stripLine_le line)
  exact ⟨hshort h.1, hshort h.2⟩

theorem noteLine_neutral (sections : List MediaSection) {lines : List Bytes}
    (h : ∀ l ∈ lines, Neutral l) : (lines.map stripLine).foldl noteLine sections = sections := by
  induction lines with
  | nil => rfl
  | cons line lines ih =>
    have hline := (h line (by simp)).strip
    have hone : noteLine sections (stripLine line) = sections := by
      simp [noteLine, hline.1, hline.2]
    rw [List.map_cons, List.foldl_cons, hone, ih fun l hl => h l (by simp [hl])]

/-- An `m=` line with this kind and port. -/
theorem noteLine_media (sections : List MediaSection) {kind port rest : Bytes} (hkind : kind ≠ [])
    (hspace : 32 ∉ kind) (hport : port ≠ []) (hspace' : 32 ∉ port) :
    noteLine sections (stripLine (ascii "m=" ++ kind ++ 32 :: (port ++ 32 :: rest))) =
      sections ++ [⟨kind, port, []⟩] := by
  have htoken : ∀ {token rest : Bytes}, token ≠ [] → 32 ∉ token →
      (token ++ 32 :: rest).dropWhile (· = 32) = token ++ 32 :: rest ∧
      (token ++ 32 :: rest).takeWhile (· ≠ 32) = token ∧
      (token ++ 32 :: rest).dropWhile (· ≠ 32) = 32 :: rest := by
    intro token rest hne hnone
    have hall : ∀ c ∈ token, decide (c ≠ 32) = true := by
      intro c hc
      simp only [ne_eq, decide_not, Bool.not_eq_true', decide_eq_false_iff_not]
      exact fun heq => hnone (heq ▸ hc)
    refine ⟨?_, ?_, ?_⟩
    · cases token with
      | nil => exact absurd rfl hne
      | cons c token =>
        have hc := hall c (by simp)
        rw [List.cons_append, List.dropWhile_cons_of_neg]
        simpa using hc
    · rw [List.takeWhile_append_of_pos hall]
      simp
    · rw [List.dropWhile_append_of_pos hall]
      simp
  have hstrip : stripLine (ascii "m=" ++ kind ++ 32 :: (port ++ 32 :: rest)) =
      ascii "m=" ++ (kind ++ 32 :: (port ++ 32 :: stripLine rest)) := by
    have hassoc : ascii "m=" ++ kind ++ 32 :: (port ++ 32 :: rest) =
        (ascii "m=" ++ kind ++ 32 :: port) ++ 32 :: rest := by simp
    rw [hassoc, stripLine_behind _ _ (by decide)]
    simp
  obtain ⟨hdrop, htake, hrest⟩ := @htoken kind (port ++ 32 :: stripLine rest) hkind hspace
  obtain ⟨hdrop', htake', -⟩ := @htoken port (stripLine rest) hport hspace'
  have hmedia : isMedia (ascii "m=" ++ (kind ++ 32 :: (port ++ 32 :: stripLine rest))) = true := rfl
  have htail : (ascii "m=" ++ (kind ++ 32 :: (port ++ 32 :: stripLine rest))).drop 2 =
      kind ++ 32 :: (port ++ 32 :: stripLine rest) := rfl
  have hspaces : (32 :: (port ++ 32 :: stripLine rest)).dropWhile (· = 32) =
      port ++ 32 :: stripLine rest := by
    rw [List.dropWhile_cons_of_pos (by decide), hdrop']
  rw [hstrip, noteLine, if_pos hmedia, mediaSection, htail]
  simp only [firstToken, hdrop, htake, hrest, hspaces, htake']

theorem noteLine_mid (sections : List MediaSection) (s : MediaSection) {mid : Bytes}
    (h : ∀ c ∈ mid, c ≠ 13 ∧ c ≠ 10) :
    noteLine (sections ++ [s]) (stripLine (ascii "a=mid:" ++ mid)) =
      sections ++ [{ s with mid }] := by
  have hstrip : stripLine (ascii "a=mid:" ++ mid) = ascii "a=mid:" ++ mid := by
    have hassoc : ascii "a=mid:" ++ mid = ascii "a=mid" ++ 58 :: mid := rfl
    rw [hassoc, stripLine_behind _ _ (by decide), stripLine_clean h]
  have hmid : isMid (ascii "a=mid:" ++ mid) = true := rfl
  have hvalue : (ascii "a=mid:" ++ mid).drop 6 = mid := rfl
  rw [hstrip, noteLine, if_neg (by simp [isMedia, ascii]), if_pos hmid, hvalue,
    List.modify_eq_set_getElem?]
  simp

/-- The lines of the answer in front of its sections. -/
def sessionLines (offer : SdpOffer) (config : SdpAnswerConfig) (address : Bytes) : List Bytes :=
  [ascii "v=0", ascii "o=- 1 1 IN IP4 " ++ address, ascii "s=camstream", ascii "t=0 0",
    ascii "a=ice-lite", ascii "a=group:BUNDLE " ++ orElse offer.videoMid (ascii "video"),
    ascii "a=msid-semantic: WMS camstream", ascii "a=fingerprint:" ++ config.fingerprint,
    ascii "a=setup:passive", ascii "a=ice-ufrag:" ++ config.iceUfrag,
    ascii "a=ice-pwd:" ++ config.icePwd]

def rejectedLines (m : SdpMediaLine) : List Bytes :=
  [ascii "m=" ++ orElse m.kind (ascii "audio") ++ ascii " 0 " ++
      orElse m.proto (ascii "UDP/TLS/RTP/SAVPF") ++ ascii " " ++ orElse m.fmt (ascii "0"),
    ascii "c=IN IP4 0.0.0.0", ascii "a=inactive"] ++
  if m.mid.isEmpty then [] else [ascii "a=mid:" ++ m.mid]

/-- Candidate number `i` without its line end. -/
def candidateLine (config : SdpAnswerConfig) (i : Nat) (ip : Bytes) : Bytes :=
  ascii "a=candidate:" ++ decimal (i + 1) ++ ascii " 1 udp " ++ decimal (2130706431 - i * 10) ++
    ascii " " ++ ip ++ ascii " " ++ decimal config.udpPort.toNat ++ ascii " typ host generation 0"

def candidateLines (config : SdpAnswerConfig) (address : Bytes) (i : Nat) : List Bytes → List Bytes
  | [] => []
  | ip :: ips =>
    (if ip.isEmpty ∨ ip = address then [] else [candidateLine config i ip]) ++
      candidateLines config address (i + 1) ips

/-- What follows the mid of the video section. -/
def videoAttributes (offer : SdpOffer) (config : SdpAnswerConfig) : List Bytes :=
  let pt := signedDecimal offer.h264PayloadType
  let ssrc := decimal config.ssrc.toNat
  [ascii "a=ice-ufrag:" ++ config.iceUfrag, ascii "a=ice-pwd:" ++ config.icePwd,
    ascii "a=fingerprint:" ++ config.fingerprint, ascii "a=setup:passive", ascii "a=sendonly",
    ascii "a=rtcp-mux", ascii "a=msid:camstream camstream-video",
    ascii "a=ssrc:" ++ ssrc ++ ascii " cname:camstream",
    ascii "a=ssrc:" ++ ssrc ++ ascii " msid:camstream camstream-video",
    ascii "a=rtpmap:" ++ pt ++ ascii " H264/90000",
    ascii "a=fmtp:" ++ pt ++
      ascii " level-asymmetry-allowed=1;packetization-mode=1;profile-level-id=" ++
      orElse offer.h264ProfileLevelId (ascii "42e01f"),
    ascii "a=rtcp-fb:" ++ pt ++ ascii " nack", ascii "a=rtcp-fb:" ++ pt ++ ascii " nack pli",
    ascii "a=rtcp-fb:" ++ pt ++ ascii " ccm fir"]

def videoLines (offer : SdpOffer) (config : SdpAnswerConfig) (address : Bytes)
    (others : List Bytes) : List Bytes :=
  [ascii "m=video 9 UDP/TLS/RTP/SAVPF " ++ signedDecimal offer.h264PayloadType,
    ascii "c=IN IP4 " ++ address, ascii "a=mid:" ++ orElse offer.videoMid (ascii "video")] ++
  videoAttributes offer config ++ candidateLine config 0 address ::
    candidateLines config address 1 others ++ [ascii "a=end-of-candidates"]

def answerLines (offer : SdpOffer) (config : SdpAnswerConfig) (address : Bytes)
    (others : List Bytes) : List Bytes :=
  sessionLines offer config address ++
    (offer.mlines.mapIdx fun i m =>
      if some i = offer.videoMline then videoLines offer config address others
      else rejectedLines m).flatten

theorem answerCandidates_flatten (config : SdpAnswerConfig) (address : Bytes) (i : Nat)
    (ips : List Bytes) :
    (answerCandidates config address i ips).flatten =
      crlfText (candidateLines config address i ips) := by
  induction ips generalizing i with
  | nil => rfl
  | cons ip ips ih =>
    rw [answerCandidates, candidateLines, List.flatten_append, ih, crlfText_append]
    split
    · rfl
    · simp [answerCandidate, candidateLine, crlf]

theorem answerVideo_flatten (offer : SdpOffer) (config : SdpAnswerConfig) (address : Bytes)
    (others : List Bytes) :
    (answerVideoLines offer config address :: answerCandidate config 0 address ::
      answerCandidates config address 1 others ++ [ascii "a=end-of-candidates" ++ crlf]).flatten =
      crlfText (videoLines offer config address others) := by
  have hcandidates := answerCandidates_flatten config address 1 others
  unfold videoLines videoAttributes answerVideoLines answerCandidate candidateLine crlf
  simp only [List.cons_append, List.nil_append, List.flatten_cons, List.flatten_append, hcandidates,
    crlfText_cons, crlfText_append, crlfText_nil, List.flatten_nil]
  simp only [List.append_assoc]
  simp only [List.cons_append, List.nil_append]

theorem answerRejected_flatten (m : SdpMediaLine) :
    (answerRejected m).flatten = crlfText (rejectedLines m) := by
  unfold answerRejected rejectedLines
  split <;> simp [crlf]

theorem mapIdx_flatten {α : Type} {f : Nat → α → List Bytes} {g : Nat → α → List Bytes}
    (h : ∀ i a, (f i a).flatten = crlfText (g i a)) (l : List α) :
    (l.mapIdx f).flatten.flatten = crlfText (l.mapIdx g).flatten := by
  induction l generalizing f g with
  | nil => rfl
  | cons a l ih =>
    have htail := ih (f := fun i => f (i + 1)) (g := fun i => g (i + 1)) fun i => h (i + 1)
    simp only [List.mapIdx_cons, List.flatten_cons, List.flatten_append, crlfText_append, h 0 a,
      htail]

/-- The answer is made of lines. -/
theorem answerTexts_flatten {offer : SdpOffer} (hne : offer.mlines ≠ []) (config : SdpAnswerConfig)
    (address : Bytes) (others : List Bytes) :
    (answerTexts offer config address others).flatten =
      crlfText (answerLines offer config address others) := by
  have hsession : answerSessionLines offer config address =
      crlfText (sessionLines offer config address) := by
    unfold answerSessionLines sessionLines crlf
    simp only [crlfText_cons, crlfText_nil]
    simp only [List.append_assoc]
    simp only [List.cons_append, List.nil_append]
  have hsome : offer.mlines.isEmpty = false := by simpa using hne
  rw [answerTexts, answerLines, crlfText_append, ← hsession]
  simp only [hsome, Bool.false_eq_true, if_false, List.flatten_cons]
  refine congrArg (answerSessionLines offer config address ++ ·) (mapIdx_flatten ?_ offer.mlines)
  intro i m
  split
  · exact answerVideo_flatten offer config address others
  · exact answerRejected_flatten m

/-- An answer that fits is complete. -/
theorem sdpAppend_complete {limit : Nat} (texts : List Bytes) {out : Bytes} (hout : out.length < limit)
    (h : (texts.foldl (sdpAppend limit) (out, out.length)).2 < limit) :
    (texts.foldl (sdpAppend limit) (out, out.length)).1 = out ++ texts.flatten := by
  have hfull : ∀ (texts : List Bytes) (out : Bytes),
      (texts.foldl (sdpAppend limit) (out, limit)).2 = limit := by
    intro texts
    induction texts with
    | nil => exact fun _ => rfl
    | cons text texts ih =>
      intro out
      rw [List.foldl_cons, sdpAppend, if_pos (Nat.le_refl limit)]
      exact ih out
  induction texts generalizing out with
  | nil => simp
  | cons text texts ih =>
    rw [List.foldl_cons] at h ⊢
    by_cases hfit : out.length + text.length < limit
    · have hone : sdpAppend limit (out, out.length) text =
          (out ++ text, (out ++ text).length) := by
        rw [sdpAppend, if_neg (by dsimp only; omega), List.take_of_length_le (by dsimp only; omega),
          if_pos hfit, List.length_append]
      rw [hone] at h ⊢
      rw [ih (by rw [List.length_append]; exact hfit) h]
      simp
    · have hone : (sdpAppend limit (out, out.length) text).2 = limit := by
        rw [sdpAppend, if_neg (by dsimp only; omega), if_neg hfit]
      generalize sdpAppend limit (out, out.length) text = next at hone h
      obtain ⟨cut, offset⟩ := next
      subst hone
      rw [hfull] at h
      omega

theorem sdpBuildAnswer_eq {offer : SdpOffer} (hne : offer.mlines ≠ []) {config : SdpAnswerConfig}
    {capacity : Nat} {answer : Bytes} (h : sdpBuildAnswer offer config capacity = some answer) :
    ∃ address others, config.candidateIps = address :: others ∧
      answer = crlfText (answerLines offer config address others) := by
  unfold sdpBuildAnswer at h
  split at h
  · cases h
  · rename_i address others hips
    split at h
    · cases h
    · rename_i hcapacity
      dsimp only at h
      split at h
      · cases h
      · rename_i hfits
        refine ⟨address, others, hips, ?_⟩
        generalize htexts : answerTexts offer config address others = texts at h hfits
        have hcomplete := @sdpAppend_complete capacity texts [] (Nat.pos_of_ne_zero hcapacity)
          (Nat.lt_of_not_le hfits)
        rw [← Option.some.inj h, ← answerTexts_flatten hne, htexts]
        exact hcomplete

/-- The texts the server puts into an answer have no line feed. -/
structure PlainConfig (config : SdpAnswerConfig) : Prop where
  fingerprint : 10 ∉ config.fingerprint
  iceUfrag : 10 ∉ config.iceUfrag
  icePwd : 10 ∉ config.icePwd
  candidateIps : ∀ ip ∈ config.candidateIps, 10 ∉ ip

/-- A value that a line can carry and that ends where the line does. -/
def LineValue (text : Bytes) : Prop := ∀ c ∈ text, c ≠ 0 ∧ c ≠ 13 ∧ c ≠ 10

/-- What the parser keeps of a section. -/
structure PlainMedia (m : SdpMediaLine) : Prop where
  kind : 32 ∉ m.kind ∧ 10 ∉ m.kind
  proto : 10 ∉ m.proto
  fmt : 10 ∉ m.fmt
  mid : LineValue m.mid

structure PlainOffer (offer : SdpOffer) : Prop where
  mlines : ∀ m ∈ offer.mlines, PlainMedia m
  videoMid : LineValue offer.videoMid
  formats : ∀ f ∈ offer.h264, 10 ∉ f.profileLevelId
  profile : 10 ∉ offer.h264ProfileLevelId

theorem lineFree_append {a b : Bytes} (ha : 10 ∉ a) (hb : 10 ∉ b) : 10 ∉ a ++ b := by
  rw [List.mem_append]
  rintro (h | h)
  · exact ha h
  · exact hb h

theorem lineFree_decimal (n : Nat) : 10 ∉ decimal n := fun h =>
  absurd (decimal_digits n 10 h) (by decide)

theorem lineFree_signed (n : Int) : 10 ∉ signedDecimal n := by
  unfold signedDecimal
  split
  · rw [List.mem_cons]
    rintro (h | h)
    · exact absurd h (by decide)
    · exact lineFree_decimal _ h
  · exact lineFree_decimal _

theorem lineFree_orElse {a b : Bytes} (ha : 10 ∉ a) (hb : 10 ∉ b) : 10 ∉ orElse a b := by
  unfold orElse
  split
  · exact hb
  · exact ha

theorem LineValue.lineFree {text : Bytes} (h : LineValue text) : 10 ∉ text := fun hm =>
  (h 10 hm).2.2 rfl

theorem lineValue_of_all {text : Bytes} (h : text.all fun c => c != 0 && c != 13 && c != 10) :
    LineValue text := by
  intro c hc
  have hclean := List.all_eq_true.mp h c hc
  simp only [Bool.and_eq_true, bne_iff_ne] at hclean
  exact ⟨hclean.1.1, hclean.1.2, hclean.2⟩

theorem LineValue.orElse {a b : Bytes} (ha : LineValue a) (hb : LineValue b) :
    LineValue (Webrtc.orElse a b) := by
  unfold Webrtc.orElse
  split
  · exact hb
  · exact ha

section Answer
variable {offer : SdpOffer} {config : SdpAnswerConfig} (ho : PlainOffer offer)
  (hc : PlainConfig config)
include ho hc

theorem sessionLines_lineFree {address : Bytes} (ha : 10 ∉ address) :
    ∀ l ∈ sessionLines offer config address, 10 ∉ l := by
  have hmid := lineFree_orElse (b := ascii "video") ho.videoMid.lineFree (by decide)
  simp only [sessionLines, List.mem_cons, List.not_mem_nil, or_false, forall_eq_or_imp, forall_eq]
  exact ⟨by decide, lineFree_append (by decide) ha, by decide, by decide, by decide,
    lineFree_append (by decide) hmid, by decide, lineFree_append (by decide) hc.fingerprint,
    by decide, lineFree_append (by decide) hc.iceUfrag, lineFree_append (by decide) hc.icePwd⟩

omit ho hc in
theorem candidateLine_lineFree (i : Nat) {ip : Bytes} (hip : 10 ∉ ip) :
    10 ∉ candidateLine config i ip :=
  lineFree_append (lineFree_append (lineFree_append (lineFree_append (lineFree_append
    (lineFree_append (lineFree_append (lineFree_append (by decide) (lineFree_decimal _)) (by decide))
      (lineFree_decimal _)) (by decide)) hip) (by decide)) (lineFree_decimal _)) (by decide)

omit ho hc in
/-- Every line of the list is a candidate with one of these addresses. -/
theorem candidateLines_mem {address : Bytes} {i : Nat} {ips : List Bytes} {l : Bytes}
    (hl : l ∈ candidateLines config address i ips) :
    ∃ j, ∃ ip ∈ ips, l = candidateLine config j ip := by
  induction ips generalizing i with
  | nil => cases hl
  | cons ip ips ih =>
    rcases List.mem_append.mp hl with hl | hl
    · split at hl
      · cases hl
      · exact ⟨i, ip, by simp, List.mem_singleton.mp hl⟩
    · obtain ⟨j, ip', hip', rfl⟩ := ih hl
      exact ⟨j, ip', by simp [hip'], rfl⟩

theorem videoAttributes_lineFree : ∀ l ∈ videoAttributes offer config, 10 ∉ l := by
  have hpt := lineFree_signed offer.h264PayloadType
  have hssrc := lineFree_decimal config.ssrc.toNat
  have hprofile := lineFree_orElse (b := ascii "42e01f") ho.profile (by decide)
  simp only [videoAttributes, List.mem_cons, List.not_mem_nil, or_false, forall_eq_or_imp,
    forall_eq]
  exact ⟨lineFree_append (by decide) hc.iceUfrag, lineFree_append (by decide) hc.icePwd,
    lineFree_append (by decide) hc.fingerprint, by decide, by decide, by decide, by decide,
    lineFree_append (lineFree_append (by decide) hssrc) (by decide),
    lineFree_append (lineFree_append (by decide) hssrc) (by decide),
    lineFree_append (lineFree_append (by decide) hpt) (by decide),
    lineFree_append (lineFree_append (lineFree_append (by decide) hpt) (by decide)) hprofile,
    lineFree_append (lineFree_append (by decide) hpt) (by decide),
    lineFree_append (lineFree_append (by decide) hpt) (by decide),
    lineFree_append (lineFree_append (by decide) hpt) (by decide)⟩

theorem videoLines_lineFree {address : Bytes} {others : List Bytes}
    (hips : config.candidateIps = address :: others) :
    ∀ l ∈ videoLines offer config address others, 10 ∉ l := by
  have haddress : 10 ∉ address := hc.candidateIps address (by rw [hips]; simp)
  have hmid := lineFree_orElse (b := ascii "video") ho.videoMid.lineFree (by decide)
  intro l hl
  simp only [videoLines, List.mem_append, List.mem_cons, List.not_mem_nil, or_false] at hl
  rcases hl with (((rfl | rfl | rfl) | hl) | rfl | hl) | rfl
  · exact lineFree_append (by decide) (lineFree_signed _)
  · exact lineFree_append (by decide) haddress
  · exact lineFree_append (by decide) hmid
  · exact videoAttributes_lineFree ho hc l hl
  · exact candidateLine_lineFree 0 haddress
  · obtain ⟨j, ip, hip, rfl⟩ := candidateLines_mem hl
    exact candidateLine_lineFree j (hc.candidateIps ip (by rw [hips]; simp [hip]))
  · decide

end Answer

theorem rejectedLines_lineFree {m : SdpMediaLine} (h : PlainMedia m) :
    ∀ l ∈ rejectedLines m, 10 ∉ l := by
  have hkind := lineFree_orElse (b := ascii "audio") h.kind.2 (by decide)
  have hproto := lineFree_orElse (b := ascii "UDP/TLS/RTP/SAVPF") h.proto (by decide)
  have hfmt := lineFree_orElse (b := ascii "0") h.fmt (by decide)
  intro l hl
  simp only [rejectedLines, List.mem_append, List.mem_cons, List.not_mem_nil, or_false] at hl
  rcases hl with (rfl | rfl | rfl) | hl
  · exact lineFree_append (lineFree_append (lineFree_append (lineFree_append (lineFree_append
      (by decide) hkind) (by decide)) hproto) (by decide)) hfmt
  · decide
  · decide
  · split at hl
    · cases hl
    · rw [List.mem_singleton.mp hl]
      exact lineFree_append (by decide) h.mid.lineFree

/-- The section of the answer for a section of the offer. -/
def answerSection (offer : SdpOffer) (i : Nat) (m : SdpMediaLine) : MediaSection :=
  if some i = offer.videoMline then
    ⟨ascii "video", ascii "9", orElse offer.videoMid (ascii "video")⟩
  else ⟨orElse m.kind (ascii "audio"), ascii "0", m.mid⟩

theorem orElse_ne_nil {a b : Bytes} (hb : b ≠ []) : orElse a b ≠ [] := by
  unfold orElse
  split
  · exact hb
  · rename_i ha
    exact fun h => ha (by rw [h]; rfl)

theorem rejectedLines_section {m : SdpMediaLine} (h : PlainMedia m) (sections : List MediaSection) :
    ((rejectedLines m).map stripLine).foldl noteLine sections =
      sections ++ [⟨orElse m.kind (ascii "audio"), ascii "0", m.mid⟩] := by
  have hkind : 32 ∉ orElse m.kind (ascii "audio") := by
    unfold orElse
    split
    · decide
    · exact h.kind.1
  have hfirst : ascii "m=" ++ orElse m.kind (ascii "audio") ++ ascii " 0 " ++
      orElse m.proto (ascii "UDP/TLS/RTP/SAVPF") ++ ascii " " ++ orElse m.fmt (ascii "0") =
      ascii "m=" ++ orElse m.kind (ascii "audio") ++ 32 :: (ascii "0" ++ 32 ::
        (orElse m.proto (ascii "UDP/TLS/RTP/SAVPF") ++ ascii " " ++ orElse m.fmt (ascii "0"))) := by
    have hport : ascii " 0 " = 32 :: (ascii "0" ++ [32]) := rfl
    rw [hport]
    simp only [List.append_assoc, List.cons_append, List.nil_append]
  have hopen : ∀ rest, noteLine sections (stripLine (ascii "m=" ++ orElse m.kind (ascii "audio") ++
      32 :: (ascii "0" ++ 32 :: rest))) =
      sections ++ [⟨orElse m.kind (ascii "audio"), ascii "0", []⟩] := fun rest =>
    noteLine_media sections (orElse_ne_nil (by decide)) hkind (by decide) (by decide)
  have hneutral : ∀ l ∈ [ascii "c=IN IP4 0.0.0.0", ascii "a=inactive"], Neutral l := by
    simp only [List.mem_cons, List.not_mem_nil, or_false, forall_eq_or_imp, forall_eq]
    exact ⟨⟨rfl, rfl⟩, ⟨rfl, rfl⟩⟩
  have hrest := noteLine_neutral (sections ++ [⟨orElse m.kind (ascii "audio"), ascii "0", []⟩])
    hneutral
  rw [rejectedLines, List.map_append, List.foldl_append, List.map_cons, List.foldl_cons, hfirst,
    hopen, hrest]
  split
  · rename_i hempty
    rw [List.isEmpty_iff.mp hempty]
    rfl
  · rw [List.map_singleton, List.foldl_cons, List.foldl_nil,
      noteLine_mid sections _ fun c hc => (h.mid c hc).2]

theorem videoLines_section {offer : SdpOffer} (ho : PlainOffer offer) (config : SdpAnswerConfig)
    (address : Bytes) (others : List Bytes) (sections : List MediaSection) :
    ((videoLines offer config address others).map stripLine).foldl noteLine sections =
      sections ++ [⟨ascii "video", ascii "9", orElse offer.videoMid (ascii "video")⟩] := by
  have hfirst : ascii "m=video 9 UDP/TLS/RTP/SAVPF " ++ signedDecimal offer.h264PayloadType =
      ascii "m=" ++ ascii "video" ++ 32 :: (ascii "9" ++ 32 ::
        (ascii "UDP/TLS/RTP/SAVPF " ++ signedDecimal offer.h264PayloadType)) := rfl
  have hopen : ∀ rest, noteLine sections (stripLine (ascii "m=" ++ ascii "video" ++
      32 :: (ascii "9" ++ 32 :: rest))) = sections ++ [⟨ascii "video", ascii "9", []⟩] := fun rest =>
    noteLine_media sections (by decide) (by decide) (by decide) (by decide)
  have hmid := noteLine_mid sections ⟨ascii "video", ascii "9", []⟩
    fun c hc => (ho.videoMid.orElse (b := ascii "video") (lineValue_of_all (by decide)) c hc).2
  have hneutral : ∀ l ∈ videoAttributes offer config ++ candidateLine config 0 address ::
      candidateLines config address 1 others ++ [ascii "a=end-of-candidates"], Neutral l := by
    intro l hl
    simp only [videoAttributes, List.mem_append, List.mem_cons, List.not_mem_nil, or_false] at hl
    rcases hl with (hl | rfl | hl) | rfl
    · rcases hl with rfl | rfl | rfl | rfl | rfl | rfl | rfl | rfl | rfl | rfl | rfl | rfl | rfl |
        rfl <;> exact ⟨rfl, rfl⟩
    · exact ⟨rfl, rfl⟩
    · obtain ⟨j, ip, -, rfl⟩ := candidateLines_mem hl
      exact ⟨rfl, rfl⟩
    · exact ⟨rfl, rfl⟩
  have hplace : ∀ l ∈ [ascii "c=IN IP4 " ++ address], Neutral l := by
    intro l hl
    rw [List.mem_singleton.mp hl]
    exact ⟨rfl, rfl⟩
  have haddress := noteLine_neutral (sections ++ [⟨ascii "video", ascii "9", []⟩]) hplace
  have hshape : videoLines offer config address others =
      (ascii "m=video 9 UDP/TLS/RTP/SAVPF " ++ signedDecimal offer.h264PayloadType) ::
        ([ascii "c=IN IP4 " ++ address] ++ (ascii "a=mid:" ++
          orElse offer.videoMid (ascii "video")) :: (videoAttributes offer config ++
          candidateLine config 0 address :: candidateLines config address 1 others ++
          [ascii "a=end-of-candidates"])) := by
    unfold videoLines
    simp only [List.cons_append, List.nil_append, List.append_assoc]
  rw [hshape, List.map_cons, List.foldl_cons, hfirst, hopen, List.map_append, List.foldl_append,
    haddress, List.map_cons, List.foldl_cons, hmid, noteLine_neutral _ hneutral]

theorem foldl_mapIdx {α : Type} {f : Nat → α → List Bytes} {g : Nat → α → MediaSection} {l : List α}
    (h : ∀ i, ∀ a ∈ l, ∀ sections,
      ((f i a).map stripLine).foldl noteLine sections = sections ++ [g i a])
    (sections : List MediaSection) :
    ((l.mapIdx f).flatten.map stripLine).foldl noteLine sections = sections ++ l.mapIdx g := by
  induction l generalizing f g sections with
  | nil => simp
  | cons a l ih =>
    have htail := ih (f := fun i => f (i + 1)) (g := fun i => g (i + 1))
      (fun i b hb => h (i + 1) b (by simp [hb])) (sections ++ [g 0 a])
    rw [List.mapIdx_cons, List.flatten_cons, List.map_append, List.foldl_append,
      h 0 a (by simp) sections, htail, List.mapIdx_cons]
    simp

/-- The sections of the answer are those of the offer, one by one. -/
theorem answer_sections {offer : SdpOffer} (ho : PlainOffer offer) (hne : offer.mlines ≠ [])
    {config : SdpAnswerConfig} (hc : PlainConfig config) {capacity : Nat} {answer : Bytes}
    (h : sdpBuildAnswer offer config capacity = some answer) :
    mediaSections (sdpLines answer) = offer.mlines.mapIdx (answerSection offer) := by
  obtain ⟨address, others, hips, rfl⟩ := sdpBuildAnswer_eq hne h
  have haddress : 10 ∉ address := hc.candidateIps address (by rw [hips]; simp)
  have hclean : ∀ l ∈ answerLines offer config address others, 10 ∉ l := by
    intro l hl
    rcases List.mem_append.mp hl with hl | hl
    · exact sessionLines_lineFree ho hc haddress l hl
    · obtain ⟨lines, hlines, hl⟩ := List.mem_flatten.mp hl
      obtain ⟨i, hi, rfl⟩ := List.mem_mapIdx.mp hlines
      split at hl
      · exact videoLines_lineFree ho hc hips l hl
      · exact rejectedLines_lineFree (ho.mlines _ (List.getElem_mem hi)) l hl
  have hneutral : ∀ l ∈ sessionLines offer config address, Neutral l := by
    simp only [sessionLines, List.mem_cons, List.not_mem_nil, or_false, forall_eq_or_imp, forall_eq]
    exact ⟨⟨rfl, rfl⟩, ⟨rfl, rfl⟩, ⟨rfl, rfl⟩, ⟨rfl, rfl⟩, ⟨rfl, rfl⟩, ⟨rfl, rfl⟩, ⟨rfl, rfl⟩,
      ⟨rfl, rfl⟩, ⟨rfl, rfl⟩, ⟨rfl, rfl⟩, ⟨rfl, rfl⟩⟩
  have hstrip : sdpLines (crlfText (answerLines offer config address others)) =
      (answerLines offer config address others).map stripLine := by
    rw [sdpLines_eq, textLines_crlf hclean, List.map_map]
    exact List.map_congr_left fun l _ => stripLine_cr l
  rw [mediaSections, hstrip, answerLines, List.map_append, List.foldl_append,
    noteLine_neutral [] hneutral]
  refine (foldl_mapIdx (g := answerSection offer) ?_ []).trans (List.nil_append _)
  intro i m hm sections
  unfold answerSection
  split
  · exact videoLines_section ho config address others sections
  · exact rejectedLines_section (ho.mlines m hm) sections

end Camstream.Proofs.SdpAnswer
