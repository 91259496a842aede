import Camstream.Proofs.SdpSections
import Camstream.Webrtc.CheckedSdp

namespace Camstream.Proofs.AnswerBuffer
open Lib Webrtc SdpAnswer SdpSections

/-- The complete answer: all sections and candidate lines. -/
def answerText (offer : SdpOffer) (config : SdpAnswerConfig) (address : Bytes)
    (others : List Bytes) : Bytes :=
  (answerTexts offer config address others).flatten

/-- Each of the texts has a length that `vsnprintf` can return. -/
def Printable (texts : List Bytes) : Prop := ∀ text ∈ texts, text.length ≤ Checked.intMax

/-- A text that fits stands behind what was written before, with a NUL. -/
theorem append_fits {out done text : Bytes} (hdone : done <+: out)
    (hroom : done.length + text.length < out.length) (hprint : text.length ≤ Checked.intMax) :
    ∃ out', Checked.append (out, done.length) text = some (out', (done ++ text).length) ∧
      out'.length = out.length ∧ done ++ text ++ [0] <+: out' := by
  have hcut : text.take (out.length - done.length - 1) = text :=
    List.take_of_length_le (by omega)
  obtain ⟨out', hstore, hlength, hfront⟩ := @storeRange_front out done (text ++ [0]) hdone (by simp; omega)
  refine ⟨out', ?_, hlength, by simpa using hfront⟩
  simp only [Checked.append]
  rw [if_neg (by omega), hcut, hstore]
  simp only [bind, Option.bind, pure]
  rw [if_neg (by omega), if_pos hroom, List.length_append]

/-- One that does not ends the answer. -/
theorem append_full {out done text : Bytes} (hdone : done <+: out)
    (h : ¬(done.length + text.length < out.length ∧ text.length ≤ Checked.intMax)) :
    ∃ out', Checked.append (out, done.length) text = some (out', out.length) ∧
      out'.length = out.length := by
  have hle := hdone.length_le
  simp only [Checked.append]
  by_cases hend : done.length ≥ out.length
  · exact ⟨out, if_pos hend, rfl⟩
  have hcut : (text.take (out.length - done.length - 1) ++ [0]).length ≤
      out.length - done.length := by
    simp only [List.length_append, List.length_take, List.length_singleton]
    omega
  obtain ⟨out', hstore, hlength, -⟩ := @storeRange_front out done
    (text.take (out.length - done.length - 1) ++ [0]) hdone (by omega)
  refine ⟨out', ?_, hlength⟩
  rw [if_neg hend, hstore]
  simp only [bind, Option.bind, pure]
  split
  · rfl
  · rw [if_neg (by omega)]

/-- Nothing is written any more. -/
theorem appends_full (out : Bytes) (texts : List Bytes) :
    texts.foldlM Checked.append (out, out.length) = some (out, out.length) := by
  induction texts with
  | nil => rfl
  | cons text texts ih =>
    have hone : Checked.append (out, out.length) text = some (out, out.length) :=
      if_pos (Nat.le_refl _)
    rw [List.foldlM_cons, hone]
    exact ih

/-- The texts that follow what is there already. Behind the last one there is a NUL. -/
theorem appends_spec {out done : Bytes} (hdone : done <+: out) (texts : List Bytes)
    (hlast : texts = [] → done ++ [0] <+: out) :
    ∃ out' offset, texts.foldlM Checked.append (out, done.length) = some (out', offset) ∧
      out'.length = out.length ∧
      ((done ++ texts.flatten).length < out.length ∧ Printable texts →
        offset = (done ++ texts.flatten).length ∧ done ++ texts.flatten ++ [0] <+: out') ∧
      (¬((done ++ texts.flatten).length < out.length ∧ Printable texts) → offset = out.length) := by
  induction texts generalizing out done with
  | nil =>
    have hlength := (hlast rfl).length_le
    refine ⟨out, done.length, rfl, rfl, fun _ => ⟨by simp, by simpa using hlast rfl⟩, fun h => ?_⟩
    refine absurd ⟨?_, fun _ hm => absurd hm List.not_mem_nil⟩ h
    simpa using hlength
  | cons text texts ih =>
    rw [List.foldlM_cons]
    by_cases hfit : done.length + text.length < out.length ∧ text.length ≤ Checked.intMax
    · obtain ⟨out₁, hone, hsame, hdone₁⟩ := append_fits hdone hfit.1 hfit.2
      obtain ⟨out', offset, hrun, hlength, hall, hnot⟩ :=
        ih ((List.prefix_append _ [0]).trans hdone₁) fun _ => hdone₁
      rw [hsame, List.append_assoc, ← List.flatten_cons] at hall hnot
      refine ⟨out', offset, ?_, hlength.trans hsame, ?_, ?_⟩
      · rw [hone]
        exact hrun
      · intro h
        exact hall ⟨h.1, fun t ht => h.2 t (List.mem_cons_of_mem text ht)⟩
      · intro h
        refine hnot fun hrest => h ⟨hrest.1, ?_⟩
        intro t ht
        rcases List.mem_cons.mp ht with rfl | ht
        · exact hfit.2
        · exact hrest.2 t ht
    · obtain ⟨out₁, hone, hsame⟩ := append_full hdone hfit
      refine ⟨out₁, out.length, ?_, hsame, ?_, fun _ => rfl⟩
      · rw [hone, ← hsame]
        exact appends_full out₁ texts
      · intro h
        refine absurd ⟨?_, h.2 text List.mem_cons_self⟩ hfit
        have hlt := h.1
        simp only [List.length_append, List.flatten_cons] at hlt
        omega

theorem all_appends (out : Bytes) {texts : List Bytes} (hne : texts ≠ []) :
    ∃ out' offset, texts.foldlM Checked.append (out, 0) = some (out', offset) ∧
      out'.length = out.length ∧
      (texts.flatten.length < out.length ∧ Printable texts →
        offset = texts.flatten.length ∧ texts.flatten ++ [0] <+: out') ∧
      (¬(texts.flatten.length < out.length ∧ Printable texts) → offset = out.length) := by
  have hspec := @appends_spec out [] List.nil_prefix texts fun h => absurd h hne
  simpa only [List.length_nil, List.nil_append] using hspec

theorem answerTexts_ne_nil (offer : SdpOffer) (config : SdpAnswerConfig) (address : Bytes)
    (others : List Bytes) : answerTexts offer config address others ≠ [] := List.cons_ne_nil _ _

theorem sdpAppend_offset {limit : Nat} (texts : List Bytes) (out : Bytes) {offset : Nat}
    (hle : offset ≤ limit) : (texts.foldl (sdpAppend limit) (out, offset)).2 =
      min limit (offset + texts.flatten.length) := by
  induction texts generalizing out offset with
  | nil => simp [hle]
  | cons text texts ih =>
    have hone : (sdpAppend limit (out, offset) text).2 = min limit (offset + text.length) := by
      unfold sdpAppend
      split
      · dsimp only at *
        omega
      · dsimp only
        split <;> omega
    rw [List.foldl_cons, ← Prod.eta (sdpAppend limit (out, offset) text), hone,
      ih _ (Nat.min_le_left _ _), List.flatten_cons, List.length_append]
    omega

/-- The complete answer fits the buffer, and every text can be printed. -/
def Fits (offer : SdpOffer) (config : SdpAnswerConfig) (address : Bytes) (others : List Bytes)
    (out : Bytes) : Prop :=
  (answerText offer config address others).length < out.length ∧
    Printable (answerTexts offer config address others)

section Answer
variable {config : SdpAnswerConfig} {address : Bytes} {others : List Bytes}
  (hips : config.candidateIps = address :: others)
include hips

theorem answer_complete {offer : SdpOffer} {out : Bytes} (h : Fits offer config address others out) :
    ∃ out', Checked.sdpBuildAnswer offer config out =
        some (out', (answerText offer config address others).length) ∧
      out'.length = out.length ∧ answerText offer config address others ++ [0] <+: out' := by
  have hne := answerTexts_ne_nil offer config address others
  unfold Checked.sdpBuildAnswer
  unfold Fits answerText at h
  unfold answerText
  rw [hips]
  dsimp only
  generalize answerTexts offer config address others = texts at *
  obtain ⟨out', offset, hrun, hlength, hall, -⟩ := all_appends out hne
  obtain ⟨rfl, hfront⟩ := hall h
  have hfit := h.1
  refine ⟨out', ?_, hlength, hfront⟩
  rw [if_neg (by omega), hrun]
  simp only [bind, Option.bind, pure]
  exact if_neg (by rw [hlength]; exact Nat.not_le_of_lt hfit)

theorem answer_refused {offer : SdpOffer} {out : Bytes} (h : ¬Fits offer config address others out) :
    ∃ out', Checked.sdpBuildAnswer offer config out = some (out', 0) ∧
      out'.length = out.length ∧ cString out' = [] := by
  have hne := answerTexts_ne_nil offer config address others
  unfold Checked.sdpBuildAnswer
  unfold Fits answerText at h
  rw [hips]
  dsimp only
  generalize answerTexts offer config address others = texts at *
  by_cases hempty : out.length = 0
  · refine ⟨out, if_pos hempty, rfl, ?_⟩
    rw [List.length_eq_zero_iff.mp hempty]
    rfl
  obtain ⟨out', offset, hrun, hlength, -, hnot⟩ := all_appends out hne
  have hoffset := hnot h
  obtain ⟨out₂, hstore, hsame, rest, hrest⟩ := @storeRange_front out' [] [0] List.nil_prefix
    (by simp; omega)
  rw [List.length_nil] at hstore
  refine ⟨out₂, ?_, hsame.trans hlength, ?_⟩
  · rw [if_neg hempty, hrun]
    simp only [bind, Option.bind, pure]
    rw [if_pos (by omega), hstore]
  · rw [← hrest]
    rfl

/-- The function returns the length of the complete answer, which the buffer then holds, or 0
with the empty string in the buffer. -/
theorem answer_all_or_nothing (offer : SdpOffer) (out : Bytes) :
    ∃ out' n, Checked.sdpBuildAnswer offer config out = some (out', n) ∧
      out'.length = out.length ∧
      (Fits offer config address others out →
        n = (answerText offer config address others).length ∧
          answerText offer config address others ++ [0] <+: out') ∧
      (¬Fits offer config address others out → n = 0 ∧ cString out' = []) := by
  by_cases h : Fits offer config address others out
  · obtain ⟨out', hbuilt, hlength, hfront⟩ := answer_complete hips h
    exact ⟨out', _, hbuilt, hlength, fun _ => ⟨rfl, hfront⟩, fun hn => absurd h hn⟩
  · obtain ⟨out', hbuilt, hlength, hempty⟩ := answer_refused hips h
    exact ⟨out', 0, hbuilt, hlength, fun hf => absurd hf h, fun _ => ⟨rfl, hempty⟩⟩

/-- While every text can be printed, the buffer holds the answer of the other model. -/
theorem answer_agrees {offer : SdpOffer} {out : Bytes}
    (hprint : Printable (answerTexts offer config address others)) :
    ∃ out', Checked.sdpBuildAnswer offer config out =
        some (out', (sdpBuildAnswer offer config out.length).elim 0 List.length) ∧
      ∀ answer ∈ sdpBuildAnswer offer config out.length, answer ++ [0] <+: out' := by
  have hmodel : sdpBuildAnswer offer config out.length =
      if (answerText offer config address others).length < out.length then
        some (answerText offer config address others) else none := by
    unfold sdpBuildAnswer answerText
    rw [hips]
    dsimp only
    generalize answerTexts offer config address others = texts
    have hoffset := sdpAppend_offset texts [] (Nat.zero_le out.length)
    split
    · rw [if_neg (by omega)]
    · split
      · rw [if_neg (by omega)]
      · have hcomplete := @sdpAppend_complete out.length texts [] (by simp; omega)
          (Nat.lt_of_not_le (by assumption))
        rw [if_pos (by omega)]
        exact congrArg some hcomplete
  rw [hmodel]
  by_cases hfits : (answerText offer config address others).length < out.length
  · obtain ⟨out', hbuilt, -, hfront⟩ := answer_complete hips ⟨hfits, hprint⟩
    simp only [if_pos hfits, Option.elim_some, Option.mem_some_iff, forall_eq']
    exact ⟨out', hbuilt, hfront⟩
  · obtain ⟨out', hbuilt, -⟩ := @answer_refused _ _ _ hips offer out fun h => hfits h.1
    simp only [if_neg hfits, Option.elim_none]
    exact ⟨out', hbuilt, fun _ h => nomatch h⟩

end Answer

def oneAddress (fingerprint : Bytes) : SdpAnswerConfig :=
  { fingerprint, iceUfrag := [], icePwd := [], candidateIps := [ascii "10.0.0.1"], udpPort := 5000
    ssrc := 1 }

/-- The least that makes an offer. -/
def smallOffer : Bytes :=
  crlfText [ascii "a=ice-ufrag:u", ascii "a=ice-pwd:p", ascii "a=fingerprint:f", ascii "m=video",
    ascii "a=rtpmap:96 H264/90000", ascii "a=fmtp:96 packetization-mode=1"]

instance (offer : SdpOffer) (config : SdpAnswerConfig) (address : Bytes) (others : List Bytes)
    (out : Bytes) : Decidable (Fits offer config address others out) :=
  inferInstanceAs (Decidable (_ ∧ ∀ text ∈ answerTexts offer config address others, _))

def smallConfig : SdpAnswerConfig := oneAddress (ascii "sha-256 AB")

def smallAnswer (offer : SdpOffer) : Bytes := answerText offer smallConfig (ascii "10.0.0.1") []

/-- Its answer fits into a kilobyte. -/
theorem answer_all_or_nothing_small : ∃ offer out' n, sdpParseOffer smallOffer = .ok offer ∧
    Checked.sdpBuildAnswer offer smallConfig (List.replicate 1024 7) = some (out', n) ∧ 0 < n ∧
    smallAnswer offer ++ [0] <+: out' := by
  have hany : (sdpParseOffer smallOffer).toOption.any (fun offer => decide
      (0 < (smallAnswer offer).length ∧
        Fits offer smallConfig (ascii "10.0.0.1") [] (List.replicate 1024 7))) = true := by
    decide +kernel
  obtain ⟨offer, hparse, hoffer⟩ := accepted_of_any hany
  obtain ⟨hpos, hfits⟩ := of_decide_eq_true hoffer
  obtain ⟨out', n, hbuilt, -, hcomplete, -⟩ :=
    @answer_all_or_nothing smallConfig (ascii "10.0.0.1") [] rfl offer (List.replicate 1024 7)
  obtain ⟨hn, hfront⟩ := hcomplete hfits
  exact ⟨offer, out', n, hparse, hbuilt, hn ▸ hpos, hfront⟩

theorem long_fingerprint_unfit {config : SdpAnswerConfig}
    (hlong : Checked.intMax < config.fingerprint.length) (offer : SdpOffer) (address : Bytes)
    (others : List Bytes) (out : Bytes) : ¬Fits offer config address others out := by
  intro hfits
  have hprint := hfits.2 (answerSessionLines offer config address) (by
    unfold answerTexts
    exact List.mem_cons_self)
  unfold answerSessionLines at hprint
  simp only [List.length_append] at hprint
  omega

theorem long_fingerprint_refused {fingerprint : Bytes}
    (hlong : Checked.intMax < fingerprint.length) (offer : SdpOffer) (capacity : Nat) :
    ∃ out', Checked.sdpBuildAnswer offer (oneAddress fingerprint) (List.replicate capacity 7) =
      some (out', 0) := by
  obtain ⟨out', hbuilt, -⟩ := @answer_refused (oneAddress fingerprint) (ascii "10.0.0.1") [] rfl
    offer (List.replicate capacity 7) (long_fingerprint_unfit hlong offer _ [] _)
  exact ⟨out', hbuilt⟩

/-- With a fingerprint of 2 GiB the answer is refused, though the buffer has room for it. -/
theorem huge_text_refused : ∃ offer out', sdpParseOffer smallOffer = .ok offer ∧
    Checked.sdpBuildAnswer offer (oneAddress (List.replicate 2147483648 65))
      (List.replicate ((answerText offer (oneAddress (List.replicate 2147483648 65))
        (ascii "10.0.0.1") []).length + 1) 7) = some (out', 0) := by
  obtain ⟨offer, hparse, -⟩ := @accepted_of_any smallOffer (fun _ => true) (by decide +kernel)
  have hlong : Checked.intMax < (List.replicate 2147483648 (65 : UInt8)).length := by
    rw [List.length_replicate]
    exact Nat.lt_succ_self 2147483647
  obtain ⟨out', hbuilt⟩ := long_fingerprint_refused hlong offer _
  exact ⟨offer, out', hparse, hbuilt⟩

end Camstream.Proofs.AnswerBuffer
