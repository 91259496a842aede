import Camstream.Proofs.LpSdpSound

namespace Camstream.Proofs.LpSdpStable
open Lib Lpstream LpSdpRun LpSdpSound

/-- No line moves, and only candidates are left out. -/
theorem written_sublist (kept : Nat) (lines : List Bytes) :
    (written kept lines).Sublist (lines.map cleanLine) := by
  induction lines generalizing kept with
  | nil => exact List.Sublist.slnil
  | cons line lines ih =>
    rw [written, List.map_cons]
    split
    · rename_i hcandidate
      have hclean : cleanLine line = line := by rw [cleanLine, hcandidate]; rfl
      split
      · rw [hclean]
        exact (ih (kept + 1)).cons_cons line
      · exact (ih kept).cons _
    · exact (ih kept).cons_cons _

/-- What was written once is written again. -/
theorem written_twice {lines : List Bytes} (h : ∀ l ∈ lines, Accepted l) (kept : Nat) :
    written kept (written kept lines) = written kept lines := by
  induction lines generalizing kept with
  | nil => rfl
  | cons line lines ih =>
    have hrest := @ih fun l hl => h l (by simp [hl])
    have hline := h line (by simp)
    rw [written]
    split
    · rename_i hcandidate
      split
      · rename_i htaken
        rw [written, if_pos hcandidate, if_pos htaken, hrest]
      · exact hrest kept
    · rename_i hcandidate
      rw [written, lineKind_cleanLine, if_neg hcandidate, cleanLine_twice hline, hrest]

theorem written_complete {lines : List Bytes} (haccepted : ∀ l ∈ lines, Accepted l)
    (h : Complete lines) : Complete (written 0 lines) := by
  refine ⟨fun kind hmem hcandidate => ?_, ?_⟩
  · obtain ⟨l, hl, hname⟩ := h.1 kind hmem hcandidate
    have hsame := (lineKind_cleanLine l).trans hname
    exact ⟨cleanLine l, (written_other (by rw [hsame]; exact hcandidate)).mpr
      ⟨l, hl, by rw [hname]; exact hcandidate, rfl⟩, hsame⟩
  · rw [written_twice haccepted]
    exact h.2

/-- The second run drops nothing. -/
theorem written_keeps_all {lines : List Bytes} (h : ∀ l ∈ lines, Accepted l) :
    ((written 0 lines).foldl noteInfo ⟨0, 0, 0⟩).candidatesDropped = 0 := by
  obtain ⟨hkept, hall⟩ := noteInfo_counts ⟨0, 0, 0⟩ (written 0 lines)
  rw [written_twice h] at hkept
  simp only [Nat.zero_add] at hkept hall
  omega

/-- The output is the input with its line ends, its fingerprints and its candidates put
in order, and putting them in order again changes nothing. -/
theorem sanitize_stable {answer : Bytes} {outSize : Nat} {out : Bytes} {info : LpSdpAnswerInfo}
    (h : lpSdpSanitizeAnswer answer outSize = .ok (out, info)) :
    out = crlfText (contentLines out) ∧
      (contentLines out).Sublist ((contentLines (cString answer)).map cleanLine) ∧
      (contentLines out).filter isPlain =
        ((contentLines (cString answer)).filter isPlain).map cleanLine ∧
      (contentLines out).filter (isKind .candidate) =
        (((contentLines (cString answer)).filter (isKind .candidate)).filter isUsable).take 8 ∧
      info.candidatesKept = ((contentLines out).filter (isKind .candidate)).length ∧
      info.candidatesKept + info.candidatesDropped =
        ((contentLines (cString answer)).filter (isKind .candidate)).length ∧
      (out.length ≤ lpSdpMaxInput → ∃ info',
        lpSdpSanitizeAnswer (out ++ [0]) outSize = .ok (out, info') ∧
          info'.candidatesDropped = 0) := by
  obtain ⟨-, hpasses⟩ := lpSdpSanitizeAnswer_ok.mp h
  generalize contentLines (cString answer) = lines at hpasses
  obtain ⟨hstring, hcontent⟩ := contentLines_crlf (written_accepted hpasses.accepted 0)
  rw [← hpasses.text] at hstring hcontent
  obtain ⟨hkept, hall⟩ := noteInfo_counts ⟨0, 0, 0⟩ lines
  rw [← hpasses.counts] at hkept hall
  have hread : cString (out ++ [0]) = out := by
    have hnone : 0 ∉ out := hstring ▸ cString_clean out
    have hall : ∀ c ∈ out, decide (c ≠ 0) = true := by
      intro c hc
      simp only [ne_eq, decide_not, Bool.not_eq_true', decide_eq_false_iff_not]
      exact fun heq => hnone (heq ▸ hc)
    rw [cString, List.takeWhile_append_of_pos hall]
    simp
  rw [hcontent]
  refine ⟨hpasses.text, written_sublist 0 lines, written_others 0 lines, written_candidates 0 lines,
    ?_, ?_, fun hshort => ⟨(written 0 lines).foldl noteInfo ⟨0, 0, 0⟩, ?_,
      written_keeps_all hpasses.accepted⟩⟩
  · rw [hkept, Nat.zero_add, List.countP_eq_length_filter]
  · rw [hall, List.countP_eq_length_filter, Nat.zero_add, Nat.zero_add]
  · rw [lpSdpSanitizeAnswer_ok, hread, hcontent]
    exact ⟨hshort, written_accepted hpasses.accepted 0,
      written_complete hpasses.accepted hpasses.complete,
      by rw [written_twice hpasses.accepted]; exact hpasses.text, hpasses.fits, rfl⟩

theorem sanitize_stable_chrome : ∃ out info,
    lpSdpSanitizeAnswer (answerWith (ascii "m=video 9 UDP/TLS/RTP/SAVPF 96")) 17408 =
      .ok (out, info) ∧ info.candidatesKept + info.candidatesDropped = 1 ∧
      ∃ info', lpSdpSanitizeAnswer (out ++ [0]) 17408 = .ok (out, info') := by
  obtain ⟨out, info, hrun, hshort⟩ := @sanitized_of_any
    (answerWith (ascii "m=video 9 UDP/TLS/RTP/SAVPF 96")) 17408
    (fun out => decide (out.length ≤ lpSdpMaxInput)) (by decide +kernel)
  have hone : ((contentLines (cString (answerWith (ascii "m=video 9 UDP/TLS/RTP/SAVPF 96")))).filter
      (isKind .candidate)).length = 1 := by decide +kernel
  obtain ⟨-, -, -, -, -, hcount, hagain⟩ := sanitize_stable hrun
  obtain ⟨info', hsecond, -⟩ := hagain (of_decide_eq_true hshort)
  exact ⟨out, info, hrun, hcount.trans hone, info', hsecond⟩

end Camstream.Proofs.LpSdpStable
