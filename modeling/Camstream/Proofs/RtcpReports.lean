import Camstream.Lib.Rtcp
import Camstream.Webrtc.Rtcp

namespace Camstream.Proofs.RtcpReports
open Lib Webrtc

/-- The parser works through the complete packets at the front of the buffer. -/
theorem parsePackets_fold (buffer : Bytes) (mediaSsrc : UInt32) (offset : Nat)
    (feedback : RtcpFeedback) :
    parsePackets buffer mediaSsrc offset feedback =
      (Rtcp.packets (buffer.drop offset)).foldl
        (fun feedback packet => parsePacket packet mediaSsrc feedback) feedback := by
  have hversion : byteAt (buffer.drop offset) 0 = byteAt buffer offset := byteAt_drop buffer offset 0
  have hlength : Rtcp.announced (buffer.drop offset) = (readBe16 buffer (offset + 2) + 1) * 4 := by
    rw [Rtcp.announced, readBe16_drop]
  fun_induction parsePackets buffer mediaSsrc offset feedback with
  | case1 offset feedback hroom hother =>
    rw [Rtcp.packets_of_not_starts fun h => hother (hversion ▸ h.2.1)]
    rfl
  | case2 offset feedback hroom len hsame hshort =>
    rw [Rtcp.packets_of_not_starts]
    · rfl
    · rintro ⟨-, -, hfits⟩
      rw [hlength, List.length_drop] at hfits
      omega
  | case3 offset feedback hroom len hsame hfits ih =>
    have hstarts : Rtcp.Starts (buffer.drop offset) := by
      refine ⟨?_, ?_, ?_⟩
      · rw [List.length_drop]
        omega
      · rw [hversion]
        exact not_not.mp hsame
      · rw [hlength, List.length_drop]
        omega
    rw [Rtcp.packets_of_starts hstarts, List.foldl_cons, hlength, List.drop_drop]
    exact ih (byteAt_drop _ _ 0) (by rw [Rtcp.announced, readBe16_drop])
  | case4 offset feedback hroom =>
    rw [Rtcp.packets_of_not_starts]
    · rfl
    · rintro ⟨hlen, -, -⟩
      rw [List.length_drop] at hlen
      omega

theorem rtcpParse_fold (buffer : Bytes) (mediaSsrc : UInt32) :
    rtcpParse buffer mediaSsrc = (Rtcp.packets buffer).foldl
      (fun feedback packet => parsePacket packet mediaSsrc feedback) rtcpNoFeedback :=
  parsePackets_fold buffer mediaSsrc 0 rtcpNoFeedback

/-- The report the parser has kept. -/
def reportOf (feedback : RtcpFeedback) : Option Rtcp.ReportBlock :=
  if feedback.hasRr then
    some ⟨feedback.rrSsrc, feedback.rrFractionLost, feedback.rrHighestSeq, feedback.rrJitter,
      feedback.rrLastSr, feedback.rrDelaySinceSr⟩
  else none

def namesMedia (mediaSsrc : UInt32) (block : Rtcp.ReportBlock) : Bool := block.ssrc == mediaSsrc

theorem reportOf_kept {feedback : RtcpFeedback} (h : feedback.hasRr = true) :
    ∃ block, reportOf feedback = some block ∧ block.ssrc = feedback.rrSsrc :=
  ⟨_, if_pos h, rfl⟩

theorem report_replaced {mediaSsrc : UInt32} {feedback : RtcpFeedback}
    (h : ¬ (feedback.hasRr && feedback.rrSsrc == mediaSsrc) = true) (block : Rtcp.ReportBlock) :
    Rtcp.prefer (namesMedia mediaSsrc) (reportOf feedback) block = some block := by
  cases hkept : feedback.hasRr with
  | false =>
    rw [reportOf, hkept]
    rfl
  | true =>
    obtain ⟨kept, hreport, hssrc⟩ := reportOf_kept hkept
    rw [hkept, Bool.true_and, ← hssrc] at h
    rw [hreport, Rtcp.prefer]
    exact if_neg h

/-- The loop over the blocks of one packet. -/
theorem parseReports_report (body : Bytes) (mediaSsrc : UInt32) (first count i : Nat)
    (feedback : RtcpFeedback) :
    reportOf (parseReports body mediaSsrc first count i feedback) =
      (((List.range' i (count - i)).filter fun i => first + i * 24 + 24 ≤ body.length).map
        fun i => Rtcp.readBlock body (first + i * 24)).foldl
          (Rtcp.prefer (namesMedia mediaSsrc)) (reportOf feedback) := by
  fun_induction parseReports body mediaSsrc first count i feedback with
  | case1 i feedback hi pos hshort =>
    have hnone : ((List.range' i (count - i)).filter fun i => first + i * 24 + 24 ≤ body.length) =
        [] := by
      refine List.filter_eq_nil_iff.mpr fun j hj => ?_
      have hle := (List.mem_range'_1.mp hj).1
      simp only [pos, rtcpReportBlockSize] at hshort
      rw [decide_eq_true_eq]
      omega
    rw [hnone]
    rfl
  | case2 i feedback hi pos hfits hown =>
    simp only [Bool.and_eq_true, beq_iff_eq] at hown
    obtain ⟨block, hblock, hssrc⟩ := reportOf_kept hown.1
    have hnames : namesMedia mediaSsrc block = true := beq_iff_eq.mpr (hssrc.trans hown.2)
    rw [hblock, Rtcp.prefer_wanted _ hnames]
  | case3 i feedback hi pos hfits hown ih =>
    have hrange : List.range' i (count - i) = i :: List.range' (i + 1) (count - (i + 1)) := by
      rw [show count - i = count - (i + 1) + 1 by omega, List.range'_succ]
    have hfirst : first + i * 24 + 24 ≤ body.length := by
      simp only [pos, rtcpReportBlockSize] at hfits
      omega
    rw [hrange, List.filter_cons_of_pos (by simpa using hfirst), List.map_cons, List.foldl_cons,
      report_replaced hown]
    exact ih
  | case4 i feedback hi =>
    have hnone : count - i = 0 := by omega
    rw [hnone]
    rfl

theorem parsePacket_report (body : Bytes) (mediaSsrc : UInt32) (feedback : RtcpFeedback) :
    reportOf (parsePacket body mediaSsrc feedback) =
      (Rtcp.reportBlocks body).foldl (Rtcp.prefer (namesMedia mediaSsrc)) (reportOf feedback) := by
  have hblocks : ∀ first, reportOf (parseReports body mediaSsrc first
      (byteAt body 0 &&& 0x1F).toNat 0 feedback) =
      (Rtcp.blocksAt body first).foldl (Rtcp.prefer (namesMedia mediaSsrc)) (reportOf feedback) := by
    intro first
    rw [parseReports_report, Nat.sub_zero, ← List.range_eq_range']
    rfl
  unfold parsePacket Rtcp.reportBlocks Rtcp.packetType
  dsimp only
  split
  · rename_i hpt
    rw [hpt, if_pos rfl]
    exact hblocks _
  · rename_i hpt
    rw [hpt, if_neg (by decide), if_pos rfl]
    exact hblocks _
  · rename_i hpt
    rw [hpt]
    rfl
  · rename_i hpt
    rw [hpt]
    split <;> rfl
  · rename_i hpt
    rw [hpt]
    split
    · rfl
    · split <;> rfl
  · rename_i h200 h201 _ _ _
    rw [if_neg h200, if_neg h201]
    rfl

/-- The report blocks of the well-formed part of a buffer, in packet order. -/
def blocksOf (buffer : Bytes) : List Rtcp.ReportBlock :=
  (Rtcp.packets buffer).flatMap Rtcp.reportBlocks

theorem rtcpParse_report (buffer : Bytes) (mediaSsrc : UInt32) :
    reportOf (rtcpParse buffer mediaSsrc) =
      (blocksOf buffer).foldl (Rtcp.prefer (namesMedia mediaSsrc)) none := by
  have hall : ∀ (packets : List Bytes) (feedback : RtcpFeedback),
      reportOf (packets.foldl (fun feedback packet => parsePacket packet mediaSsrc feedback)
        feedback) = (packets.flatMap Rtcp.reportBlocks).foldl
          (Rtcp.prefer (namesMedia mediaSsrc)) (reportOf feedback) := by
    intro packets
    induction packets with
    | nil => exact fun _ => rfl
    | cons packet packets ih =>
      intro feedback
      rw [List.foldl_cons, ih, parsePacket_report, List.flatMap_cons, List.foldl_append]
  rw [rtcpParse_fold, hall]
  rfl

/-- The report is that of the first block that names the stream, or else of the first block,
exactly when some block names it or the last block is like the first. -/
theorem report_selected_iff (buffer : Bytes) (mediaSsrc : UInt32) :
    reportOf (rtcpParse buffer mediaSsrc) =
        ((blocksOf buffer).find? (namesMedia mediaSsrc)).or (blocksOf buffer).head? ↔
      (∃ block ∈ blocksOf buffer, block.ssrc = mediaSsrc) ∨
        (blocksOf buffer).getLast? = (blocksOf buffer).head? := by
  rw [rtcpParse_report, Rtcp.prefer_first_iff]
  simp only [namesMedia, beq_iff_eq]

/-- A block about the stream `ssrc` with some loss. -/
def plainBlock (ssrc : UInt32) : Bytes := writeBe32 ssrc ++ 25 :: List.replicate 19 0

/-- A receiver report on two other streams. -/
def twoReports : Bytes :=
  [0x82, 201] ++ writeBe16 13 ++ writeBe32 7 ++ plainBlock 1 ++ plainBlock 2

/-- Neither block names stream 9, and the second one is kept. -/
theorem last_report_kept :
    (reportOf (rtcpParse twoReports 9)).map Rtcp.ReportBlock.ssrc = some 2 ∧
      (blocksOf twoReports).map Rtcp.ReportBlock.ssrc = [1, 2] ∧
      reportOf (rtcpParse twoReports 9) ≠
        ((blocksOf twoReports).find? (namesMedia 9)).or (blocksOf twoReports).head? := by
  decide +kernel

end Camstream.Proofs.RtcpReports
