import Camstream.Proofs.RtcpReports
import Camstream.Proofs.SessionCore

namespace Camstream.Proofs.RtcpNacks
open Lib Webrtc SessionCore RtcpReports

/-- What the entries behind position `i` of a Generic NACK ask for. -/
def entriesFrom (body : Bytes) (i : Nat) : List UInt16 :=
  (Rtcp.nackEntries (body.drop i)).flatMap fun e => Rtcp.lostSeqs e.1 e.2

/-- What one packet of a compound asks to be sent again. -/
def packetRequests (body : Bytes) : List UInt16 :=
  if (byteAt body 1).toNat = 205 ∧ (byteAt body 0 &&& 0x1F).toNat = 1 then entriesFrom body 12 else []

/-- All sequence numbers that a compound asks for, in order. -/
def requestedSeqs (buffer : Bytes) : List UInt16 := (Rtcp.packets buffer).flatMap packetRequests

theorem entriesFrom_next {body : Bytes} {i : Nat} (h : i + 4 ≤ body.length) :
    entriesFrom body i = Rtcp.lostSeqs (readBe16 body i) (readBe16 body (i + 2)) ++
      entriesFrom body (i + 4) := by
  have hfour : body.drop i = byteAt body i :: byteAt body (i + 1) :: byteAt body (i + 2) ::
      byteAt body (i + 3) :: body.drop (i + 4) := by
    rw [drop_three (i := i) (by omega), drop_one (i := i + 3) (by omega)]
  unfold entriesFrom
  rw [hfour, Rtcp.nackEntries, List.flatMap_cons]
  rfl

theorem entriesFrom_end {body : Bytes} {i : Nat} (h : ¬ i + 4 ≤ body.length) :
    entriesFrom body i = [] := by
  have hshort : (body.drop i).length < 4 := by
    rw [List.length_drop]
    omega
  unfold entriesFrom
  match body.drop i, hshort with
  | [], _ => rfl
  | [_], _ => rfl
  | [_, _], _ => rfl
  | [_, _, _], _ => rfl

theorem addNack_take (seqs : List UInt16) (seq : UInt16) :
    addNack (seqs.take rtcpMaxNackSeqs) seq = (seqs ++ [seq]).take rtcpMaxNackSeqs := by
  unfold addNack
  split
  · rename_i h
    rw [List.length_take] at h
    rw [List.take_of_length_le (by omega), List.take_of_length_le (by simp; omega)]
  · rename_i h
    rw [List.length_take] at h
    rw [List.take_append_of_le_length (by omega)]

theorem nackEntry_take (pid mask : Nat) (seqs : List UInt16) :
    nackEntry pid mask (seqs.take rtcpMaxNackSeqs) =
      (seqs ++ Rtcp.lostSeqs pid mask).take rtcpMaxNackSeqs := by
  have hbits : ∀ (bits : List Nat) (seqs : List UInt16), bits.foldl (fun seqs bit =>
      if mask.testBit bit then addNack seqs (UInt16.ofNat (pid + bit + 1)) else seqs)
        (seqs.take rtcpMaxNackSeqs) =
      (seqs ++ (bits.filter mask.testBit).map fun bit => UInt16.ofNat (pid + bit + 1)).take
        rtcpMaxNackSeqs := by
    intro bits
    induction bits with
    | nil => intro seqs; simp
    | cons bit bits ih =>
      intro seqs
      rw [List.foldl_cons]
      by_cases hbit : mask.testBit bit = true
      · rw [if_pos hbit, addNack_take, ih, List.filter_cons_of_pos hbit, List.append_assoc]
        rfl
      · rw [if_neg hbit, ih, List.filter_cons_of_neg hbit]
  unfold nackEntry Rtcp.lostSeqs
  rw [addNack_take, hbits]
  simp

theorem parseNacks_take (body : Bytes) (i : Nat) (seqs : List UInt16) :
    parseNacks body i (seqs.take rtcpMaxNackSeqs) =
      (seqs ++ entriesFrom body i).take rtcpMaxNackSeqs := by
  by_cases hroom : i + 4 ≤ body.length
  · rw [parseNacks, entriesFrom_next hroom]
    split
    · rw [nackEntry_take, parseNacks_take body (i + 4), List.append_assoc]
    · rename_i hfull
      rw [List.length_take] at hfull
      rw [List.take_append_of_le_length (by omega)]
  · rw [parseNacks, if_neg (fun hx => hroom hx.1), entriesFrom_end hroom, List.append_nil]
termination_by body.length - i

theorem parseReports_nacks (body : Bytes) (mediaSsrc : UInt32) (first count i : Nat)
    (feedback : RtcpFeedback) :
    (parseReports body mediaSsrc first count i feedback).nackSeq = feedback.nackSeq := by
  fun_induction parseReports body mediaSsrc first count i feedback with
  | case1 => rfl
  | case2 => rfl
  | case3 i feedback h pos hfits hown ih => exact ih
  | case4 => rfl

theorem parsePacket_take {body : Bytes} {mediaSsrc : UInt32} {feedback : RtcpFeedback}
    {seqs : List UInt16} (h : feedback.nackSeq = seqs.take rtcpMaxNackSeqs) :
    (parsePacket body mediaSsrc feedback).nackSeq =
      (seqs ++ packetRequests body).take rtcpMaxNackSeqs := by
  have hnone : (byteAt body 1).toNat ≠ 205 → (seqs ++ packetRequests body) = seqs := by
    intro hne
    simp [packetRequests, hne]
  unfold parsePacket
  simp only
  split
  · rename_i hpt
    rw [parseReports_nacks, hnone (by simp [hpt]), h]
  · rename_i hpt
    rw [parseReports_nacks, hnone (by simp [hpt]), h]
  · rename_i hpt
    rw [hnone (by simp [hpt])]
    exact h
  · rename_i hpt
    split
    · rename_i hfmt
      have hasks : packetRequests body = [] := if_neg (fun hx => hfmt hx.2)
      rw [hasks, List.append_nil]
      exact h
    · rename_i hfmt
      have hasks : packetRequests body = entriesFrom body 12 := if_pos ⟨hpt, not_not.mp hfmt⟩
      rw [hasks, h]
      exact parseNacks_take body 12 seqs
  · rename_i hpt
    rw [hnone (by simp [hpt])]
    split
    · exact h
    · split <;> exact h
  · rename_i hpt _
    rw [hnone (by assumption)]
    exact h

theorem parse_take {packets : List Bytes} {mediaSsrc : UInt32} {feedback : RtcpFeedback}
    {seqs : List UInt16} (h : feedback.nackSeq = seqs.take rtcpMaxNackSeqs) :
    (packets.foldl (fun feedback packet => parsePacket packet mediaSsrc feedback)
      feedback).nackSeq = (seqs ++ packets.flatMap packetRequests).take rtcpMaxNackSeqs := by
  induction packets generalizing feedback seqs with
  | nil =>
    rw [List.flatMap_nil, List.append_nil]
    exact h
  | cons packet packets ih =>
    rw [List.foldl_cons, ih (parsePacket_take h), List.flatMap_cons, List.append_assoc]

/-- The parser keeps the first 128 sequence numbers of a compound. -/
theorem rtcpParse_nacks (buffer : Bytes) (mediaSsrc : UInt32) :
    (rtcpParse buffer mediaSsrc).nackSeq = (requestedSeqs buffer).take rtcpMaxNackSeqs := by
  rw [rtcpParse_fold]
  exact @parse_take _ mediaSsrc rtcpNoFeedback [] rfl

/-- A Generic NACK of these entries: packet ids with their bitmasks. -/
def genericNack (entries : List (UInt16 × UInt16)) : Bytes :=
  [0x81, 205] ++ writeBe16 (UInt16.ofNat (2 + entries.length)) ++ writeBe32 1 ++ writeBe32 1 ++
    entries.flatMap fun entry => writeBe16 entry.1 ++ writeBe16 entry.2

end Camstream.Proofs.RtcpNacks
