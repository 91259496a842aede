import Camstream.Proofs.RtcpNacks
import Camstream.Proofs.RtcpReports

namespace Camstream.Proofs.RtcpCompound
open Lib Webrtc RtcpNacks RtcpReports

theorem parseReports_counts (body : Bytes) (mediaSsrc : UInt32) (first count i : Nat)
    (feedback : RtcpFeedback) :
    let parsed := parseReports body mediaSsrc first count i feedback
    parsed.pli = feedback.pli ∧ parsed.fir = feedback.fir ∧ parsed.bye = feedback.bye := by
  fun_induction parseReports body mediaSsrc first count i feedback with
  | case1 => exact ⟨rfl, rfl, rfl⟩
  | case2 => exact ⟨rfl, rfl, rfl⟩
  | case3 i feedback h pos hfits hown ih => exact ih
  | case4 => exact ⟨rfl, rfl, rfl⟩

/-- What one packet adds to the indications. -/
theorem parsePacket_counts (p : Rtcp.Packet) (mediaSsrc : UInt32) (feedback : RtcpFeedback) :
    let parsed := parsePacket p.encode mediaSsrc feedback
    parsed.pli = feedback.pli + p.isPli.toNat ∧ parsed.fir = feedback.fir + p.isFir.toNat ∧
      parsed.bye = (feedback.bye || p.isBye) := by
  have htype : ∀ k : UInt8, (byteAt p.encode 1).toNat = k.toNat → p.type = k :=
    fun k h => UInt8.toNat_inj.mp h
  have hcount : (byteAt p.encode 0 &&& 0x1F).toNat = p.count :=
    (Rtcp.first_byte p.count p.padding.isEmpty).2
  have hreports : ∀ first, p.isPli = false → p.isFir = false → p.isBye = false →
      let parsed := parseReports p.encode mediaSsrc first p.count 0 feedback
      parsed.pli = feedback.pli + p.isPli.toNat ∧ parsed.fir = feedback.fir + p.isFir.toNat ∧
        parsed.bye = (feedback.bye || p.isBye) := by
    intro first hpli hfir hbye
    rw [hpli, hfir, hbye, Bool.or_false]
    exact parseReports_counts p.encode mediaSsrc first p.count 0 feedback
  unfold parsePacket
  rw [hcount]
  dsimp only
  split
  · rename_i hpt
    have hpt := htype 200 hpt
    exact hreports _ (by simp [Rtcp.Packet.isPli, hpt]) (by simp [Rtcp.Packet.isFir, hpt])
      (by simp [Rtcp.Packet.isBye, hpt])
  · rename_i hpt
    have hpt := htype 201 hpt
    exact hreports _ (by simp [Rtcp.Packet.isPli, hpt]) (by simp [Rtcp.Packet.isFir, hpt])
      (by simp [Rtcp.Packet.isBye, hpt])
  · rename_i hpt
    have hpt := htype 203 hpt
    simp [Rtcp.Packet.isPli, Rtcp.Packet.isFir, Rtcp.Packet.isBye, hpt]
  · rename_i hpt
    have hpt := htype 205 hpt
    split <;> simp [Rtcp.Packet.isPli, Rtcp.Packet.isFir, Rtcp.Packet.isBye, hpt]
  · rename_i hpt
    have hpt := htype 206 hpt
    have hformat : ∀ k : Fin 32, (p.count == k) = decide (p.count.val = k.val) := by
      intro k
      rw [Bool.eq_iff_iff, beq_iff_eq, decide_eq_true_eq, Fin.ext_iff]
    simp only [Rtcp.Packet.isPli, Rtcp.Packet.isFir, Rtcp.Packet.isBye, hpt, hformat]
    split
    · rename_i hone
      simp [hone]
    · rename_i hone
      split
      · rename_i hfour
        simp [hfour]
      · rename_i hfour
        simp [hone, hfour]
  · rename_i h203 _ h206
    have hbye : p.type ≠ 203 := fun h => h203 (congrArg UInt8.toNat h)
    have hpsfb : p.type ≠ 206 := fun h => h206 (congrArg UInt8.toNat h)
    simp [Rtcp.Packet.isPli, Rtcp.Packet.isFir, Rtcp.Packet.isBye, hbye, hpsfb]

theorem packetRequests_eq {p : Rtcp.Packet} (h : p.isGenericNack = true → p.padding = []) :
    packetRequests p.encode = p.requests := by
  have hcount : (byteAt p.encode 0 &&& 0x1F).toNat = p.count :=
    (Rtcp.first_byte p.count p.padding.isEmpty).2
  have hnack : ((byteAt p.encode 1).toNat = 205 ∧ (byteAt p.encode 0 &&& 0x1F).toNat = 1) ↔
      p.isGenericNack = true := by
    rw [hcount, Rtcp.Packet.isGenericNack, Bool.and_eq_true, beq_iff_eq, beq_iff_eq, Fin.ext_iff]
    exact and_congr_left fun _ => @UInt8.toNat_inj p.type 205
  unfold packetRequests Rtcp.Packet.requests
  by_cases hp : p.isGenericNack = true
  · have hbody : p.encode.drop 12 = p.payload.drop 8 := by
      rw [Rtcp.Packet.encode, h hp, List.append_nil]
      rfl
    rw [if_pos (hnack.mpr hp), if_pos hp, entriesFrom, hbody]
  · rw [if_neg (fun hx => hp (hnack.mp hx)), if_neg hp]

/-- All packets of a list, from any feedback on. -/
theorem compound_counts (list : List Rtcp.Packet) (mediaSsrc : UInt32) (feedback : RtcpFeedback) :
    let parsed := (list.map Rtcp.Packet.encode).foldl
      (fun feedback packet => parsePacket packet mediaSsrc feedback) feedback
    parsed.pli = feedback.pli + list.countP Rtcp.Packet.isPli ∧
      parsed.fir = feedback.fir + list.countP Rtcp.Packet.isFir ∧
      parsed.bye = (feedback.bye || list.any Rtcp.Packet.isBye) := by
  induction list generalizing feedback with
  | nil => simp
  | cons p list ih =>
    obtain ⟨hpli, hfir, hbye⟩ := parsePacket_counts p mediaSsrc feedback
    have hrest := ih (parsePacket p.encode mediaSsrc feedback)
    simp only [List.map_cons, List.foldl_cons] at hrest ⊢
    rw [hpli, hfir, hbye] at hrest
    simp only [List.countP_cons, List.any_cons, Bool.or_assoc] at hrest ⊢
    refine ⟨?_, ?_, hrest.2.2⟩
    · rw [hrest.1]
      cases p.isPli with
      | false => simp
      | true =>
        simp
        omega
    · rw [hrest.2.1]
      cases p.isFir with
      | false => simp
      | true =>
        simp
        omega

theorem compound_requests {list : List Rtcp.Packet}
    (h : ∀ p ∈ list, p.isGenericNack = true → p.padding = []) :
    (list.map Rtcp.Packet.encode).flatMap packetRequests = list.flatMap Rtcp.Packet.requests := by
  rw [List.flatMap_map]
  exact List.flatMap_congr fun p hp => packetRequests_eq (h p hp)

/-- The feedback on a compound of packets, whatever incomplete bytes follow them. -/
theorem compound_decoded {list : List Rtcp.Packet} {rest : Bytes} (mediaSsrc : UInt32)
    (hnacks : ∀ p ∈ list, p.isGenericNack = true → p.padding = [])
    (hrest : ¬ Rtcp.Starts rest) :
    let feedback := rtcpParse (Rtcp.compound list ++ rest) mediaSsrc
    feedback.pli = list.countP Rtcp.Packet.isPli ∧
      feedback.fir = list.countP Rtcp.Packet.isFir ∧
      feedback.bye = list.any Rtcp.Packet.isBye ∧
      feedback.nackSeq = (list.flatMap Rtcp.Packet.requests).take 128 ∧
      feedback = rtcpParse (Rtcp.compound list) mediaSsrc := by
  intro feedback
  have hempty : ¬ Rtcp.Starts [] := fun h => absurd h.1 (by decide)
  have hsame : feedback = (list.map Rtcp.Packet.encode).foldl
      (fun feedback packet => parsePacket packet mediaSsrc feedback) rtcpNoFeedback := by
    rw [← Rtcp.packets_compound list hrest]
    exact rtcpParse_fold _ _
  have halone : rtcpParse (Rtcp.compound list) mediaSsrc = (list.map Rtcp.Packet.encode).foldl
      (fun feedback packet => parsePacket packet mediaSsrc feedback) rtcpNoFeedback := by
    rw [← Rtcp.packets_compound list hempty, List.append_nil]
    exact rtcpParse_fold _ _
  obtain ⟨hpli, hfir, hbye⟩ := compound_counts list mediaSsrc rtcpNoFeedback
  have hseqs := @parse_take (list.map Rtcp.Packet.encode) mediaSsrc rtcpNoFeedback [] rfl
  rw [compound_requests hnacks] at hseqs
  rw [← hsame] at hpli hfir hbye hseqs
  refine ⟨?_, ?_, ?_, hseqs, hsame.trans halone.symm⟩
  · rw [hpli]
    exact Nat.zero_add _
  · rw [hfir]
    exact Nat.zero_add _
  · rw [hbye]
    exact Bool.false_or _

/-- A picture loss indication. -/
def pliPacket : Rtcp.Packet where
  count := 1
  type := 206
  payload := [0, 0, 0, 7, 0, 0, 0, 9]
  padding := []
  aligned := by decide
  padded := .inl rfl
  fits := by decide

/-- A Generic NACK of packet 65535 and the one behind it. -/
def nackPacket : Rtcp.Packet where
  count := 1
  type := 205
  payload := [0, 0, 0, 7, 0, 0, 0, 9, 255, 255, 0, 1]
  padding := []
  aligned := by decide
  padded := .inl rfl
  fits := by decide

theorem compound_decoded_two :
    (rtcpParse (Rtcp.compound [pliPacket, nackPacket] ++ [0x81]) 9).nackSeq = [65535, 0] := by
  have hnacks : ∀ p ∈ [pliPacket, nackPacket], p.isGenericNack = true → p.padding = [] := by
    simp [pliPacket, nackPacket]
  have hrest : ¬ Rtcp.Starts [0x81] := fun h => absurd h.1 (by decide)
  obtain ⟨-, -, -, hseqs, -⟩ := compound_decoded 9 hnacks hrest
  exact hseqs.trans (by decide)

/-- A Generic NACK of packet 100 with a word of padding. -/
def paddedNack : Rtcp.Packet where
  count := 1
  type := 205
  payload := [0, 0, 0, 7, 0, 0, 0, 9, 0, 100, 0, 0]
  padding := [0, 0, 0, 4]
  aligned := by decide
  padded := .inr (by decide)
  fits := by decide

/-- The padding is read as an entry. -/
theorem padding_read :
    (rtcpParse (Rtcp.compound [paddedNack] ++ []) 9).nackSeq = [100, 0, 3] ∧
      [paddedNack].flatMap Rtcp.Packet.requests = [100] ∧
      (rtcpParse (Rtcp.compound [paddedNack] ++ []) 9).nackSeq ≠
        ([paddedNack].flatMap Rtcp.Packet.requests).take 128 := by
  decide +kernel

end Camstream.Proofs.RtcpCompound
