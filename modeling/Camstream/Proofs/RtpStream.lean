import Camstream.Lib.Runs
import Camstream.Proofs.RtpRoundTrip

namespace Camstream.Proofs.RtpStream
open Lib Webrtc RtpPlan RtpRoundTrip

/-- An encoded picture and its capture time. -/
structure AccessUnit where
  bytes : Bytes
  ptsUs : UInt64

/-- A packetizer with what each call returned and emitted. -/
structure Stream where
  p : RtpH264
  results : List (Int × List RtpPacket)

def Stream.packets (s : Stream) : List RtpPacket := s.results.flatMap Prod.snd

def Stream.send (s : Stream) (unit : AccessUnit) : Stream :=
  let r := rtpH264Packetize s.p unit.bytes unit.ptsUs collect []
  ⟨r.2.1, s.results ++ [(r.1, r.2.2)]⟩

def payloadSize (k : RtpPacket) : Nat := k.bytes.length - rtpHeaderSize

/-- The packet with number `k` carries the sequence number `k + 1`, also in its
header. -/
def Numbered (packets : List RtpPacket) : Prop :=
  ∀ k packet, packets[k]? = some packet →
    packet.sequence = UInt16.ofNat (k + 1) ∧ readBe16 packet.bytes 2 = packet.sequence.toNat

/-- What the packetizer has counted after these packets. -/
structure Counted (p : RtpH264) (sent : List RtpPacket) : Prop where
  numbered : Numbered sent
  sequence : p.sequence = UInt16.ofNat sent.length
  packets : p.packets = UInt32.ofNat sent.length
  octets : p.octets = UInt32.ofNat (sent.map payloadSize).sum

theorem rtpHeader_sequence (p : RtpH264) (last : Bool) (ts : UInt32) (payload : Bytes) :
    readBe16 (rtpHeader p last ts ++ payload) 2 = p.sequence.toNat := by
  have hread := readBe16_append_right
    [0x80, (if last then 0x80 else 0x00) ||| (p.payloadType &&& 0x7F).toUInt8]
    (writeBe16 p.sequence ++ (writeBe32 ts ++ (writeBe32 p.ssrc ++ payload))) 0
  rw [readBe16_writeBe16] at hread
  simpa [rtpHeader] using hread

theorem rtpHeader_timestamp (p : RtpH264) (last : Bool) (ts : UInt32) (payload : Bytes) :
    readBe32 (rtpHeader p last ts ++ payload) 4 = ts.toNat := by
  have hread := readBe32_append_right
    ([0x80, (if last then 0x80 else 0x00) ||| (p.payloadType &&& 0x7F).toUInt8] ++
      writeBe16 p.sequence) (writeBe32 ts ++ (writeBe32 p.ssrc ++ payload)) 0
  rw [readBe32_writeBe32] at hread
  simpa [rtpHeader] using hread

theorem Numbered.concat {packets : List RtpPacket} {packet : RtpPacket} (h : Numbered packets)
    (hsequence : packet.sequence = UInt16.ofNat (packets.length + 1))
    (hheader : readBe16 packet.bytes 2 = packet.sequence.toNat) : Numbered (packets ++ [packet]) := by
  intro k other hk
  rcases Nat.lt_trichotomy k packets.length with hlt | rfl | hgt
  · rw [List.getElem?_append_left hlt] at hk
    exact h k other hk
  · rw [List.getElem?_concat_length] at hk
    cases hk
    exact ⟨hsequence, hheader⟩
  · rw [List.getElem?_eq_none (by simp; omega)] at hk
    cases hk

/-- One packet more keeps the counters right. -/
theorem emitPacket_counted {before : List RtpPacket} {e : Emission (List RtpPacket)} (ts : UInt32)
    (last : Bool) (payload : Bytes) (h : Counted e.p (before ++ e.user)) :
    Counted (emitPacket collect ts e last payload).p
      (before ++ (emitPacket collect ts e last payload).user) := by
  have hnext : e.p.sequence + 1 = UInt16.ofNat ((before ++ e.user).length + 1) := by
    rw [h.sequence, UInt16.ofNat_add]
    rfl
  have hlength : ∀ packet, ((before ++ e.user) ++ [packet]).length = (before ++ e.user).length + 1 :=
    fun _ => List.length_append
  unfold emitPacket collect
  rw [← List.append_assoc]
  refine ⟨h.numbered.concat hnext (rtpHeader_sequence _ _ _ _), ?_, ?_, ?_⟩
  · rw [hlength]
    exact hnext
  · rw [hlength, UInt32.ofNat_add, ← h.packets]
    rfl
  · rw [List.map_append, List.sum_append, UInt32.ofNat_add, ← h.octets]
    simp [payloadSize]

/-- What one call has emitted so far: counted, all with one timestamp, and on the
timeline of `origin`. -/
structure Steady (before : List RtpPacket) (ts : UInt32) (origin : RtpH264)
    (e : Emission (List RtpPacket)) : Prop where
  counted : Counted e.p (before ++ e.user)
  emitted : e.emitted = e.user.length
  stamped : ∀ packet ∈ e.user, readBe32 packet.bytes 4 = ts.toNat
  base : e.p.basePtsUs = origin.basePtsUs ∧ e.p.haveBase = origin.haveBase

theorem emitOne_steady {before : List RtpPacket} {ts : UInt32} {origin : RtpH264}
    {e : Emission (List RtpPacket)} (h : Steady before ts origin e) (planned : Planned) :
    Steady before ts origin (emitOne collect ts e planned) := by
  refine ⟨emitPacket_counted ts planned.1 planned.2 h.counted, ?_, ?_, h.base⟩
  · simp [emitOne, emitPacket, collect, h.emitted]
  · intro packet hp
    simp only [emitOne, emitPacket, collect, List.mem_append, List.mem_singleton] at hp
    rcases hp with hp | rfl
    · exact h.stamped packet hp
    · exact rtpHeader_timestamp _ _ _ _

theorem plan_steady {before : List RtpPacket} {ts : UInt32} {origin : RtpH264}
    {e : Emission (List RtpPacket)} (h : Steady before ts origin e) (plan : List Planned) :
    Steady before ts origin (plan.foldl (emitOne collect ts) e) := by
  induction plan generalizing e with
  | nil => exact h
  | cons planned plan ih => exact ih (emitOne_steady h planned)

/-- `delta` microseconds are `delta * 9 / 100` ticks of 90 kHz, as long as the product
fits 64 bits. -/
theorem rtpTimestamp_ticks {p : RtpH264} {clockUs : UInt64}
    (h : (clockUs.toNat - p.basePtsUs.toNat) * 90000 < 2 ^ 64) :
    (rtpTimestamp p clockUs).toNat = (clockUs.toNat - p.basePtsUs.toNat) * 9 / 100 % 2 ^ 32 := by
  have hdelta : (if clockUs ≥ p.basePtsUs then clockUs - p.basePtsUs else 0).toNat =
      clockUs.toNat - p.basePtsUs.toNat := by
    split
    · rename_i hle
      exact UInt64.toNat_sub_of_le _ _ hle
    · rename_i hlt
      have : clockUs.toNat < p.basePtsUs.toNat := by
        simpa [UInt64.le_iff_toNat_le] using hlt
      simp
      omega
  unfold rtpTimestamp
  generalize (if clockUs ≥ p.basePtsUs then clockUs - p.basePtsUs else 0) = delta at hdelta
  have hproduct : (delta * 90000).toNat = (clockUs.toNat - p.basePtsUs.toNat) * 90000 := by
    rw [UInt64.toNat_mul, hdelta]
    exact Nat.mod_eq_of_lt h
  have hticks : (clockUs.toNat - p.basePtsUs.toNat) * 90000 / 1000000 =
      (clockUs.toNat - p.basePtsUs.toNat) * 9 / 100 := by omega
  rw [UInt64.toNat_toUInt32, UInt64.toNat_div, hproduct]
  exact congrArg (· % 2 ^ 32) hticks

/-- One call: the packets are counted and stamped on the timeline that the call may
have started. -/
theorem packetize_steady {p : RtpH264} {before : List RtpPacket} {unit : AccessUnit}
    (h : Counted p before) (hne : unit.bytes ≠ []) :
    let r := rtpH264Packetize p unit.bytes unit.ptsUs collect []
    let origin := startTimeline p unit.ptsUs
    Counted r.2.1 (before ++ r.2.2) ∧ r.1 = (r.2.2.length : Int) ∧
      (∀ packet ∈ r.2.2, readBe32 packet.bytes 4 = (rtpTimestamp origin unit.ptsUs).toNat) ∧
      r.2.1.basePtsUs = origin.basePtsUs ∧ r.2.1.haveBase = true := by
  intro r origin
  have hr : r = _ := rtpH264Packetize_plan p unit.ptsUs collect []
    (fun hz => hne (List.length_eq_zero_iff.mp hz))
  have hcounted : Counted origin before := by
    simp only [origin, startTimeline]
    split
    · exact h
    · exact ⟨h.numbered, h.sequence, h.packets, h.octets⟩
  have hbase : origin.haveBase = true := by
    simp only [origin, startTimeline]
    split
    · assumption
    · rfl
  have hsteady := @plan_steady before (rtpTimestamp origin unit.ptsUs) origin ⟨origin, [], 0⟩
    ⟨by simpa using hcounted, rfl, by simp, rfl, rfl⟩ (packetPlan unit.bytes 0)
  rw [hr]
  exact ⟨hsteady.counted, congrArg Nat.cast hsteady.emitted, hsteady.stamped, hsteady.base.1,
    hsteady.base.2.trans hbase⟩

/-- The origin of the timeline is the first capture time. -/
def firstPts (units : List AccessUnit) : UInt64 := (units.head?.map AccessUnit.ptsUs).getD 0

/-- A call's packets on the timeline of `base`. -/
def Stamped (base : UInt64) (unit : AccessUnit) (result : Int × List RtpPacket) : Prop :=
  result.1 = (result.2.length : Int) ∧ ∀ packet ∈ result.2,
    readBe32 packet.bytes 4 = (unit.ptsUs.toNat - base.toNat) * 9 / 100 % 2 ^ 32

/-- The stream after some access units, and its timeline once it has one. -/
structure Continuous (units : List AccessUnit) (s : Stream) : Prop where
  counted : Counted s.p s.packets
  stamped : List.Forall₂ (Stamped (firstPts units)) units s.results
  base : units ≠ [] → s.p.haveBase = true ∧ s.p.basePtsUs = firstPts units
  fresh : units = [] → s.p.haveBase = false

theorem firstPts_concat {units : List AccessUnit} (hne : units ≠ []) (unit : AccessUnit) :
    firstPts (units ++ [unit]) = firstPts units := by
  cases units with
  | nil => exact absurd rfl hne
  | cons first rest => rfl

theorem send_packets (s : Stream) (unit : AccessUnit) :
    (s.send unit).packets =
      s.packets ++ (rtpH264Packetize s.p unit.bytes unit.ptsUs collect []).2.2 := by
  simp [Stream.packets, Stream.send]

theorem send_continuous {units : List AccessUnit} {s : Stream} {unit : AccessUnit}
    (h : Continuous units s) (hne : unit.bytes ≠ [])
    (hfit : (unit.ptsUs.toNat - (firstPts (units ++ [unit])).toNat) * 90000 < 2 ^ 64) :
    Continuous (units ++ [unit]) (s.send unit) := by
  have hbase : (startTimeline s.p unit.ptsUs).basePtsUs = firstPts (units ++ [unit]) := by
    by_cases hu : units = []
    · subst hu
      rw [startTimeline, if_neg (by simp [h.fresh rfl])]
      rfl
    · obtain ⟨hhave, hpts⟩ := h.base hu
      rw [startTimeline, if_pos hhave, hpts, firstPts_concat hu]
  obtain ⟨hcounted, hreturn, hstamped, hpts, hhave⟩ := packetize_steady h.counted hne
  refine ⟨?_, ?_, fun _ => ⟨hhave, hpts.trans hbase⟩, fun hu => by simp at hu⟩
  · rw [send_packets]
    exact hcounted
  · refine List.rel_append ?_ (.cons ⟨hreturn, ?_⟩ .nil)
    · by_cases hu : units = []
      · subst hu
        rw [List.forall₂_nil_left_iff.mp h.stamped]
        exact .nil
      · rw [firstPts_concat hu]
        exact h.stamped
    · intro packet hp
      rw [hstamped packet hp, ← hbase]
      exact rtpTimestamp_ticks (by rw [hbase]; exact hfit)

theorem run_continuous {s : Stream} (h : Continuous [] s) (units : List AccessUnit)
    (hne : ∀ unit ∈ units, unit.bytes ≠ [])
    (hfit : ∀ unit ∈ units, (unit.ptsUs.toNat - (firstPts units).toNat) * 90000 < 2 ^ 64) :
    Continuous units (run Stream.send s units) := by
  induction units using List.reverseRecOn with
  | nil => exact h
  | append_singleton units unit ih =>
    have hold : ∀ u ∈ units, u ∈ units ++ [unit] := fun u hu => List.mem_append_left _ hu
    rw [run_append]
    refine send_continuous (ih (fun u hu => hne u (hold u hu)) ?_) (hne unit (by simp))
      (hfit unit (by simp))
    intro u hu
    rw [← firstPts_concat (List.ne_nil_of_mem hu) unit]
    exact hfit u (hold u hu)

theorem reset_continuous (p : RtpH264) (ssrc payloadType : UInt32) :
    Continuous [] ⟨rtpH264Reset p ssrc payloadType, []⟩ :=
  ⟨⟨by simp [Numbered, Stream.packets], rfl, rfl, rfl⟩, .nil, fun h => absurd rfl h, fun _ => rfl⟩

theorem results_sum {base : UInt64} {units : List AccessUnit}
    {results : List (Int × List RtpPacket)} (h : List.Forall₂ (Stamped base) units results) :
    (results.map Prod.fst).sum = ((results.flatMap Prod.snd).length : Int) := by
  induction h with
  | nil => rfl
  | cons hone _ ih => simp [ih, hone.1]

/-- After a reset, over any access units that are not empty and whose capture times
stay within the arithmetic: sequence numbers count up from 1 and wrap, the return
values and payload sizes add up to the counters, and every packet carries the
timestamp of its access unit, which is the one that sender reports are given. -/
theorem rtp_stream_continuity (p : RtpH264) (ssrc payloadType : UInt32) (units : List AccessUnit)
    (hne : ∀ unit ∈ units, unit.bytes ≠ [])
    (hfit : ∀ unit ∈ units, (unit.ptsUs.toNat - (firstPts units).toNat) * 90000 < 2 ^ 64) :
    let s := run Stream.send ⟨rtpH264Reset p ssrc payloadType, []⟩ units
    (∀ k packet, s.packets[k]? = some packet →
      packet.sequence = UInt16.ofNat (k + 1) ∧ readBe16 packet.bytes 2 = packet.sequence.toNat) ∧
    (s.results.map Prod.fst).sum % 2 ^ 32 = ((rtpH264PacketCount s.p).toNat : Int) ∧
    (s.packets.map fun packet => packet.bytes.length - 12).sum % 2 ^ 32 =
      (rtpH264OctetCount s.p).toNat ∧
    List.Forall₂ (fun unit result => ∀ packet ∈ result.2, readBe32 packet.bytes 4 =
      (unit.ptsUs.toNat - (firstPts units).toNat) * 9 / 100 % 2 ^ 32) units s.results ∧
    ∀ unit ∈ units, (rtpH264TimestampAt s.p unit.ptsUs).toNat =
      (unit.ptsUs.toNat - (firstPts units).toNat) * 9 / 100 % 2 ^ 32 := by
  intro s
  have h : Continuous units s := run_continuous (reset_continuous p ssrc payloadType) units hne hfit
  refine ⟨h.counted.numbered, ?_, ?_, ?_, ?_⟩
  · rw [results_sum h.stamped, rtpH264PacketCount, h.counted.packets]
    simp [Stream.packets]
  · rw [rtpH264OctetCount, h.counted.octets, UInt32.toNat_ofNat']
    rfl
  · exact h.stamped.imp fun _ _ hone => hone.2
  · intro unit hu
    obtain ⟨hhave, hpts⟩ := h.base (List.ne_nil_of_mem hu)
    rw [rtpH264TimestampAt, if_pos hhave, rtpTimestamp_ticks (by rw [hpts]; exact hfit unit hu), hpts]

/-- The second picture, 40 ms after the first, is 3600 ticks later. -/
theorem rtp_stream_continuity_two_units :
    (rtpH264TimestampAt (run Stream.send ⟨rtpH264Reset rtpH264Create 7 97, []⟩
      [⟨twoUnits, 1000⟩, ⟨twoUnits, 41000⟩]).p 41000).toNat = 3600 := by
  have h := rtp_stream_continuity rtpH264Create 7 97 [⟨twoUnits, 1000⟩, ⟨twoUnits, 41000⟩]
    (by simp [twoUnits]) (by simp [firstPts])
  exact (h.2.2.2.2 ⟨twoUnits, 41000⟩ (by simp)).trans (by decide)

end Camstream.Proofs.RtpStream
