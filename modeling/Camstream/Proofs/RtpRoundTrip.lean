import Mathlib.Data.FinEnum
import Camstream.Lib.Rfc6184
import Camstream.Proofs.NalScan
import Camstream.Proofs.RtpPlan

namespace Camstream.Proofs.RtpRoundTrip
open Lib Webrtc RtpPlan

/-- One call of the sink. -/
structure RtpPacket where
  bytes : Bytes
  marker : Bool
  sequence : UInt16
deriving Repr, DecidableEq

def RtpPacket.payload (k : RtpPacket) : Bytes := k.bytes.drop rtpHeaderSize

/-- The sink that keeps every packet. -/
def collect : RtpPacketSink (List RtpPacket) :=
  fun packets bytes marker sequence => packets ++ [⟨bytes, marker, sequence⟩]

def emittedPackets (p : RtpH264) (accessUnit : Bytes) (ptsUs : UInt64) : List RtpPacket :=
  (rtpH264Packetize p accessUnit ptsUs collect []).2.2

theorem collected_payloads (ts : UInt32) (plan : List Planned) (e : Emission (List RtpPacket)) :
    (plan.foldl (emitOne collect ts) e).user.map RtpPacket.payload =
      e.user.map RtpPacket.payload ++ plan.map Prod.snd := by
  induction plan generalizing e with
  | nil => simp
  | cons q plan ih =>
    rw [List.foldl_cons, ih]
    have hd : (rtpHeader { e.p with sequence := e.p.sequence + 1 } q.1 ts ++ q.2).drop rtpHeaderSize =
        q.2 := by
      rw [List.drop_append_of_le_length (by simp), List.drop_of_length_le (by simp)]
      rfl
    simp [emitOne, emitPacket, collect, RtpPacket.payload, hd]

theorem collected_sizes (ts : UInt32) (plan : List Planned) (e : Emission (List RtpPacket))
    (bound : Nat) (hp : ∀ q ∈ plan, q.2.length ≤ bound)
    (he : ∀ k ∈ e.user, k.bytes.length ≤ rtpHeaderSize + bound) :
    ∀ k ∈ (plan.foldl (emitOne collect ts) e).user, k.bytes.length ≤ rtpHeaderSize + bound := by
  induction plan generalizing e with
  | nil => exact he
  | cons q plan ih =>
    rw [List.foldl_cons]
    apply ih _ (fun r hr => hp r (List.mem_cons_of_mem _ hr))
    intro k hk
    simp only [emitOne, emitPacket, collect] at hk
    rcases List.mem_append.mp hk with hk | hk
    · exact he k hk
    · obtain rfl := List.mem_singleton.mp hk
      have := hp q List.mem_cons_self
      simp only [List.length_append, rtpHeader_length]
      omega

/-- Payloads of one NAL unit; the marker plays no part in them. -/
def nalPayloads (nal : Bytes) : List Bytes := (nalPlan false nal).map Prod.snd

theorem fragmentPlan_payloads (more : Bool) (nal : Bytes) (offset : Nat) :
    (fragmentPlan more nal offset).map Prod.snd = (fragmentPlan false nal offset).map Prod.snd := by
  fun_induction fragmentPlan more nal offset with
  | case1 offset h take lastFragment ih =>
    conv_rhs => rw [fragmentPlan, if_pos h]
    rw [List.map_cons, List.map_cons, ih]
  | case2 offset h =>
    conv_rhs => rw [fragmentPlan, if_neg h]

theorem nalPlan_payloads (more : Bool) (nal : Bytes) :
    (nalPlan more nal).map Prod.snd = nalPayloads nal := by
  unfold nalPayloads nalPlan
  split
  · rfl
  · exact fragmentPlan_payloads more nal 1

/-- The plan carries exactly the units of the stream, in order. -/
theorem packetPlan_payloads (data : Bytes) (cursor : Nat) :
    (packetPlan data cursor).map Prod.snd = (annexBUnits (data.drop cursor)).flatMap nalPayloads := by
  fun_induction packetPlan data cursor with
  | case1 cursor h => simp [NalScan.units_none h]
  | case2 cursor off h next ih => rw [NalScan.units_empty h]; exact ih
  | case3 cursor off len h next hz ih =>
    rw [NalScan.units_some h hz, List.map_append, nalPlan_payloads, List.flatMap_cons, ih]

theorem fuIndicator_type : ∀ h : UInt8, nalType ((h &&& 0x60) ||| h264NaluFuA) = 28 := by
  decide +kernel

theorem fuHeader_start : ∀ (h : UInt8) (first last : Bool),
    fuStart ((if first then 0x80 else 0x00) ||| (if last then 0x40 else 0x00) |||
      (h &&& h264NaluTypeMask)) = first := by
  decide +kernel

theorem fuHeader_end : ∀ (h : UInt8) (first last : Bool),
    fuEnd ((if first then 0x80 else 0x00) ||| (if last then 0x40 else 0x00) |||
      (h &&& h264NaluTypeMask)) = last := by
  decide +kernel

/-- The receiver rebuilds the NAL header without its forbidden bit. -/
theorem fuHeader_rebuild : ∀ (h : UInt8) (first last : Bool),
    ((((h &&& 0x60) ||| h264NaluFuA) &&& 0xE0) |||
      (((if first then 0x80 else 0x00) ||| (if last then 0x40 else 0x00) |||
        (h &&& h264NaluTypeMask)) &&& 0x1F)) = h &&& 0x7F := by
  decide +kernel

theorem fragmentPlan_done {nal : Bytes} {offset : Nat} (more : Bool) (h : nal.length ≤ offset) :
    fragmentPlan more nal offset = [] := by
  rw [fragmentPlan, if_neg (by omega)]

/-- The fragments from `offset` on, seen from the receiver's side. -/
theorem fragmentPlan_shape (more : Bool) (nal : Bytes) (offset : Nat) (h1 : 1 ≤ offset)
    (ho : offset < nal.length) :
    let fs := (fragmentPlan more nal offset).map Prod.snd
    fs ≠ [] ∧ ∀ i (h : i < fs.length), ∃ indicator fu body, fs[i] = indicator :: fu :: body ∧
      nalType indicator = 28 ∧ body ≠ [] ∧ (fuStart fu = true ↔ i = 0 ∧ offset = 1) ∧
      (fuEnd fu = true ↔ i + 1 = fs.length) ∧
      (fuStart fu = true ∧ fuEnd fu = true → nal.length ≤ payloadBudget - 1) := by
  fun_induction fragmentPlan more nal offset with
  | case2 offset h => omega
  | case1 offset h take lastFragment ih =>
    have hbody : (nal.drop offset).take take ≠ [] := by
      have := @fragmentTake_pos (nal.length - offset) (by omega)
      intro he
      have hl := congrArg List.length he
      simp only [List.length_take, List.length_drop, List.length_nil] at hl
      omega
    by_cases hlast : nal.length - offset ≤ payloadBudget - 2
    · have htake : take = nal.length - offset := by
        simp only [take, fragmentTake]
        rw [if_neg (by omega)]
      have hl : lastFragment = true := by simp [lastFragment, hlast]
      rw [fragmentPlan_done more (by omega : nal.length ≤ offset + take)]
      refine ⟨by simp, ?_⟩
      intro i hi
      obtain rfl : i = 0 := by simpa using hi
      refine ⟨_, _, _, rfl, fuIndicator_type _, hbody, ?_, ?_, ?_⟩
      · rw [fuHeader_start]; simp
      · rw [fuHeader_end]; simp [hl]
      · rw [fuHeader_start, fuHeader_end]
        rintro ⟨hs, -⟩
        have : offset = 1 := by simpa using hs
        simp only [payloadBudget, rtpMaxPacket, rtpHeaderSize] at *
        omega
    · have htake : take = payloadBudget - 2 := by
        simp only [take, fragmentTake]
        rw [if_pos (by omega)]
      have hl : lastFragment = false := by simp [lastFragment, hlast]
      obtain ⟨hne, hshape⟩ := ih (by omega) (by omega)
      have hpos : 0 < payloadBudget - 2 := by decide
      refine ⟨by simp, ?_⟩
      intro i hi
      cases i with
      | zero =>
        refine ⟨_, _, _, rfl, fuIndicator_type _, hbody, ?_, ?_, ?_⟩
        · rw [fuHeader_start]; simp
        · have := List.length_pos_of_ne_nil hne
          rw [fuHeader_end, hl]
          simp only [List.map_cons, List.length_cons]
          constructor
          · intro hx
            cases hx
          · omega
        · rw [fuHeader_end]; simp [hl]
      | succ i =>
        obtain ⟨ind, fu, body, he, ht, hb, hs, hend, hboth⟩ := hshape i (by simpa using hi)
        refine ⟨ind, fu, body, by simpa using he, ht, hb, ?_, ?_, hboth⟩
        · rw [hs]; constructor <;> intro hx <;> omega
        · rw [hend]; simp

/-- What the receiver holds once the fragments from `offset` on arrived after
the ones before it. -/
theorem fragments_received (more : Bool) (nal : Bytes) (offset : Nat) (h1 : 1 < offset)
    (ho : offset < nal.length) (unit : Bytes) (units : List Bytes) :
    ((fragmentPlan more nal offset).map Prod.snd).foldl receive ⟨some unit, units⟩ =
      ⟨none, units ++ [unit ++ nal.drop offset]⟩ := by
  fun_induction fragmentPlan more nal offset generalizing unit with
  | case2 offset h => omega
  | case1 offset h take lastFragment ih =>
    have hstart : (offset == 1) = false := by simp; omega
    rw [List.map_cons, List.foldl_cons, hstart]
    simp only [fuHeader, List.cons_append, List.nil_append]
    rw [receive_fuA _ _ _ (fuIndicator_type _), receiveFuA, fuHeader_start, fuHeader_end]
    by_cases hlast : nal.length - offset ≤ payloadBudget - 2
    · have htake : take = nal.length - offset := by
        simp only [take, fragmentTake]
        rw [if_neg (by omega)]
      have hl : lastFragment = true := by simp [lastFragment, hlast]
      rw [fragmentPlan_done more (by omega : nal.length ≤ offset + take)]
      simp only [hl, Bool.false_eq_true, ↓reduceIte, List.map_nil, List.foldl_nil,
        Option.map_some, Option.toList_some]
      rw [htake, List.take_of_length_le (by simp)]
    · have htake : take = payloadBudget - 2 := by
        simp only [take, fragmentTake]
        rw [if_pos (by omega)]
      have hl : lastFragment = false := by simp [lastFragment, hlast]
      simp only [hl, Bool.false_eq_true, ↓reduceIte, Option.map_some]
      rw [ih (by omega) (by omega), List.append_assoc, ← List.drop_drop, List.take_append_drop]

/-- The unit as a receiver sees it: FU-A drops the forbidden bit. -/
def asReceived (nal : Bytes) : Bytes :=
  if nal.length ≤ payloadBudget then nal else (byteAt nal 0 &&& 0x7F) :: nal.drop 1

theorem nal_received (nal : Bytes) (units : List Bytes)
    (ht : 1 ≤ nalType (byteAt nal 0) ∧ nalType (byteAt nal 0) ≤ 23) (hne : nal ≠ []) :
    (nalPayloads nal).foldl receive ⟨none, units⟩ = ⟨none, units ++ [asReceived nal]⟩ := by
  unfold nalPayloads nalPlan asReceived
  split
  · cases nal with
    | nil => exact absurd rfl hne
    | cons b rest =>
      simp only [List.map_cons, List.map_nil, List.foldl_cons, List.foldl_nil]
      exact receive_single _ _ (by simpa [byteAt] using ht)
  · rename_i hbig
    have hpos : 0 < payloadBudget := by decide
    rw [fragmentPlan, if_pos (by omega)]
    have htake : fragmentTake (nal.length - 1) = payloadBudget - 2 := by
      rw [fragmentTake, if_pos (by omega)]
    have hl : decide (nal.length - 1 ≤ payloadBudget - 2) = false := by simp; omega
    simp only [htake, hl, List.map_cons, List.foldl_cons, fuHeader, List.cons_append,
      List.nil_append]
    rw [receive_fuA _ _ _ (fuIndicator_type _), receiveFuA, fuHeader_start, fuHeader_end,
      fuHeader_rebuild]
    simp only [beq_self_eq_true, Bool.false_eq_true, ↓reduceIte]
    have h2 : 2 ≤ payloadBudget - 2 := by decide
    rw [fragments_received false nal _ (by omega) (by omega), List.cons_append,
      ← List.drop_drop, List.take_append_drop]

theorem units_received (nals units : List Bytes)
    (ht : ∀ nal ∈ nals, 1 ≤ nalType (byteAt nal 0) ∧ nalType (byteAt nal 0) ≤ 23)
    (hne : ∀ nal ∈ nals, nal ≠ []) :
    (nals.flatMap nalPayloads).foldl receive ⟨none, units⟩ =
      ⟨none, units ++ nals.map asReceived⟩ := by
  induction nals generalizing units with
  | nil => simp
  | cons nal nals ih =>
    rw [List.flatMap_cons, List.foldl_append,
      nal_received nal units (ht nal List.mem_cons_self) (hne nal List.mem_cons_self),
      ih _ (fun n hn => ht n (List.mem_cons_of_mem _ hn))
        (fun n hn => hne n (List.mem_cons_of_mem _ hn))]
    simp

theorem annexBUnits_ne_nil (data : Bytes) : ∀ nal ∈ annexBUnits data, nal ≠ [] := by
  intro nal h
  simpa using (List.mem_filter.mp h).2

/-- The payloads of one unit: itself, or a group of fragments. -/
theorem nalPayloads_group (nal : Bytes) :
    (nal.length ≤ payloadBudget ∧ nalPayloads nal = [nal]) ∨
      (payloadBudget < nal.length ∧ FragmentGroup (nalPayloads nal)) := by
  unfold nalPayloads nalPlan
  split
  · exact .inl ⟨by assumption, rfl⟩
  · rename_i hbig
    refine .inr ⟨by omega, ?_⟩
    have hpos : 0 < payloadBudget := by decide
    obtain ⟨hne, hshape⟩ := fragmentPlan_shape false nal 1 (Nat.le_refl 1) (by omega)
    refine ⟨hne, ?_⟩
    intro i hi
    obtain ⟨ind, fu, body, he, ht, hb, hs, hend, hboth⟩ := hshape i hi
    refine ⟨ind, fu, body, he, ht, hb, by simpa using hs, hend, ?_⟩
    intro hx
    have := hboth hx
    omega

theorem emittedPackets_payloads (p : RtpH264) (accessUnit : Bytes) (ptsUs : UInt64) :
    (emittedPackets p accessUnit ptsUs).map RtpPacket.payload =
      (annexBUnits accessUnit).flatMap nalPayloads := by
  unfold emittedPackets
  by_cases h : accessUnit.length = 0
  · obtain rfl := List.length_eq_zero_iff.mp h
    rfl
  · rw [rtpH264Packetize_plan p ptsUs collect [] h]
    simp only [collected_payloads, packetPlan_payloads, List.map_nil, List.nil_append,
      List.drop_zero]

theorem emittedPackets_sizes (p : RtpH264) (accessUnit : Bytes) (ptsUs : UInt64) :
    ∀ k ∈ emittedPackets p accessUnit ptsUs, k.bytes.length ≤ rtpMaxPacket := by
  unfold emittedPackets
  by_cases h : accessUnit.length = 0
  · simp [rtpH264Packetize, h]
  · rw [rtpH264Packetize_plan p ptsUs collect [] h]
    exact collected_sizes _ _ _ payloadBudget (packetPlan_sizes accessUnit 0) (by simp)

/-- A receiver gets back the NAL units of the access unit, in order and byte
for byte, except for the forbidden bit of a fragmented one; no packet exceeds
the limit and the fragments of one unit are well formed. -/
theorem packetize_round_trip (p : RtpH264) (accessUnit : Bytes) (ptsUs : UInt64)
    (ht : ∀ nal ∈ annexBUnits accessUnit,
      1 ≤ nalType (byteAt nal 0) ∧ nalType (byteAt nal 0) ≤ 23) :
    depacketize ((emittedPackets p accessUnit ptsUs).map RtpPacket.payload) =
        (annexBUnits accessUnit).map asReceived ∧
      (∀ k ∈ emittedPackets p accessUnit ptsUs, k.bytes.length ≤ rtpMaxPacket) ∧
      ∃ groups, (emittedPackets p accessUnit ptsUs).map RtpPacket.payload = groups.flatten ∧
        List.Forall₂ (fun nal group => (nal.length ≤ payloadBudget ∧ group = [nal]) ∨
          (payloadBudget < nal.length ∧ FragmentGroup group)) (annexBUnits accessUnit) groups := by
  refine ⟨?_, emittedPackets_sizes p accessUnit ptsUs,
    (annexBUnits accessUnit).map nalPayloads, ?_, ?_⟩
  · rw [emittedPackets_payloads, depacketize,
      units_received _ _ ht (annexBUnits_ne_nil accessUnit)]
    simp
  · rw [emittedPackets_payloads, List.flatMap_def]
  · rw [List.forall₂_map_right_iff]
    exact List.forall₂_same.mpr (fun nal _ => nalPayloads_group nal)

/-- A small access unit: an SPS behind a four byte code with padding zeros,
then a slice behind a three byte code. -/
def twoUnits : Bytes := [0, 0, 0, 1, 0x67, 0x42, 0, 0, 0, 1, 0x65, 0x88]

theorem packetize_round_trip_two_units :
    depacketize ((emittedPackets rtpH264Create twoUnits 0).map RtpPacket.payload) =
      [[0x67, 0x42], [0x65, 0x88]] := by
  have h := (packetize_round_trip rtpH264Create twoUnits 0 (by decide)).1
  rw [h]
  decide

end Camstream.Proofs.RtpRoundTrip
