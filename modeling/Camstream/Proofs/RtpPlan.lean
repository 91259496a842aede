import Camstream.Webrtc.RtpH264
import Camstream.Lib.AnnexB

namespace Camstream.Proofs.RtpPlan
open Lib Webrtc

/-- Marker flag and payload of one packet, before numbering and framing. -/
abbrev Planned := Bool × Bytes

def emitOne {σ : Type} (sink : RtpPacketSink σ) (rtpTs : UInt32) (e : Emission σ)
    (planned : Planned) : Emission σ :=
  emitPacket sink rtpTs e planned.1 planned.2

/-- The fragments of a NAL unit from `offset` on. -/
def fragmentPlan (hasMore : Bool) (nal : Bytes) (offset : Nat) : List Planned :=
  if offset < nal.length then
    let take := fragmentTake (nal.length - offset)
    let lastFragment := decide (nal.length - offset ≤ payloadBudget - 2)
    (lastFragment && !hasMore, fuHeader (byteAt nal 0) (offset == 1) lastFragment ++
      (nal.drop offset).take take) :: fragmentPlan hasMore nal (offset + take)
  else []
termination_by nal.length - offset
decreasing_by
  have := @fragmentTake_pos (nal.length - offset) (by omega)
  omega

def nalPlan (hasMore : Bool) (nal : Bytes) : List Planned :=
  if nal.length ≤ payloadBudget then [(!hasMore, nal)] else fragmentPlan hasMore nal 1

/-- Everything the packetizer emits for a buffer from `cursor` on. -/
def packetPlan (data : Bytes) (cursor : Nat) : List Planned :=
  match _h : nextNal data cursor with
  | none => []
  | some (nalOffset, nalLength) =>
    let cursor := nalOffset + nalLength
    if nalLength = 0 then packetPlan data cursor
    else
      nalPlan (hasMore data cursor) ((data.drop nalOffset).take nalLength) ++
        packetPlan data cursor
termination_by data.length - cursor
decreasing_by
  all_goals
    have := nextNal_bounds _h
    omega

theorem sendFragments_plan {σ : Type} (sink : RtpPacketSink σ) (rtpTs : UInt32) (hasMore : Bool)
    (nal : Bytes) (offset : Nat) (e : Emission σ) :
    sendFragments sink rtpTs hasMore nal offset e =
      (fragmentPlan hasMore nal offset).foldl (emitOne sink rtpTs) e := by
  fun_induction sendFragments sink rtpTs hasMore nal offset e with
  | case1 offset e h take lastFragment last payload ih =>
    rw [fragmentPlan, if_pos h, List.foldl_cons]
    exact ih
  | case2 offset e h => rw [fragmentPlan, if_neg h, List.foldl_nil]

theorem sendNal_plan {σ : Type} (sink : RtpPacketSink σ) (rtpTs : UInt32) (hasMore : Bool)
    (nal : Bytes) (e : Emission σ) :
    sendNal sink rtpTs hasMore nal e = (nalPlan hasMore nal).foldl (emitOne sink rtpTs) e := by
  unfold sendNal nalPlan
  split
  · rfl
  · exact sendFragments_plan sink rtpTs hasMore nal 1 e

theorem packetPlan_none {data : Bytes} {cursor : Nat} (h : nextNal data cursor = none) :
    packetPlan data cursor = [] := by
  rw [packetPlan]
  split
  · rfl
  · simp_all

theorem packetPlan_empty {data : Bytes} {cursor off : Nat}
    (h : nextNal data cursor = some (off, 0)) : packetPlan data cursor = packetPlan data off := by
  rw [packetPlan]
  split
  · simp_all
  · rename_i o l hn
    rw [h, Option.some.injEq, Prod.mk.injEq] at hn
    obtain ⟨rfl, rfl⟩ := hn
    simp

theorem packetPlan_unit {data : Bytes} {cursor off len : Nat}
    (h : nextNal data cursor = some (off, len)) (hl : len ≠ 0) :
    packetPlan data cursor = nalPlan (hasMore data (off + len)) ((data.drop off).take len) ++
      packetPlan data (off + len) := by
  rw [packetPlan]
  split
  · simp_all
  · rename_i o l hn
    rw [h, Option.some.injEq, Prod.mk.injEq] at hn
    obtain ⟨rfl, rfl⟩ := hn
    simp [hl]

/-- The packetizer loop is the plan, emitted packet by packet. -/
theorem packetizeLoop_plan {σ : Type} (sink : RtpPacketSink σ) (rtpTs : UInt32) (data : Bytes)
    (cursor : Nat) (e : Emission σ) :
    packetizeLoop sink rtpTs data cursor e =
      (packetPlan data cursor).foldl (emitOne sink rtpTs) e := by
  fun_induction packetizeLoop sink rtpTs data cursor e with
  | case1 cursor e h => rw [packetPlan_none h, List.foldl_nil]
  | case2 cursor e off h next ih => rw [packetPlan_empty h]; exact ih
  | case3 cursor e off len h next hz ih =>
    rw [packetPlan_unit h hz, List.foldl_append, ← sendNal_plan]
    exact ih

theorem rtpH264Packetize_plan {σ : Type} (p : RtpH264) {accessUnit : Bytes} (ptsUs : UInt64)
    (sink : RtpPacketSink σ) (user : σ) (h : accessUnit.length ≠ 0) :
    rtpH264Packetize p accessUnit ptsUs sink user =
      let e := (packetPlan accessUnit 0).foldl
        (emitOne sink (rtpTimestamp (startTimeline p ptsUs) ptsUs)) ⟨startTimeline p ptsUs, user, 0⟩
      ((e.emitted : Int), e.p, e.user) := by
  rw [rtpH264Packetize, if_neg h]
  simp only [packetizeLoop_plan]

@[simp] theorem rtpHeader_length (p : RtpH264) (last : Bool) (ts : UInt32) :
    (rtpHeader p last ts).length = rtpHeaderSize := by
  simp [rtpHeader, rtpHeaderSize]

theorem fragmentPlan_sizes (more : Bool) (nal : Bytes) (offset : Nat) :
    ∀ q ∈ fragmentPlan more nal offset, q.2.length ≤ payloadBudget := by
  fun_induction fragmentPlan more nal offset with
  | case1 offset h take lastFragment ih =>
    intro q hq
    rcases List.mem_cons.mp hq with rfl | hq
    · have ht : take ≤ payloadBudget - 2 := by
        simp only [take, fragmentTake]
        split <;> omega
      simp only [fuHeader, List.length_append, List.length_cons, List.length_nil, List.length_take,
        payloadBudget, rtpMaxPacket, rtpHeaderSize] at *
      omega
    · exact ih q hq
  | case2 => simp

theorem nalPlan_sizes (more : Bool) (nal : Bytes) :
    ∀ q ∈ nalPlan more nal, q.2.length ≤ payloadBudget := by
  unfold nalPlan
  split
  · rename_i h
    simpa using h
  · exact fragmentPlan_sizes more nal 1

theorem packetPlan_sizes (data : Bytes) (cursor : Nat) :
    ∀ q ∈ packetPlan data cursor, q.2.length ≤ payloadBudget := by
  fun_induction packetPlan data cursor with
  | case1 => simp
  | case2 cursor off h next ih => exact ih
  | case3 cursor off len h next hz ih =>
    intro q hq
    rcases List.mem_append.mp hq with hq | hq
    · exact nalPlan_sizes _ _ q hq
    · exact ih q hq

/-- What every emitted packet keeps, a whole access unit keeps. A packet has its
header and stays within the limit. -/
theorem rtpH264Packetize_keeps {σ : Type} {Q : RtpH264 → σ → Prop} {sink : RtpPacketSink σ}
    (hstep : ∀ p user packet marker, Q p user → rtpHeaderSize ≤ packet.length →
      packet.length ≤ rtpMaxPacket → ∀ packets octets,
        Q { p with sequence := p.sequence + 1, packets, octets }
          (sink user packet marker (p.sequence + 1)))
    (hbase : ∀ p user ptsUs, Q p user → Q (startTimeline p ptsUs) user)
    (p : RtpH264) (accessUnit : Bytes) (ptsUs : UInt64) (user : σ) (h : Q p user) :
    Q (rtpH264Packetize p accessUnit ptsUs sink user).2.1
      (rtpH264Packetize p accessUnit ptsUs sink user).2.2 := by
  by_cases hz : accessUnit.length = 0
  · rw [rtpH264Packetize, if_pos hz]
    exact h
  · rw [rtpH264Packetize_plan p ptsUs sink user hz]
    have hsizes := packetPlan_sizes accessUnit 0
    suffices hfold : ∀ (plan : List Planned) (e : Emission σ),
        (∀ q ∈ plan, q.2.length ≤ payloadBudget) → Q e.p e.user →
          Q (plan.foldl (emitOne sink (rtpTimestamp (startTimeline p ptsUs) ptsUs)) e).p
            (plan.foldl (emitOne sink (rtpTimestamp (startTimeline p ptsUs) ptsUs)) e).user from
      hfold _ _ hsizes (hbase p user ptsUs h)
    intro plan
    induction plan with
    | nil => exact fun _ _ hq => hq
    | cons q plan ih =>
      intro e hsizes hq
      rw [List.foldl_cons]
      refine ih _ (fun r hr => hsizes r (List.mem_cons_of_mem _ hr)) ?_
      have hq2 := hsizes q List.mem_cons_self
      refine hstep e.p e.user _ q.1 hq ?_ ?_ _ _
      · simp
      · simp only [List.length_append, rtpHeader_length, payloadBudget, rtpMaxPacket,
          rtpHeaderSize] at hq2 ⊢
        omega

end Camstream.Proofs.RtpPlan
