import Mathlib.Data.FinEnum
import Camstream.Proofs.RtpRoundTrip

namespace Camstream.Proofs.MarkerBit
open Lib Webrtc RtpPlan RtpRoundTrip

/-- The bodies behind the start codes without their padding, the empty ones included. -/
def bodies (data : Bytes) : List Bytes := (splitCodes data).2.map stripZeros

/-- No empty body stands between two that are not. -/
def Gapless (units : List Bytes) : Prop :=
  ∀ front u rest, units = front ++ u :: [] :: rest → u ≠ [] → ∀ v ∈ rest, v = []

/-- The last packet has the marker bit and the marker argument, and no other packet has. -/
def MarksLast (packets : List RtpPacket) : Prop :=
  ∃ front last, packets = front ++ [last] ∧ last.marker = true ∧ byteAt last.bytes 1 &&& 0x80 ≠ 0 ∧
    ∀ k ∈ front, k.marker = false ∧ byteAt k.bytes 1 &&& 0x80 = 0

/-- The look-ahead of the packetizer on a list of bodies. -/
def leads : List Bytes → Bool
  | [] => false
  | v :: _ => v != []

/-- What the packetizer emits for a list of bodies. -/
def bodiesPlan : List Bytes → List Planned
  | [] => []
  | u :: rest => (if u = [] then [] else nalPlan (leads rest) u) ++ bodiesPlan rest

theorem nextNal_bodies_none {data : Bytes} {cursor : Nat} (h : nextNal data cursor = none) :
    bodies (data.drop cursor) = [] := by
  rw [bodies, NalScan.nextNal_none h, List.map_nil]

theorem nextNal_bodies_some {data : Bytes} {cursor offset length : Nat}
    (h : nextNal data cursor = some (offset, length)) :
    bodies (data.drop cursor) =
      (data.drop offset).take length :: bodies (data.drop (offset + length)) := by
  obtain ⟨hsplit, hstrip, -⟩ := NalScan.nextNal_some h
  rw [bodies, hsplit, List.map_cons, hstrip]
  rfl

theorem hasMore_leads (data : Bytes) (cursor : Nat) :
    hasMore data cursor = leads (bodies (data.drop cursor)) := by
  unfold hasMore
  split
  · rename_i offset length h
    obtain ⟨-, -, hlength⟩ := NalScan.nextNal_some h
    rw [nextNal_bodies_some h, leads]
    cases length with
    | zero => rfl
    | succ length =>
      have hne : (data.drop offset).take (length + 1) ≠ [] := by
        intro hnil
        rw [hnil] at hlength
        cases hlength
      rw [bne_iff_ne.mpr hne, decide_eq_true (Nat.succ_pos length)]
  · rename_i h
    rw [nextNal_bodies_none h]
    rfl

/-- The packetizer walks over the bodies of the stream. -/
theorem packetPlan_bodies (data : Bytes) (cursor : Nat) :
    packetPlan data cursor = bodiesPlan (bodies (data.drop cursor)) := by
  fun_induction packetPlan data cursor with
  | case1 cursor h => rw [nextNal_bodies_none h]; rfl
  | case2 cursor offset h next ih =>
    rw [nextNal_bodies_some h, List.take_zero, bodiesPlan, if_pos rfl, List.nil_append]
    exact ih
  | case3 cursor offset length h next hlength ih =>
    obtain ⟨-, -, hlen⟩ := NalScan.nextNal_some h
    have hne : (data.drop offset).take length ≠ [] := by
      intro hnil
      rw [hnil] at hlen
      exact hlength hlen.symm
    rw [nextNal_bodies_some h, bodiesPlan, if_neg hne, ← hasMore_leads, ih]

/-- The flags of a unit: all clear but the last, which says whether nothing follows. -/
def flags (plan : List Planned) : List Bool := plan.map Prod.fst

theorem fragmentPlan_flags (more : Bool) (nal : Bytes) (offset : Nat) (h : offset < nal.length) :
    ∃ n, flags (fragmentPlan more nal offset) = List.replicate n false ++ [!more] := by
  fun_induction fragmentPlan more nal offset with
  | case1 offset hoffset take lastFragment ih =>
    by_cases hlast : nal.length - offset ≤ payloadBudget - 2
    · have htake : take = nal.length - offset := if_neg (Nat.not_lt.mpr hlast)
      refine ⟨0, ?_⟩
      rw [fragmentPlan, if_neg (by omega)]
      simp [flags, lastFragment, hlast]
    · have htake : take = payloadBudget - 2 := if_pos (Nat.lt_of_not_le hlast)
      obtain ⟨n, hn⟩ := ih (by omega)
      refine ⟨n + 1, ?_⟩
      rw [flags, List.map_cons, ← flags, hn]
      simp [lastFragment, hlast, List.replicate_succ]
  | case2 offset hoffset => exact absurd h hoffset

theorem nalPlan_flags (more : Bool) (nal : Bytes) :
    ∃ n, flags (nalPlan more nal) = List.replicate n false ++ [!more] := by
  unfold nalPlan
  split
  · exact ⟨0, rfl⟩
  · rename_i hbig
    have hbudget : 1 < payloadBudget := by decide
    exact fragmentPlan_flags more nal 1 (by omega)

/-- Only the last flag is set. -/
def OnlyLast (marks : List Bool) : Prop :=
  marks.getLast? = some true ∧ ∀ mark ∈ marks.dropLast, mark = false

theorem onlyLast_append {front marks : List Bool} (h : marks ≠ []) :
    OnlyLast (front ++ marks) ↔ (∀ mark ∈ front, mark = false) ∧ OnlyLast marks := by
  unfold OnlyLast
  rw [List.getLast?_append_of_ne_nil _ h, List.dropLast_append_of_ne_nil h]
  simp only [List.forall_mem_append]
  tauto

theorem gapless_cons (u : Bytes) (rest : List Bytes) :
    Gapless (u :: rest) ↔ (u ≠ [] → rest.head? = some [] → ∀ v ∈ rest, v = []) ∧ Gapless rest := by
  refine ⟨fun h => ⟨fun hu hhead => ?_, fun front v tail heq => h (u :: front) v tail ?_⟩, ?_⟩
  · cases rest with
    | nil => cases hhead
    | cons v tail =>
      obtain rfl := Option.some.inj hhead
      have htail := h [] u tail rfl hu
      simpa using htail
  · rw [heq, List.cons_append]
  · rintro ⟨hfirst, hrest⟩ front v tail heq hv
    cases front with
    | nil =>
      obtain ⟨rfl, rfl⟩ := List.cons.inj heq
      exact fun w hw => hfirst hv rfl w (List.mem_cons_of_mem _ hw)
    | cons w front => exact hrest front v tail (List.cons.inj heq).2 hv

theorem bodiesPlan_empty {units : List Bytes} (h : ∀ v ∈ units, v = []) : bodiesPlan units = [] := by
  induction units with
  | nil => rfl
  | cons u rest ih =>
    obtain rfl : u = [] := h u List.mem_cons_self
    rw [bodiesPlan, if_pos rfl, ih fun v hv => h v (List.mem_cons_of_mem _ hv)]
    rfl

theorem gapless_empty {units : List Bytes} (h : ∀ v ∈ units, v = []) : Gapless units := by
  intro front u rest heq hu
  exact absurd (h u (by rw [heq]; simp)) hu

theorem leads_empty {units : List Bytes} (h : ∀ v ∈ units, v = []) : leads units = false := by
  cases units with
  | nil => rfl
  | cons v rest =>
    rw [h v List.mem_cons_self]
    rfl

theorem bodiesPlan_flags {u : Bytes} (hu : u ≠ []) (rest : List Bytes) :
    ∃ n, flags (bodiesPlan (u :: rest)) =
      List.replicate n false ++ [!leads rest] ++ flags (bodiesPlan rest) := by
  obtain ⟨n, hn⟩ := nalPlan_flags (leads rest) u
  exact ⟨n, by rw [bodiesPlan, if_neg hu, flags, List.map_append, ← flags, ← flags, hn]⟩

theorem bodiesPlan_ne_nil {units : List Bytes} (h : ¬∀ v ∈ units, v = []) :
    flags (bodiesPlan units) ≠ [] := by
  induction units with
  | nil => exact absurd (fun v hv => nomatch hv) h
  | cons u rest ih =>
    by_cases hu : u = []
    · rw [bodiesPlan, if_pos hu, List.nil_append]
      exact ih fun hrest => h (List.forall_mem_cons.mpr ⟨hu, hrest⟩)
    · obtain ⟨n, hn⟩ := bodiesPlan_flags hu rest
      rw [hn]
      simp

/-- The look-ahead marks the last packet alone exactly when no empty body stands between two
that are sent. -/
theorem onlyLast_iff (units : List Bytes) (h : ¬∀ v ∈ units, v = []) :
    OnlyLast (flags (bodiesPlan units)) ↔ Gapless units := by
  induction units with
  | nil => exact absurd (fun v hv => nomatch hv) h
  | cons u rest ih =>
    rw [gapless_cons]
    by_cases hu : u = []
    · rw [bodiesPlan, if_pos hu, List.nil_append,
        ih fun hrest => h (List.forall_mem_cons.mpr ⟨hu, hrest⟩)]
      exact ⟨fun hgap => ⟨fun hne => absurd hu hne, hgap⟩, And.right⟩
    · obtain ⟨n, hn⟩ := bodiesPlan_flags hu rest
      have hclear : ∀ mark ∈ List.replicate n false, mark = false :=
        fun mark hmark => List.eq_of_mem_replicate hmark
      rw [hn]
      by_cases hrest : ∀ v ∈ rest, v = []
      · have honly : OnlyLast [true] := ⟨rfl, fun mark hmark => nomatch hmark⟩
        rw [bodiesPlan_empty hrest, leads_empty hrest, flags, List.map_nil, List.append_nil,
          onlyLast_append (by simp)]
        exact ⟨fun _ => ⟨fun _ _ => hrest, gapless_empty hrest⟩, fun _ => ⟨hclear, honly⟩⟩
      · rw [onlyLast_append (bodiesPlan_ne_nil hrest), ih hrest]
        cases hlead : leads rest with
        | true =>
          have hhead : rest.head? ≠ some [] := by
            cases rest with
            | nil => cases hlead
            | cons v tail =>
              intro hsome
              rw [Option.some.inj hsome] at hlead
              cases hlead
          have hfront : ∀ mark ∈ List.replicate n false ++ [!true], mark = false := by simp
          exact ⟨fun ⟨_, hgap⟩ => ⟨fun _ hsome => absurd hsome hhead, hgap⟩,
            fun ⟨_, hgap⟩ => ⟨hfront, hgap⟩⟩
        | false =>
          -- an empty body follows, and another unit after it: the marker comes early
          have hhead : rest.head? = some [] := by
            cases rest with
            | nil => exact absurd (fun v hv => nomatch hv) hrest
            | cons v tail => simpa [leads] using hlead
          refine ⟨fun ⟨hfront, _⟩ => ?_, fun ⟨hgap, _⟩ => absurd (hgap hu hhead) hrest⟩
          exact absurd (hfront true (by simp)) (by decide)

theorem markerByte : ∀ (last : Bool) (payloadType : UInt8),
    ((if last then 0x80 else 0x00) ||| (payloadType &&& 0x7F)) &&& (0x80 : UInt8) =
      if last then 0x80 else 0 := by
  decide +kernel

/-- The marker bit of a packet and its marker argument agree. -/
def Marked (k : RtpPacket) : Prop := byteAt k.bytes 1 &&& 0x80 = if k.marker then 0x80 else 0

theorem rtpHeader_marked (p : RtpH264) (last : Bool) (ts : UInt32) (payload : Bytes)
    (sequence : UInt16) : Marked ⟨rtpHeader p last ts ++ payload, last, sequence⟩ := by
  have hbyte := markerByte last p.payloadType.toUInt8
  rw [Marked, rtpHeader]
  simpa [byteAt, UInt32.toUInt8_and] using hbyte

theorem collected_marks (ts : UInt32) (plan : List Planned) (e : Emission (List RtpPacket))
    (h : ∀ k ∈ e.user, Marked k) :
    (plan.foldl (emitOne collect ts) e).user.map RtpPacket.marker =
        e.user.map RtpPacket.marker ++ flags plan ∧
      ∀ k ∈ (plan.foldl (emitOne collect ts) e).user, Marked k := by
  induction plan generalizing e with
  | nil => exact ⟨(List.append_nil _).symm, h⟩
  | cons q plan ih =>
    have hnext : ∀ k ∈ (emitOne collect ts e q).user, Marked k := by
      intro k hk
      rcases List.mem_append.mp hk with hk | hk
      · exact h k hk
      · obtain rfl := List.mem_singleton.mp hk
        exact rtpHeader_marked _ _ _ _ _
    obtain ⟨hmarks, hall⟩ := ih (emitOne collect ts e q) hnext
    refine ⟨?_, hall⟩
    rw [List.foldl_cons, hmarks]
    simp [emitOne, emitPacket, collect, flags]

theorem emittedPackets_marks (p : RtpH264) (accessUnit : Bytes) (ptsUs : UInt64) :
    (emittedPackets p accessUnit ptsUs).map RtpPacket.marker =
        flags (bodiesPlan (bodies accessUnit)) ∧
      ∀ k ∈ emittedPackets p accessUnit ptsUs, Marked k := by
  unfold emittedPackets
  by_cases hempty : accessUnit.length = 0
  · obtain rfl := List.length_eq_zero_iff.mp hempty
    exact ⟨rfl, fun k hk => nomatch hk⟩
  · rw [rtpH264Packetize_plan p ptsUs collect [] hempty]
    have hmarks := collected_marks (rtpTimestamp (startTimeline p ptsUs) ptsUs)
      (packetPlan accessUnit 0) ⟨startTimeline p ptsUs, [], 0⟩ fun k hk => nomatch hk
    rw [packetPlan_bodies, List.drop_zero] at hmarks ⊢
    exact hmarks

theorem marksLast_iff {packets : List RtpPacket} (h : ∀ k ∈ packets, Marked k) :
    MarksLast packets ↔ OnlyLast (packets.map RtpPacket.marker) := by
  refine ⟨?_, fun ⟨hlast, hfront⟩ => ?_⟩
  · rintro ⟨front, last, rfl, hlast, -, hfront⟩
    rw [List.map_append, List.map_singleton, onlyLast_append (by simp), hlast]
    refine ⟨fun mark hmark => ?_, rfl, fun mark hmark => nomatch hmark⟩
    obtain ⟨k, hk, rfl⟩ := List.mem_map.mp hmark
    exact (hfront k hk).1
  · have hne : packets ≠ [] := by
      rintro rfl
      cases hlast
    have hsplit := List.dropLast_append_getLast hne
    rw [List.getLast?_map, List.getLast?_eq_some_getLast hne] at hlast
    have hmarker : (packets.getLast hne).marker = true := Option.some.inj hlast
    refine ⟨packets.dropLast, packets.getLast hne, hsplit.symm, hmarker, ?_, fun k hk => ?_⟩
    · rw [h _ (List.getLast_mem hne), hmarker]
      decide
    · have hclear : k.marker = false := by
        refine hfront k.marker ?_
        rw [← List.map_dropLast]
        exact List.mem_map_of_mem hk
      refine ⟨hclear, ?_⟩
      rw [h k (List.dropLast_subset packets hk), hclear]
      rfl

/-- An access unit that gives packets has its marker on the last one alone exactly when no
empty NAL unit stands between two that are sent. -/
theorem marker_last_iff (p : RtpH264) (accessUnit : Bytes) (ptsUs : UInt64) :
    (emittedPackets p accessUnit ptsUs ≠ [] → MarksLast (emittedPackets p accessUnit ptsUs)) ↔
      Gapless (bodies accessUnit) := by
  obtain ⟨hmarks, hall⟩ := emittedPackets_marks p accessUnit ptsUs
  rw [marksLast_iff hall, hmarks]
  by_cases hempty : ∀ v ∈ bodies accessUnit, v = []
  · rw [bodiesPlan_empty hempty] at hmarks ⊢
    have hnone : emittedPackets p accessUnit ptsUs = [] := List.map_eq_nil_iff.mp hmarks
    exact ⟨fun _ => gapless_empty hempty, fun _ hne => absurd hnone hne⟩
  · have hne : emittedPackets p accessUnit ptsUs ≠ [] := by
      intro hnil
      rw [hnil] at hmarks
      exact bodiesPlan_ne_nil hempty hmarks.symm
    rw [← onlyLast_iff (bodies accessUnit) hempty]
    exact ⟨fun h => h hne, fun h _ => h⟩

/-- Two slices with a start code of its own between them. -/
def strayCode : Bytes := [0, 0, 1, 0x65, 0x88, 0, 0, 1, 0, 0, 1, 0x41, 0x9A]

theorem stray_code_marks_twice :
    emittedPackets rtpH264Create strayCode 0 ≠ [] ∧
      ¬MarksLast (emittedPackets rtpH264Create strayCode 0) := by
  refine ⟨by decide +kernel, fun h => ?_⟩
  have hall := (emittedPackets_marks rtpH264Create strayCode 0).2
  have hclear := ((marksLast_iff hall).mp h).2 true (by decide +kernel)
  cases hclear

end Camstream.Proofs.MarkerBit
