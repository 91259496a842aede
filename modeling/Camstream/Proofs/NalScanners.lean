import Camstream.Proofs.ParamSets
import Camstream.Proofs.RtpRoundTrip

namespace Camstream.Proofs.NalScanners
open Lib Media ParamSets RtpRoundTrip

/-- Offset and length of the units that the loop of `rtp_h264_packetize` sends. -/
def packetizerUnits (data : Bytes) (cursor : Nat) : List (Nat × Nat) :=
  match _h : Webrtc.nextNal data cursor with
  | none => []
  | some (offset, length) =>
    if length = 0 then packetizerUnits data (offset + length)
    else (offset, length) :: packetizerUnits data (offset + length)
termination_by data.length - cursor
decreasing_by
  all_goals
    have := Webrtc.nextNal_bounds _h
    omega

/-- Offset and length of the units that the loop of `h264_au_scan` counts. -/
def bitstreamUnits (data : Bytes) (cursor : Nat) : List (Nat × Nat) :=
  match _h : Media.nextNal data cursor with
  | none => []
  | some (body, stop) =>
    if stop - body = 0 then bitstreamUnits data stop
    else (body, stop - body) :: bitstreamUnits data stop
termination_by data.length - cursor
decreasing_by
  all_goals
    have := Media.nextNal_bounds _h
    omega

/-- The bytes of a unit. -/
def unitBytes (data : Bytes) (place : Nat × Nat) : Bytes := (data.drop place.1).take place.2

theorem bitstreamUnits_none {data : Bytes} {cursor : Nat} (h : Media.nextNal data cursor = none) :
    bitstreamUnits data cursor = [] := by
  unfold bitstreamUnits
  split
  · rfl
  · rename_i body stop hnext
    rw [h] at hnext
    cases hnext

theorem bitstreamUnits_some {data : Bytes} {cursor body stop : Nat}
    (h : Media.nextNal data cursor = some (body, stop)) :
    bitstreamUnits data cursor = if stop - body = 0 then bitstreamUnits data stop
      else (body, stop - body) :: bitstreamUnits data stop := by
  rw [bitstreamUnits]
  split
  · rename_i hnext
    rw [h] at hnext
    cases hnext
  · rename_i body' stop' hnext
    obtain ⟨rfl, rfl⟩ : body = body' ∧ stop = stop' := by
      simpa using h.symm.trans hnext
    rfl

/-- Both loops walk over the same units, empty ones included. -/
theorem units_agree (data : Bytes) (cursor : Nat) :
    packetizerUnits data cursor = bitstreamUnits data cursor := by
  fun_induction packetizerUnits data cursor with
  | case1 cursor h =>
    have hnone := nextNal_agrees data cursor
    rw [h, Option.map_none] at hnone
    rw [bitstreamUnits_none hnone]
  | case2 cursor offset h ih =>
    have hsome := nextNal_agrees data cursor
    rw [h, Option.map_some] at hsome
    rw [bitstreamUnits_some hsome, if_pos (Nat.add_sub_cancel_left _ _)]
    exact ih
  | case3 cursor offset length h hlength ih =>
    have hsome := nextNal_agrees data cursor
    rw [h, Option.map_some] at hsome
    rw [bitstreamUnits_some hsome, Nat.add_sub_cancel_left, if_neg hlength, ← ih]

theorem packetizerUnits_bytes (data : Bytes) (cursor : Nat) :
    (packetizerUnits data cursor).map (unitBytes data) = annexBUnits (data.drop cursor) := by
  fun_induction packetizerUnits data cursor with
  | case1 cursor h => rw [NalScan.units_none h, List.map_nil]
  | case2 cursor offset h ih => rw [ih, NalScan.units_empty h, Nat.add_zero]
  | case3 cursor offset length h hlength ih =>
    rw [NalScan.units_some h hlength, List.map_cons, ih]
    rfl

/-- What `h264_au_scan` says of a list of units. -/
def summary (units : List Bytes) : H264AuInfo where
  nalCount := units.length
  hasSps := units.any fun u => typeOf u == h264NalSps
  hasPps := units.any fun u => typeOf u == h264NalPps
  hasIdr := units.any fun u => typeOf u == h264NalIdr
  hasSlice := units.any fun u => decide (h264NalSlice ≤ typeOf u) && decide (typeOf u ≤ h264NalIdr)
  sliceCount := units.countP fun u =>
    decide (h264NalSlice ≤ typeOf u) && decide (typeOf u ≤ h264NalIdr)

theorem scanNal_summary (units : List Bytes) (u : Bytes) :
    scanNal (summary units) u = summary (units ++ [u]) := by
  simp only [scanNal, summary, List.length_append, List.length_singleton, List.any_append,
    List.any_cons, List.any_nil, Bool.or_false, List.countP_append, List.countP_singleton]
  generalize typeOf u = type
  -- a type is a parameter set, a slice or neither
  by_cases hs : type = h264NalSps
  · subst hs
    simp [h264NalSps, h264NalPps, h264NalIdr, h264NalSlice]
  · by_cases hp : type = h264NalPps
    · subst hp
      simp [h264NalSps, h264NalPps, h264NalIdr, h264NalSlice]
    · by_cases hv : h264NalSlice ≤ type ∧ type ≤ h264NalIdr
      · simp [hs, hp, hv]
      · have hi : type ≠ h264NalIdr := by
          rintro rfl
          exact hv (by decide)
        have hnot : (decide (h264NalSlice ≤ type) && decide (type ≤ h264NalIdr)) = false := by
          simpa using hv
        simp [hs, hp, hv, hi, hnot]

theorem h264AuScan_summary (data : Bytes) : h264AuScan data = summary (annexBUnits data) := by
  have hfold : ∀ before units : List Bytes,
      units.foldl scanNal (summary before) = summary (before ++ units) := by
    intro before units
    induction units generalizing before with
    | nil => rw [List.foldl_nil, List.append_nil]
    | cons u units ih => rw [List.foldl_cons, scanNal_summary, ih, List.append_assoc]; rfl
  have hscan := hfold [] (annexBUnits data)
  rw [h264AuScan, forEachNal_eq, List.drop_zero]
  exact hscan

/-- Both scanners enumerate the same places, the packets carry the bytes there and nothing
else, and the summary describes the units there. -/
theorem scanners_agree (data : Bytes) :
    packetizerUnits data 0 = bitstreamUnits data 0 ∧
      h264AuScan data = summary ((bitstreamUnits data 0).map (unitBytes data)) ∧
      ∀ (p : Webrtc.RtpH264) (ptsUs : UInt64),
        (emittedPackets p data ptsUs).map RtpPacket.payload =
          ((bitstreamUnits data 0).map (unitBytes data)).flatMap nalPayloads := by
  have hagree := units_agree data 0
  have hbytes := packetizerUnits_bytes data 0
  rw [List.drop_zero, hagree] at hbytes
  refine ⟨hagree, ?_, fun p ptsUs => ?_⟩
  · rw [hbytes, h264AuScan_summary]
  · rw [hbytes, emittedPackets_payloads]

end Camstream.Proofs.NalScanners
