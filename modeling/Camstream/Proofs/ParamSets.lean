import Camstream.Media.EncoderWorker
import Camstream.Proofs.NalScan

namespace Camstream.Proofs.ParamSets
open Lib Media

/-- The three byte scan finds the code that the packetizer's scan finds. -/
theorem findStartCode_eq (data : Bytes) (i : Nat) :
    findStartCode data i = (Webrtc.scanStartCode data i).map fun c => c.1 + c.2 - 3 := by
  fun_induction Webrtc.scanStartCode data i with
  | case1 i hi hz ih =>
    rw [findStartCode, if_pos hi, if_neg (by tauto)]
    exact ih
  | case2 i hi hz h1 =>
    rw [findStartCode, if_pos hi, if_pos (by tauto)]
    rfl
  | case3 i hi hz h1 h4 =>
    rw [findStartCode, if_pos hi, if_neg (by tauto), findStartCode, if_pos (by omega),
      if_pos (by tauto)]
    rfl
  | case4 i hi hz h1 h4 ih =>
    rw [findStartCode, if_pos hi, if_neg (by tauto)]
    exact ih
  | case5 i hi =>
    rw [findStartCode, if_neg hi]
    rfl

theorem dropPadding_eq (data : Bytes) (body stop : Nat) :
    dropPadding data body stop = Webrtc.trimEnd data body stop := by
  induction stop with
  | zero => rfl
  | succ n ih => rw [dropPadding, Webrtc.trimEnd, ih]

theorem scanStartCode_zero {data : Bytes} {i off len : Nat}
    (h : Webrtc.scanStartCode data i = some (off, len)) : byteAt data off = 0 := by
  fun_induction Webrtc.scanStartCode data i with
  | case1 i hi hz ih => exact ih h
  | case2 i hi hz h1 =>
    cases h
    exact not_not.mp (not_or.mp hz).1
  | case3 i hi hz h1 h4 =>
    cases h
    exact not_not.mp (not_or.mp hz).1
  | case4 i hi hz h1 h4 ih => exact ih h
  | case5 i hi => cases h

/-- Which zero of a four byte code the body is cut at makes no difference. -/
theorem dropPadding_end (data : Bytes) (body : Nat) :
    dropPadding data body ((findStartCode data body).getD data.length) =
      Webrtc.nalEnd data body := by
  rw [findStartCode_eq, dropPadding_eq, Webrtc.nalEnd]
  cases hs : Webrtc.scanStartCode data body with
  | none => rfl
  | some code =>
    obtain ⟨off, len⟩ := code
    obtain ⟨hle, h3, h4, hlen⟩ := Webrtc.scanStartCode_bounds hs
    change Webrtc.trimEnd data body (off + len - 3) = Webrtc.trimEnd data body off
    rcases Nat.lt_or_ge 3 len with hfour | hthree
    · obtain rfl : len = 4 := by omega
      rw [show off + 4 - 3 = off + 1 by omega, Webrtc.trimEnd,
        if_pos ⟨by omega, scanStartCode_zero hs⟩]
    · obtain rfl : len = 3 := by omega
      rfl

/-- `next_nal` of the bitstream module and of the packetizer name the same unit. -/
theorem nextNal_agrees (data : Bytes) (cursor : Nat) :
    Media.nextNal data cursor = (Webrtc.nextNal data cursor).map fun n => (n.1, n.1 + n.2) := by
  unfold Media.nextNal Webrtc.nextNal
  rw [findStartCode_eq]
  cases hs : Webrtc.scanStartCode data cursor with
  | none => rfl
  | some code =>
    obtain ⟨off, len⟩ := code
    obtain ⟨hle, h3, h4, hlen⟩ := Webrtc.scanStartCode_bounds hs
    obtain ⟨hbody, -⟩ := @NalScan.nalEnd_strip data (off + len) hlen
    simp only [Option.map_some, show off + len - 3 + 3 = off + len by omega, dropPadding_end,
      Option.some.injEq, Prod.mk.injEq, true_and]
    split <;> omega

/-- The shared loop visits the NAL units of the stream in order. -/
theorem forEachNal_eq {σ : Type} (visit : σ → Bytes → σ) (data : Bytes) (cursor : Nat) (s : σ) :
    forEachNal visit data cursor s = (annexBUnits (data.drop cursor)).foldl visit s := by
  fun_induction forEachNal visit data cursor s with
  | case1 cursor s h =>
    rw [nextNal_agrees, Option.map_eq_none_iff] at h
    rw [NalScan.units_none h]
    rfl
  | case2 cursor s body stop h hz ih =>
    rw [nextNal_agrees] at h
    obtain ⟨⟨off, len⟩, hn, he⟩ := Option.map_eq_some_iff.mp h
    obtain ⟨rfl, rfl⟩ : off = body ∧ off + len = stop := by simpa using he
    obtain rfl : len = 0 := by omega
    rw [ih, NalScan.units_empty hn]
    rfl
  | case3 cursor s body stop h hz ih =>
    rw [nextNal_agrees] at h
    obtain ⟨⟨off, len⟩, hn, he⟩ := Option.map_eq_some_iff.mp h
    obtain ⟨rfl, rfl⟩ : off = body ∧ off + len = stop := by simpa using he
    rw [ih, NalScan.units_some hn (by omega), show off + len - off = len by omega]
    rfl

/-- Some unit has the type. -/
def HasType (type : UInt8) (units : List Bytes) : Prop := ∃ u ∈ units, typeOf u = type

/-- Some unit is a slice of a picture. -/
def HasPicture (units : List Bytes) : Prop :=
  ∃ u ∈ units, h264NalSlice ≤ typeOf u ∧ typeOf u ≤ h264NalIdr

/-- What one unit adds to the summary. The four kinds exclude each other. -/
theorem scanNal_flags (info : H264AuInfo) (u : Bytes) :
    ((scanNal info u).hasSps = true ↔ info.hasSps = true ∨ typeOf u = h264NalSps) ∧
    ((scanNal info u).hasPps = true ↔ info.hasPps = true ∨ typeOf u = h264NalPps) ∧
    ((scanNal info u).hasIdr = true ↔ info.hasIdr = true ∨ typeOf u = h264NalIdr) ∧
    ((scanNal info u).hasSlice = true ↔
      info.hasSlice = true ∨ (h264NalSlice ≤ typeOf u ∧ typeOf u ≤ h264NalIdr)) := by
  unfold scanNal
  generalize typeOf u = type
  by_cases hs : type = h264NalSps
  · subst hs
    simp [h264NalSps, h264NalPps, h264NalIdr, h264NalSlice]
  · by_cases hp : type = h264NalPps
    · subst hp
      simp [h264NalSps, h264NalPps, h264NalIdr, h264NalSlice]
    · by_cases hv : h264NalSlice ≤ type ∧ type ≤ h264NalIdr
      · simp [hs, hp, hv]
      · have hi : type ≠ h264NalIdr := by
          rintro rfl
          exact hv (by decide)
        simp [hs, hp, hv, hi]

theorem scan_flags (units : List Bytes) (info : H264AuInfo) :
    ((units.foldl scanNal info).hasSps = true ↔ info.hasSps = true ∨ HasType h264NalSps units) ∧
    ((units.foldl scanNal info).hasPps = true ↔ info.hasPps = true ∨ HasType h264NalPps units) ∧
    ((units.foldl scanNal info).hasIdr = true ↔ info.hasIdr = true ∨ HasType h264NalIdr units) ∧
    ((units.foldl scanNal info).hasSlice = true ↔ info.hasSlice = true ∨ HasPicture units) := by
  induction units generalizing info with
  | nil => simp [HasType, HasPicture]
  | cons u units ih =>
    obtain ⟨hs, hp, hi, hv⟩ := scanNal_flags info u
    obtain ⟨ihs, ihp, ihi, ihv⟩ := ih (scanNal info u)
    simp only [List.foldl_cons, ihs, ihp, ihi, ihv, hs, hp, hi, hv, HasType, HasPicture,
      List.exists_mem_cons_iff, or_assoc, and_self]

/-- The summary of a buffer says which kinds of NAL units it has. -/
theorem h264AuScan_flags (data : Bytes) :
    ((h264AuScan data).hasSps = true ↔ HasType h264NalSps (annexBUnits data)) ∧
    ((h264AuScan data).hasPps = true ↔ HasType h264NalPps (annexBUnits data)) ∧
    ((h264AuScan data).hasIdr = true ↔ HasType h264NalIdr (annexBUnits data)) ∧
    ((h264AuScan data).hasSlice = true ↔ HasPicture (annexBUnits data)) := by
  have h := scan_flags (annexBUnits data) ⟨0, false, false, false, false, 0⟩
  rw [h264AuScan, forEachNal_eq, List.drop_zero]
  simpa using h

/-- The last unit of the type that a slot of the cache holds. -/
def lastParam (type : UInt8) (units : List Bytes) : Option Bytes :=
  (units.filter fun u => typeOf u = type ∧ u.length + 4 ≤ h264ParamMax).getLast?

/-- A slot of the cache: the start code and the unit. -/
def slotOf (param : Option Bytes) : Bytes := (param.map ([0, 0, 0, 1] ++ ·)).getD []

def cacheOf (units : List Bytes) : H264ParamCache :=
  ⟨slotOf (lastParam h264NalSps units), slotOf (lastParam h264NalPps units)⟩

theorem lastParam_append (type : UInt8) (units : List Bytes) (u : Bytes) :
    lastParam type (units ++ [u]) =
      if typeOf u = type ∧ u.length + 4 ≤ h264ParamMax then some u else lastParam type units := by
  unfold lastParam
  by_cases h : typeOf u = type ∧ u.length + 4 ≤ h264ParamMax
  · rw [List.filter_append, List.filter_cons_of_pos (by simpa using h), if_pos h]
    simp
  · rw [List.filter_append, List.filter_cons_of_neg (by simpa using h), if_neg h]
    simp

theorem cacheNal_cacheOf (units : List Bytes) (u : Bytes) :
    cacheNal (cacheOf units) u = cacheOf (units ++ [u]) := by
  unfold cacheNal cacheOf store
  rw [lastParam_append, lastParam_append]
  by_cases hlen : u.length + 4 ≤ h264ParamMax
  · by_cases hs : typeOf u = h264NalSps
    · simp [hs, hlen, h264NalSps, h264NalPps, slotOf]
    · by_cases hp : typeOf u = h264NalPps
      · simp [hp, hlen, h264NalSps, h264NalPps, slotOf]
      · simp [hs, hp]
  · have hbig : u.length + 4 > h264ParamMax := Nat.lt_of_not_le hlen
    simp [hlen, hbig]

/-- The cache holds the last SPS and the last PPS that fit it. -/
theorem foldl_cacheNal (before units : List Bytes) :
    units.foldl cacheNal (cacheOf before) = cacheOf (before ++ units) := by
  induction units generalizing before with
  | nil => simp
  | cons u units ih => rw [List.foldl_cons, cacheNal_cacheOf, ih]; simp

theorem h264ParamCacheUpdate_cacheOf (before : List Bytes) (data : Bytes) :
    h264ParamCacheUpdate (cacheOf before) data = cacheOf (before ++ annexBUnits data) := by
  rw [h264ParamCacheUpdate, forEachNal_eq, List.drop_zero, foldl_cacheNal]

/-- Without a parameter set there is nothing to store. -/
theorem cacheOf_same {before units : List Bytes} (hs : ¬HasType h264NalSps units)
    (hp : ¬HasType h264NalPps units) : cacheOf (before ++ units) = cacheOf before := by
  have hnone : ∀ type, ¬HasType type units →
      lastParam type (before ++ units) = lastParam type before := by
    intro type ht
    have hfilter : units.filter (fun u => typeOf u = type ∧ u.length + 4 ≤ h264ParamMax) = [] := by
      rw [List.filter_eq_nil_iff]
      intro u hu hmatch
      exact ht ⟨u, hu, (of_decide_eq_true hmatch).1⟩
    rw [lastParam, List.filter_append, hfilter, List.append_nil, lastParam]
  rw [cacheOf, hnone _ hs, hnone _ hp, cacheOf]

theorem lastParam_mem {type : UInt8} {units : List Bytes} {u : Bytes}
    (h : lastParam type units = some u) :
    u ∈ units ∧ typeOf u = type ∧ u.length + 4 ≤ h264ParamMax := by
  have hmem := List.mem_of_getLast? h
  obtain ⟨hu, hmatch⟩ := List.mem_filter.mp hmem
  exact ⟨hu, of_decide_eq_true hmatch⟩

end Camstream.Proofs.ParamSets
