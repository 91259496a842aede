import Camstream.Lib.Bytes
import Camstream.Lib.Rfc6184

namespace Camstream.Media
open Lib

def h264NalSlice : UInt8 := 1
def h264NalIdr : UInt8 := 5
def h264NalSps : UInt8 := 7
def h264NalPps : UInt8 := 8
def h264ParamMax : Nat := 256

/-- Offset of the first three byte start code at or after `i`: both `for` loops of
`next_nal`. -/
def findStartCode (data : Bytes) (i : Nat) : Option Nat :=
  if i + 3 ≤ data.length then
    if byteAt data i = 0 ∧ byteAt data (i + 1) = 0 ∧ byteAt data (i + 2) = 1 then some i
    else findStartCode data (i + 1)
  else none
termination_by data.length - i

/-- The `while (end > body && data[end - 1] == 0)` loop of `next_nal`. -/
def dropPadding (data : Bytes) (body : Nat) : Nat → Nat
  | 0 => 0
  | stop + 1 =>
    if stop + 1 > body ∧ byteAt data stop = 0 then dropPadding data body stop else stop + 1

/-- Offset and end of the NAL unit after the next start code; the end is the new
cursor. -/
def nextNal (data : Bytes) (cursor : Nat) : Option (Nat × Nat) :=
  match findStartCode data cursor with
  | none => none
  | some i =>
    let body := i + 3
    some (body, dropPadding data body ((findStartCode data body).getD data.length))

theorem findStartCode_bounds {data : Bytes} {i off : Nat} (h : findStartCode data i = some off) :
    i ≤ off ∧ off + 3 ≤ data.length := by
  fun_induction findStartCode data i with
  | case1 i hi hz =>
    cases h
    exact ⟨Nat.le_refl _, hi⟩
  | case2 i hi hz ih =>
    obtain ⟨hle, hlen⟩ := ih h
    exact ⟨Nat.le_of_succ_le hle, hlen⟩
  | case3 i hi => cases h

theorem dropPadding_bounds (data : Bytes) {body stop : Nat} (h : body ≤ stop) :
    body ≤ dropPadding data body stop ∧ dropPadding data body stop ≤ stop := by
  induction stop with
  | zero => exact ⟨h, Nat.le_refl _⟩
  | succ n ih =>
    unfold dropPadding
    split
    · have := ih (by omega)
      omega
    · exact ⟨h, Nat.le_refl _⟩

theorem nextNal_bounds {data : Bytes} {cursor body stop : Nat}
    (h : nextNal data cursor = some (body, stop)) :
    cursor + 3 ≤ body ∧ body ≤ stop ∧ stop ≤ data.length := by
  unfold nextNal at h
  split at h
  · cases h
  · rename_i i hi
    obtain ⟨hle, hlen⟩ := findStartCode_bounds hi
    cases h
    have hend : i + 3 ≤ (findStartCode data (i + 3)).getD data.length ∧
        (findStartCode data (i + 3)).getD data.length ≤ data.length := by
      cases hs : findStartCode data (i + 3) with
      | none => exact ⟨hlen, Nat.le_refl _⟩
      | some next =>
        obtain ⟨hnext, hnextLen⟩ := findStartCode_bounds hs
        exact ⟨hnext, by simp only [Option.getD_some]; omega⟩
    obtain ⟨hlo, hhi⟩ := dropPadding_bounds data hend.1
    exact ⟨by omega, hlo, hhi.trans hend.2⟩

/-- The loop over the NAL units that `h264_au_scan` and `h264_param_cache_update`
share. A unit of length 0 is passed over. -/
def forEachNal {σ : Type} (visit : σ → Bytes → σ) (data : Bytes) (cursor : Nat) (s : σ) : σ :=
  match _h : nextNal data cursor with
  | none => s
  | some (body, stop) =>
    if stop - body = 0 then forEachNal visit data stop s
    else forEachNal visit data stop (visit s ((data.drop body).take (stop - body)))
termination_by data.length - cursor
decreasing_by
  all_goals
    have := nextNal_bounds _h
    omega

structure H264AuInfo where
  nalCount : Nat
  hasSps : Bool
  hasPps : Bool
  hasIdr : Bool
  hasSlice : Bool
  sliceCount : Nat
deriving Repr, DecidableEq

/-- The type field of a NAL unit. -/
def typeOf (nal : Bytes) : UInt8 := nalType (byteAt nal 0)

def scanNal (info : H264AuInfo) (nal : Bytes) : H264AuInfo :=
  let type := typeOf nal
  let info := { info with nalCount := info.nalCount + 1 }
  if type = h264NalSps then { info with hasSps := true }
  else if type = h264NalPps then { info with hasPps := true }
  else if type ≥ h264NalSlice ∧ type ≤ h264NalIdr then
    { info with
      hasSlice := true, sliceCount := info.sliceCount + 1
      hasIdr := info.hasIdr || type == h264NalIdr }
  else info

def h264AuScan (data : Bytes) : H264AuInfo :=
  forEachNal scanNal data 0 ⟨0, false, false, false, false, 0⟩

/-- Last SPS and PPS, each with its start code; empty when there was none. -/
structure H264ParamCache where
  sps : Bytes
  pps : Bytes
deriving Repr, DecidableEq

/-- A parameter set that does not fit the slot leaves the old one. -/
def store (slot nal : Bytes) : Bytes :=
  if nal.length + 4 > h264ParamMax then slot else [0, 0, 0, 1] ++ nal

def cacheNal (cache : H264ParamCache) (nal : Bytes) : H264ParamCache :=
  let type := typeOf nal
  if type = h264NalSps then { cache with sps := store cache.sps nal }
  else if type = h264NalPps then { cache with pps := store cache.pps nal }
  else cache

def h264ParamCacheUpdate (cache : H264ParamCache) (data : Bytes) : H264ParamCache :=
  forEachNal cacheNal data 0 cache

/-- SPS, PPS and the access unit in one buffer; `none` when the cache is incomplete or
the buffer too small. -/
def h264PrependParams (cache : H264ParamCache) (data : Bytes) (outCapacity : Nat) : Option Bytes :=
  if cache.sps.length = 0 ∨ cache.pps.length = 0 then none
  else if cache.sps.length + cache.pps.length + data.length > outCapacity then none
  else some (cache.sps ++ cache.pps ++ data)

end Camstream.Media
