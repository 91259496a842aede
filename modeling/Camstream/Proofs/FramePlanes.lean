import Camstream.Media.CsiSource
import Camstream.Media.YuvConvert

namespace Camstream.Proofs.FramePlanes
open Lib Media

/-- A picture by the samples at each row and column. -/
structure Picture where
  luma : Nat → Nat → UInt8
  u : Nat → Nat → UInt8
  v : Nat → Nat → UInt8

def plane (w h : Nat) (sample : Nat → Nat → UInt8) : Bytes :=
  (List.range (w * h)).map fun i => sample (i / w) (i % w)

/-- The I420 image of a picture, with chroma at half the size. -/
def Picture.planes (p : Picture) (w h : Nat) : Planes :=
  ⟨plane w h p.luma, plane (w / 2) (h / 2) p.u, plane (w / 2) (h / 2) p.v⟩

/-- Half of the sum, rounded up. -/
def average (a b : UInt8) : UInt8 := ((a.toNat + b.toNat + 1) / 2).toUInt8

def yuyvPicture (data : Bytes) (stride : Nat) : Picture where
  luma r c := byteAt data (r * stride + 2 * c)
  u r c := average (byteAt data (2 * r * stride + 4 * c + 1))
    (byteAt data ((2 * r + 1) * stride + 4 * c + 1))
  v r c := average (byteAt data (2 * r * stride + 4 * c + 3))
    (byteAt data ((2 * r + 1) * stride + 4 * c + 3))

def yuv420Picture (data : Bytes) (stride h : Nat) : Picture where
  luma r c := byteAt data (r * stride + c)
  u r c := byteAt data (stride * h + r * (stride / 2) + c)
  v r c := byteAt data (stride * h + stride / 2 * (h / 2) + r * (stride / 2) + c)

/-- The byte at a place of a scratch buffer that holds the image. -/
def Picture.byte (p : Picture) (w h i : Nat) : UInt8 :=
  if i < w * h then p.luma (i / w) (i % w)
  else
    let k := i - w * h
    if k < w / 2 * (h / 2) then p.u (k / (w / 2)) (k % (w / 2))
    else
      let k := k - w / 2 * (h / 2)
      p.v (k / (w / 2)) (k % (w / 2))

section Places
variable {w h : Nat}

theorem place_lt {r c : Nat} (hr : r < h) (hc : c < w) : r * w + c < w * h := by
  have hnext : (r + 1) * w ≤ h * w := Nat.mul_le_mul_right w hr
  rw [Nat.mul_comm w h]
  rw [Nat.succ_mul] at hnext
  omega

theorem place_row {c : Nat} (r : Nat) (hc : c < w) : (r * w + c) / w = r := by
  rw [Nat.add_comm, Nat.add_mul_div_right _ _ (by omega), Nat.div_eq_of_lt hc, Nat.zero_add]

theorem place_col {c : Nat} (r : Nat) (hc : c < w) : (r * w + c) % w = c := by
  rw [Nat.add_comm, Nat.add_mul_mod_self_right, Nat.mod_eq_of_lt hc]

/-- Every place has a row and a column. -/
theorem exists_place {i : Nat} (hi : i < w * h) : ∃ r < h, ∃ c < w, i = r * w + c := by
  have hw : 0 < w := by
    apply Nat.pos_of_ne_zero
    intro hzero
    rw [hzero, Nat.zero_mul] at hi
    omega
  refine ⟨i / w, Nat.div_lt_of_lt_mul hi, i % w, Nat.mod_lt i hw, ?_⟩
  rw [Nat.mul_comm]
  exact (Nat.div_add_mod i w).symm

theorem Picture.byte_luma (p : Picture) {r c : Nat} (hr : r < h) (hc : c < w) :
    p.byte w h (r * w + c) = p.luma r c := by
  rw [Picture.byte, if_pos (place_lt hr hc), place_row r hc, place_col r hc]

theorem Picture.byte_u (p : Picture) {r c : Nat} (hr : r < h / 2) (hc : c < w / 2) :
    p.byte w h (w * h + (r * (w / 2) + c)) = p.u r c := by
  rw [Picture.byte, if_neg (by omega)]
  dsimp only
  rw [Nat.add_sub_cancel_left, if_pos (place_lt hr hc), place_row r hc, place_col r hc]

theorem Picture.byte_v (p : Picture) {r c : Nat} (hc : c < w / 2) :
    p.byte w h (w * h + w / 2 * (h / 2) + (r * (w / 2) + c)) = p.v r c := by
  rw [Picture.byte, if_neg (by omega)]
  dsimp only
  rw [Nat.add_assoc, Nat.add_sub_cancel_left, if_neg (by omega), Nat.add_sub_cancel_left,
    place_row r hc, place_col r hc]

theorem luma_quarter (hw : w % 2 = 0) (hh : h % 2 = 0) : w * h / 4 = w / 2 * (h / 2) := by
  obtain ⟨a, rfl⟩ := Nat.dvd_of_mod_eq_zero hw
  obtain ⟨b, rfl⟩ := Nat.dvd_of_mod_eq_zero hh
  rw [Nat.mul_div_cancel_left a (by omega), Nat.mul_div_cancel_left b (by omega),
    Nat.mul_mul_mul_comm, Nat.mul_div_cancel_left _ (by omega)]

theorem scratch_size (hw : w % 2 = 0) (hh : h % 2 = 0) :
    w * h * 3 / 2 = w * h + w / 2 * (h / 2) + w / 2 * (h / 2) := by
  obtain ⟨a, rfl⟩ := Nat.dvd_of_mod_eq_zero hw
  obtain ⟨b, rfl⟩ := Nat.dvd_of_mod_eq_zero hh
  rw [Nat.mul_div_cancel_left a (by omega), Nat.mul_div_cancel_left b (by omega),
    Nat.mul_mul_mul_comm]
  omega

end Places

/-- The planes are read from a buffer with all three of them at these offsets. -/
theorem readPlanes_eq {buffer : Bytes} {w h posU posV : Nat} {p : Picture}
    (hy : w * h ≤ buffer.length) (hu : posU + w / 2 * (h / 2) ≤ buffer.length)
    (hv : posV + w / 2 * (h / 2) ≤ buffer.length)
    (hluma : ∀ r < h, ∀ c < w, byteAt buffer (r * w + c) = p.luma r c)
    (hcu : ∀ r < h / 2, ∀ c < w / 2, byteAt buffer (posU + (r * (w / 2) + c)) = p.u r c)
    (hcv : ∀ r < h / 2, ∀ c < w / 2, byteAt buffer (posV + (r * (w / 2) + c)) = p.v r c) :
    readPlanes buffer 0 posU posV w h = some (p.planes w h) := by
  have hplane : ∀ {pos a b : Nat} {sample : Nat → Nat → UInt8}, pos + a * b ≤ buffer.length →
      (∀ r < b, ∀ c < a, byteAt buffer (pos + (r * a + c)) = sample r c) →
      loadRange buffer pos (a * b) = some (plane a b sample) := by
    intro pos a b sample hfit hsample
    apply loadRange_of_bytes hfit
    intro i hi
    obtain ⟨r, hr, c, hc, rfl⟩ := exists_place hi
    rw [place_row r hc, place_col r hc]
    exact hsample r hr c hc
  have hfirst : loadRange buffer 0 (w * h) = some (plane w h p.luma) := by
    apply hplane (by omega)
    simpa only [Nat.zero_add] using hluma
  rw [readPlanes, hfirst, hplane hu hcu, hplane hv hcv]
  rfl

/-- A scratch buffer that was written to in every place. -/
theorem readPlanes_written {w h : Nat} {p : Picture} (hw : w % 2 = 0) (hh : h % 2 = 0)
    {f : Bytes → Option Bytes} {region : Set Nat} {i420 : Bytes}
    (hf : Writes (w * h * 3 / 2) (p.byte w h) f region)
    (hscratch : i420.length = w * h * 3 / 2)
    (hluma : ∀ r < h, ∀ c < w, r * w + c ∈ region)
    (hu : ∀ r < h / 2, ∀ c < w / 2, w * h + (r * (w / 2) + c) ∈ region)
    (hv : ∀ r < h / 2, ∀ c < w / 2, w * h + w / 2 * (h / 2) + (r * (w / 2) + c) ∈ region) :
    (f i420).bind (fun b => readPlanes b 0 (w * h) (w * h + w * h / 4) w h) =
      some (p.planes w h) := by
  obtain ⟨b, hb, hlen, hbytes⟩ := hf i420 hscratch
  have hsize := scratch_size hw hh
  rw [hb, Option.bind_some, luma_quarter hw hh]
  apply readPlanes_eq (by omega) (by omega) (by omega)
  · intro r hr c hc
    have hlt := place_lt hr hc
    rw [(hbytes _ (by omega)).1 (hluma r hr c hc), p.byte_luma hr hc]
  · intro r hr c hc
    have hlt := place_lt hr hc
    rw [(hbytes _ (by omega)).1 (hu r hr c hc), p.byte_u hr hc]
  · intro r hr c hc
    have hlt := place_lt hr hc
    rw [(hbytes _ (by omega)).1 (hv r hr c hc), p.byte_v hc]

section Yuyv
variable {data i420 : Bytes} {s w h : Nat}

theorem yuyvLuma_writes (hw : w % 2 = 0) (hh : h % 2 = 0) {r x : Nat} (hr : r < h) (hx : x < w / 2)
    (hrow : r * s + 2 * w ≤ data.length) :
    Writes (w * h * 3 / 2) ((yuyvPicture data s).byte w h)
      (yuyvLuma data (r * s) (0 + r * w) x) ({r * w + 2 * x} ∪ {r * w + (2 * x + 1)}) := by
  have h0 := @load_eq data (r * s + 4 * x) (by omega)
  have h1 := @load_eq data (r * s + 4 * x + 2) (by omega)
  have hlt := place_lt hr (show 2 * x + 1 < w by omega)
  have hsize := scratch_size hw hh
  have hturn : yuyvLuma data (r * s) (0 + r * w) x = fun dst =>
      (storeByte dst (r * w + 2 * x) (byteAt data (r * s + 4 * x))).bind fun dst =>
        storeByte dst (r * w + (2 * x + 1)) (byteAt data (r * s + 4 * x + 2)) := by
    funext dst
    rw [yuyvLuma, h0, h1, Nat.zero_add]
    rfl
  rw [hturn]
  apply Writes.comp
  · apply Writes.byte (by omega)
    rw [Picture.byte_luma _ hr (by omega), yuyvPicture]
    congr 1
    omega
  · apply Writes.byte (by omega)
    rw [Picture.byte_luma _ hr (by omega), yuyvPicture]
    congr 1
    omega

theorem yuyvChroma_writes (hw : w % 2 = 0) (hh : h % 2 = 0) {r x : Nat} (hr : r < h / 2)
    (hx : x < w / 2) (hrows : ∀ r < h, r * s + 2 * w ≤ data.length) :
    Writes (w * h * 3 / 2) ((yuyvPicture data s).byte w h)
      (yuyvChroma data (r * 2 * s) (r * 2 * s + s) (w * h + r * (w / 2))
        (w * h + w * h / 4 + r * (w / 2)) x)
      ({w * h + (r * (w / 2) + x)} ∪ {w * h + w / 2 * (h / 2) + (r * (w / 2) + x)}) := by
  have hupper := hrows (2 * r) (by omega)
  have hlower := hrows (2 * r + 1) (by omega)
  have hnext : (2 * r + 1) * s = 2 * r * s + s := Nat.succ_mul (2 * r) s
  rw [hnext] at hlower
  have hlt := place_lt hr hx
  have hsize := scratch_size hw hh
  rw [Nat.mul_comm r 2, luma_quarter hw hh]
  have hload : ∀ k < 4, load data (2 * r * s + 4 * x + k) =
        some (byteAt data (2 * r * s + 4 * x + k)) ∧
      load data (2 * r * s + s + 4 * x + k) =
        some (byteAt data ((2 * r + 1) * s + 4 * x + k)) := by
    intro k hk
    rw [hnext]
    exact ⟨load_eq (by omega), load_eq (by omega)⟩
  have hturn : yuyvChroma data (2 * r * s) (2 * r * s + s) (w * h + r * (w / 2))
      (w * h + w / 2 * (h / 2) + r * (w / 2)) x = fun dst =>
      (storeByte dst (w * h + (r * (w / 2) + x)) ((yuyvPicture data s).u r x)).bind fun dst =>
        storeByte dst (w * h + w / 2 * (h / 2) + (r * (w / 2) + x))
          ((yuyvPicture data s).v r x) := by
    funext dst
    rw [yuyvChroma, (hload 1 (by omega)).1, (hload 1 (by omega)).2, (hload 3 (by omega)).1,
      (hload 3 (by omega)).2, ← Nat.add_assoc (w * h), ← Nat.add_assoc (w * h + w / 2 * (h / 2))]
    simp only [Nat.shiftRight_eq_div_pow, Nat.pow_one]
    rfl
  rw [hturn]
  apply Writes.comp
  · exact Writes.byte (by omega) (Picture.byte_u _ hr hx).symm
  · exact Writes.byte (by omega) (Picture.byte_v _ hx).symm

theorem yuyv_planes (hw : w % 2 = 0) (hh : h % 2 = 0) (hscratch : i420.length = w * h * 3 / 2)
    (hrows : ∀ r < h, r * s + 2 * w ≤ data.length) :
    (yuyvToI420 data s 0 (w * h) (w * h + w * h / 4) w h i420).bind
        (fun b => readPlanes b 0 (w * h) (w * h + w * h / 4) w h) =
      some ((yuyvPicture data s).planes w h) := by
  apply readPlanes_written hw hh (Writes.comp (Writes.loop fun r hr => Writes.loop fun x hx =>
    yuyvLuma_writes hw hh hr hx (hrows r hr)) (Writes.loop fun r hr => Writes.loop fun x hx =>
    yuyvChroma_writes hw hh hr hx hrows)) hscratch
  · intro r hr c hc
    refine .inl ⟨r, hr, c / 2, by omega, ?_⟩
    rcases Nat.mod_two_eq_zero_or_one c with heven | hodd
    · left
      simp only [Set.mem_singleton_iff]
      omega
    · right
      simp only [Set.mem_singleton_iff]
      omega
  · intro r hr c hc
    exact .inr ⟨r, hr, c, hc, .inl rfl⟩
  · intro r hr c hc
    exact .inr ⟨r, hr, c, hc, .inr rfl⟩

/-- The last load of the chroma loop. -/
theorem yuyv_last_row (hw : w % 2 = 0) (hh : h % 2 = 0) (hwpos : 0 < w) (hhpos : 0 < h)
    {posY posU posV : Nat} {b : Bytes} (hconv : yuyvToI420 data s posY posU posV w h i420 = some b) :
    (h - 1) * s + 2 * w ≤ data.length := by
  obtain ⟨b', -, hchroma⟩ := Option.bind_eq_some_iff.mp hconv
  obtain ⟨dst, dst', hrow⟩ := forRange_turns hchroma (show h / 2 - 1 < h / 2 by omega)
  obtain ⟨dst, dst', hlast⟩ := forRange_turns hrow (show w / 2 - 1 < w / 2 by omega)
  unfold yuyvChroma at hlast
  obtain ⟨u0, -, hlast⟩ := Option.bind_eq_some_iff.mp hlast
  obtain ⟨u1, -, hlast⟩ := Option.bind_eq_some_iff.mp hlast
  obtain ⟨v0, -, hlast⟩ := Option.bind_eq_some_iff.mp hlast
  obtain ⟨v1, hv1, -⟩ := Option.bind_eq_some_iff.mp hlast
  obtain ⟨hlt, -⟩ := List.getElem?_eq_some_iff.mp hv1
  have hlower : (h / 2 - 1) * 2 * s + s = (h - 1) * s := by
    rw [← Nat.succ_mul]
    congr 1
    omega
  rw [hlower] at hlt
  omega

end Yuyv

/-- Every row of luma and of the second chroma plane ends in the data. -/
structure RowsEnd (s w h n : Nat) : Prop where
  luma : 0 < w → ∀ r < h, r * s + w ≤ n
  chroma : 0 < w → ∀ r < h / 2, s * h + s / 2 * (h / 2) + (r * (s / 2) + w / 2) ≤ n

section Yuv420
variable {data i420 : Bytes} {s w h : Nat}

theorem i420_planes (hw : w % 2 = 0) (hh : h % 2 = 0) (hscratch : i420.length = w * h * 3 / 2)
    (hends : RowsEnd s w h data.length) :
    (i420Copy data 0 s (s * h) (s * h + s / 2 * (h / 2)) 0 (w * h) (w * h + w * h / 4) w h
        i420).bind (fun b => readPlanes b 0 (w * h) (w * h + w * h / 4) w h) =
      some ((yuv420Picture data s h).planes w h) := by
  have hsize := scratch_size hw hh
  have hplane := luma_quarter hw hh
  have hluma : ∀ r < h, Writes (w * h * 3 / 2) ((yuv420Picture data s h).byte w h)
      (copyRange data (0 + r * s) (0 + r * w) w) (Set.Ico (0 + r * w) (0 + r * w + w)) := by
    intro r hr
    have hnext : r * w + w ≤ w * h := by
      rw [← Nat.succ_mul, Nat.mul_comm w h]
      exact Nat.mul_le_mul_right w hr
    apply Writes.copy
    · intro hpos
      have hrow := hends.luma hpos r hr
      omega
    · omega
    · intro c hc
      rw [Nat.zero_add, Nat.zero_add, Picture.byte_luma _ hr hc, yuv420Picture]
  have hchroma : ∀ r < h / 2, Writes (w * h * 3 / 2) ((yuv420Picture data s h).byte w h)
      (fun dst => (copyRange data (s * h + r * (s / 2)) (w * h + r * (w / 2)) (w / 2) dst).bind
        (copyRange data (s * h + s / 2 * (h / 2) + r * (s / 2)) (w * h + w * h / 4 + r * (w / 2))
          (w / 2)))
      (Set.Ico (w * h + r * (w / 2)) (w * h + r * (w / 2) + w / 2) ∪
        Set.Ico (w * h + w * h / 4 + r * (w / 2)) (w * h + w * h / 4 + r * (w / 2) + w / 2)) := by
    intro r hr
    have hnext : r * (w / 2) + w / 2 ≤ w / 2 * (h / 2) := by
      rw [← Nat.succ_mul, Nat.mul_comm (w / 2)]
      exact Nat.mul_le_mul_right (w / 2) hr
    apply Writes.comp
    · apply Writes.copy
      · intro hpos
        have hrow := hends.chroma (by omega) r hr
        omega
      · omega
      · intro c hc
        rw [Nat.add_assoc (w * h), Picture.byte_u _ hr hc, yuv420Picture]
    · apply Writes.copy
      · intro hpos
        have hrow := hends.chroma (by omega) r hr
        omega
      · omega
      · intro c hc
        rw [hplane, Nat.add_assoc (w * h + _), Picture.byte_v _ hc, yuv420Picture]
  apply readPlanes_written hw hh (Writes.comp (Writes.loop hluma) (Writes.loop hchroma)) hscratch
  · intro r hr c hc
    exact .inl ⟨r, hr, Set.mem_Ico.mpr (by omega)⟩
  · intro r hr c hc
    exact .inr ⟨r, hr, .inl (Set.mem_Ico.mpr (by omega))⟩
  · intro r hr c hc
    exact .inr ⟨r, hr, .inr (Set.mem_Ico.mpr (by omega))⟩

/-- The last copies of the two loops. -/
theorem i420_last_rows (hw : w % 2 = 0) (hh : h % 2 = 0) (hwpos : 0 < w) (hhpos : 0 < h)
    {srcU srcV posY posU posV : Nat} {b : Bytes}
    (hcopy : i420Copy data 0 s srcU srcV posY posU posV w h i420 = some b) :
    (h - 1) * s + w ≤ data.length ∧ srcV + ((h / 2 - 1) * (s / 2) + w / 2) ≤ data.length := by
  obtain ⟨b', hluma, hchroma⟩ := Option.bind_eq_some_iff.mp hcopy
  obtain ⟨dst, dst', hrow⟩ := forRange_turns hluma (show h - 1 < h by omega)
  obtain ⟨dst, dst', hrows⟩ := forRange_turns hchroma (show h / 2 - 1 < h / 2 by omega)
  obtain ⟨dst, -, hv⟩ := Option.bind_eq_some_iff.mp hrows
  have hy := copyRange_inside hwpos hrow
  have hv := copyRange_inside (by omega) hv
  exact ⟨by omega, by omega⟩

/-- Rows without padding are read where they are. -/
theorem packed_planes (hw : w % 2 = 0) (hh : h % 2 = 0) (hfits : w * h * 3 / 2 ≤ data.length) :
    readPlanes data 0 (w * h) (w * h + w / 2 * (h / 2)) w h =
      some ((yuv420Picture data w h).planes w h) := by
  have hsize := scratch_size hw hh
  apply readPlanes_eq (by omega) (by omega) (by omega)
  · intro r hr c hc
    rfl
  · intro r hr c hc
    exact congrArg (byteAt data) (Nat.add_assoc _ _ _).symm
  · intro r hr c hc
    exact congrArg (byteAt data) (Nat.add_assoc _ _ _).symm

end Yuv420

end Camstream.Proofs.FramePlanes
