import Camstream.Proofs.FramePlanes

namespace Camstream.Proofs.EncoderPicture
open Lib Media FramePlanes

/-- The bytes of a row. -/
def rowSize (format : UInt32) (width : Nat) : Nat :=
  if format = v4l2PixFmtYuyv then 2 * width else width

/-- The stride in use; a stride of 0 stands for rows without padding. -/
def frameStride (width : UInt32) (frame : FrameInfo) : UInt32 :=
  if frame.stride ≠ 0 then frame.stride
  else if frame.format = v4l2PixFmtYuyv then width * 2 else width

/-- The size of a planar frame, as it is computed in 64 bits. -/
def planarSize (height stride : UInt32) : Nat :=
  (stride.toNat * height.toNat + 2 * (stride.toNat / 2 * (height.toNat / 2))) % 2 ^ 64

theorem checkFrame_good {width height : UInt32} {frame : FrameInfo} :
    checkFrame width height frame = .good ↔
      (frame.width = width ∧ frame.height = height) ∧
      (frame.size ≠ 0 ∧ (frameStride width frame).toNat * height.toNat ≤ frame.size) ∧
      (frame.format ≠ v4l2PixFmtYuyv →
        planarSize height (frameStride width frame) ≤ frame.size) := by
  have hhalf : ∀ x : UInt32, (x / 2).toNat = x.toNat / 2 := fun x => UInt32.toNat_div x 2
  unfold checkFrame frameStride planarSize
  by_cases hdims : frame.width ≠ width ∨ frame.height ≠ height
  · rw [if_pos hdims]
    refine iff_of_false (by intro h; cases h) fun h => ?_
    exact hdims.elim (fun hw => hw h.1.1) fun hh => hh h.1.2
  · rw [if_neg hdims]
    have hdims' : frame.width = width ∧ frame.height = height := by simpa using hdims
    rw [and_iff_right hdims']
    by_cases hyuyv : frame.format = v4l2PixFmtYuyv
    · simp only [hyuyv, if_true, ne_eq, not_true_eq_false, false_imp_iff, and_true, ite_eq_right_iff,
        reduceCtorEq, imp_false, not_or, Nat.not_lt]
    · simp only [hyuyv, if_false, hhalf, ne_eq, not_false_eq_true, true_imp_iff]
      generalize (if ¬frame.stride = 0 then frame.stride else width) = s
      by_cases hbad : frame.size = 0 ∨ frame.size < s.toNat * height.toNat
      · rw [if_pos hbad]
        refine iff_of_false (by intro h; cases h) fun h => ?_
        exact hbad.elim h.1.1 fun hlt => absurd h.1.2 (Nat.not_le.mpr hlt)
      · rw [if_neg hbad]
        rw [not_or, Nat.not_lt] at hbad
        rw [and_iff_right hbad]
        simp only [ite_eq_right_iff, reduceCtorEq, imp_false, Nat.not_lt]

section Paths
variable {width height : UInt32} {frame : FrameInfo} {data i420 : Bytes}

theorem encoderPlanes_yuyv (hwidth : frame.width = width) (hyuyv : frame.format = v4l2PixFmtYuyv) :
    let w := width.toNat
    let h := height.toNat
    encoderPlanes width height frame data i420 =
      (yuyvToI420 data (frameStride width frame).toNat 0 (w * h) (w * h + w * h / 4) w h i420).bind
        fun b => readPlanes b 0 (w * h) (w * h + w * h / 4) w h := by
  unfold encoderPlanes frameStride
  simp only [hyuyv, hwidth, if_true]
  rfl

theorem encoderPlanes_packed (hplanar : frame.format ≠ v4l2PixFmtYuyv)
    (hpacked : frameStride width frame = width) :
    let w := width.toNat
    let h := height.toNat
    encoderPlanes width height frame data i420 =
      readPlanes data 0 (w * h) (w * h + w / 2 * (h / 2)) w h := by
  unfold frameStride at hpacked
  rw [if_neg hplanar] at hpacked
  have hhalf : ∀ x : UInt32, (x / 2).toNat = x.toNat / 2 := fun x => UInt32.toNat_div x 2
  simp only [encoderPlanes, hplanar, if_false, hpacked, if_true, hhalf]

theorem encoderPlanes_padded (hplanar : frame.format ≠ v4l2PixFmtYuyv)
    (hpadded : frameStride width frame ≠ width) :
    let w := width.toNat
    let h := height.toNat
    let s := (frameStride width frame).toNat
    encoderPlanes width height frame data i420 =
      (i420Copy data 0 s (s * h) (s * h + s / 2 * (h / 2)) 0 (w * h) (w * h + w * h / 4) w h
        i420).bind fun b => readPlanes b 0 (w * h) (w * h + w * h / 4) w h := by
  unfold frameStride at hpadded ⊢
  rw [if_neg hplanar] at hpadded ⊢
  have hhalf : ∀ x : UInt32, (x / 2).toNat = x.toNat / 2 := fun x => UInt32.toNat_div x 2
  simp only [encoderPlanes, hplanar, if_false, hpadded, hhalf]
  rfl

end Paths

/-- The picture in a frame. -/
def framePicture (width height : UInt32) (frame : FrameInfo) (data : Bytes) : Picture :=
  if frame.format = v4l2PixFmtYuyv then yuyvPicture data (frameStride width frame).toNat
  else yuv420Picture data (frameStride width frame).toNat height.toNat

/-- Every row that is read ends in the frame. -/
def RowsInside (width height : UInt32) (frame : FrameInfo) : Prop :=
  let w := width.toNat
  let h := height.toNat
  let s := (frameStride width frame).toNat
  if frame.format = v4l2PixFmtYuyv then ∀ r < h, r * s + 2 * w ≤ frame.size
  else RowsEnd s w h frame.size

theorem encoderPlanes_eq {width height : UInt32} {frame : FrameInfo} {data i420 : Bytes}
    (hw : width.toNat % 2 = 0) (hh : height.toNat % 2 = 0)
    (hscratch : i420.length = width.toNat * height.toNat * 3 / 2)
    (hgood : checkFrame width height frame = .good) (hdata : data.length = frame.size)
    (hsmall : width.toNat * height.toNat * 3 / 2 < 2 ^ 64)
    (hrows : RowsInside width height frame) :
    encoderPlanes width height frame data i420 =
      some ((framePicture width height frame data).planes width.toNat height.toNat) := by
  obtain ⟨hdims, -, hplanarSize⟩ := checkFrame_good.mp hgood
  unfold RowsInside at hrows
  unfold framePicture
  by_cases hyuyv : frame.format = v4l2PixFmtYuyv
  · rw [if_pos hyuyv, ← hdata] at hrows
    rw [if_pos hyuyv, encoderPlanes_yuyv hdims.1 hyuyv]
    exact yuyv_planes hw hh hscratch hrows
  · rw [if_neg hyuyv, ← hdata] at hrows
    rw [if_neg hyuyv]
    by_cases hpacked : frameStride width frame = width
    · rw [encoderPlanes_packed hyuyv hpacked, hpacked]
      refine packed_planes hw hh ?_
      have hsize := hplanarSize hyuyv
      have htotal := scratch_size hw hh
      rw [hpacked, planarSize, ← hdata] at hsize
      rw [Nat.mod_eq_of_lt (by omega)] at hsize
      omega
    · rw [encoderPlanes_padded hyuyv hpacked]
      exact i420_planes hw hh hscratch hrows

/-- A stride that holds a row, and a size that was not cut to 64 bits. -/
theorem rowsInside_of_stride {width height : UInt32} {frame : FrameInfo}
    (hh : height.toNat % 2 = 0) (hgood : checkFrame width height frame = .good)
    (hheight : 0 < width.toNat → height.toNat < 2 ^ 30)
    (hrow : rowSize frame.format width.toNat ≤ (frameStride width frame).toNat) :
    RowsInside width height frame := by
  obtain ⟨-, hluma, hplanarSize⟩ := checkFrame_good.mp hgood
  have hs := (frameStride width frame).toNat_lt
  have hnext : ∀ {r n s : Nat}, r < n → r * s + s ≤ s * n := by
    intro r n s hr
    rw [← Nat.succ_mul, Nat.mul_comm s n]
    exact Nat.mul_le_mul_right s hr
  unfold RowsInside
  unfold rowSize at hrow
  dsimp only
  split
  · rename_i hyuyv
    rw [if_pos hyuyv] at hrow
    intro r hr
    have hend := @hnext r height.toNat (frameStride width frame).toNat hr
    omega
  · rename_i hyuyv
    rw [if_neg hyuyv] at hrow
    refine ⟨fun _ r hr => ?_, fun hpos r hr => ?_⟩
    · have hend := @hnext r height.toNat (frameStride width frame).toNat hr
      omega
    · have hend := @hnext r (height.toNat / 2) ((frameStride width frame).toNat / 2) hr
      have hsize := hplanarSize hyuyv
      have hlimit := hheight hpos
      have harea : (frameStride width frame).toNat * height.toNat ≤ 2 ^ 32 * 2 ^ 30 :=
        Nat.mul_le_mul (by omega) (by omega)
      have hchroma : (frameStride width frame).toNat / 2 * (height.toNat / 2) ≤ 2 ^ 32 * 2 ^ 30 :=
        Nat.mul_le_mul (by omega) (by omega)
      rw [planarSize, Nat.mod_eq_of_lt (by omega)] at hsize
      omega

/-- The stride holds a row, or what is left of the last rows ends in the frame all the same. -/
def RowsFit (width height : UInt32) (frame : FrameInfo) : Prop :=
  let w := width.toNat
  let h := height.toNat
  let s := frame.stride.toNat
  frame.stride = 0 ∨ rowSize frame.format w ≤ s ∨ h = 0 ∨
    if frame.format = v4l2PixFmtYuyv then (h - 1) * s + 2 * w ≤ frame.size
    else (h - 1) * s + w ≤ frame.size ∧
      s * h + s / 2 * (h / 2) + ((h / 2 - 1) * (s / 2) + w / 2) ≤ frame.size

/-- Both loops over the rows end where the last row does. -/
theorem rows_of_last {h s n row : Nat} (hlast : (h - 1) * s + row ≤ n) {r : Nat} (hr : r < h) :
    r * s + row ≤ n := by
  have hle : r * s ≤ (h - 1) * s := Nat.mul_le_mul_right s (by omega)
  omega

/-- A frame that passes the checks is converted inside its bounds if and only if its stride is 0
or holds a row, or the last rows end in the frame all the same. -/
theorem conversion_inside_iff {width height : UInt32} {frame : FrameInfo} {data i420 : Bytes}
    (hw : width.toNat % 2 = 0) (hh : height.toNat % 2 = 0) (hwmax : width.toNat ≤ 4096)
    (hhmax : height.toNat ≤ 4096) (hscratch : i420.length = width.toNat * height.toNat * 3 / 2)
    (hgood : checkFrame width height frame = .good) (hdata : data.length = frame.size) :
    (encoderPlanes width height frame data i420).isSome ↔ RowsFit width height frame := by
  have harea : width.toNat * height.toNat ≤ 4096 * 4096 := Nat.mul_le_mul hwmax hhmax
  obtain ⟨hdims, -, -⟩ := checkFrame_good.mp hgood
  constructor
  · intro hsome
    by_contra hfit
    unfold RowsFit at hfit
    simp only [not_or] at hfit
    obtain ⟨hstride, hshort, hheight, hlast⟩ := hfit
    have hs : frameStride width frame = frame.stride := if_pos hstride
    obtain ⟨planes, hplanes⟩ := Option.isSome_iff_exists.mp hsome
    unfold rowSize at hshort
    by_cases hyuyv : frame.format = v4l2PixFmtYuyv
    · rw [if_pos hyuyv] at hlast hshort
      rw [encoderPlanes_yuyv hdims.1 hyuyv, hs] at hplanes
      obtain ⟨b, hconv, -⟩ := Option.bind_eq_some_iff.mp hplanes
      exact hlast (hdata ▸ yuyv_last_row hw hh (by omega) (by omega) hconv)
    · rw [if_neg hyuyv] at hlast hshort
      have hpadded : frameStride width frame ≠ width := by
        rw [hs]
        intro hsame
        exact hshort (hsame ▸ Nat.le_refl _)
      rw [encoderPlanes_padded hyuyv hpadded, hs] at hplanes
      obtain ⟨b, hcopy, -⟩ := Option.bind_eq_some_iff.mp hplanes
      exact hlast (hdata ▸ i420_last_rows hw hh (by omega) (by omega) hcopy)
  · intro hfit
    suffices hrows : RowsInside width height frame by
      rw [encoderPlanes_eq hw hh hscratch hgood hdata (by omega) hrows]
      rfl
    by_cases hrow : rowSize frame.format width.toNat ≤ (frameStride width frame).toNat
    · exact rowsInside_of_stride hh hgood (fun _ => by omega) hrow
    · have hstride : frame.stride ≠ 0 := by
        intro hzero
        have hdouble : (width * 2).toNat = 2 * width.toNat := by
          rw [UInt32.toNat_mul, Nat.mul_comm]
          exact Nat.mod_eq_of_lt (show 2 * width.toNat < _ by omega)
        apply hrow
        unfold rowSize frameStride
        rw [if_neg (not_not.mpr hzero)]
        split
        · rw [hdouble]
        · exact Nat.le_refl _
      have hs : frameStride width frame = frame.stride := if_pos hstride
      unfold RowsInside
      rw [hs] at hrow ⊢
      have hlast := (hfit.resolve_left hstride).resolve_left hrow
      by_cases hyuyv : frame.format = v4l2PixFmtYuyv
      · simp only [if_pos hyuyv] at hlast ⊢
        intro r hr
        exact rows_of_last (hlast.resolve_left (by omega)) hr
      · simp only [if_neg hyuyv] at hlast ⊢
        refine ⟨fun _ r hr => rows_of_last (hlast.resolve_left (by omega)).1 hr, fun _ r hr => ?_⟩
        have hchroma := (hlast.resolve_left (by omega)).2
        have hrest := rows_of_last (Nat.le_sub_of_add_le' hchroma) hr
        omega

/-- A frame of 640 by 480. -/
def cameraFrame (format stride : UInt32) (size : Nat) : FrameInfo :=
  ⟨640, 480, format, stride, size, 0, 0⟩

theorem conversion_inside_camera : (encoderPlanes 640 480 (cameraFrame v4l2PixFmtYuyv 1280 614400)
    (List.replicate 614400 0) (List.replicate 460800 0)).isSome := by
  refine (conversion_inside_iff (by decide) (by decide) (by decide) (by decide) ?_ (by decide)
    ?_).mpr (.inr (.inl (by decide)))
  · exact List.length_replicate
  · exact List.length_replicate

/-- A driver counts half a row as its stride, and the last row is read past the end. -/
theorem short_stride_overreads :
    checkFrame 640 480 (cameraFrame v4l2PixFmtYuyv 640 307200) = .good ∧
    ∀ data i420 : Bytes, data.length = 307200 → i420.length = 460800 →
      encoderPlanes 640 480 (cameraFrame v4l2PixFmtYuyv 640 307200) data i420 = none := by
  refine ⟨by decide, fun data i420 hdata _ => ?_⟩
  have hpath := @encoderPlanes_yuyv 640 480 (cameraFrame v4l2PixFmtYuyv 640 307200) data i420 rfl rfl
  cases hplanes : encoderPlanes 640 480 (cameraFrame v4l2PixFmtYuyv 640 307200) data i420 with
  | none => rfl
  | some planes =>
    obtain ⟨b, hconv, -⟩ := Option.bind_eq_some_iff.mp (hpath.symm.trans hplanes)
    have hlast : (480 - 1) * 640 + 2 * 640 ≤ data.length :=
      yuyv_last_row (by decide) (by decide) (by decide) (by decide) hconv
    omega

/-- The places of a frame that hold samples of its picture; the others are padding. -/
def IsSample (width height : UInt32) (frame : FrameInfo) (i : Nat) : Prop :=
  let w := width.toNat
  let h := height.toNat
  let s := (frameStride width frame).toNat
  if frame.format = v4l2PixFmtYuyv then i < s * h ∧ i % s < 2 * w
  else i < s * h ∧ i % s < w ∨
    ∃ k < 2 * (s / 2 * (h / 2)), i = s * h + k ∧ k % (s / 2) < w / 2

theorem Picture.planes_congr {p q : Picture} {w h : Nat}
    (hluma : ∀ r < h, ∀ c < w, p.luma r c = q.luma r c)
    (hu : ∀ r < h / 2, ∀ c < w / 2, p.u r c = q.u r c)
    (hv : ∀ r < h / 2, ∀ c < w / 2, p.v r c = q.v r c) : p.planes w h = q.planes w h := by
  have hplane : ∀ {a b : Nat} {x y : Nat → Nat → UInt8}, (∀ r < b, ∀ c < a, x r c = y r c) →
      plane a b x = plane a b y := by
    intro a b x y hxy
    apply List.map_congr_left
    intro i hi
    obtain ⟨r, hr, c, hc, rfl⟩ := exists_place (List.mem_range.mp hi)
    rw [place_row r hc, place_col r hc]
    exact hxy r hr c hc
  unfold Picture.planes
  rw [hplane hluma, hplane hu, hplane hv]

/-- The picture is the same, whatever the padding holds. -/
theorem framePicture_congr {width height : UInt32} {frame : FrameInfo} {data data' : Bytes}
    (hrow : rowSize frame.format width.toNat ≤ (frameStride width frame).toNat)
    (hsame : ∀ i, IsSample width height frame i → byteAt data i = byteAt data' i) :
    (framePicture width height frame data).planes width.toNat height.toNat =
      (framePicture width height frame data').planes width.toNat height.toNat := by
  unfold rowSize at hrow
  unfold framePicture
  unfold IsSample at hsame
  generalize (frameStride width frame).toNat = s at *
  generalize width.toNat = w at *
  generalize height.toNat = h at *
  by_cases hyuyv : frame.format = v4l2PixFmtYuyv
  · simp only [if_pos hyuyv] at hrow hsame ⊢
    have hbyte : ∀ {r k : Nat}, r < h → k < 2 * w → byteAt data (r * s + k) = byteAt data' (r * s + k) := by
      intro r k hr hk
      apply hsame
      rw [place_col r (by omega)]
      exact ⟨place_lt hr (by omega), hk⟩
    have hpair : ∀ {r k : Nat}, r < h / 2 → k < 2 * w →
        average (byteAt data (2 * r * s + k)) (byteAt data ((2 * r + 1) * s + k)) =
          average (byteAt data' (2 * r * s + k)) (byteAt data' ((2 * r + 1) * s + k)) := by
      intro r k hr hk
      rw [hbyte (by omega) hk, hbyte (by omega) hk]
    apply Picture.planes_congr
    · exact fun r hr c hc => hbyte hr (by omega)
    · exact fun r hr c hc => hpair (k := 4 * c + 1) hr (by omega)
    · exact fun r hr c hc => hpair (k := 4 * c + 3) hr (by omega)
  · simp only [if_neg hyuyv] at hrow hsame ⊢
    have hchroma : ∀ {r c : Nat}, r < 2 * (h / 2) → c < w / 2 →
        byteAt data (s * h + (r * (s / 2) + c)) = byteAt data' (s * h + (r * (s / 2) + c)) := by
      intro r c hr hc
      apply hsame
      have hlt := place_lt (w := s / 2) hr (show c < s / 2 by omega)
      refine .inr ⟨r * (s / 2) + c, ?_, rfl, ?_⟩
      · rw [Nat.mul_left_comm]
        exact hlt
      · rw [place_col r (by omega)]
        exact hc
    apply Picture.planes_congr
    · intro r hr c hc
      apply hsame
      rw [place_col r (by omega)]
      exact .inl ⟨place_lt hr (by omega), hc⟩
    · intro r hr c hc
      have hsample := @hchroma r c (by omega) hc
      rw [← Nat.add_assoc] at hsample
      exact hsample
    · intro r hr c hc
      have hsample := @hchroma (h / 2 + r) c (by omega) hc
      rw [Nat.add_mul, Nat.mul_comm (h / 2), Nat.add_assoc, ← Nat.add_assoc, ← Nat.add_assoc]
        at hsample
      exact hsample

theorem evenDimension {x : UInt32} : (x &&& 1 != 0) = (x.toNat % 2 != 0) := by
  have hbit : (x &&& 1).toNat = x.toNat % 2 := by
    rw [UInt32.toNat_and]
    exact Nat.and_one_is_mod _
  rw [← hbit, Bool.eq_iff_iff]
  simp [← UInt32.toNat_inj]

/-- The next multiple of 64. -/
theorem aligned_toNat {x : UInt32} (h : x.toNat + 63 < 2 ^ 32) :
    ((x + 63) &&& ~~~63).toNat = (x.toNat + 63) / 64 * 64 := by
  have hsum : (x + 63).toNat = x.toNat + 63 := by
    rw [UInt32.toNat_add]
    exact Nat.mod_eq_of_lt h
  have hmask : (~~~63 : UInt32).toNat = (2 ^ 26 - 1) * 2 ^ 6 := by decide
  rw [UInt32.toNat_and, hsum, hmask]
  generalize x.toNat + 63 = n at h
  apply Nat.eq_of_testBit_eq
  intro i
  rw [Nat.testBit_and, Nat.testBit_mul_two_pow, show n / 64 * 64 = n / 2 ^ 6 * 2 ^ 6 from rfl,
    Nat.testBit_mul_two_pow, Nat.testBit_two_pow_sub_one, Nat.testBit_div_two_pow]
  by_cases hi : 6 ≤ i
  · have hback : i - 6 + 6 = i := by omega
    by_cases hbig : i - 6 < 26
    · simp [hi, hbig, hback]
    · have hhigh : n.testBit i = false :=
        Nat.testBit_lt_two_pow (h.trans_le (Nat.pow_le_pow_right (by omega) (by omega)))
      simp [hi, hback, hhigh]
  · simp [hi]

/-- A complete frame of a source with one of these strides passes the checks. -/
theorem sourceAlloc_good {width height fps stride : UInt32} (sequence timestampUs : UInt64)
    (hh : height.toNat % 2 = 0) (hpos : 0 < width.toNat ∧ 0 < height.toNat)
    (hstride : width.toNat ≤ stride.toNat)
    (hsmall : stride.toNat * height.toNat * 3 < 2 ^ 64) :
    let frame := (sourceAlloc width height fps stride).frame sequence timestampUs
    checkFrame width height frame = .good ∧
      rowSize frame.format width.toNat ≤ (frameStride width frame).toNat := by
  intro frame
  have hnonzero : stride ≠ 0 := by
    intro hzero
    rw [hzero] at hstride
    exact absurd hpos.1 (Nat.not_lt.mpr hstride)
  have hs : frameStride width frame = stride := if_pos hnonzero
  have hplanar : frame.format ≠ v4l2PixFmtYuyv := show v4l2PixFmtYuv420 ≠ _ by decide
  have hsize : frame.size = stride.toNat * height.toNat * 3 / 2 :=
    congrArg (· / 2) (Nat.mod_eq_of_lt hsmall)
  have hchroma : 2 * (stride.toNat / 2 * (height.toNat / 2)) ≤ stride.toNat * height.toNat / 2 := by
    obtain ⟨b, hb⟩ := Nat.dvd_of_mod_eq_zero hh
    rw [hb, Nat.mul_div_cancel_left b (by omega), Nat.mul_left_comm stride.toNat,
      Nat.mul_div_cancel_left _ (by omega), ← Nat.mul_assoc]
    exact Nat.mul_le_mul_right b (by omega)
  have harea : 0 < stride.toNat * height.toNat := Nat.mul_pos (by omega) hpos.2
  refine ⟨checkFrame_good.mpr ⟨⟨rfl, rfl⟩, ?_, fun _ => ?_⟩, ?_⟩
  · rw [hs, hsize]
    omega
  · rw [hs, hsize, planarSize, Nat.mod_eq_of_lt (by omega)]
    omega
  · rw [hs, rowSize, if_neg hplanar]
    exact hstride

theorem source_good {width height fps : UInt32} {usable : Bool} {source : VideoSource}
    (sequence timestampUs : UInt64) (hsmall : width.toNat * height.toNat * 3 / 2 ≤ encodeScratchMax)
    (hsource : csiSourceCreate width height fps usable = some source ∨
      stdinSourceCreate width height fps = some source) :
    let frame := source.frame sequence timestampUs
    checkFrame width height frame = .good ∧
      rowSize frame.format width.toNat ≤ (frameStride width frame).toNat := by
  have hvalid : validGeometry width height fps = true := by
    by_contra hbad
    rw [Bool.not_eq_true] at hbad
    unfold csiSourceCreate stdinSourceCreate at hsource
    simp [hbad] at hsource
  have hdims : (16 ≤ width.toNat ∧ 16 ≤ height.toNat) ∧ height.toNat % 2 = 0 := by
    unfold validGeometry at hvalid
    rw [@evenDimension height] at hvalid
    simp only [Bool.not_eq_true', Bool.or_eq_false_iff, decide_eq_false_iff_not, bne_eq_false_iff_eq,
      UInt32.not_lt] at hvalid
    exact ⟨⟨hvalid.1.1.1.2, hvalid.1.1.2⟩, hvalid.2⟩
  unfold encodeScratchMax at hsmall
  have hwidth : width.toNat * 16 ≤ width.toNat * height.toNat := Nat.mul_le_mul_left _ hdims.1.2
  have hheight : 16 * height.toNat ≤ width.toNat * height.toNat := Nat.mul_le_mul_right _ hdims.1.1
  have hgood : ∀ {stride : UInt32}, width.toNat ≤ stride.toNat → stride.toNat ≤ width.toNat + 64 →
      let frame := (sourceAlloc width height fps stride).frame sequence timestampUs
      checkFrame width height frame = .good ∧
        rowSize frame.format width.toNat ≤ (frameStride width frame).toNat := by
    intro stride hlow hhigh
    have harea : stride.toNat * height.toNat ≤ (width.toNat + 64) * height.toNat :=
      Nat.mul_le_mul_right _ hhigh
    rw [Nat.add_mul] at harea
    exact sourceAlloc_good sequence timestampUs hdims.2 (by omega) hlow (by omega)
  rcases hsource with hcsi | hstdin
  · unfold csiSourceCreate at hcsi
    have hstride := @aligned_toNat width (by omega)
    cases usable with
    | false => simp [hvalid] at hcsi
    | true =>
      simp only [hvalid, Bool.not_true, Bool.false_eq_true, if_false, Option.some.injEq] at hcsi
      rw [← hcsi]
      exact hgood (by omega) (by omega)
  · unfold stdinSourceCreate at hstdin
    simp only [hvalid, Bool.not_true, Bool.false_eq_true, if_false, Option.some.injEq] at hstdin
    rw [← hstdin]
    exact hgood (Nat.le_refl _) (by omega)

/-- The encoder sees the picture of the frame on every path, whatever the padding holds; rows
without padding are read as a copy of them would be; and no complete frame of a camera or of
standard input is refused. -/
theorem encoder_sees_picture {width height : UInt32} {i420 : Bytes}
    (hw : width.toNat % 2 = 0) (hh : height.toNat % 2 = 0)
    (hscratch : i420.length = width.toNat * height.toNat * 3 / 2)
    (hlimit : i420.length ≤ encodeScratchMax) :
    (∀ (frame : FrameInfo) (data : Bytes), checkFrame width height frame = .good →
      data.length = frame.size →
      rowSize frame.format width.toNat ≤ (frameStride width frame).toNat →
      encoderPlanes width height frame data i420 =
          some ((framePicture width height frame data).planes width.toNat height.toNat) ∧
        (∀ data' : Bytes, data'.length = frame.size →
          (∀ i, IsSample width height frame i → byteAt data i = byteAt data' i) →
          encoderPlanes width height frame data' i420 =
            encoderPlanes width height frame data i420) ∧
        (frame.format ≠ v4l2PixFmtYuyv → frameStride width frame = width →
          let w := width.toNat
          let h := height.toNat
          encoderPlanes width height frame data i420 =
            (i420Copy data 0 w (w * h) (w * h + w / 2 * (h / 2)) 0 (w * h) (w * h + w * h / 4) w h
              i420).bind fun b => readPlanes b 0 (w * h) (w * h + w * h / 4) w h)) ∧
    ∀ (fps : UInt32) (usable : Bool) (source : VideoSource) (sequence timestampUs : UInt64),
      csiSourceCreate width height fps usable = some source ∨
        stdinSourceCreate width height fps = some source →
      let frame := source.frame sequence timestampUs
      checkFrame width height frame = .good ∧
        rowSize frame.format width.toNat ≤ (frameStride width frame).toNat := by
  have hheight : 0 < width.toNat → height.toNat < 2 ^ 30 := by
    intro hpos
    unfold encodeScratchMax at hlimit
    have hle : 1 * height.toNat ≤ width.toNat * height.toNat := Nat.mul_le_mul_right _ hpos
    omega
  have hplanes : ∀ (frame : FrameInfo) (data : Bytes), checkFrame width height frame = .good →
      data.length = frame.size →
      rowSize frame.format width.toNat ≤ (frameStride width frame).toNat →
      encoderPlanes width height frame data i420 =
        some ((framePicture width height frame data).planes width.toNat height.toNat) := by
    intro frame data hgood hdata hrow
    unfold encodeScratchMax at hlimit
    exact encoderPlanes_eq hw hh hscratch hgood hdata (by omega)
      (rowsInside_of_stride hh hgood hheight hrow)
  refine ⟨fun frame data hgood hdata hrow => ⟨hplanes frame data hgood hdata hrow, ?_, ?_⟩, ?_⟩
  · intro data' hdata' hsame
    rw [hplanes frame data hgood hdata hrow, hplanes frame data' hgood hdata' hrow,
      framePicture_congr hrow hsame]
  · intro hplanar hpacked w h
    have hrows := rowsInside_of_stride hh hgood hheight hrow
    unfold RowsInside at hrows
    rw [if_neg hplanar, hpacked, ← hdata] at hrows
    rw [hplanes frame data hgood hdata hrow, framePicture, if_neg hplanar, hpacked]
    exact (i420_planes hw hh hscratch hrows).symm
  · intro fps usable source sequence timestampUs hsource
    exact source_good sequence timestampUs (hscratch ▸ hlimit) hsource

def smallFrame (format stride : UInt32) (size : Nat) : FrameInfo :=
  ⟨4, 2, format, stride, size, 0, 0⟩

/-- Every byte tells where it stands. -/
def ramp (n : Nat) : Bytes := (List.range n).map UInt8.ofNat

/-- A YUYV picture with padded rows, a planar one with padded rows and one without padding. -/
theorem encoder_sees_camera :
    encoderPlanes 4 2 (smallFrame v4l2PixFmtYuyv 10 20) (ramp 20) (List.replicate 12 0) =
        some ⟨[0, 2, 4, 6, 10, 12, 14, 16], [6, 10], [8, 12]⟩ ∧
      encoderPlanes 4 2 (smallFrame v4l2PixFmtYuv420 6 18) (ramp 18) (List.replicate 12 0) =
        some ⟨[0, 1, 2, 3, 6, 7, 8, 9], [12, 13], [15, 16]⟩ ∧
      encoderPlanes 4 2 (smallFrame v4l2PixFmtYuv420 4 12) (ramp 12) (List.replicate 12 0) =
        some ⟨[0, 1, 2, 3, 4, 5, 6, 7], [8, 9], [10, 11]⟩ := by
  have hsees := (@encoder_sees_picture 4 2 (List.replicate 12 0) (by decide) (by decide) (by decide)
    (by decide)).1
  refine ⟨?_, ?_, ?_⟩
  · exact (hsees _ _ (by decide) (by decide) (by decide)).1.trans (by decide)
  · exact (hsees _ _ (by decide) (by decide) (by decide)).1.trans (by decide)
  · exact (hsees _ _ (by decide) (by decide) (by decide)).1.trans (by decide)

end Camstream.Proofs.EncoderPicture
