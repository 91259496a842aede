import Camstream.Media.EncoderM2m
import Camstream.Proofs.FramePlanes

namespace Camstream.Proofs.InputLayout
open Lib Media FramePlanes

/-- A sample of a plane, by its row and column. -/
inductive Sample
  | luma (r c : Nat)
  | u (r c : Nat)
  | v (r c : Nat)
deriving DecidableEq

/-- The samples of a picture of this size. -/
def Sample.In (w h : Nat) : Sample → Prop
  | .luma r c => r < h ∧ c < w
  | .u r c | .v r c => r < h / 2 ∧ c < w / 2

/-- The byte of an input buffer in which the driver looks for a sample. -/
def place (e : M2mBackend) : Sample → Nat
  | .luma r c => r * e.bytesperline.toNat + c
  | .u r c =>
    let chroma := e.bytesperline.toNat * e.planeHeight.toNat
    if e.inputFormat = v4l2PixFmtYuv420 then chroma + (r * (e.bytesperline.toNat / 2) + c)
    else chroma + (r * e.bytesperline.toNat + 2 * c)
  | .v r c =>
    let chroma := e.bytesperline.toNat * e.planeHeight.toNat
    if e.inputFormat = v4l2PixFmtYuv420 then
      chroma + e.bytesperline.toNat / 2 * (e.planeHeight.toNat / 2) +
        (r * (e.bytesperline.toNat / 2) + c)
    else chroma + (r * e.bytesperline.toNat + (2 * c + 1))

/-- What the driver finds in an input buffer. -/
def readInput (e : M2mBackend) (buffer : Bytes) : Planes :=
  Picture.planes ⟨fun r c => byteAt buffer (place e (.luma r c)),
    fun r c => byteAt buffer (place e (.u r c)), fun r c => byteAt buffer (place e (.v r c))⟩
    e.width.toNat e.height.toNat

/-- The sample whose place this is. -/
def sampleOf (e : M2mBackend) (i : Nat) : Sample :=
  let s := e.bytesperline.toNat
  let rows := e.planeHeight.toNat
  if i < s * rows then .luma (i / s) (i % s)
  else
    let k := i - s * rows
    if e.inputFormat = v4l2PixFmtYuv420 then
      if k < s / 2 * (rows / 2) then .u (k / (s / 2)) (k % (s / 2))
      else
        let k := k - s / 2 * (rows / 2)
        .v (k / (s / 2)) (k % (s / 2))
    else if k % s % 2 = 0 then .u (k / s) (k % s / 2)
    else .v (k / s) (k % s / 2)

/-- A layout that has room for the picture. -/
structure Roomy (e : M2mBackend) : Prop where
  stride : e.width.toNat ≤ e.bytesperline.toNat
  rows : e.height.toNat ≤ e.planeHeight.toNat
  size : e.bytesperline.toNat * e.planeHeight.toNat +
    e.bytesperline.toNat * (e.planeHeight.toNat / 2) ≤ e.sizeimage.toNat

section Layout
variable {e : M2mBackend}

theorem sampleOf_place (hroom : Roomy e) {x : Sample} (hx : x.In e.width.toNat e.height.toNat) :
    sampleOf e (place e x) = x := by
  obtain ⟨hstride, hrows, -⟩ := hroom
  unfold sampleOf place
  generalize e.bytesperline.toNat = s at *
  generalize e.planeHeight.toNat = rows at *
  cases x with
  | luma r c =>
    have hc : c < s := hx.2.trans_le hstride
    dsimp only
    rw [if_pos (place_lt (hx.1.trans_le hrows) hc), place_row r hc, place_col r hc]
  | u r c =>
    obtain ⟨hr, hc⟩ := hx
    dsimp only
    by_cases hplanar : e.inputFormat = v4l2PixFmtYuv420
    · have hc' : c < s / 2 := by omega
      have hin := place_lt (show r < rows / 2 by omega) hc'
      simp only [if_pos hplanar]
      rw [if_neg (by omega), Nat.add_sub_cancel_left, if_pos hin, place_row r hc', place_col r hc']
    · have hc' : 2 * c < s := by omega
      simp only [if_neg hplanar]
      rw [if_neg (by omega), Nat.add_sub_cancel_left, place_row r hc', place_col r hc',
        if_pos (by omega), Nat.mul_div_cancel_left c (by omega)]
  | v r c =>
    obtain ⟨hr, hc⟩ := hx
    dsimp only
    by_cases hplanar : e.inputFormat = v4l2PixFmtYuv420
    · have hc' : c < s / 2 := by omega
      simp only [if_pos hplanar]
      rw [if_neg (by omega), Nat.add_assoc, Nat.add_sub_cancel_left, if_neg (by omega),
        Nat.add_sub_cancel_left, place_row r hc', place_col r hc']
    · have hc' : 2 * c + 1 < s := by omega
      have hhalf : (2 * c + 1) / 2 = c := by omega
      simp only [if_neg hplanar]
      rw [if_neg (by omega), Nat.add_sub_cancel_left, place_row r hc', place_col r hc',
        if_neg (by omega), hhalf]

theorem place_inside (hroom : Roomy e) {x : Sample} (hx : x.In e.width.toNat e.height.toNat) :
    place e x < e.sizeimage.toNat := by
  obtain ⟨hstride, hrows, hsize⟩ := hroom
  unfold place
  generalize e.bytesperline.toNat = s at *
  generalize e.planeHeight.toNat = rows at *
  have hhalves : s / 2 * (rows / 2) + s / 2 * (rows / 2) ≤ s * (rows / 2) := by
    rw [← Nat.add_mul]
    exact Nat.mul_le_mul_right _ (by omega)
  cases x with
  | luma r c =>
    have hin := place_lt (hx.1.trans_le hrows) (hx.2.trans_le hstride)
    dsimp only
    omega
  | u r c =>
    obtain ⟨hr, hc⟩ := hx
    dsimp only
    split
    · have hin := place_lt (show r < rows / 2 by omega) (show c < s / 2 by omega)
      omega
    · have hin := place_lt (show r < rows / 2 by omega) (show 2 * c < s by omega)
      omega
  | v r c =>
    obtain ⟨hr, hc⟩ := hx
    dsimp only
    split
    · have hin := place_lt (show r < rows / 2 by omega) (show c < s / 2 by omega)
      omega
    · have hin := place_lt (show r < rows / 2 by omega) (show 2 * c + 1 < s by omega)
      omega

end Layout

/-- The value of a sample. -/
def sampleValue (w : Nat) (p : Planes) : Sample → UInt8
  | .luma r c => byteAt p.y (r * w + c)
  | .u r c => byteAt p.u (r * (w / 2) + c)
  | .v r c => byteAt p.v (r * (w / 2) + c)

/-- Planes of this size. -/
structure Planes.Sized (p : Planes) (w h : Nat) : Prop where
  y : p.y.length = w * h
  u : p.u.length = w / 2 * (h / 2)
  v : p.v.length = w / 2 * (h / 2)

theorem plane_bytes {w h : Nat} {bytes : Bytes} (hlen : bytes.length = w * h)
    {sample : Nat → Nat → UInt8} (hsample : ∀ r < h, ∀ c < w, sample r c = byteAt bytes (r * w + c)) :
    plane w h sample = bytes := by
  unfold plane
  apply List.ext_getElem
  · simpa using hlen.symm
  · intro i hi hi'
    have hget : bytes[i] = byteAt bytes i := by
      simp [byteAt, List.getD_eq_getElem?_getD, List.getElem?_eq_getElem hi']
    rw [List.getElem_map, List.getElem_range, hget]
    obtain ⟨r, hr, c, hc, rfl⟩ := @exists_place w h i (hlen ▸ hi')
    rw [place_row r hc, place_col r hc, hsample r hr c hc]

section Fill
variable {e : M2mBackend} {p : Planes}

/-- What an input buffer is to hold. -/
def inputByte (e : M2mBackend) (p : Planes) (i : Nat) : UInt8 :=
  sampleValue e.width.toNat p (sampleOf e i)

theorem inputByte_place (hroom : Roomy e) {x : Sample} (hx : x.In e.width.toNat e.height.toNat) :
    inputByte e p (place e x) = sampleValue e.width.toNat p x := by
  rw [inputByte, sampleOf_place hroom hx]

/-- A row of a plane is copied to the places of its samples. -/
theorem row_written (hroom : Roomy e) {bytes : Bytes} {srcPos dstPos n : Nat} {x : Nat → Sample}
    (hin : ∀ c < n, (x c).In e.width.toNat e.height.toNat)
    (hplace : ∀ c, place e (x c) = dstPos + c)
    (hvalue : ∀ c, sampleValue e.width.toNat p (x c) = byteAt bytes (srcPos + c))
    (hsrc : 0 < n → srcPos + n ≤ bytes.length) :
    Writes e.sizeimage.toNat (inputByte e p) (copyRange bytes srcPos dstPos n)
      (Set.Ico dstPos (dstPos + n)) := by
  apply Writes.copy hsrc
  · intro hpos
    have hlast := place_inside hroom (hin (n - 1) (by omega))
    rw [hplace] at hlast
    omega
  · intro c hc
    rw [← hplace, inputByte_place hroom (hin c hc), hvalue]

theorem row_fits {w h n r : Nat} (hn : n = w * h) (hr : r < h) : r * w + w ≤ n := by
  rw [hn, ← Nat.succ_mul, Nat.mul_comm w h]
  exact Nat.mul_le_mul_right w hr

theorem luma_written (hroom : Roomy e) (hsized : Planes.Sized p e.width.toNat e.height.toNat) :
    ∃ region : Set Nat, (∀ r < e.height.toNat, ∀ c < e.width.toNat,
        place e (.luma r c) ∈ region) ∧
      Writes e.sizeimage.toNat (inputByte e p) (fillLuma e p.y) region := by
  unfold fillLuma
  by_cases hpacked : e.bytesperline.toNat = e.width.toNat ∧ e.planeHeight.toNat = e.height.toNat
  · simp only [if_pos hpacked]
    refine ⟨Set.Ico 0 (0 + e.width.toNat * e.height.toNat), ?_, Writes.copy ?_ ?_ ?_⟩
    · intro r hr c hc
      have hlt := place_lt hr hc
      rw [place, hpacked.1]
      exact Set.mem_Ico.mpr (by omega)
    · intro _
      rw [hsized.y]
      omega
    · intro _
      have hsize := hroom.size
      rw [hpacked.1, hpacked.2] at hsize
      omega
    · intro k hk
      obtain ⟨r, hr, c, hc, rfl⟩ := exists_place hk
      have hbyte := @inputByte_place e p hroom (.luma r c) ⟨hr, hc⟩
      rw [place, hpacked.1] at hbyte
      rw [Nat.zero_add, hbyte, sampleValue]
  · simp only [if_neg hpacked]
    refine ⟨{i | ∃ r < e.height.toNat, i ∈ Set.Ico (r * e.bytesperline.toNat)
      (r * e.bytesperline.toNat + e.width.toNat)}, ?_, Writes.loop fun r hr => ?_⟩
    · intro r hr c hc
      exact ⟨r, hr, Set.mem_Ico.mpr (by rw [place]; omega)⟩
    · exact row_written (x := fun c => .luma r c) hroom (fun c hc => ⟨hr, hc⟩) (fun c => rfl)
        (fun c => rfl) fun _ => row_fits hsized.y hr

theorem planar_written (hroom : Roomy e) (hsized : Planes.Sized p e.width.toNat e.height.toNat)
    (hplanar : e.inputFormat = v4l2PixFmtYuv420) :
    let w := e.width.toNat / 2
    let s := e.bytesperline.toNat
    let rows := e.planeHeight.toNat
    ∃ region : Set Nat, (∀ r < e.height.toNat / 2, ∀ c < w,
        place e (.u r c) ∈ region ∧ place e (.v r c) ∈ region) ∧
      Writes e.sizeimage.toNat (inputByte e p) (forRange (e.height.toNat / 2) fun row dst =>
        (copyRange p.u (row * w) (s * rows + row * (s / 2)) w dst).bind
          (copyRange p.v (row * w) (s * rows + s / 2 * (rows / 2) + row * (s / 2)) w)) region := by
  intro w s rows
  have hu : ∀ r c, place e (.u r c) = s * rows + r * (s / 2) + c := by
    intro r c
    rw [place, if_pos hplanar, Nat.add_assoc]
  have hv : ∀ r c, place e (.v r c) = s * rows + s / 2 * (rows / 2) + r * (s / 2) + c := by
    intro r c
    rw [place, if_pos hplanar, Nat.add_assoc (_ + _)]
  refine ⟨{i | ∃ r < e.height.toNat / 2, i ∈ Set.Ico (s * rows + r * (s / 2))
      (s * rows + r * (s / 2) + w) ∪ Set.Ico (s * rows + s / 2 * (rows / 2) + r * (s / 2))
        (s * rows + s / 2 * (rows / 2) + r * (s / 2) + w)}, ?_,
    Writes.loop fun r hr => Writes.comp ?_ ?_⟩
  · intro r hr c hc
    rw [hu, hv]
    exact ⟨⟨r, hr, .inl (Set.mem_Ico.mpr (by omega))⟩, ⟨r, hr, .inr (Set.mem_Ico.mpr (by omega))⟩⟩
  · exact row_written (x := fun c => .u r c) hroom (fun c hc => ⟨hr, hc⟩) (hu r) (fun c => rfl)
      fun _ => row_fits hsized.u hr
  · exact row_written (x := fun c => .v r c) hroom (fun c hc => ⟨hr, hc⟩) (hv r) (fun c => rfl)
      fun _ => row_fits hsized.v hr

theorem interleaved_written (hroom : Roomy e)
    (hsized : Planes.Sized p e.width.toNat e.height.toNat)
    (hplanar : e.inputFormat ≠ v4l2PixFmtYuv420) :
    let w := e.width.toNat / 2
    let chroma := e.bytesperline.toNat * e.planeHeight.toNat
    ∃ region : Set Nat, (∀ r < e.height.toNat / 2, ∀ c < w,
        place e (.u r c) ∈ region ∧ place e (.v r c) ∈ region) ∧
      Writes e.sizeimage.toNat (inputByte e p) (forRange (e.height.toNat / 2) fun row =>
        forRange w (interleave p.u p.v (row * w) (chroma + row * e.bytesperline.toNat))) region := by
  intro w chroma
  have hturn : ∀ r < e.height.toNat / 2, ∀ c < w,
      Writes e.sizeimage.toNat (inputByte e p)
        (interleave p.u p.v (r * w) (chroma + r * e.bytesperline.toNat) c)
        ({place e (.u r c)} ∪ {place e (.v r c)}) := by
    intro r hr c hc
    have hlt := place_lt hr hc
    have hu : load p.u (r * w + c) = some (byteAt p.u (r * w + c)) := load_eq (hsized.u ▸ hlt)
    have hv : load p.v (r * w + c) = some (byteAt p.v (r * w + c)) := load_eq (hsized.v ▸ hlt)
    have hplaces : place e (.u r c) = chroma + r * e.bytesperline.toNat + 2 * c ∧
        place e (.v r c) = chroma + r * e.bytesperline.toNat + (2 * c + 1) := by
      rw [place, place, if_neg hplanar, if_neg hplanar]
      exact ⟨(Nat.add_assoc _ _ _).symm, (Nat.add_assoc _ _ _).symm⟩
    have hsteps : interleave p.u p.v (r * w) (chroma + r * e.bytesperline.toNat) c = fun dst =>
        (storeByte dst (place e (.u r c)) (byteAt p.u (r * w + c))).bind fun dst =>
          storeByte dst (place e (.v r c)) (byteAt p.v (r * w + c)) := by
      funext dst
      rw [interleave, hu, hv, hplaces.1, hplaces.2]
      rfl
    rw [hsteps]
    have hin : (Sample.u r c).In e.width.toNat e.height.toNat := ⟨hr, hc⟩
    have hin' : (Sample.v r c).In e.width.toNat e.height.toNat := ⟨hr, hc⟩
    apply Writes.comp
    · exact Writes.byte (place_inside hroom hin) (inputByte_place hroom hin).symm
    · exact Writes.byte (place_inside hroom hin') (inputByte_place hroom hin').symm
  refine ⟨_, ?_, Writes.loop fun r hr => Writes.loop (hturn r hr)⟩
  intro r hr c hc
  exact ⟨⟨r, hr, c, hc, .inl rfl⟩, ⟨r, hr, c, hc, .inr rfl⟩⟩

theorem fill_written (hroom : Roomy e) (hsized : Planes.Sized p e.width.toNat e.height.toNat)
    {dst : Bytes} (hdst : dst.length = e.sizeimage.toNat) :
    ∃ dst', m2mFillInput e p.y p.u p.v dst = some dst' ∧ dst'.length = e.sizeimage.toNat ∧
      ∀ x : Sample, x.In e.width.toNat e.height.toNat →
        byteAt dst' (place e x) = sampleValue e.width.toNat p x := by
  obtain ⟨front, hfront, hluma⟩ := luma_written hroom hsized
  have hchroma : ∃ region : Set Nat, (∀ r < e.height.toNat / 2, ∀ c < e.width.toNat / 2,
        place e (.u r c) ∈ region ∧ place e (.v r c) ∈ region) ∧
      Writes e.sizeimage.toNat (inputByte e p) (m2mFillInput e p.y p.u p.v) (front ∪ region) := by
    by_cases hplanar : e.inputFormat = v4l2PixFmtYuv420
    · obtain ⟨region, hin, hwrites⟩ := planar_written hroom hsized hplanar
      refine ⟨region, hin, ?_⟩
      have hboth := hluma.comp hwrites
      unfold m2mFillInput
      simp only [if_pos hplanar]
      exact hboth
    · obtain ⟨region, hin, hwrites⟩ := interleaved_written hroom hsized hplanar
      refine ⟨region, hin, ?_⟩
      have hboth := hluma.comp hwrites
      unfold m2mFillInput
      simp only [if_neg hplanar]
      exact hboth
  obtain ⟨back, hback, hall⟩ := hchroma
  obtain ⟨dst', hfill, hlen, hbytes⟩ := hall dst hdst
  refine ⟨dst', hfill, hlen, ?_⟩
  intro x hx
  rw [← inputByte_place hroom hx]
  apply (hbytes _ (place_inside hroom hx)).1
  cases x with
  | luma r c => exact .inl (hfront r hx.1 c hx.2)
  | u r c => exact .inr (hback r hx.1 c hx.2).1
  | v r c => exact .inr (hback r hx.1 c hx.2).2

/-- What was put in is what the driver finds. -/
theorem fill_read (hroom : Roomy e) (hsized : Planes.Sized p e.width.toNat e.height.toNat)
    {dst : Bytes} (hdst : dst.length = e.sizeimage.toNat) :
    ∃ dst', m2mFillInput e p.y p.u p.v dst = some dst' ∧ readInput e dst' = p := by
  obtain ⟨dst', hfill, -, hvalues⟩ := fill_written hroom hsized hdst
  refine ⟨dst', hfill, ?_⟩
  unfold readInput Picture.planes
  rw [plane_bytes hsized.y fun r hr c hc => hvalues (.luma r c) ⟨hr, hc⟩,
    plane_bytes hsized.u fun r hr c hc => hvalues (.u r c) ⟨hr, hc⟩,
    plane_bytes hsized.v fun r hr c hc => hvalues (.v r c) ⟨hr, hc⟩]

end Fill

/-- What the negotiation accepts. -/
theorem outputFormat_accepted {encoder accepted : M2mBackend}
    {sFmt : UInt32 → Option PixFormatMplane} (h : m2mSetOutputFormat encoder sFmt = some accepted) :
    (accepted.width = encoder.width ∧ accepted.height = encoder.height) ∧
      (accepted.width.toNat ≤ accepted.bytesperline.toNat ∧
        accepted.height.toNat ≤ accepted.planeHeight.toNat) ∧
      accepted.inputFormat ∈ [v4l2PixFmtYuv420, v4l2PixFmtNv12] := by
  obtain ⟨format, hformat, htry⟩ := List.exists_of_findSome?_eq_some h
  obtain ⟨pix, -, hpix⟩ := Option.bind_eq_some_iff.mp htry
  unfold tryOutputFormat at hpix
  dsimp only at hpix
  split at hpix
  · cases hpix
  · rename_i hfits
    simp only [not_or, UInt32.not_lt] at hfits
    split at hpix
    · cases hpix
    · cases hpix
      exact ⟨⟨rfl, rfl⟩, ⟨hfits.2.2.2.2, hfits.2.2.2.1⟩, hformat⟩

/-- For every format that the negotiation accepts, with a buffer that is as large as it says, the
driver finds exactly the three planes, each sample in a byte of its own below the size. -/
theorem input_lossless {encoder accepted : M2mBackend} {sFmt : UInt32 → Option PixFormatMplane}
    (hset : m2mSetOutputFormat encoder sFmt = some accepted)
    (hsize : accepted.bytesperline.toNat * accepted.planeHeight.toNat +
      accepted.bytesperline.toNat * (accepted.planeHeight.toNat / 2) ≤ accepted.sizeimage.toNat) :
    let w := encoder.width.toNat
    let h := encoder.height.toNat
    (∀ p : Planes, Planes.Sized p w h → ∀ dst : Bytes, dst.length = accepted.sizeimage.toNat →
      ∃ dst', m2mFillInput accepted p.y p.u p.v dst = some dst' ∧ readInput accepted dst' = p) ∧
    (∀ x : Sample, x.In w h → place accepted x < accepted.sizeimage.toNat) ∧
    Set.InjOn (place accepted) {x | x.In w h} := by
  obtain ⟨⟨hwidth, hheight⟩, hfits, -⟩ := outputFormat_accepted hset
  have hroom : Roomy accepted := ⟨hfits.1, hfits.2, hsize⟩
  rw [← hwidth, ← hheight]
  refine ⟨fun p hsized dst hdst => fill_read hroom hsized hdst, fun x => place_inside hroom, ?_⟩
  intro x hx y hy hxy
  rw [← sampleOf_place hroom hx, ← sampleOf_place hroom hy, hxy]

/-- A driver with lines of 8 bytes, 5 of them, and interleaved chroma. -/
def paddedDriver (format : UInt32) : Option PixFormatMplane :=
  if format = v4l2PixFmtNv12 then some ⟨4, 5, v4l2PixFmtNv12, 1, 64, 8⟩ else none

theorem input_lossless_padded : readInput ⟨4, 4, v4l2PixFmtNv12, 8, 5, 64⟩
    ((m2mFillInput ⟨4, 4, v4l2PixFmtNv12, 8, 5, 64⟩ (List.replicate 16 1) [2, 3, 4, 5] [6, 7, 8, 9]
      (List.replicate 64 0)).getD []) = ⟨List.replicate 16 1, [2, 3, 4, 5], [6, 7, 8, 9]⟩ := by
  have hset : m2mSetOutputFormat ⟨4, 4, 0, 0, 0, 0⟩ paddedDriver =
      some ⟨4, 4, v4l2PixFmtNv12, 8, 5, 64⟩ := by decide
  obtain ⟨dst', hfill, hread⟩ := (input_lossless hset (by decide)).1
    ⟨List.replicate 16 1, [2, 3, 4, 5], [6, 7, 8, 9]⟩ ⟨rfl, rfl, rfl⟩ (List.replicate 64 0) rfl
  rw [hfill]
  exact hread

end Camstream.Proofs.InputLayout
