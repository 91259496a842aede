import Camstream.Lib.Writes
import Camstream.Media.CsiSource

namespace Camstream.Media
open Lib

def v4l2PixFmtNv12 : UInt32 := 0x3231564E

/-- The geometry of the encoder, and of its input buffers as the driver lays them out. -/
structure M2mBackend where
  width : UInt32
  height : UInt32
  inputFormat : UInt32
  bytesperline : UInt32
  planeHeight : UInt32
  sizeimage : UInt32
deriving Repr, DecidableEq

/-- What the driver makes of a requested format; the last two are those of the first plane. -/
structure PixFormatMplane where
  width : UInt32
  height : UInt32
  pixelformat : UInt32
  numPlanes : UInt8
  sizeimage : UInt32
  bytesperline : UInt32
deriving Repr, DecidableEq

/-- One turn of the loop of `m2m_set_output_format`. -/
def tryOutputFormat (encoder : M2mBackend) (format : UInt32) (pix : PixFormatMplane) :
    Option M2mBackend :=
  let bpl := pix.bytesperline
  let rows := pix.height
  if pix.pixelformat ≠ format ∨ pix.numPlanes ≠ 1 ∨ pix.width ≠ encoder.width ∨
      rows < encoder.height ∨ bpl < encoder.width then none
  else
    let needed := (bpl.toNat * rows.toNat + bpl.toNat * (rows / 2).toNat) % 2 ^ 64
    if pix.sizeimage.toNat < needed then none
    else some { encoder with
      inputFormat := format, bytesperline := bpl, planeHeight := rows, sizeimage := pix.sizeimage }

/-- `sFmt` is `VIDIOC_S_FMT`, none when it fails. -/
def m2mSetOutputFormat (encoder : M2mBackend) (sFmt : UInt32 → Option PixFormatMplane) :
    Option M2mBackend :=
  [v4l2PixFmtYuv420, v4l2PixFmtNv12].findSome? fun format =>
    (sFmt format).bind (tryOutputFormat encoder format)

/-- One pair of interleaved samples. -/
def interleave (planeU planeV : Bytes) (first uv x : Nat) (dst : Bytes) : Option Bytes := do
  let u ← load planeU (first + x)
  let v ← load planeV (first + x)
  let dst ← storeByte dst (uv + 2 * x) u
  storeByte dst (uv + (2 * x + 1)) v

/-- Luma in one copy where neither lines nor rows are padded. -/
def fillLuma (encoder : M2mBackend) (planeY dst : Bytes) : Option Bytes :=
  let width := encoder.width.toNat
  let height := encoder.height.toNat
  let stride := encoder.bytesperline.toNat
  if stride = width ∧ encoder.planeHeight.toNat = height then
    copyRange planeY 0 0 (width * height) dst
  else forRange height (fun row => copyRange planeY (row * width) (row * stride) width) dst

def m2mFillInput (encoder : M2mBackend) (planeY planeU planeV dst : Bytes) : Option Bytes := do
  let stride := encoder.bytesperline.toNat
  let chromaW := encoder.width.toNat / 2
  let chromaH := encoder.height.toNat / 2
  let chroma := stride * encoder.planeHeight.toNat
  let dst ← fillLuma encoder planeY dst
  if encoder.inputFormat = v4l2PixFmtYuv420 then
    let chromaStride := stride / 2
    let dstU := chroma
    let dstV := chroma + chromaStride * (encoder.planeHeight.toNat / 2)
    forRange chromaH (fun row dst => do
      let dst ← copyRange planeU (row * chromaW) (dstU + row * chromaStride) chromaW dst
      copyRange planeV (row * chromaW) (dstV + row * chromaStride) chromaW dst) dst
  else
    forRange chromaH (fun row =>
      forRange chromaW (interleave planeU planeV (row * chromaW) (chroma + row * stride))) dst

end Camstream.Media
