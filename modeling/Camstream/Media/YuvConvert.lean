import Camstream.Lib.Writes
import Camstream.Media.EncoderWorker

namespace Camstream.Media
open Lib

/-- One macropixel of the luma loop. -/
def yuyvLuma (src : Bytes) (inPos outPos x : Nat) (dst : Bytes) : Option Bytes := do
  let y0 ← load src (inPos + 4 * x)
  let y1 ← load src (inPos + 4 * x + 2)
  let dst ← storeByte dst (outPos + 2 * x) y0
  storeByte dst (outPos + 2 * x + 1) y1

/-- One macropixel of the chroma loop, of the two rows at `row0` and `row1`. -/
def yuyvChroma (src : Bytes) (row0 row1 outU outV x : Nat) (dst : Bytes) : Option Bytes := do
  let u0 ← load src (row0 + 4 * x + 1)
  let u1 ← load src (row1 + 4 * x + 1)
  let v0 ← load src (row0 + 4 * x + 3)
  let v1 ← load src (row1 + 4 * x + 3)
  let dst ← storeByte dst (outU + x) ((u0.toNat + u1.toNat + 1) >>> 1).toUInt8
  storeByte dst (outV + x) ((v0.toNat + v1.toNat + 1) >>> 1).toUInt8

/-- The three planes are offsets into one buffer, the worker's scratch. -/
def yuyvToI420 (src : Bytes) (srcStride dstY dstU dstV width height : Nat) (dst : Bytes) :
    Option Bytes := do
  let chromaW := width / 2
  let dst ← forRange height (fun row =>
    forRange (width / 2) (yuyvLuma src (row * srcStride) (dstY + row * width))) dst
  forRange (height / 2) (fun crow =>
    forRange chromaW (yuyvChroma src (crow * 2 * srcStride) (crow * 2 * srcStride + srcStride)
      (dstU + crow * chromaW) (dstV + crow * chromaW))) dst

def i420Copy (src : Bytes) (srcY srcYStride srcU srcV dstY dstU dstV width height : Nat)
    (dst : Bytes) : Option Bytes := do
  let chromaW := width / 2
  let srcCStride := srcYStride / 2
  let dst ← forRange height (fun row =>
    copyRange src (srcY + row * srcYStride) (dstY + row * width) width) dst
  forRange (height / 2) (fun crow dst => do
    let dst ← copyRange src (srcU + crow * srcCStride) (dstU + crow * chromaW) chromaW dst
    copyRange src (srcV + crow * srcCStride) (dstV + crow * chromaW) chromaW dst) dst

/-- The picture of an encode call. -/
structure Planes where
  y : Bytes
  u : Bytes
  v : Bytes
deriving Repr, DecidableEq

/-- What `h264_encoder_encode` reads through the pointers it is given. -/
def readPlanes (buffer : Bytes) (planeY planeU planeV width height : Nat) : Option Planes := do
  let y ← loadRange buffer planeY (width * height)
  let u ← loadRange buffer planeU (width / 2 * (height / 2))
  let v ← loadRange buffer planeV (width / 2 * (height / 2))
  pure ⟨y, u, v⟩

def encodeScratchMax : Nat := 4096 * 4096 * 3 / 2

/-- The part of `encoder_thread` between the checks of a frame and the encode call. `data` is
what lies below the size of the frame, `i420` is the scratch buffer. -/
def encoderPlanes (width height : UInt32) (frame : FrameInfo) (data i420 : Bytes) :
    Option Planes := do
  let luma := width.toNat * height.toNat
  if frame.format = v4l2PixFmtYuyv then
    let stride := if frame.stride ≠ 0 then frame.stride else frame.width * 2
    let i420 ← yuyvToI420 data stride.toNat 0 luma (luma + luma / 4) width.toNat height.toNat i420
    readPlanes i420 0 luma (luma + luma / 4) width.toNat height.toNat
  else
    let yStride := if frame.stride ≠ 0 then frame.stride else width
    let chromaPlane := (yStride / 2).toNat * (height / 2).toNat
    let srcU := yStride.toNat * height.toNat
    let srcV := srcU + chromaPlane
    if yStride = width then readPlanes data 0 srcU srcV width.toNat height.toNat
    else
      let i420 ← i420Copy data 0 yStride.toNat srcU srcV 0 luma (luma + luma / 4) width.toNat
        height.toNat i420
      readPlanes i420 0 luma (luma + luma / 4) width.toNat height.toNat

end Camstream.Media
