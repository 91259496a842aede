import Camstream.Media.FramePool

namespace Camstream.Media

def v4l2PixFmtYuv420 : UInt32 := 0x32315559

/-- What a source says about its frames. -/
structure VideoSource where
  width : UInt32
  height : UInt32
  fps : UInt32
  stride : UInt32
  format : UInt32
  frameSize : Nat
deriving Repr, DecidableEq

def validGeometry (width height fps : UInt32) : Bool :=
  !(fps == 0 || width < 16 || height < 16 || width &&& 1 != 0 || height &&& 1 != 0)

/-- The size is computed in 64 bits. -/
def sourceAlloc (width height fps stride : UInt32) : VideoSource :=
  { width, height, fps, stride, format := v4l2PixFmtYuv420
    frameSize := stride.toNat * height.toNat * 3 % 2 ^ 64 / 2 }

/-- `usable` says that no other program has the camera and that a binary was found. -/
def csiSourceCreate (width height fps : UInt32) (usable : Bool) : Option VideoSource :=
  if !validGeometry width height fps then none
  else if !usable then none
  else some (sourceAlloc width height fps ((width + 63) &&& ~~~63))

def stdinSourceCreate (width height fps : UInt32) : Option VideoSource :=
  if !validGeometry width height fps then none
  else some (sourceAlloc width height fps width)

/-- A complete frame, as the source worker publishes it. -/
def VideoSource.frame (source : VideoSource) (sequence timestampUs : UInt64) : FrameInfo :=
  { width := source.width, height := source.height, format := source.format
    stride := source.stride, size := source.frameSize, sequence, timestampUs }

end Camstream.Media
