import Camstream.Lib.Writes
import Camstream.Webrtc.IceLite

namespace Camstream.Webrtc
open Lib

/-- `g_crc32_table` and `g_crc32_once`. -/
structure CrcMemory where
  table : List UInt32
  once : Bool
deriving Repr, DecidableEq

/-- As the program starts. -/
def crcMemory : CrcMemory := ⟨List.replicate 256 0, false⟩

/-- One turn of the outer loop. A store outside of the table is none. -/
def storeCrcEntry (i : Nat) (table : List UInt32) : Option (List UInt32) :=
  if i < table.length then some (table.set i (crc32Bit^[8] (UInt32.ofNat i))) else none

def initCrc32Table (table : List UInt32) : Option (List UInt32) := forRange 256 storeCrcEntry table

/-- `pthread_once(&g_crc32_once, init_crc32_table)`. -/
def crcOnce (m : CrcMemory) : Option CrcMemory :=
  if m.once then some m else (initCrc32Table m.table).map fun table => ⟨table, true⟩

/-- One byte of the loop of `crc32_stun`, with a lookup that may leave the table. -/
def crcByte (table : List UInt32) (crc : UInt32) (b : UInt8) : Option UInt32 :=
  (table[((crc ^^^ b.toUInt32) &&& 0xFF).toNat]?).map fun entry => entry ^^^ (crc >>> 8)

/-- `crc32_stun` with its table: the result and the memory afterwards. -/
def crc32StunIn (m : CrcMemory) (data : Bytes) : Option (UInt32 × CrcMemory) := do
  let m ← crcOnce m
  let crc ← data.foldlM (crcByte m.table) 0xFFFFFFFF
  pure (crc ^^^ 0xFFFFFFFF, m)

end Camstream.Webrtc
