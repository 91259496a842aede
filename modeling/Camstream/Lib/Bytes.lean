import Mathlib.Tactic
import Mathlib.Data.UInt
import Mathlib.Data.List.Infix

namespace Camstream.Lib

/-- A byte string: a buffer together with its length. -/
abbrev Bytes := List UInt8

/-- The byte at an index, 0 past the end. A model that reads through this
function states separately that the index is inside the buffer. -/
def byteAt (data : Bytes) (i : Nat) : UInt8 := data.getD i 0

/-- Big endian 16 bit value at an index, as a number. -/
def readBe16 (data : Bytes) (i : Nat) : Nat :=
  (byteAt data i).toNat * 256 + (byteAt data (i + 1)).toNat

/-- Big endian 32 bit value at an index, as a number. -/
def readBe32 (data : Bytes) (i : Nat) : Nat :=
  readBe16 data i * 65536 + readBe16 data (i + 2)

def writeBe16 (value : UInt16) : Bytes := [(value >>> 8).toUInt8, value.toUInt8]

def writeBe32 (value : UInt32) : Bytes :=
  [(value >>> 24).toUInt8, (value >>> 16).toUInt8, (value >>> 8).toUInt8, value.toUInt8]

@[simp] theorem writeBe16_length (v : UInt16) : (writeBe16 v).length = 2 := rfl

@[simp] theorem writeBe32_length (v : UInt32) : (writeBe32 v).length = 4 := rfl

theorem byteAt_drop (data : Bytes) (i k : Nat) : byteAt (data.drop i) k = byteAt data (i + k) := by
  simp [byteAt, List.getD_eq_getElem?_getD, List.getElem?_drop]

theorem byteAt_append_left {a : Bytes} (b : Bytes) {i : Nat} (h : i < a.length) :
    byteAt (a ++ b) i = byteAt a i := by
  simp [byteAt, List.getD_eq_getElem?_getD, List.getElem?_append_left h]

theorem byteAt_append_right (a b : Bytes) (i : Nat) : byteAt (a ++ b) (a.length + i) = byteAt b i := by
  simp [byteAt, List.getD_eq_getElem?_getD, List.getElem?_append_right]

theorem byteAt_take (data : Bytes) {i k : Nat} (h : i < k) :
    byteAt (data.take k) i = byteAt data i := by
  simp [byteAt, List.getD_eq_getElem?_getD, h]

/-- What `writeBe16` puts in front of a buffer is read back from it. -/
theorem readBe16_writeBe16 (v : UInt16) (rest : Bytes) :
    readBe16 (writeBe16 v ++ rest) 0 = v.toNat := by
  have hhigh : (v >>> 8).toUInt8.toNat = v.toNat / 256 := by
    have := v.toNat_lt
    simp [Nat.shiftRight_eq_div_pow]
    omega
  have hlow : v.toUInt8.toNat = v.toNat % 256 := by simp
  show (v >>> 8).toUInt8.toNat * 256 + v.toUInt8.toNat = _
  omega

theorem readBe16_lt (data : Bytes) (i : Nat) : readBe16 data i < 65536 := by
  have h0 := (byteAt data i).toNat_lt
  have h1 := (byteAt data (i + 1)).toNat_lt
  unfold readBe16
  omega

theorem readBe16_append_left {a : Bytes} (b : Bytes) {i : Nat} (h : i + 2 ≤ a.length) :
    readBe16 (a ++ b) i = readBe16 a i := by
  unfold readBe16
  rw [byteAt_append_left b (by omega), byteAt_append_left b (by omega)]

theorem readBe16_append_right (a b : Bytes) (i : Nat) :
    readBe16 (a ++ b) (a.length + i) = readBe16 b i := by
  simp only [readBe16, Nat.add_assoc, byteAt_append_right]

theorem readBe16_drop (data : Bytes) (i k : Nat) :
    readBe16 (data.drop i) k = readBe16 data (i + k) := by
  simp only [readBe16, byteAt_drop, Nat.add_assoc]

theorem readBe32_append_right (a b : Bytes) (i : Nat) :
    readBe32 (a ++ b) (a.length + i) = readBe32 b i := by
  simp only [readBe32, Nat.add_assoc, readBe16_append_right]

theorem readBe32_writeBe32 (v : UInt32) (rest : Bytes) :
    readBe32 (writeBe32 v ++ rest) 0 = v.toNat := by
  have hv := v.toNat_lt
  have h0 : (v >>> 24).toUInt8.toNat = v.toNat / 16777216 % 256 := by
    simp [Nat.shiftRight_eq_div_pow]
  have h1 : (v >>> 16).toUInt8.toNat = v.toNat / 65536 % 256 := by
    simp [Nat.shiftRight_eq_div_pow]
  have h2 : (v >>> 8).toUInt8.toNat = v.toNat / 256 % 256 := by
    simp [Nat.shiftRight_eq_div_pow]
  have h3 : v.toUInt8.toNat = v.toNat % 256 := by simp
  change ((v >>> 24).toUInt8.toNat * 256 + (v >>> 16).toUInt8.toNat) * 65536 +
    ((v >>> 8).toUInt8.toNat * 256 + v.toUInt8.toNat) = _
  omega

/-- A byte left in the buffer can be named. -/
theorem drop_one {data : Bytes} {i : Nat} (h : i < data.length) :
    data.drop i = byteAt data i :: data.drop (i + 1) := by
  rw [List.drop_eq_getElem_cons h]
  simp [byteAt, List.getD_eq_getElem?_getD, List.getElem?_eq_getElem h]

theorem drop_three {data : Bytes} {i : Nat} (h : i + 3 ≤ data.length) :
    data.drop i = byteAt data i :: byteAt data (i + 1) :: byteAt data (i + 2) ::
      data.drop (i + 3) := by
  rw [drop_one (i := i) (by omega), drop_one (i := i + 1) (by omega),
    drop_one (i := i + 2) (by omega)]

end Camstream.Lib
