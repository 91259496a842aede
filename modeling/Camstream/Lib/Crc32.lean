import Camstream.Lib.Bytes

namespace Camstream.Lib.Crc32
open Lib

/-- The register of the division by the reflected generator moves on by one bit. -/
def shift (crc : UInt32) : UInt32 :=
  if crc &&& 1 ≠ 0 then (crc >>> 1) ^^^ 0xEDB88320 else crc >>> 1

/-- One bit of the message enters the register. -/
def step (crc : UInt32) (bit : Bool) : UInt32 := shift (crc ^^^ if bit then 1 else 0)

/-- The lowest `n` bits, the least significant one first. -/
def bits : Nat → UInt32 → List Bool
  | 0, _ => []
  | n + 1, value => decide (value &&& 1 ≠ 0) :: bits n (value >>> 1)

/-- CRC-32 of ISO 3309 (ITU-T V.42), bit by bit. -/
def crc32 (data : Bytes) : UInt32 :=
  (data.flatMap fun (b : UInt8) => bits 8 b.toUInt32).foldl step 0xFFFFFFFF ^^^ 0xFFFFFFFF

/-- The same with a table of the registers that a byte leads to. -/
def byTable (entry : UInt32 → UInt32) (crc : UInt32) (b : UInt8) : UInt32 :=
  entry ((crc ^^^ b.toUInt32) &&& 0xFF) ^^^ (crc >>> 8)

theorem low_bit (crc : UInt32) : crc &&& 1 ≠ 0 ↔ crc.toNat.testBit 0 = true := by
  rw [Ne, ← UInt32.toNat_inj, UInt32.toNat_and]
  change ¬ crc.toNat &&& 1 = 0 ↔ _
  rw [Nat.and_one_is_mod, Nat.testBit_zero, decide_eq_true_eq]
  omega

/-- The division is linear. -/
theorem shift_xor (a b : UInt32) : shift (a ^^^ b) = shift a ^^^ shift b := by
  have hlow : (a ^^^ b).toNat.testBit 0 = (a.toNat.testBit 0 ^^ b.toNat.testBit 0) := by
    rw [UInt32.toNat_xor, Nat.testBit_xor]
  simp only [shift, low_bit, hlow, UInt32.shiftRight_xor]
  cases a.toNat.testBit 0 <;> cases b.toNat.testBit 0
  · rfl
  · exact UInt32.xor_assoc _ _ _
  · rw [UInt32.xor_assoc, UInt32.xor_comm (b >>> 1), ← UInt32.xor_assoc]
    rfl
  · have hcancel : ∀ x y p : UInt32, x ^^^ p ^^^ (y ^^^ p) = x ^^^ y := by
      intro x y p
      rw [UInt32.xor_comm y p, UInt32.xor_assoc, ← UInt32.xor_assoc p p y, UInt32.xor_self,
        UInt32.zero_xor]
    exact (hcancel _ _ _).symm

theorem shifts_xor (n : Nat) (a b : UInt32) : shift^[n] (a ^^^ b) = shift^[n] a ^^^ shift^[n] b := by
  induction n generalizing a b with
  | zero => rfl
  | succ n ih => rw [Function.iterate_succ_apply, shift_xor, ih]; rfl

/-- A register whose lowest bits are clear only moves down. -/
theorem shifts_clear (n : Nat) (crc : UInt32) (h : crc.toNat % 2 ^ n = 0) :
    (shift^[n] crc).toNat = crc.toNat / 2 ^ n := by
  induction n generalizing crc with
  | zero => simp
  | succ n ih =>
    have hpow : (2 : Nat) ^ (n + 1) = 2 * 2 ^ n := by rw [Nat.pow_succ, Nat.mul_comm]
    rw [hpow, Nat.mod_mul] at h
    have hclear : ¬ crc &&& 1 ≠ 0 := by
      rw [low_bit, Nat.testBit_zero, decide_eq_true_eq]
      omega
    have hhalf : (crc >>> 1).toNat = crc.toNat / 2 := by
      rw [UInt32.toNat_shiftRight]
      exact Nat.shiftRight_eq_div_pow _ _
    have hrest : crc.toNat / 2 % 2 ^ n = 0 := by
      by_contra hne
      have := Nat.pos_of_ne_zero hne
      omega
    rw [Function.iterate_succ_apply, shift, if_neg hclear, ih _ (by rw [hhalf]; exact hrest), hhalf,
      hpow, Nat.div_div_eq_div_mul]

/-- The low bits run through the register, the others move down. -/
theorem shifts_split (n : Nat) (crc low : UInt32) (hlow : low.toNat = crc.toNat % 2 ^ n) :
    shift^[n] crc = shift^[n] low ^^^ UInt32.ofNat (crc.toNat / 2 ^ n) := by
  have hle : crc.toNat / 2 ^ n * 2 ^ n ≤ crc.toNat := Nat.div_mul_le_self _ _
  have hlt := crc.toNat_lt
  have hhigh : (UInt32.ofNat (crc.toNat / 2 ^ n * 2 ^ n)).toNat = crc.toNat / 2 ^ n * 2 ^ n :=
    UInt32.toNat_ofNat_of_lt' (Nat.lt_of_le_of_lt hle hlt)
  have hmoved : shift^[n] (UInt32.ofNat (crc.toNat / 2 ^ n * 2 ^ n)) =
      UInt32.ofNat (crc.toNat / 2 ^ n) := by
    rw [← UInt32.toNat_inj, shifts_clear n _ (by rw [hhigh, Nat.mul_mod_left]), hhigh,
      Nat.mul_div_cancel _ (Nat.two_pow_pos n),
      UInt32.toNat_ofNat_of_lt' (Nat.lt_of_le_of_lt (Nat.div_le_self _ _) hlt)]
  have hsplit : crc = low ^^^ UInt32.ofNat (crc.toNat / 2 ^ n * 2 ^ n) := by
    rw [← UInt32.toNat_inj, UInt32.toNat_xor, hlow, hhigh]
    refine Nat.eq_of_testBit_eq fun i => ?_
    rw [Nat.testBit_xor, Nat.testBit_mod_two_pow, Nat.testBit_mul_two_pow, Nat.testBit_div_two_pow]
    by_cases hi : i < n
    · simp [hi, Nat.not_le.mpr hi]
    · simp [hi, Nat.le_of_not_lt hi]
  conv_lhs => rw [hsplit]
  rw [shifts_xor, hmoved]

theorem shiftRight_eq (value : UInt32) {n : UInt32} (hn : n.toNat < 32) :
    value >>> n = UInt32.ofNat (value.toNat / 2 ^ n.toNat) := by
  rw [← UInt32.toNat_inj, UInt32.toNat_shiftRight, Nat.mod_eq_of_lt hn, Nat.shiftRight_eq_div_pow,
    UInt32.toNat_ofNat_of_lt' (Nat.lt_of_le_of_lt (Nat.div_le_self _ _) value.toNat_lt)]

theorem step_eq (crc value : UInt32) :
    shift (crc ^^^ value) = step crc (decide (value &&& 1 ≠ 0)) ^^^ (value >>> 1) := by
  have hlow : (if decide (value &&& 1 ≠ 0) = true then (1 : UInt32) else 0).toNat =
      value.toNat % 2 ^ 1 := by
    have hiff := low_bit value
    rw [Nat.testBit_zero, decide_eq_true_eq] at hiff
    by_cases hbit : value &&& 1 ≠ 0
    · rw [decide_eq_true hbit, Nat.pow_one, hiff.mp hbit]
      rfl
    · rw [decide_eq_false hbit, Nat.pow_one, Nat.mod_two_not_eq_one.mp fun h => hbit (hiff.mpr h)]
      rfl
  have hsplit := shifts_split 1 value _ hlow
  rw [step, shift_xor, shift_xor, UInt32.xor_assoc, shiftRight_eq value (by decide)]
  congr 1

/-- A value enters bit by bit, or all at once. -/
theorem bits_fold (n : Nat) (crc value : UInt32) (h : value.toNat < 2 ^ n) :
    (bits n value).foldl step crc = shift^[n] (crc ^^^ value) := by
  induction n generalizing crc value with
  | zero =>
    have hzero : value = 0 := UInt32.toNat_inj.mp (by simpa using h)
    rw [hzero, UInt32.xor_zero]
    rfl
  | succ n ih =>
    have hhalf : (value >>> 1).toNat = value.toNat / 2 := by
      rw [UInt32.toNat_shiftRight]
      exact Nat.shiftRight_eq_div_pow _ _
    rw [bits, List.foldl_cons, ih _ _ (by rw [hhalf, Nat.div_lt_iff_lt_mul Nat.two_pos]; exact h),
      ← step_eq]
    rfl

/-- The table holds the registers after eight bits. -/
theorem byTable_eq (crc : UInt32) (b : UInt8) :
    byTable (shift^[8]) crc b = (bits 8 b.toUInt32).foldl step crc := by
  have hb : b.toUInt32.toNat < 2 ^ 8 := b.toNat_lt
  have hmask : ((crc ^^^ b.toUInt32) &&& 0xFF).toNat = (crc ^^^ b.toUInt32).toNat % 2 ^ 8 := by
    rw [UInt32.toNat_and]
    exact Nat.and_two_pow_sub_one_eq_mod _ 8
  have hup : b.toUInt32 >>> 8 = 0 := by
    rw [shiftRight_eq _ (by decide)]
    exact congrArg UInt32.ofNat (Nat.div_eq_of_lt hb)
  have hdown : crc >>> 8 = UInt32.ofNat ((crc ^^^ b.toUInt32).toNat / 2 ^ 8) := by
    have h := shiftRight_eq (crc ^^^ b.toUInt32) (n := 8) (by decide)
    rw [UInt32.shiftRight_xor, hup, UInt32.xor_zero] at h
    exact h
  rw [bits_fold 8 crc _ hb, shifts_split 8 _ _ hmask, byTable, hdown]

theorem crc32_byTable (data : Bytes) :
    data.foldl (byTable (shift^[8])) 0xFFFFFFFF ^^^ 0xFFFFFFFF = crc32 data := by
  unfold crc32
  congr 1
  generalize (0xFFFFFFFF : UInt32) = crc
  induction data generalizing crc with
  | nil => rfl
  | cons b data ih => rw [List.foldl_cons, List.flatMap_cons, List.foldl_append, ih, byTable_eq]

/-- The check value of the catalogue: "123456789". -/
example : crc32 [49, 50, 51, 52, 53, 54, 55, 56, 57] = 0xCBF43926 := by decide +kernel

end Camstream.Lib.Crc32
