import Camstream.Lib.Bytes
import Mathlib.Data.List.TakeWhile

namespace Camstream.Lib

/-- The bytes of a string literal. -/
def ascii (text : String) : Bytes := text.toList.map fun c => UInt8.ofNat c.toNat

/-- The C string at the start of a buffer: everything before the first NUL. -/
def cString (buffer : Bytes) : Bytes := buffer.takeWhile (· ≠ 0)

/-- What `%s` into a buffer of `size` bytes leaves of a C string. -/
def copyTo (size : Nat) (text : Bytes) : Bytes := text.take (size - 1)

/-- `strstr(text, needle) != NULL`. -/
def containsText (text needle : Bytes) : Bool := text.tails.any needle.isPrefixOf

theorem containsText_iff {text needle : Bytes} :
    containsText text needle = true ↔ needle <:+: text := by
  simp [containsText, List.infix_iff_prefix_suffix, and_comm]

/-- `tolower` of an ASCII letter. -/
def lowerByte (c : UInt8) : UInt8 := if 65 ≤ c ∧ c ≤ 90 then c + 32 else c

/-- `toupper` of an ASCII letter. -/
def upperByte (c : UInt8) : UInt8 := if 97 ≤ c ∧ c ≤ 122 then c - 32 else c

/-- `strcasecmp(a, b) == 0`, for the C strings at the start of two buffers. -/
def sameText (a b : Bytes) : Bool := (cString a).map lowerByte == (cString b).map lowerByte

def isSpaceByte (c : UInt8) : Bool := c == 32 || (decide (9 ≤ c) && decide (c ≤ 13))

def isDigitByte (c : UInt8) : Bool := decide (48 ≤ c) && decide (c ≤ 57)

def isHexByte (c : UInt8) : Bool :=
  isDigitByte c || (decide (65 ≤ c) && decide (c ≤ 70)) || (decide (97 ≤ c) && decide (c ≤ 102))

def isAlphaByte (c : UInt8) : Bool :=
  (decide (65 ≤ c) && decide (c ≤ 90)) || (decide (97 ≤ c) && decide (c ≤ 122))

def isAlnumByte (c : UInt8) : Bool := isAlphaByte c || isDigitByte c

/-- The number a digit byte stands for, in any base up to 16. -/
def digitValue (c : UInt8) : Nat :=
  if isDigitByte c then c.toNat - 48 else if c < 97 then c.toNat - 55 else c.toNat - 87

/-- White space and a sign in front of a number: whether it is negative, and the
text behind. -/
def skipSign (text : Bytes) : Bool × Bytes :=
  match text.dropWhile isSpaceByte with
  | 45 :: rest => (true, rest)
  | 43 :: rest => (false, rest)
  | rest => (false, rest)

def digitsValue (base : Nat) (digits : Bytes) : Nat :=
  digits.foldl (fun n c => n * base + digitValue c) 0

/-- `(int) strtol(text, NULL, 10)`. -/
def atoi (text : Bytes) : Int :=
  let (negative, rest) := skipSign text
  let n : Int := digitsValue 10 (rest.takeWhile isDigitByte)
  (if negative then max (-n) (-(2 ^ 63)) else min n (2 ^ 63 - 1)).bmod (2 ^ 32)

/-- A `0x` counts only when a hexadecimal digit follows it. -/
def skipHexMark (text : Bytes) : Bytes :=
  match text with
  | 48 :: x :: d :: rest => if (x == 120 || x == 88) && isHexByte d then d :: rest else text
  | _ => text

/-- `strtoul(text, NULL, 16)`. -/
def strtoulHex (text : Bytes) : UInt64 :=
  let (negative, rest) := skipSign text
  let n := digitsValue 16 ((skipHexMark rest).takeWhile isHexByte)
  if n ≥ 2 ^ 64 then 0xFFFFFFFFFFFFFFFF
  else if negative then -UInt64.ofNat n else UInt64.ofNat n

/-- The bytes that a text of hexadecimal digits stands for, two digits to a byte. -/
def hexBytes : Bytes → Option Bytes
  | [] => some []
  | [_] => none
  | a :: b :: rest =>
    if isHexByte a && isHexByte b then
      (hexBytes rest).map (UInt8.ofNat (digitValue a * 16 + digitValue b) :: ·)
    else none

/-- `%u` of a number. -/
def decimal (n : Nat) : Bytes := (Nat.toDigits 10 n).map fun c => UInt8.ofNat c.toNat

/-- `%d` of a number. -/
def signedDecimal (n : Int) : Bytes := if n < 0 then 45 :: decimal n.natAbs else decimal n.natAbs

theorem decimal_digits (n : Nat) : ∀ c ∈ decimal n, isDigitByte c = true := by
  intro c hc
  obtain ⟨d, hd, rfl⟩ := List.mem_map.mp hc
  have hdigit := Nat.isDigit_of_mem_toDigits (by decide) (by decide) hd
  simp only [Char.isDigit, Bool.and_eq_true, decide_eq_true_eq] at hdigit
  obtain ⟨hlow, hhigh⟩ := hdigit
  have hlow : 48 ≤ d.toNat := UInt32.le_iff_toNat_le.mp hlow
  have hhigh : d.toNat ≤ 57 := UInt32.le_iff_toNat_le.mp hhigh
  generalize d.toNat = k at hlow hhigh
  interval_cases k <;> rfl

/-- A C string in an array of `capacity` bytes. -/
structure Text (capacity : Nat) where
  bytes : Bytes
  fits : bytes.length < capacity
  clean : 0 ∉ bytes
deriving DecidableEq

theorem cString_clean (buffer : Bytes) : 0 ∉ cString buffer := fun h => by
  simpa using List.mem_takeWhile_imp h

theorem cString_nul (text rest : Bytes) : cString (text ++ 0 :: rest) = cString text := by
  induction text with
  | nil => rfl
  | cons c text ih =>
    unfold cString at ih ⊢
    rw [List.cons_append, List.takeWhile_cons, List.takeWhile_cons, ih]

theorem cString_append {marker : Bytes} (h : 0 ∉ marker) (value : Bytes) :
    cString (marker ++ value) = marker ++ cString value := by
  refine List.takeWhile_append_of_pos fun c hc => ?_
  simp only [ne_eq, decide_not, Bool.not_eq_true', decide_eq_false_iff_not]
  exact fun heq => h (heq ▸ hc)

instance smallArray : NeZero 64 := ⟨by decide⟩

instance largeArray : NeZero 256 := ⟨by decide⟩

/-- `snprintf(array, capacity, "%s", text)`. -/
def printText {capacity : Nat} [NeZero capacity] (text : Bytes) : Text capacity where
  bytes := copyTo capacity (cString text)
  fits := by
    have hpos := NeZero.pos capacity
    have hle := List.length_take_le (capacity - 1) (cString text)
    unfold copyTo
    omega
  clean := fun h => cString_clean text (List.mem_of_mem_take h)

end Camstream.Lib
