import Camstream.Lib.Writes
import Camstream.Lib.CText

namespace Camstream.App
open Lib

/-! The texts here are what is left of a buffer from a pointer on. A read behind the end of the
buffer, which ends with the terminator, gives `none`. -/

def isBlank (c : UInt8) : Bool := c == 32 || c == 9 || c == 13 || c == 10

def skipBlanks : Bytes → Option Bytes
  | [] => none
  | c :: rest => if isBlank c then skipBlanks rest else some (c :: rest)

/-- `strstr(text, pattern)`: the text from the first match on, for a pattern that is not empty. -/
def strstr (pattern : Bytes) : Bytes → Option Bytes
  | [] => none
  | c :: rest =>
    if pattern.isPrefixOf (c :: rest) then some (c :: rest)
    else if c = 0 then none
    else strstr pattern rest

/-- `strtol(text, NULL, 16)`. -/
def strtolHex (text : Bytes) : Int :=
  let (negative, rest) := skipSign text
  let n : Int := digitsValue 16 ((skipHexMark rest).takeWhile isHexByte)
  if negative then max (-n) (-(2 ^ 63)) else min n (2 ^ 63 - 1)

/-- Up to four bytes behind `\u`, none of them the terminator. -/
def takeHex : Nat → Bytes → Option (Bytes × Bytes)
  | 0, text => some ([], text)
  | _ + 1, [] => none
  | n + 1, c :: rest =>
    if c = 0 then some ([], c :: rest)
    else (takeHex n rest).map fun taken => (c :: taken.1, taken.2)

def unicodeByte (hex : Bytes) : UInt8 :=
  let code := strtolHex hex
  if 0 < code ∧ code < 128 then UInt8.ofNat code.toNat else 63

def escapedByte (c : UInt8) : UInt8 :=
  if c = 110 then 10 else if c = 114 then 13 else if c = 116 then 9 else c

/-- One turn of the loop that decodes a value: the byte it gives, and the text behind. -/
def decodeChar : Bytes → Option (UInt8 × Bytes)
  | [] => none
  | c :: rest =>
    if c = 92 then
      match rest with
      | [] => none
      | e :: rest =>
        if e = 117 then (takeHex 4 rest).map fun taken => (unicodeByte taken.1, taken.2)
        else some (escapedByte e, rest)
    else some (c, rest)

theorem takeHex_shorter {n : Nat} {text : Bytes} {taken : Bytes × Bytes}
    (h : takeHex n text = some taken) : taken.2.length ≤ text.length := by
  induction n generalizing text taken with
  | zero =>
    cases h
    exact Nat.le_refl _
  | succ n ih =>
    cases text with
    | nil => cases h
    | cons c rest =>
      unfold takeHex at h
      split at h
      · cases h
        exact Nat.le_refl _
      · obtain ⟨later, hlater, heq⟩ := Option.map_eq_some_iff.mp h
        subst heq
        have hle : later.2.length ≤ rest.length := ih hlater
        exact Nat.le_succ_of_le hle

theorem decodeChar_shorter {text : Bytes} {decoded : UInt8 × Bytes}
    (h : decodeChar text = some decoded) : decoded.2.length < text.length := by
  cases text with
  | nil => cases h
  | cons c rest =>
    unfold decodeChar at h
    dsimp only at h
    split at h
    · cases rest with
      | nil => cases h
      | cons e rest =>
        dsimp only at h
        split at h
        · obtain ⟨taken, htaken, heq⟩ := Option.map_eq_some_iff.mp h
          subst heq
          have hle := takeHex_shorter htaken
          simp only [List.length_cons]
          omega
        · cases h
          simp only [List.length_cons]
          omega
    · cases h
      exact Nat.lt_succ_self _

/-- The loop over a value, from behind its opening quote: the result and the buffer `out`. -/
def copyValue (out : Bytes) (written : Nat) (text : Bytes) : Option (Int × Bytes) :=
  match text with
  | [] => none
  | c :: rest =>
    if c = 0 then some (-1, out)
    else if c = 34 then (storeByte out written 0).map fun out => (0, out)
    else
      match _h : decodeChar (c :: rest) with
      | none => none
      | some decoded =>
        if written + 1 ≥ out.length then some (-1, out)
        else
          match storeByte out written decoded.1 with
          | none => none
          | some out => copyValue out (written + 1) decoded.2
termination_by text.length
decreasing_by exact decodeChar_shorter _h

/-- What stands behind a name, and the value of the field when it is a string. -/
def fieldValue (out behind : Bytes) : Option (Option (Int × Bytes)) := do
  let colon ← skipBlanks behind
  if colon.head? ≠ some 58 then pure none
  else
    let value ← skipBlanks colon.tail
    if value.head? ≠ some 34 then pure (some (-1, out))
    else
      let result ← copyValue out 0 value.tail
      pure (some result)

/-- The loop over the places where the name stands in the body. -/
def fieldLoop (pattern out : Bytes) : Bytes → Option (Int × Bytes)
  | [] => none
  | c :: rest =>
    if pattern.isPrefixOf (c :: rest) then do
      match ← fieldValue out ((c :: rest).drop pattern.length) with
      | some result => pure result
      | none => fieldLoop pattern out rest
    else if c = 0 then some (-1, out)
    else fieldLoop pattern out rest

/-- `json_get_string`: the result and the buffer `out`. -/
def jsonGetString (body field out : Bytes) : Option (Int × Bytes) :=
  let pattern := 34 :: (field ++ [34])
  if pattern.length ≥ 64 then some (-1, out) else fieldLoop pattern out body

end Camstream.App
