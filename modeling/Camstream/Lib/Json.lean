import Camstream.Lib.CText

namespace Camstream.Lib

/-! Some of the JSON texts: those without white space between the parts, whose values are
strings, natural numbers, arrays and objects. Bytes from 128 on are parts of longer characters
and stand for themselves. -/

/-- The letters of the short escapes. -/
def escapeLetters : Bytes := [34, 92, 47, 98, 102, 110, 114, 116]

/-- One character of a JSON string. -/
inductive JsonCharacter : Bytes → Prop
  | plain {c : UInt8} : 32 ≤ c → c ≠ 34 → c ≠ 92 → JsonCharacter [c]
  | escaped {c : UInt8} : c ∈ escapeLetters → JsonCharacter [92, c]

inductive JsonString : Bytes → Prop
  | quoted {pieces : List Bytes} : (∀ piece ∈ pieces, JsonCharacter piece) →
    JsonString (34 :: (pieces.flatten ++ [34]))

/-- Texts with commas between them. -/
def joined (texts : List Bytes) : Bytes := (texts.intersperse [44]).flatten

inductive JsonText : Bytes → Prop
  | string {text : Bytes} : JsonString text → JsonText text
  | number (n : Nat) : JsonText (decimal n)
  | array {items : List Bytes} : (∀ item ∈ items, JsonText item) →
    JsonText (91 :: (joined items ++ [93]))
  | object {members : List (Bytes × Bytes)} : (∀ member ∈ members, JsonString member.1) →
    (∀ member ∈ members, JsonText member.2) →
    JsonText (123 :: (joined (members.map fun member => member.1 ++ 58 :: member.2) ++ [125]))

@[simp] theorem joined_nil : joined [] = [] := rfl

@[simp] theorem joined_singleton (text : Bytes) : joined [text] = text := by simp [joined]

theorem joined_cons_cons (a b : Bytes) (texts : List Bytes) :
    joined (a :: b :: texts) = a ++ 44 :: joined (b :: texts) := by
  simp [joined]

theorem joined_cons (text : Bytes) (texts : List Bytes) :
    joined (text :: texts) = text ++ texts.flatMap (44 :: ·) := by
  induction texts generalizing text with
  | nil => simp
  | cons b texts ih => rw [joined_cons_cons, ih, List.flatMap_cons, List.cons_append]

/-- A number is read back from its digits. -/
theorem digitsValue_decimal (n : Nat) : digitsValue 10 (decimal n) = n := by
  have hdigit : ∀ d < 10, digitValue (UInt8.ofNat d.digitChar.toNat) = d := by decide
  induction n using Nat.strongRecOn with
  | _ n ih =>
    by_cases hsmall : n < 10
    · rw [decimal, Nat.toDigits_of_lt_base hsmall]
      exact (congrArg (0 * 10 + ·) (hdigit n hsmall)).trans (Nat.zero_add n)
    · have hrest := ih (n / 10) (by omega)
      have hlast := hdigit (n % 10) (Nat.mod_lt n (by decide))
      rw [decimal, Nat.toDigits_of_base_le (by decide) (Nat.not_lt.mp hsmall), List.map_append,
        digitsValue, List.foldl_append]
      rw [decimal, digitsValue] at hrest
      rw [hrest]
      change n / 10 * 10 + digitValue (UInt8.ofNat (n % 10).digitChar.toNat) = n
      rw [hlast]
      omega

theorem decimal_injective {n m : Nat} (h : decimal n = decimal m) : n = m := by
  rw [← digitsValue_decimal n, h, digitsValue_decimal]

/-- A number ends where no digit follows. -/
theorem decimal_front {n m : Nat} {c d : UInt8} {x y : Bytes} (hc : isDigitByte c = false)
    (hd : isDigitByte d = false) (h : decimal n ++ c :: x = decimal m ++ d :: y) : n = m := by
  have hfront : ∀ {n : Nat} {c : UInt8} {x : Bytes}, isDigitByte c = false →
      (decimal n ++ c :: x).takeWhile isDigitByte = decimal n := by
    intro n c x hc
    rw [List.takeWhile_append_of_pos (decimal_digits n), List.takeWhile_cons_of_neg (by simp [hc]),
      List.append_nil]
  apply decimal_injective
  rw [← hfront hc, h, hfront hd]

/-- The last text has its comma in front, or every other one has its own behind. -/
theorem joined_last (texts : List Bytes) (text : Bytes) :
    joined (texts ++ [text]) = texts.flatMap (· ++ [44]) ++ text := by
  induction texts with
  | nil => simp
  | cons a texts ih =>
    obtain ⟨b, more, hmore⟩ : ∃ b more, texts ++ [text] = b :: more :=
      List.exists_cons_of_ne_nil (by simp)
    rw [List.cons_append, hmore, joined_cons_cons, ← hmore, ih, List.flatMap_cons]
    simp

theorem mem_joined {texts : List Bytes} {c : UInt8} (h : c ∈ joined texts) :
    c = 44 ∨ ∃ text ∈ texts, c ∈ text := by
  induction texts with
  | nil => cases h
  | cons a texts ih =>
    cases texts with
    | nil => exact .inr ⟨a, by simp, by simpa using h⟩
    | cons b texts =>
      rw [joined_cons_cons] at h
      cases List.mem_append.mp h with
      | inl hfirst => exact .inr ⟨a, by simp, hfirst⟩
      | inr hrest =>
        cases List.mem_cons.mp hrest with
        | inl hcomma => exact .inl hcomma
        | inr hlater =>
          cases ih hlater with
          | inl hcomma => exact .inl hcomma
          | inr hmem =>
            obtain ⟨text, htext, hc⟩ := hmem
            exact .inr ⟨text, List.mem_cons_of_mem a htext, hc⟩

/-- A comma stands in front of every text but the first. -/
theorem joined_concat (texts : List Bytes) (text : Bytes) :
    joined (texts ++ [text]) = joined texts ++ ((if texts.length > 0 then [44] else []) ++ text) := by
  induction texts with
  | nil => simp
  | cons a texts ih =>
    cases texts with
    | nil => simp [joined]
    | cons b texts =>
      rw [List.cons_append, List.cons_append, joined_cons_cons, joined_cons_cons, ← List.cons_append,
        ih]
      simp

theorem joined_length_le (texts more : List Bytes) :
    (joined texts).length ≤ (joined (texts ++ more)).length := by
  induction more generalizing texts with
  | nil => rw [List.append_nil]
  | cons text more ih =>
    have hstep := ih (texts ++ [text])
    rw [List.append_assoc, List.singleton_append, joined_concat, List.length_append] at hstep
    omega

theorem joined_length_ge (texts more : List Bytes) :
    (joined more).length ≤ (joined (texts ++ more)).length := by
  induction texts with
  | nil => exact Nat.le_refl _
  | cons text texts ih =>
    cases hrest : texts ++ more with
    | nil =>
      rw [(List.append_eq_nil_iff.mp hrest).2]
      exact Nat.zero_le _
    | cons a rest =>
      rw [hrest] at ih
      rw [List.cons_append, hrest, joined_cons_cons, List.length_append, List.length_cons]
      omega

theorem JsonCharacter.clean {piece : Bytes} (h : JsonCharacter piece) : 0 ∉ piece := by
  cases h with
  | plain hlow =>
    rw [List.mem_singleton]
    rintro rfl
    cases hlow
  | escaped hmem =>
    rw [List.mem_cons, List.mem_singleton, not_or]
    refine ⟨by decide, ?_⟩
    rintro rfl
    exact absurd hmem (by decide)

theorem JsonString.clean {text : Bytes} (h : JsonString text) : 0 ∉ text := by
  cases h with
  | quoted hpieces =>
    rw [List.mem_cons, List.mem_append, List.mem_singleton, List.mem_flatten]
    intro hzero
    obtain hfirst | hrest | hlast := hzero
    · cases hfirst
    · obtain ⟨piece, hpiece, hmem⟩ := hrest
      exact (hpieces piece hpiece).clean hmem
    · cases hlast

/-- No JSON text has a NUL in it. -/
theorem JsonText.clean {text : Bytes} (h : JsonText text) : 0 ∉ text := by
  induction h with
  | string h => exact h.clean
  | number n =>
    intro hzero
    cases decimal_digits n 0 hzero
  | array hitems ih =>
    rw [List.mem_cons, List.mem_append, List.mem_singleton]
    intro hzero
    obtain hfirst | hrest | hlast := hzero
    · cases hfirst
    · cases mem_joined hrest with
      | inl hcomma => cases hcomma
      | inr hitem =>
        obtain ⟨item, hmem, hc⟩ := hitem
        exact ih item hmem hc
    · cases hlast
  | object hnames hvalues ih =>
    rw [List.mem_cons, List.mem_append, List.mem_singleton]
    intro hzero
    obtain hfirst | hrest | hlast := hzero
    · cases hfirst
    · cases mem_joined hrest with
      | inl hcomma => cases hcomma
      | inr hmember =>
        obtain ⟨text, htext, hc⟩ := hmember
        obtain ⟨member, hmem, rfl⟩ := List.mem_map.mp htext
        cases List.mem_append.mp hc with
        | inl hname => exact (hnames member hmem).clean hname
        | inr hvalue =>
          cases List.mem_cons.mp hvalue with
          | inl hcolon => cases hcolon
          | inr hvalue => exact ih member hmem hvalue
    · cases hlast

/-- A string of single characters, each with its own text. -/
theorem jsonString_flatMap {value : Bytes} {f : UInt8 → Bytes}
    (hf : ∀ c ∈ value, JsonCharacter (f c)) : JsonString (34 :: (value.flatMap f ++ [34])) := by
  rw [List.flatMap_def]
  apply JsonString.quoted
  intro piece hpiece
  obtain ⟨c, hc, rfl⟩ := List.mem_map.mp hpiece
  exact hf c hc

end Camstream.Lib
