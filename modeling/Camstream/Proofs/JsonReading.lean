import Camstream.App.JsonReader

namespace Camstream.Proofs.JsonReading
open Lib App

/-! What stands in a body. -/

/-- The text of one character of a value. -/
inductive Character : Bytes → Prop
  | plain (c : UInt8) : c ≠ 34 → c ≠ 92 → Character [c]
  | escaped (e : UInt8) : e ≠ 117 → Character [92, e]
  | unicode (hex : Bytes) : hex.length = 4 → Character (92 :: 117 :: hex)

/-- A name in quotes, with a colon behind it. -/
def Named (pattern text after : Bytes) : Prop :=
  ∃ blanks : Bytes, (∀ c ∈ blanks, isBlank c = true) ∧ text = pattern ++ (blanks ++ 58 :: after)

/-- The first place where the name has a colon behind it is a field with a string, and `value`
is what stands behind the opening quote of that string. -/
inductive StringField (pattern : Bytes) : Bytes → Bytes → Prop
  | here {text after value : Bytes} (blanks : Bytes) : Named pattern text after →
    (∀ c ∈ blanks, isBlank c = true) → after = blanks ++ 34 :: value → StringField pattern text value
  | later {c : UInt8} {rest value : Bytes} : (∀ after, ¬ Named pattern (c :: rest) after) →
    StringField pattern rest value → StringField pattern (c :: rest) value

/-- The value is over with its first byte and there is no room for the terminator, or a
backslash ends it, behind characters that leave room for one more byte. -/
def Overruns (size written : Nat) (value : Bytes) : Prop :=
  (∃ rest, value = 34 :: rest ∧ size ≤ written) ∨
    ∃ pieces : List Bytes, (∀ piece ∈ pieces, Character piece) ∧
      value = pieces.flatten ++ [92] ∧ written + pieces.length + 1 < size

section Characters
variable {piece rest : Bytes}

theorem Character.ne_nil (h : Character piece) : piece ≠ [] := by
  cases h with
  | plain c => exact List.cons_ne_nil _ _
  | escaped e => exact List.cons_ne_nil _ _
  | unicode hex => exact List.cons_ne_nil _ _

theorem Character.not_quote (h : Character piece) : piece.head? ≠ some 34 := by
  cases h with
  | plain c hquote => simpa using hquote
  | escaped e => simp
  | unicode hex => simp

/-- The characters of a text are found one way only. -/
theorem character_unique {piece' rest' : Bytes} (h : Character piece) (h' : Character piece')
    (heq : piece ++ rest = piece' ++ rest') : piece = piece' ∧ rest = rest' := by
  have hlength : piece.length = piece'.length := by
    cases h with
    | plain c hquote hslash =>
      cases h' with
      | plain c' => rfl
      | escaped e => exact absurd (List.cons.inj heq).1 hslash
      | unicode hex => exact absurd (List.cons.inj heq).1 hslash
    | escaped e hu =>
      cases h' with
      | plain c' hquote hslash => exact absurd (List.cons.inj heq).1.symm hslash
      | escaped e' => rfl
      | unicode hex => exact absurd (List.cons.inj (List.cons.inj heq).2).1 hu
    | unicode hex hlen =>
      cases h' with
      | plain c' hquote hslash => exact absurd (List.cons.inj heq).1.symm hslash
      | escaped e hu => exact absurd (List.cons.inj (List.cons.inj heq).2).1.symm hu
      | unicode hex' hlen' => simp [hlen, hlen']
  exact List.append_inj heq hlength

theorem takeHex_four {hex : Bytes} (hlen : hex.length = 4) (hclean : 0 ∉ hex) (rest : Bytes) :
    takeHex 4 (hex ++ rest) = some (hex, rest) := by
  obtain ⟨a, b, c, d, rfl⟩ : ∃ a b c d, hex = [a, b, c, d] := List.length_eq_four.mp hlen
  have hne : a ≠ 0 ∧ b ≠ 0 ∧ c ≠ 0 ∧ d ≠ 0 := by
    simp only [List.mem_cons, List.not_mem_nil, or_false, not_or] at hclean
    obtain ⟨ha, hb, hc, hd⟩ := hclean
    exact ⟨fun h => ha h.symm, fun h => hb h.symm, fun h => hc h.symm, fun h => hd h.symm⟩
  simp [takeHex, hne]

/-- Fewer than four bytes, in front of the terminator. -/
theorem takeHex_short {hex : Bytes} {n : Nat} (hlen : hex.length < n) (hclean : 0 ∉ hex) :
    takeHex n (hex ++ [0]) = some (hex, [0]) := by
  induction hex generalizing n with
  | nil =>
    cases n with
    | zero => cases hlen
    | succ n => rfl
  | cons c hex ih =>
    cases n with
    | zero => cases hlen
    | succ n =>
      have hne : c ≠ 0 := fun h => hclean (by simp [h])
      have hrest := ih (Nat.lt_of_succ_lt_succ hlen) fun h => hclean (by simp [h])
      rw [List.cons_append, takeHex, if_neg hne, hrest]
      rfl

/-- A whole character is decoded as one. -/
theorem decodeChar_piece (h : Character piece) (hclean : 0 ∉ piece) (rest : Bytes) :
    ∃ decoded, decodeChar (piece ++ rest) = some (decoded, rest) := by
  cases h with
  | plain c hquote hslash =>
    refine ⟨c, ?_⟩
    simp [decodeChar, hslash]
  | escaped e hu =>
    refine ⟨escapedByte e, ?_⟩
    simp [decodeChar, hu]
  | unicode hex hlen =>
    refine ⟨unicodeByte hex, ?_⟩
    have hhex : 0 ∉ hex := fun h => hclean (by simp [h])
    simp [decodeChar, takeHex_four hlen hhex rest]

/-- A text that does not begin with a quote begins with a character, or breaks off within one. -/
theorem character_cases {value : Bytes} (hne : value ≠ []) (hquote : value.head? ≠ some 34) :
    (∃ piece rest, Character piece ∧ value = piece ++ rest) ∨ value = [92] ∨
      ∃ hex, hex.length < 4 ∧ value = 92 :: 117 :: hex := by
  cases value with
  | nil => exact absurd rfl hne
  | cons c rest =>
    have hc : c ≠ 34 := by simpa using hquote
    by_cases hslash : c = 92
    · subst hslash
      cases rest with
      | nil => exact .inr (.inl rfl)
      | cons e rest =>
        by_cases hu : e = 117
        · subst hu
          by_cases hshort : rest.length < 4
          · exact .inr (.inr ⟨rest, hshort, rfl⟩)
          · have hlen : (rest.take 4).length = 4 := by simp; omega
            refine .inl ⟨92 :: 117 :: rest.take 4, rest.drop 4, .unicode _ hlen, ?_⟩
            simp
        · exact .inl ⟨[92, e], rest, .escaped e hu, rfl⟩
    · exact .inl ⟨[c], rest, .plain c hc hslash, rfl⟩

end Characters

section Values
variable {out : Bytes} {written : Nat}

/-- One turn of the loop, on a character. -/
theorem copyValue_piece {piece rest : Bytes} {decoded : UInt8} (h : Character piece)
    (hclean : 0 ∉ piece) (hdecoded : decodeChar (piece ++ rest) = some (decoded, rest)) :
    copyValue out written (piece ++ rest) =
      if written + 1 ≥ out.length then some (-1, out)
      else (storeByte out written decoded).bind fun out => copyValue out (written + 1) rest := by
  obtain ⟨c, tail, rfl⟩ := List.exists_cons_of_ne_nil h.ne_nil
  have hquote : c ≠ 34 := by simpa using h.not_quote
  have hnul : c ≠ 0 := fun h => hclean (by simp [h])
  rw [List.cons_append] at hdecoded ⊢
  rw [copyValue, if_neg hnul, if_neg hquote]
  split
  · rename_i hnone
    rw [hdecoded] at hnone
    cases hnone
  · rename_i decoded' hsome
    rw [hdecoded] at hsome
    obtain rfl : (decoded, rest) = decoded' := Option.some.inj hsome
    split
    · rfl
    · cases storeByte out written decoded with
      | none => rfl
      | some out' => rfl

theorem copyValue_quote (rest : Bytes) :
    copyValue out written (34 :: rest) = (storeByte out written 0).map fun out => (0, out) := by
  rw [copyValue, if_neg (by decide), if_pos rfl]

theorem copyValue_nul (rest : Bytes) : copyValue out written (0 :: rest) = some (-1, out) := by
  rw [copyValue, if_pos rfl]

/-- A backslash in front of the terminator is taken for an escaped terminator. -/
theorem copyValue_backslash :
    copyValue out written [92, 0] =
      if written + 1 ≥ out.length then some (-1, out) else none := by
  have hlone : decodeChar [92, 0] = some (0, []) := rfl
  rw [copyValue, if_neg (by decide), if_neg (by decide)]
  split
  · rename_i hnone
    rw [hlone] at hnone
    cases hnone
  · rename_i decoded hsome
    rw [hlone] at hsome
    obtain rfl : ((0 : UInt8), ([] : Bytes)) = decoded := Option.some.inj hsome
    split
    · rfl
    · cases storeByte out written 0 with
      | none => rfl
      | some out' => exact copyValue.eq_1 _ _

/-- An escape that the end of the body cuts short ends the loop at the terminator. -/
theorem copyValue_short {hex : Bytes} (hlen : hex.length < 4) (hclean : 0 ∉ hex) :
    ∃ out', copyValue out written (92 :: 117 :: (hex ++ [0])) = some (-1, out') ∧
      out'.length = out.length := by
  have hshort : decodeChar (92 :: 117 :: (hex ++ [0])) = some (unicodeByte hex, [0]) := by
    simp [decodeChar, takeHex_short hlen hclean]
  rw [copyValue, if_neg (by decide), if_neg (by decide)]
  split
  · rename_i hnone
    rw [hshort] at hnone
    cases hnone
  · rename_i decoded hsome
    rw [hshort] at hsome
    obtain rfl : (unicodeByte hex, [0]) = decoded := Option.some.inj hsome
    split
    · exact ⟨out, rfl, rfl⟩
    · rename_i hroom
      have hstore : storeByte out written (unicodeByte hex) =
          some (out.set written (unicodeByte hex)) := if_pos (by omega)
      rw [hstore]
      dsimp only
      exact ⟨_, copyValue_nul [], by simp⟩

/-- Characters that fit are decoded one after the other. -/
theorem copyValue_pieces {pieces : List Bytes} {text : Bytes} {done : Bytes}
    (h : List.Forall₂ (fun piece c => Character piece ∧ 0 ∉ piece ∧
      ∀ rest, decodeChar (piece ++ rest) = some (c, rest)) pieces text) (rest : Bytes)
    (hroom : done.length + text.length < out.length) (hdone : done <+: out) :
    ∃ out', out'.length = out.length ∧ done ++ text <+: out' ∧
      copyValue out done.length (pieces.flatten ++ rest) =
        copyValue out' (done.length + text.length) rest := by
  induction h generalizing out done with
  | nil =>
    refine ⟨out, rfl, ?_, ?_⟩
    · rw [List.append_nil]
      exact hdone
    · rw [List.flatten_nil, List.nil_append, List.length_nil, Nat.add_zero]
  | @cons piece c pieces text hpiece hpieces ih =>
    obtain ⟨hcharacter, hclean, hdecoded⟩ := hpiece
    simp only [List.length_cons] at hroom
    obtain ⟨next, hstore, hsame, hfront⟩ := storeByte_front hdone (by omega) c
    have hroom' : (done ++ [c]).length + text.length < next.length := by
      simp only [List.length_append, List.length_singleton]
      omega
    obtain ⟨out', hlen, hstarts, hrest⟩ := ih hroom' hfront
    refine ⟨out', hlen.trans hsame, by simpa using hstarts, ?_⟩
    rw [List.flatten_cons, List.append_assoc, copyValue_piece hcharacter hclean (hdecoded _),
      if_neg (by omega), hstore, Option.bind_some]
    rw [List.length_append, List.length_singleton] at hrest
    rw [hrest, List.length_cons]
    congr 1
    omega

/-- The first character of a value plays no part in whether the others overrun. -/
theorem overruns_piece {size : Nat} {piece rest : Bytes} (h : Character piece)
    (hroom : written + 1 < size) :
    Overruns size written (piece ++ rest) ↔ Overruns size (written + 1) rest := by
  constructor
  · intro hover
    obtain ⟨tail, htail, -⟩ | ⟨pieces, hpieces, hvalue, hfit⟩ := hover
    · obtain ⟨c, cs, rfl⟩ := List.exists_cons_of_ne_nil h.ne_nil
      exact absurd (by simp [(List.cons.inj htail).1]) h.not_quote
    · cases pieces with
      | nil =>
        have hlone : piece ++ rest = [92] := by simpa using hvalue
        cases h with
        | plain c _ hslash => exact absurd (List.cons.inj hlone).1 hslash
        | escaped e => cases (List.cons.inj hlone).2
        | unicode hex => cases (List.cons.inj hlone).2
      | cons first pieces =>
        rw [List.flatten_cons, List.append_assoc] at hvalue
        obtain ⟨-, hrest⟩ := character_unique h (hpieces first (by simp)) hvalue
        refine .inr ⟨pieces, fun p hp => hpieces p (by simp [hp]), hrest, ?_⟩
        simp only [List.length_cons] at hfit
        omega
  · intro hover
    obtain ⟨tail, -, hfull⟩ | ⟨pieces, hpieces, hvalue, hfit⟩ := hover
    · omega
    · refine .inr ⟨piece :: pieces, ?_, ?_, ?_⟩
      · intro p hp
        cases List.mem_cons.mp hp with
        | inl hp => exact hp ▸ h
        | inr hp => exact hpieces p hp
      · rw [hvalue, List.flatten_cons, List.append_assoc]
      · simp only [List.length_cons]
        omega

/-- Without room for a byte of the first character there is no overrun. -/
theorem overruns_full {size : Nat} {value : Bytes} (hquote : value.head? ≠ some 34)
    (hroom : size ≤ written + 1) : ¬ Overruns size written value := by
  intro hover
  obtain ⟨tail, htail, -⟩ | ⟨pieces, -, -, hfit⟩ := hover
  · exact hquote (by simp [htail])
  · omega

/-- What the loop over a value comes to: it leaves the buffers exactly when the value overruns,
and a success has found the closing quote. -/
structure Copied (out : Bytes) (written : Nat) (value : Bytes) (result : Option (Int × Bytes)) :
    Prop where
  fails : result = none ↔ Overruns out.length written value
  size : ∀ r out', result = some (r, out') → out'.length = out.length
  closed : ∀ out', result = some (0, out') →
    ∃ (pieces : List Bytes) (rest : Bytes), (∀ piece ∈ pieces, Character piece) ∧
      value = pieces.flatten ++ 34 :: rest

/-- A loop that refuses the value. -/
theorem copied_refused {value out' : Bytes} (hsize : out'.length = out.length)
    (hover : ¬ Overruns out.length written value) : Copied out written value (some (-1, out')) where
  fails := iff_of_false (Option.some_ne_none _) hover
  size := by
    intro r last h
    cases h
    exact hsize
  closed := by
    intro last h
    cases h

theorem copied_quote (rest : Bytes) :
    Copied out written (34 :: rest) (copyValue out written (34 :: (rest ++ [0]))) := by
  rw [copyValue_quote]
  unfold storeByte
  refine ⟨?_, ?_, fun out' _ => ⟨[], rest, by simp, rfl⟩⟩
  · constructor
    · intro hnone
      refine .inl ⟨rest, rfl, ?_⟩
      by_contra hfit
      rw [if_pos (by omega)] at hnone
      cases hnone
    · intro hover
      obtain ⟨tail, -, hfull⟩ | ⟨pieces, hpieces, hvalue, -⟩ := hover
      · rw [if_neg (by omega)]
        rfl
      · cases pieces with
        | nil => cases hvalue
        | cons first pieces =>
          have hquote := (hpieces first (by simp)).not_quote
          obtain ⟨c, cs, rfl⟩ := List.exists_cons_of_ne_nil (hpieces first (by simp)).ne_nil
          exact absurd (by simp [← (List.cons.inj hvalue).1]) hquote
  · intro r out' h
    split at h
    · cases h
      exact List.length_set
    · cases h

/-- The backslash in front of the terminator. -/
theorem copied_backslash : Copied out written [92] (copyValue out written [92, 0]) := by
  rw [copyValue_backslash]
  split
  · rename_i hfull
    apply copied_refused rfl
    exact overruns_full (by simp) hfull
  · rename_i hroom
    refine ⟨iff_of_true rfl (.inr ⟨[], by simp, rfl, ?_⟩), ?_, ?_⟩
    · simpa using hroom
    · intro r out' h
      cases h
    · intro out' h
      cases h

theorem copied_short {hex : Bytes} (hlen : hex.length < 4) (hclean : 0 ∉ hex) :
    Copied out written (92 :: 117 :: hex) (copyValue out written (92 :: 117 :: (hex ++ [0]))) := by
  obtain ⟨out', hresult, hsize⟩ := @copyValue_short out written hex hlen hclean
  rw [hresult]
  apply copied_refused hsize
  intro hover
  obtain ⟨tail, htail, -⟩ | ⟨pieces, hpieces, hvalue, -⟩ := hover
  · cases htail
  · cases pieces with
    | nil => cases hvalue
    | cons first pieces =>
      have hlength := congrArg List.length hvalue
      simp only [List.length_cons, List.flatten_cons, List.length_append, List.length_nil] at hlength
      cases hpieces first (by simp) with
      | plain c _ hslash => exact hslash (List.cons.inj hvalue).1.symm
      | escaped e hu => exact hu (List.cons.inj (List.cons.inj hvalue).2).1.symm
      | unicode hex' hlen' =>
        simp only [List.length_cons] at hlength
        omega

theorem copied_piece {piece rest : Bytes} (h : Character piece) (hclean : 0 ∉ piece)
    (hrest : ∀ out', out'.length = out.length →
      Copied out' (written + 1) rest (copyValue out' (written + 1) (rest ++ [0]))) :
    Copied out written (piece ++ rest) (copyValue out written (piece ++ (rest ++ [0]))) := by
  obtain ⟨decoded, hdecoded⟩ := decodeChar_piece h hclean (rest ++ [0])
  have hquote : (piece ++ rest).head? ≠ some 34 := by
    obtain ⟨c, cs, rfl⟩ := List.exists_cons_of_ne_nil h.ne_nil
    exact h.not_quote
  rw [copyValue_piece h hclean hdecoded]
  split
  · rename_i hfull
    exact copied_refused rfl (overruns_full hquote hfull)
  · rename_i hroom
    have hfit : written + 1 < out.length := by omega
    have hstore : storeByte out written decoded = some (out.set written decoded) :=
      if_pos (by omega)
    have hlater := hrest (out.set written decoded) List.length_set
    rw [hstore, Option.bind_some]
    refine ⟨?_, ?_, ?_⟩
    · rw [hlater.fails, List.length_set, overruns_piece h hfit]
    · intro r out' hr
      exact (hlater.size r out' hr).trans List.length_set
    · intro out' hr
      obtain ⟨pieces, tail, hpieces, hvalue⟩ := hlater.closed out' hr
      refine ⟨piece :: pieces, tail, ?_, ?_⟩
      · intro p hp
        cases List.mem_cons.mp hp with
        | inl hp => exact hp ▸ h
        | inr hp => exact hpieces p hp
      · rw [hvalue, List.flatten_cons, List.append_assoc]

theorem copyValue_spec (value : Bytes) (hclean : 0 ∉ value) (out : Bytes) (written : Nat) :
    Copied out written value (copyValue out written (value ++ [0])) := by
  induction hn : value.length using Nat.strong_induction_on generalizing value out written with
  | _ n ih =>
    subst hn
    by_cases hne : value = []
    · subst hne
      rw [List.nil_append, copyValue_nul]
      apply copied_refused rfl
      intro hover
      obtain ⟨tail, htail, -⟩ | ⟨pieces, -, hvalue, -⟩ := hover
      · cases htail
      · simp at hvalue
    · by_cases hquote : value.head? = some 34
      · obtain ⟨c, rest, rfl⟩ := List.exists_cons_of_ne_nil hne
        obtain rfl : c = 34 := by simpa using hquote
        exact copied_quote rest
      · obtain ⟨piece, rest, hpiece, rfl⟩ | rfl | ⟨hex, hlen, rfl⟩ := character_cases hne hquote
        · have hpos : 0 < piece.length := List.length_pos_iff.mpr hpiece.ne_nil
          rw [List.append_assoc]
          apply copied_piece hpiece (fun h => hclean (by simp [h]))
          intro out' _
          exact ih rest.length (by simp; omega) rest (fun h => hclean (by simp [h])) out' _ rfl
        · exact copied_backslash
        · exact copied_short hlen fun h => hclean (by simp [h])

end Values

section Fields
variable {pattern out tail : Bytes}

theorem skipBlanks_eq (text : Bytes) :
    skipBlanks (text ++ 0 :: tail) = some (text.dropWhile isBlank ++ 0 :: tail) := by
  induction text with
  | nil => rfl
  | cons c text ih =>
    rw [List.cons_append, skipBlanks, List.dropWhile_cons]
    split
    · exact ih
    · rfl

/-- Blanks in front of something else. -/
theorem dropWhile_blank {c : UInt8} (hc : isBlank c = false) {text after : Bytes} :
    text.dropWhile isBlank = c :: after ↔
      ∃ blanks : Bytes, (∀ b ∈ blanks, isBlank b = true) ∧ text = blanks ++ c :: after := by
  constructor
  · intro h
    refine ⟨text.takeWhile isBlank, fun b hb => List.mem_takeWhile_imp hb, ?_⟩
    rw [← h, List.takeWhile_append_dropWhile]
  · intro h
    obtain ⟨blanks, hblanks, rfl⟩ := h
    induction blanks with
    | nil => simp [hc]
    | cons b blanks ih =>
      rw [List.cons_append, List.dropWhile_cons, if_pos (hblanks b (by simp))]
      exact ih fun b hb => hblanks b (by simp [hb])

theorem named_iff {text after : Bytes} :
    Named pattern text after ↔
      pattern <+: text ∧ (text.drop pattern.length).dropWhile isBlank = 58 :: after := by
  constructor
  · intro h
    obtain ⟨blanks, hblanks, rfl⟩ := h
    refine ⟨List.prefix_append _ _, ?_⟩
    rw [List.drop_left]
    exact (dropWhile_blank rfl).mpr ⟨blanks, hblanks, rfl⟩
  · intro h
    obtain ⟨⟨behind, rfl⟩, hcolon⟩ := h
    rw [List.drop_left] at hcolon
    obtain ⟨blanks, hblanks, hbehind⟩ := (dropWhile_blank rfl).mp hcolon
    exact ⟨blanks, hblanks, by rw [hbehind]⟩

theorem fieldValue_unnamed {behind : Bytes}
    (h : ∀ after, behind.dropWhile isBlank ≠ 58 :: after) :
    fieldValue out (behind ++ 0 :: tail) = some none := by
  have hcolon : (behind.dropWhile isBlank ++ 0 :: tail).head? ≠ some 58 := by
    cases htext : behind.dropWhile isBlank with
    | nil => simp
    | cons c after =>
      intro hc
      obtain rfl : c = 58 := by simpa using hc
      exact h after htext
  rw [fieldValue, skipBlanks_eq]
  simp only [Option.bind_eq_bind, Option.bind_some]
  rw [if_pos hcolon]
  rfl

theorem fieldValue_other {behind after : Bytes} (hcolon : behind.dropWhile isBlank = 58 :: after)
    (h : ∀ value, after.dropWhile isBlank ≠ 34 :: value) :
    fieldValue out (behind ++ 0 :: tail) = some (some (-1, out)) := by
  have hquote : (after.dropWhile isBlank ++ 0 :: tail).head? ≠ some 34 := by
    cases htext : after.dropWhile isBlank with
    | nil => simp
    | cons c value =>
      intro hc
      obtain rfl : c = 34 := by simpa using hc
      exact h value htext
  rw [fieldValue, skipBlanks_eq, hcolon]
  simp only [List.cons_append, List.head?_cons, List.tail_cons, Option.bind_eq_bind,
    Option.bind_some, ne_eq, not_true_eq_false, if_false, skipBlanks_eq]
  rw [if_pos hquote]
  rfl

theorem fieldValue_string {behind after value : Bytes}
    (hcolon : behind.dropWhile isBlank = 58 :: after)
    (hquote : after.dropWhile isBlank = 34 :: value) :
    fieldValue out (behind ++ 0 :: tail) = (copyValue out 0 (value ++ 0 :: tail)).map some := by
  rw [fieldValue, skipBlanks_eq, hcolon]
  simp only [List.cons_append, List.head?_cons, List.tail_cons, Option.bind_eq_bind,
    Option.bind_some, ne_eq, not_true_eq_false, if_false, skipBlanks_eq, hquote]
  cases copyValue out 0 (value ++ 0 :: tail) with
  | none => rfl
  | some result => rfl

/-- The terminator is in no match of a pattern. -/
theorem isPrefixOf_text (text tail : Bytes) (hp : 0 ∉ pattern) :
    pattern.isPrefixOf (text ++ 0 :: tail) = true ↔ pattern <+: text := by
  rw [List.isPrefixOf_iff_prefix]
  constructor
  · intro h
    cases List.prefix_or_prefix_of_prefix h (List.prefix_append text (0 :: tail)) with
    | inl hstarts => exact hstarts
    | inr hstarts =>
      obtain ⟨more, rfl⟩ := hstarts
      have hmore := (List.prefix_append_right_inj text).mp h
      cases more with
      | nil => simp
      | cons c more =>
        obtain ⟨rfl, -⟩ := List.cons_prefix_cons.mp hmore
        exact absurd (by simp) hp
  · intro h
    exact h.trans (List.prefix_append _ _)

/-- The loop finds the string of the field. -/
theorem fieldLoop_string {text value : Bytes} (hp : 0 ∉ pattern) (hclean : 0 ∉ text)
    (h : StringField pattern text value) (out : Bytes) :
    fieldLoop pattern out (text ++ 0 :: tail) = copyValue out 0 (value ++ 0 :: tail) := by
  induction h with
  | @here text after value blanks hnamed hblanks hafter =>
    obtain ⟨hstarts, hcolon⟩ := named_iff.mp hnamed
    have hquote := (dropWhile_blank rfl).mpr ⟨blanks, hblanks, hafter⟩
    have hdrop : (text ++ 0 :: tail).drop pattern.length = text.drop pattern.length ++ 0 :: tail :=
      List.drop_append_of_le_length hstarts.length_le
    obtain ⟨c, rest, hcons⟩ : ∃ c rest, text ++ 0 :: tail = c :: rest :=
      List.exists_cons_of_ne_nil (by simp)
    have hmatch := (isPrefixOf_text text tail hp).mpr hstarts
    rw [hcons] at hmatch hdrop ⊢
    rw [fieldLoop, if_pos hmatch, hdrop, fieldValue_string hcolon hquote]
    cases copyValue out 0 (value ++ 0 :: tail) with
    | none => rfl
    | some result => rfl
  | @later c rest value hunnamed _ ih =>
    have hrest := ih fun h => hclean (by simp [h])
    rw [List.cons_append, fieldLoop]
    split
    · rename_i hmatch
      have hstarts := (isPrefixOf_text (c :: rest) tail hp).mp hmatch
      have hdrop : (c :: (rest ++ 0 :: tail)).drop pattern.length =
          (c :: rest).drop pattern.length ++ 0 :: tail :=
        List.drop_append_of_le_length hstarts.length_le
      rw [hdrop, fieldValue_unnamed fun after hcolon =>
        hunnamed after (named_iff.mpr ⟨hstarts, hcolon⟩)]
      exact hrest
    · rw [if_neg fun hc => hclean (by simp [hc])]
      exact hrest

/-- Without such a field the body is refused. -/
theorem fieldLoop_none {text : Bytes} (hp : 0 ∉ pattern) (hne : pattern ≠ []) (hclean : 0 ∉ text)
    (h : ∀ value, ¬ StringField pattern text value) (out : Bytes) :
    fieldLoop pattern out (text ++ 0 :: tail) = some (-1, out) := by
  induction text with
  | nil =>
    rw [List.nil_append, fieldLoop]
    split
    · rename_i hmatch
      exact absurd (List.prefix_nil.mp ((isPrefixOf_text [] tail hp).mp hmatch)) hne
    · rfl
  | cons c rest ih =>
    rw [List.cons_append, fieldLoop]
    by_cases hnamed : ∃ after, Named pattern (c :: rest) after
    · obtain ⟨after, hafter⟩ := hnamed
      obtain ⟨hstarts, hcolon⟩ := named_iff.mp hafter
      have hdrop : (c :: (rest ++ 0 :: tail)).drop pattern.length =
          (c :: rest).drop pattern.length ++ 0 :: tail :=
        List.drop_append_of_le_length hstarts.length_le
      have hmatch : pattern.isPrefixOf (c :: (rest ++ 0 :: tail)) = true :=
        (isPrefixOf_text (c :: rest) tail hp).mpr hstarts
      rw [if_pos hmatch, hdrop, fieldValue_other hcolon]
      · rfl
      · intro value hquote
        obtain ⟨blanks, hblanks, heq⟩ := (dropWhile_blank rfl).mp hquote
        exact h value (.here blanks hafter hblanks heq)
    · have hunnamed : ∀ after, ¬ Named pattern (c :: rest) after := fun after hafter =>
        hnamed ⟨after, hafter⟩
      have hrest := ih (fun h => hclean (by simp [h])) fun value hvalue =>
        h value (.later hunnamed hvalue)
      split
      · rename_i hmatch
        have hstarts := (isPrefixOf_text (c :: rest) tail hp).mp hmatch
        have hdrop : (c :: (rest ++ 0 :: tail)).drop pattern.length =
            (c :: rest).drop pattern.length ++ 0 :: tail :=
          List.drop_append_of_le_length hstarts.length_le
        rw [hdrop, fieldValue_unnamed fun after hcolon =>
          hunnamed after (named_iff.mpr ⟨hstarts, hcolon⟩)]
        exact hrest
      · rw [if_neg fun hc => hclean (by simp [hc])]
        exact hrest

/-- At a place where the name stands, its value decides. -/
theorem fieldLoop_here {c : UInt8} {rest : Bytes} (h : pattern.isPrefixOf (c :: rest) = true)
    (out : Bytes) :
    fieldLoop pattern out (c :: rest) =
      (fieldValue out ((c :: rest).drop pattern.length)).bind fun found =>
        found.elim (fieldLoop pattern out rest) some := by
  rw [fieldLoop, if_pos h]
  cases fieldValue out ((c :: rest).drop pattern.length) with
  | none => rfl
  | some found =>
    cases found with
    | none => rfl
    | some result => rfl

/-- The loop in terms of `strstr`, which finds the next place where the name stands. -/
theorem fieldLoop_strstr {text : Bytes} (hclean : 0 ∉ text) (out : Bytes) :
    fieldLoop pattern out (text ++ 0 :: tail) =
      (strstr pattern (text ++ 0 :: tail)).elim (some (-1, out)) fun place =>
        (fieldValue out (place.drop pattern.length)).bind fun found =>
          found.elim (fieldLoop pattern out place.tail) some := by
  induction text with
  | nil =>
    rw [List.nil_append, strstr]
    split
    · rename_i hmatch
      exact fieldLoop_here hmatch out
    · rename_i hmatch
      rw [fieldLoop, if_neg hmatch]
      rfl
  | cons c rest ih =>
    rw [List.cons_append, strstr]
    split
    · rename_i hmatch
      exact fieldLoop_here hmatch out
    · rename_i hmatch
      rw [fieldLoop, if_neg hmatch, if_neg fun hc => hclean (by simp [hc]),
        if_neg fun hc => hclean (by simp [hc])]
      exact ih fun h => hclean (by simp [h])

/-- A value reaches to the end of the body. -/
theorem StringField.suffix {text value : Bytes} (h : StringField pattern text value) :
    value <:+ text := by
  induction h with
  | @here text after value blanks hnamed _ hafter =>
    obtain ⟨blanks', -, rfl⟩ := hnamed
    subst hafter
    exact ⟨pattern ++ (blanks' ++ 58 :: (blanks ++ [34])), by simp⟩
  | @later c rest value _ _ ih => exact ih.trans (List.suffix_cons c rest)

theorem StringField.clean {text value : Bytes} (h : StringField pattern text value)
    (hclean : 0 ∉ text) : 0 ∉ value := fun hz => hclean (h.suffix.subset hz)

end Fields

/-- The reader stays in its buffers and ends, and where it succeeds the string of the field is
closed in front of the terminator. -/
def ReadsInside (body field out : Bytes) : Prop :=
  ∃ result out', jsonGetString (body ++ [0]) field out = some (result, out') ∧
    out'.length = out.length ∧
    (result = 0 → ∃ (value : Bytes) (pieces : List Bytes) (rest : Bytes),
      StringField (34 :: (field ++ [34])) body value ∧ (∀ piece ∈ pieces, Character piece) ∧
      value = pieces.flatten ++ 34 :: rest)

/-- The reader leaves its buffers exactly when the first field of this name is a string whose
last byte in the body is a backslash that begins an escape, with room left in the output, or a
string that is empty, with no output at all. -/
theorem reads_inside_iff (body field out : Bytes) (hbody : 0 ∉ body) (hfield : 0 ∉ field) :
    ReadsInside body field out ↔ ¬ (field.length + 2 < 64 ∧
      ∃ value, StringField (34 :: (field ++ [34])) body value ∧ Overruns out.length 0 value) := by
  have hp : 0 ∉ 34 :: (field ++ [34]) := by simpa using hfield
  unfold ReadsInside jsonGetString
  dsimp only
  by_cases hlong : (34 :: (field ++ [34])).length ≥ 64
  · -- the name does not fit into the pattern
    rw [if_pos hlong]
    refine iff_of_true ⟨-1, out, rfl, rfl, fun h => ?_⟩ fun h => ?_
    · cases h
    · simp only [List.length_cons, List.length_append, List.length_nil] at hlong
      omega
  rw [if_neg hlong]
  have hshort : field.length + 2 < 64 := by
    simp only [List.length_cons, List.length_append, List.length_nil] at hlong
    omega
  by_cases hfound : ∃ value, StringField (34 :: (field ++ [34])) body value
  · constructor
    · intro h hover
      obtain ⟨result, out', hresult, -⟩ := h
      obtain ⟨-, value, hvalue, hoverruns⟩ := hover
      have hcopied := copyValue_spec value (hvalue.clean hbody) out 0
      rw [fieldLoop_string hp hbody hvalue, hcopied.fails.mpr hoverruns] at hresult
      cases hresult
    · intro hinside
      obtain ⟨value, hvalue⟩ := hfound
      have hcopied := copyValue_spec value (hvalue.clean hbody) out 0
      rw [fieldLoop_string hp hbody hvalue]
      cases hresult : copyValue out 0 (value ++ [0]) with
      | none =>
        exact absurd ⟨hshort, value, hvalue, hcopied.fails.mp hresult⟩ hinside
      | some pair =>
        obtain ⟨result, out'⟩ := pair
        refine ⟨result, out', rfl, hcopied.size result out' hresult, fun hzero => ?_⟩
        subst hzero
        obtain ⟨pieces, rest, hpieces, hclosed⟩ := hcopied.closed out' hresult
        exact ⟨value, pieces, rest, hvalue, hpieces, hclosed⟩
  · rw [fieldLoop_none hp (List.cons_ne_nil _ _) hbody fun value hvalue => hfound ⟨value, hvalue⟩]
    refine iff_of_true ⟨-1, out, rfl, rfl, fun h => ?_⟩ fun h => ?_
    · cases h
    · obtain ⟨-, value, hvalue, -⟩ := h
      exact hfound ⟨value, hvalue⟩

/-- A body that ends within an escape of its string, and an empty string for no output: the
fields are called `a`. -/
theorem lone_backslash_overreads :
    ¬ ReadsInside [34, 97, 34, 58, 34, 92] [97] [0, 0] ∧
      ¬ ReadsInside [34, 97, 34, 58, 34, 34] [97] [] := by
  refine ⟨?_, ?_⟩
  · intro h
    obtain ⟨result, out', hresult, -⟩ := h
    simp [jsonGetString, fieldLoop, fieldValue, skipBlanks, isBlank, copyValue_backslash] at hresult
  · intro h
    obtain ⟨result, out', hresult, -⟩ := h
    simp [jsonGetString, fieldLoop, fieldValue, skipBlanks, isBlank, copyValue_quote, storeByte]
      at hresult

/-- A string that is closed is read inside. -/
theorem closed_string_inside : ReadsInside [34, 97, 34, 58, 34, 98, 34] [97] [0, 0] := by
  apply (reads_inside_iff [34, 97, 34, 58, 34, 98, 34] [97] [0, 0] (by decide) (by decide)).mpr
  intro h
  obtain ⟨-, value, hvalue, hover⟩ := h
  obtain ⟨rest, -, hfull⟩ | ⟨pieces, -, hlast, -⟩ := hover
  · exact absurd hfull (by decide)
  · obtain ⟨front, hbody⟩ := hvalue.suffix
    have hend := congrArg List.getLast? hbody
    rw [hlast, ← List.append_assoc, List.getLast?_concat] at hend
    exact absurd hend (by decide)

end Camstream.Proofs.JsonReading
