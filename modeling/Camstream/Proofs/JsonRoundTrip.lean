import Mathlib.Data.Bool.AllAny
import Camstream.Proofs.JsonReading
import Camstream.Proofs.JsonWriting

namespace Camstream.Proofs.JsonRoundTrip
open Lib App JsonText JsonReading JsonWriting

/-- What is written for a field: its name and a colon, and its value. -/
def fieldText (field : Bytes × Bytes) : Bytes := 34 :: (field.1 ++ 34 :: 58 :: quoted field.2)

/-- An object of string fields. -/
def objectText (fields : List (Bytes × Bytes)) : Bytes :=
  123 :: (joined (fields.map fieldText) ++ [125])

/-- A name of letters and digits. -/
def Alphanumeric (name : Bytes) : Prop := ∀ c ∈ name, isAlnumByte c = true

/-- A string that the writer does not change for good. -/
def Writable (value : Bytes) : Prop := ∀ c ∈ value, c = 10 ∨ c = 13 ∨ c = 9 ∨ 32 ≤ c

theorem Alphanumeric.ne {name : Bytes} (h : Alphanumeric name) {c : UInt8}
    (hc : isAlnumByte c = false) : c ∉ name := by
  intro hmem
  rw [h c hmem] at hc
  cases hc

section Places
variable {name : Bytes}

/-- Two names in quotes that begin alike are the same. -/
theorem name_unique {other more more' : Bytes} (h : 34 ∉ name) (h' : 34 ∉ other)
    (heq : name ++ 34 :: more = other ++ 34 :: more') : name = other ∧ more = more' := by
  induction name generalizing other with
  | nil =>
    cases other with
    | nil => exact ⟨rfl, (List.cons.inj heq).2⟩
    | cons d other => exact absurd (by simp [← (List.cons.inj heq).1]) h'
  | cons c name ih =>
    cases other with
    | nil => exact absurd (by simp [(List.cons.inj heq).1]) h
    | cons d other =>
      obtain ⟨hhead, htail⟩ := List.cons.inj heq
      obtain ⟨hname, hmore⟩ := ih (fun hm => h (by simp [hm])) (fun hm => h' (by simp [hm])) htail
      exact ⟨by rw [hhead, hname], hmore⟩

theorem jsonChar_cases (c : UInt8) :
    (∃ x, jsonChar c = [92, x]) ∨ ∃ x, jsonChar c = [x] ∧ x ≠ 34 ∧ x ≠ 92 := by
  have h := jsonChar_character c
  generalize jsonChar c = piece at h
  cases h with
  | plain _ hquote hslash => exact .inr ⟨_, rfl, hquote, hslash⟩
  | escaped _ => exact .inl ⟨_, rfl⟩

/-- What follows a name in the text of a value is what follows the value. -/
theorem name_in_value (hquote : 34 ∉ name) (hslash : 92 ∉ name) {value more behind : Bytes}
    (heq : name ++ 34 :: more = value.flatMap jsonChar ++ 34 :: behind) : more = behind := by
  induction value generalizing name with
  | nil =>
    rw [List.flatMap_nil, List.nil_append] at heq
    exact (@name_unique name [] _ _ hquote List.not_mem_nil heq).2
  | cons c value ih =>
    rw [List.flatMap_cons, List.append_assoc] at heq
    obtain ⟨x, hx⟩ | ⟨x, hx, hplain, -⟩ := jsonChar_cases c
    · rw [hx] at heq
      cases name with
      | nil => cases (List.cons.inj heq).1
      | cons d name => exact absurd (by simp [(List.cons.inj heq).1]) hslash
    · rw [hx] at heq
      cases name with
      | nil => exact absurd (List.cons.inj heq).1.symm hplain
      | cons d name =>
        exact ih (fun hm => hquote (by simp [hm])) (fun hm => hslash (by simp [hm]))
          (List.cons.inj heq).2

variable {value : Bytes}

/-- The name of a field in quotes. -/
abbrev patternOf (name : Bytes) : Bytes := 34 :: (name ++ [34])

theorem named_behind {text after : Bytes} (h : Named (patternOf name) (34 :: text) after) :
    ∃ blanks : Bytes, (∀ c ∈ blanks, isBlank c = true) ∧
      text = name ++ 34 :: (blanks ++ 58 :: after) := by
  obtain ⟨blanks, hblanks, heq⟩ := h
  refine ⟨blanks, hblanks, (List.cons.inj heq).2.trans ?_⟩
  simp

theorem unnamed_other {c : UInt8} (hc : c ≠ 34) (rest after : Bytes) :
    ¬ Named (patternOf name) (c :: rest) after := by
  intro h
  obtain ⟨blanks, -, heq⟩ := h
  exact hc (List.cons.inj heq).1

/-- A quote with this byte behind it begins no name. -/
theorem unnamed_before {c : UInt8} (hname : c ∉ name) (hquote : c ≠ 34) (rest after : Bytes) :
    ¬ Named (patternOf name) (34 :: c :: rest) after := by
  intro h
  obtain ⟨blanks, -, hrest⟩ := named_behind h
  cases name with
  | nil => exact hquote (List.cons.inj hrest).1
  | cons d name => exact hname (by simp [(List.cons.inj hrest).1])

/-- A quote in or in front of a value, with a comma behind the value, begins no name that has
a colon behind it. -/
theorem unnamed_value (h : Alphanumeric name) (value rest after : Bytes) :
    ¬ Named (patternOf name) (34 :: (value.flatMap jsonChar ++ 34 :: 44 :: rest)) after := by
  intro hnamed
  obtain ⟨blanks, hblanks, hrest⟩ := named_behind hnamed
  have hbehind := name_in_value (h.ne rfl) (h.ne rfl) hrest.symm
  cases blanks with
  | nil => cases (List.cons.inj hbehind).1
  | cons b blanks =>
    have hb := hblanks b (by simp)
    rw [(List.cons.inj hbehind).1] at hb
    exact absurd hb (by decide)

theorem skip_plain (text : Bytes) {rest found : Bytes} (htext : 34 ∉ text)
    (h : StringField (patternOf name) rest found) :
    StringField (patternOf name) (text ++ rest) found := by
  induction text with
  | nil => exact h
  | cons c text ih =>
    apply StringField.later
    · exact unnamed_other (fun hc => htext (by simp [hc])) _
    · exact ih fun hm => htext (by simp [hm])

theorem skip_value (hname : Alphanumeric name) (value : Bytes) {rest found : Bytes}
    (h : StringField (patternOf name) rest found) :
    StringField (patternOf name) (value.flatMap jsonChar ++ 34 :: 44 :: rest) found := by
  induction value with
  | nil =>
    apply StringField.later
    · exact unnamed_before (hname.ne rfl) (by decide) _
    · exact skip_plain [44] (by decide) h
  | cons c value ih =>
    rw [List.flatMap_cons, List.append_assoc]
    obtain ⟨x, hx⟩ | ⟨x, hx, hplain, -⟩ := jsonChar_cases c
    · rw [hx]
      apply StringField.later
      · exact unnamed_other (by decide) _
      · apply StringField.later
        · by_cases hquote : x = 34
          · subst hquote
            exact unnamed_value hname value rest
          · exact unnamed_other hquote _
        · exact ih
    · rw [hx]
      apply skip_plain [x]
      · simpa using Ne.symm hplain
      · exact ih

/-- A field of another name is passed over, whatever its value is. -/
theorem skip_field (hname : Alphanumeric name) {field : Bytes × Bytes}
    (hfield : Alphanumeric field.1) (hne : field.1 ≠ name) {rest found : Bytes}
    (h : StringField (patternOf name) rest found) :
    StringField (patternOf name) (fieldText field ++ 44 :: rest) found := by
  have htext : fieldText field ++ 44 :: rest = 34 :: (field.1 ++ (34 :: 58 :: 34 ::
      (field.2.flatMap jsonChar ++ 34 :: 44 :: rest))) := by
    simp [fieldText, quoted]
  rw [htext]
  apply StringField.later
  · intro after hnamed
    obtain ⟨blanks, -, hrest⟩ := named_behind hnamed
    exact hne (name_unique (hfield.ne rfl) (hname.ne rfl) hrest).1
  apply skip_plain _ (hfield.ne rfl)
  apply StringField.later
  · exact unnamed_before (hname.ne rfl) (by decide) _
  apply StringField.later
  · exact unnamed_other (by decide) _
  apply StringField.later
  · exact unnamed_value hname field.2 rest
  exact skip_value hname field.2 h

/-- The reader finds the value of the last field. -/
theorem object_field (hname : Alphanumeric name) {fields : List (Bytes × Bytes)}
    (hfields : ∀ field ∈ fields, Alphanumeric field.1 ∧ field.1 ≠ name) (value : Bytes) :
    StringField (patternOf name) (objectText (fields ++ [(name, value)]))
      (value.flatMap jsonChar ++ [34, 125]) := by
  have htext : objectText (fields ++ [(name, value)]) =
      123 :: (fields.flatMap (fun field => fieldText field ++ [44]) ++
        (fieldText (name, value) ++ [125])) := by
    rw [objectText, List.map_append, List.map_singleton, joined_last, List.flatMap_map,
      List.append_assoc]
  have hfind : StringField (patternOf name)
      (fields.flatMap (fun field => fieldText field ++ [44]) ++ (fieldText (name, value) ++ [125]))
      (value.flatMap jsonChar ++ [34, 125]) := by
    clear htext
    induction fields with
    | nil =>
      apply @StringField.here (patternOf name) _ (quoted value ++ [125]) _ []
      · exact ⟨[], by simp, by simp [fieldText]⟩
      · simp
      · simp [quoted]
    | cons field fields ih =>
      obtain ⟨halnum, hne⟩ := hfields field (by simp)
      have hrest := ih fun field hfield => hfields field (by simp [hfield])
      rw [List.flatMap_cons, List.append_assoc, List.append_assoc]
      exact skip_field hname halnum hne hrest
  rw [htext]
  exact skip_plain [123] (by decide) hfind

end Places

/-- Each byte of a string is read back from its text. -/
theorem decodeChar_jsonChar {c : UInt8} (h : c = 10 ∨ c = 13 ∨ c = 9 ∨ 32 ≤ c) (rest : Bytes) :
    decodeChar (jsonChar c ++ rest) = some (c, rest) := by
  unfold jsonChar
  split
  · rename_i hc
    cases hc with
    | inl hc => subst hc; rfl
    | inr hc => subst hc; rfl
  · rename_i hother
    split
    · rename_i hc
      subst hc
      rfl
    · split
      · rename_i hc
        subst hc
        rfl
      · split
        · rename_i hc
          subst hc
          rfl
        · rename_i hten hthirteen hnine
          have hhigh : 32 ≤ c := by simpa [hten, hthirteen, hnine] using h
          rw [if_neg (UInt8.not_lt.mpr hhigh), List.singleton_append, decodeChar.eq_def]
          simp only
          rw [if_neg (not_or.mp hother).2]

/-- The text of a byte is one character for the reader. -/
theorem jsonChar_whole (c : UInt8) : Character (jsonChar c) ∧ 0 ∉ jsonChar c := by
  unfold jsonChar
  split
  · rename_i hc
    cases hc with
    | inl hc => subst hc; exact ⟨.escaped 34 (by decide), by decide⟩
    | inr hc => subst hc; exact ⟨.escaped 92 (by decide), by decide⟩
  · rename_i hother
    obtain ⟨hquote, hslash⟩ := not_or.mp hother
    split
    · exact ⟨.escaped 110 (by decide), by decide⟩
    · split
      · exact ⟨.escaped 114 (by decide), by decide⟩
      · split
        · exact ⟨.escaped 116 (by decide), by decide⟩
        · split
          · exact ⟨.plain 63 (by decide) (by decide), by decide⟩
          · rename_i hlow
            refine ⟨.plain c hquote hslash, fun hzero => hlow ?_⟩
            rw [← List.mem_singleton.mp hzero]
            decide

/-- A string that was written is read back whole. -/
theorem copyValue_written {value : Bytes} (hvalue : Writable value) {out : Bytes}
    (hroom : value.length < out.length) (rest : Bytes) :
    ∃ out', copyValue out 0 (value.flatMap jsonChar ++ 34 :: rest) = some (0, out') ∧
      value ++ [0] <+: out' := by
  have hpieces : List.Forall₂ (fun piece c => Character piece ∧ 0 ∉ piece ∧
      ∀ rest, decodeChar (piece ++ rest) = some (c, rest)) (value.map jsonChar) value := by
    rw [List.forall₂_map_left_iff, List.forall₂_same]
    intro c hc
    obtain ⟨hcharacter, hclean⟩ := jsonChar_whole c
    exact ⟨hcharacter, hclean, decodeChar_jsonChar (hvalue c hc)⟩
  obtain ⟨filled, hlength, hfront, hread⟩ :=
    copyValue_pieces hpieces (34 :: rest) (by simpa using hroom)
      (show ([] : Bytes) <+: out from List.nil_prefix)
  rw [List.length_nil, Nat.zero_add, ← List.flatMap_def] at hread
  obtain ⟨out', hstore, -, hdone⟩ := storeByte_front hfront (by simp; omega) 0
  refine ⟨out', ?_, hdone⟩
  rw [List.nil_append] at hstore
  rw [hread, copyValue_quote, hstore]
  rfl

theorem objectText_clean {fields : List (Bytes × Bytes)}
    (h : ∀ field ∈ fields, Alphanumeric field.1) : 0 ∉ objectText fields := by
  have hfield : ∀ field ∈ fields, 0 ∉ fieldText field := by
    intro field hfield
    have hvalue : 0 ∉ field.2.flatMap jsonChar := by
      intro hzero
      obtain ⟨c, -, hc⟩ := List.mem_flatMap.mp hzero
      exact (jsonChar_whole c).2 hc
    have hname : 0 ∉ field.1 := (h field hfield).ne rfl
    simp [fieldText, quoted, hname, hvalue]
  have hjoined : 0 ∉ joined (fields.map fieldText) := by
    intro hzero
    cases mem_joined hzero with
    | inl hcomma => cases hcomma
    | inr hmem =>
      obtain ⟨text, htext, hc⟩ := hmem
      obtain ⟨field, hmem, rfl⟩ := List.mem_map.mp htext
      exact hfield field hmem hc
  simp [objectText, hjoined]

/-- What the writer has written of an object, and it writes all of one that has room, the reader
gives back: the value of the field that was asked for, whatever stands in the fields before it. -/
theorem json_round_trip {fields : List (Bytes × Bytes)} {name value buffer out : Bytes}
    {calls : List JsonCall} {writer : JsonBuffer}
    (hname : Alphanumeric name) (hvalue : Writable value)
    (hfields : ∀ field ∈ fields, Alphanumeric field.1 ∧ field.1 ≠ name)
    (hcalls : calls.flatMap callText = objectText (fields ++ [(name, value)]))
    (hrun : (JsonBuffer.begin buffer buffer.length).bind (calls.foldlM JsonBuffer.call) =
      some writer)
    (hbuffer : 0 < buffer.length) (hpattern : name.length + 2 < 64)
    (hroom : value.length < out.length) :
    ((objectText (fields ++ [(name, value)])).length + 1 < min buffer.length (2 ^ 31) →
      writer.finish = 0) ∧
    (writer.finish = 0 → ∃ out', jsonGetString writer.buffer name out = some (0, out') ∧
      cString out' = value) := by
  -- the buffer of the writer starts with the object and a terminator
  obtain ⟨first, hfirst, hempty⟩ := begin_holds hbuffer
  obtain ⟨later, hlater, hholds⟩ := hempty.calls calls
  rw [hfirst, Option.bind_some, hlater] at hrun
  obtain rfl : later = writer := Option.some.inj hrun
  constructor
  · intro hspare
    apply hholds.finishes
    · rw [List.nil_append, hcalls]
      omega
    · rw [List.nil_append, hcalls]
      omega
  intro hfinish
  have hwhole : later.truncated = false := by
    unfold JsonBuffer.finish at hfinish
    split at hfinish
    · cases hfinish
    · simp_all
  obtain ⟨-, -, tail, hbuffer⟩ := hholds.whole hwhole
  rw [List.nil_append, hcalls, List.append_assoc, List.singleton_append] at hbuffer
  -- the reader finds the field in it
  have hfield := object_field hname hfields value
  have hclean : 0 ∉ objectText (fields ++ [(name, value)]) := by
    apply objectText_clean
    intro field hfield
    cases List.mem_append.mp hfield with
    | inl hfield => exact (hfields field hfield).1
    | inr hfield => rw [List.mem_singleton.mp hfield]; exact hname
  have hp : 0 ∉ patternOf name := by
    simpa using hname.ne rfl
  rw [← hbuffer, jsonGetString, if_neg (by simp; omega), fieldLoop_string hp hclean hfield, List.append_assoc]
  obtain ⟨out', hresult, hout⟩ := copyValue_written hvalue hroom (125 :: 0 :: tail)
  refine ⟨out', hresult, ?_⟩
  obtain ⟨behind, rfl⟩ := hout
  have hzero : 0 ∉ value := fun hzero => by simpa using hvalue 0 hzero
  rw [List.append_assoc, cString_append hzero]
  simp [cString]

/-- The field `b` holds a backslash and a quote, and `a` before it holds `"b":"`. -/
def lookAlikeCalls : List JsonCall :=
  [.raw [123, 34, 97, 34, 58], .string [34, 98, 34, 58, 34], .raw [44], .raw [34, 98, 34, 58],
    .string [92, 34], .raw [125]]

theorem lookAlike_read :
    ∃ writer out', (JsonBuffer.begin (List.replicate 40 1) 40).bind
        (lookAlikeCalls.foldlM JsonBuffer.call) = some writer ∧
      jsonGetString writer.buffer [98] [1, 1, 1] = some (0, out') ∧ cString out' = [92, 34] := by
  obtain ⟨writer, hrun⟩ : ∃ writer, (JsonBuffer.begin (List.replicate 40 1) 40).bind
      (lookAlikeCalls.foldlM JsonBuffer.call) = some writer := ⟨_, rfl⟩
  have hfields : ∀ field ∈ [(([97] : Bytes), ([34, 98, 34, 58, 34] : Bytes))],
      Alphanumeric field.1 ∧ field.1 ≠ [98] := by
    intro field hfield
    rw [List.mem_singleton.mp hfield]
    exact ⟨List.all_iff_forall_prop.mp (by decide), by decide⟩
  obtain ⟨hfinish, hread⟩ := @json_round_trip [([97], [34, 98, 34, 58, 34])]
    [98] [92, 34] _ [1, 1, 1] _ writer (List.all_iff_forall_prop.mp (by decide))
    (List.all_iff_forall_prop.mp (by decide)) hfields (by decide) hrun
    (by decide) (by decide) (by decide)
  obtain ⟨out', hread, htext⟩ := hread (hfinish (by decide))
  exact ⟨writer, out', hrun, hread, htext⟩

end Camstream.Proofs.JsonRoundTrip
