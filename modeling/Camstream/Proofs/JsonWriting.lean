import Camstream.App.JsonBuffer
import Camstream.Lib.Json
import Camstream.Proofs.JsonText

namespace Camstream.Proofs.JsonWriting
open Lib App JsonText

/-- A writer that was given this text, and cut it off or has all of it. -/
structure Holds (capacity : Nat) (text : Bytes) (writer : JsonBuffer) : Prop where
  size : writer.buffer.length = capacity
  bound : writer.capacity = capacity
  terminated : 0 ∈ writer.buffer
  whole : writer.truncated = false →
    writer.length = text.length ∧ text.length < capacity ∧ text ++ [0] <+: writer.buffer
  full : writer.truncated = true → capacity ≤ text.length + 1 ∨ 2 ^ 31 ≤ text.length

variable {capacity : Nat} {text : Bytes} {writer : JsonBuffer}

theorem begin_holds {buffer : Bytes} (hpos : 0 < buffer.length) :
    ∃ writer, JsonBuffer.begin buffer buffer.length = some writer ∧
      Holds buffer.length [] writer := by
  obtain ⟨b, rest, rfl⟩ := List.exists_cons_of_ne_nil (List.length_pos_iff.mp hpos)
  refine ⟨⟨0 :: rest, (b :: rest).length, 0, false⟩, ?_, rfl, rfl, by simp, fun _ => ?_, nofun⟩
  · rw [JsonBuffer.begin, if_pos hpos, storeByte, if_pos hpos]
    rfl
  · exact ⟨rfl, hpos, by simp⟩

/-- A writer that has cut something off, or is full, takes nothing more. -/
theorem Holds.cut (h : Holds capacity text writer)
    (hfull : writer.truncated = true ∨ writer.length + 1 ≥ writer.capacity) (piece : Bytes) :
    Holds capacity (text ++ piece) { writer with truncated := true } where
  size := h.size
  bound := h.bound
  terminated := h.terminated
  whole := fun hwhole => by cases hwhole
  full := by
    intro _
    have hbound := h.bound
    rw [List.length_append]
    cases htruncated : writer.truncated with
    | true =>
      have := h.full htruncated
      omega
    | false =>
      have hlength := (h.whole htruncated).1
      rw [htruncated] at hfull
      have := hfull.resolve_left Bool.false_ne_true
      omega

/-- A piece is written whole, or what there is room for. -/
theorem Holds.raw (h : Holds capacity text writer) (piece : Bytes) :
    ∃ later, writer.raw piece = some later ∧ Holds capacity (text ++ piece) later := by
  unfold JsonBuffer.raw
  by_cases hfull : writer.truncated = true ∨ writer.length + 1 ≥ writer.capacity
  · rw [if_pos hfull]
    exact ⟨_, rfl, h.cut hfull piece⟩
  rw [if_neg hfull]
  obtain ⟨hnot, hroom⟩ := not_or.mp hfull
  obtain ⟨hlength, hfits, hprefix⟩ := h.whole (by simpa using hnot)
  have hcapacity := h.bound
  have hsize := h.size
  have hfront : text <+: writer.buffer := (List.prefix_append text [0]).trans hprefix
  -- what `vsnprintf` writes behind the text
  have hpiece : text.length + (piece.take (capacity - text.length - 1) ++ [0]).length ≤
      writer.buffer.length := by
    simp only [List.length_append, List.length_take, List.length_singleton]
    omega
  obtain ⟨buffer, hstore, hlen, hdone⟩ := storeRange_front hfront hpiece
  have hzero : 0 ∈ buffer := hdone.subset (by simp)
  have hprinted : vsnprintf writer.buffer writer.length (writer.capacity - writer.length) piece =
      some (if piece.length < 2 ^ 31 then (piece.length : Int) else -1, buffer) := by
    rw [vsnprintf, if_neg (by omega), hlength, hcapacity, hstore]
    rfl
  rw [hprinted]
  simp only [Option.bind_eq_bind, Option.bind_some]
  have hcut : ¬ text.length + piece.length < capacity ∨ 2 ^ 31 ≤ piece.length →
      Holds capacity (text ++ piece) { writer with buffer, truncated := true } := by
    intro hlong
    refine ⟨hlen.trans hsize, hcapacity, hzero, fun hwhole => (by cases hwhole), fun _ => ?_⟩
    rw [List.length_append]
    omega
  by_cases hshort : piece.length < 2 ^ 31
  · simp only [if_pos hshort, Int.toNat_natCast]
    split
    · rename_i hwritten
      exact ⟨_, rfl, hcut (.inl (by omega))⟩
    · rename_i hwritten
      have hlt : ¬ piece.length ≥ writer.capacity - writer.length := (not_or.mp hwritten).2
      refine ⟨_, rfl, hlen.trans hsize, hcapacity, hzero, fun _ => ⟨?_, ?_, ?_⟩,
        fun hfull => absurd hfull hnot⟩
      · rw [List.length_append, hlength]
      · rw [List.length_append]
        omega
      · rw [List.take_of_length_le (by omega), ← List.append_assoc] at hdone
        exact hdone
  · simp only [if_neg hshort]
    exact ⟨_, rfl, hcut (.inr (by omega))⟩

/-- A text with room to spare is not cut. -/
theorem Holds.finishes (h : Holds capacity text writer) (hroom : text.length + 1 < capacity)
    (hshort : text.length < 2 ^ 31) : writer.finish = 0 := by
  unfold JsonBuffer.finish
  cases htruncated : writer.truncated with
  | false => rfl
  | true =>
    have := h.full htruncated
    omega

theorem Holds.chars (h : Holds capacity text writer) (value : Bytes) :
    ∃ later, value.foldlM (fun writer c => JsonBuffer.raw writer (jsonChar c)) writer = some later ∧
      Holds capacity (text ++ value.flatMap jsonChar) later := by
  induction value generalizing text writer with
  | nil => exact ⟨writer, rfl, by simpa using h⟩
  | cons c value ih =>
    obtain ⟨next, hnext, hone⟩ := h.raw (jsonChar c)
    obtain ⟨later, hlater, hall⟩ := ih hone
    refine ⟨later, ?_, ?_⟩
    · rw [List.foldlM_cons, hnext]
      exact hlater
    · rw [List.flatMap_cons, ← List.append_assoc]
      exact hall

theorem Holds.string (h : Holds capacity text writer) (value : Bytes) :
    ∃ later, writer.string value = some later ∧ Holds capacity (text ++ quoted value) later := by
  obtain ⟨opened, hopened, hfirst⟩ := h.raw [34]
  obtain ⟨filled, hfilled, hmiddle⟩ := hfirst.chars value
  obtain ⟨later, hlater, hlast⟩ := hmiddle.raw [34]
  refine ⟨later, ?_, ?_⟩
  · rw [JsonBuffer.string, hopened]
    simp only [Option.bind_eq_bind, Option.bind_some, hfilled]
    exact hlater
  · simpa [quoted] using hlast

/-- What a call appends. -/
def callText : JsonCall → Bytes
  | .raw text => text
  | .string value => quoted value

theorem Holds.calls (h : Holds capacity text writer) (calls : List JsonCall) :
    ∃ later, calls.foldlM JsonBuffer.call writer = some later ∧
      Holds capacity (text ++ calls.flatMap callText) later := by
  induction calls generalizing text writer with
  | nil => exact ⟨writer, rfl, by simpa using h⟩
  | cons call calls ih =>
    have hcall : ∃ next, writer.call call = some next ∧
        Holds capacity (text ++ callText call) next := by
      cases call with
      | raw piece => exact h.raw piece
      | string value => exact h.string value
    obtain ⟨next, hnext, hone⟩ := hcall
    obtain ⟨later, hlater, hall⟩ := ih hone
    refine ⟨later, ?_, ?_⟩
    · rw [List.foldlM_cons, hnext]
      exact hlater
    · rw [List.flatMap_cons, ← List.append_assoc]
      exact hall

/-- The writer without its memory. -/
def textOf (writer : JsonBuffer) : JsonWriter :=
  ⟨writer.capacity, writer.buffer.take writer.length, writer.truncated⟩

/-- The writer of texts does what the writer with memory does, with every text whose length is
an `int`. -/
theorem raw_textOf (h : Holds capacity text writer) {piece : Bytes} (hshort : piece.length < 2 ^ 31) :
    (writer.raw piece).map textOf = some (jsonRaw (textOf writer) piece) := by
  unfold JsonBuffer.raw jsonRaw
  cases hcut : writer.truncated with
  | true =>
    rw [if_pos (.inl rfl), if_pos (.inl hcut)]
    rfl
  | false =>
    obtain ⟨hlength, hfits, hprefix⟩ := h.whole hcut
    have hbound := h.bound
    have hsize := h.size
    have hfront : text <+: writer.buffer := (List.prefix_append text [0]).trans hprefix
    have htaken : ∀ {buffer done : Bytes}, done <+: buffer → buffer.take done.length = done :=
      fun hdone => (List.prefix_iff_eq_take.mp hdone).symm
    simp only [textOf, hcut, hlength, htaken hfront, Bool.false_eq_true, false_or]
    by_cases hfull : text.length + 1 ≥ writer.capacity
    · rw [if_pos hfull, if_pos hfull, Option.map_some, textOf, htaken hfront]
    rw [if_neg hfull, if_neg hfull]
    have hpiece : text.length + (piece.take (writer.capacity - text.length - 1) ++ [0]).length ≤
        writer.buffer.length := by
      simp only [List.length_append, List.length_take, List.length_singleton]
      omega
    obtain ⟨buffer, hstore, -, hdone⟩ := storeRange_front hfront hpiece
    have hnat : ¬ ((piece.length : Int) < 0) := by omega
    rw [vsnprintf, if_neg (by omega), hstore]
    simp only [if_pos hshort, Option.map_some, Option.bind_eq_bind, Option.bind_some,
      Int.toNat_natCast, hnat, false_or]
    by_cases hlong : piece.length ≥ writer.capacity - text.length
    · have hfront' : text <+: buffer := (List.prefix_append text _).trans hdone
      rw [if_pos hlong, if_pos hlong, Option.pure_def, Option.map_some, textOf, htaken hfront']
    · rw [List.take_of_length_le (by omega), ← List.append_assoc] at hdone
      have hfront' : text ++ piece <+: buffer := (List.prefix_append _ [0]).trans hdone
      rw [if_neg hlong, if_neg hlong, Option.pure_def, Option.map_some, textOf, ← List.length_append,
        htaken hfront']

/-- Every byte of a value becomes a character of a JSON string. -/
theorem jsonChar_character (c : UInt8) : JsonCharacter (jsonChar c) := by
  unfold jsonChar
  split
  · rename_i hc
    apply JsonCharacter.escaped
    cases hc with
    | inl hc => subst hc; decide
    | inr hc => subst hc; decide
  · rename_i hquote
    obtain ⟨hquote, hslash⟩ := not_or.mp hquote
    split
    · exact .escaped (by decide)
    · split
      · exact .escaped (by decide)
      · split
        · exact .escaped (by decide)
        · split
          · exact .plain (by decide) (by decide) (by decide)
          · rename_i hlow
            exact .plain (UInt8.not_lt.mp hlow) hquote hslash

theorem quoted_string (value : Bytes) : JsonString (quoted value) :=
  jsonString_flatMap fun c _ => jsonChar_character c

/-- After any calls on a buffer of any size the writer has stayed inside, the buffer is
terminated, and a success means that all texts are in it, strings as JSON strings. -/
theorem json_never_truncated (buffer : Bytes) (hpos : 1 ≤ buffer.length) (calls : List JsonCall) :
    ∃ writer, (JsonBuffer.begin buffer buffer.length).bind (calls.foldlM JsonBuffer.call) =
        some writer ∧
      writer.buffer.length = buffer.length ∧ 0 ∈ writer.buffer ∧
      (writer.finish = 0 →
        (calls.flatMap callText).length < buffer.length ∧
        writer.length = (calls.flatMap callText).length ∧
        calls.flatMap callText ++ [0] <+: writer.buffer) ∧
      ∀ value, JsonString (callText (.string value)) := by
  obtain ⟨first, hfirst, hempty⟩ := begin_holds hpos
  obtain ⟨writer, hwriter, hholds⟩ := hempty.calls calls
  rw [List.nil_append] at hholds
  refine ⟨writer, ?_, hholds.size, hholds.terminated, fun hfinish => ?_, quoted_string⟩
  · rw [hfirst]
    exact hwriter
  · have hwhole : writer.truncated = false := by
      unfold JsonBuffer.finish at hfinish
      split at hfinish
      · cases hfinish
      · simp_all
    obtain ⟨hlength, hfits, hprefix⟩ := hholds.whole hwhole
    exact ⟨hfits, hlength, hprefix⟩

/-- Two texts that fill a buffer up to its terminator. -/
theorem json_fills_buffer :
    ∃ writer, (JsonBuffer.begin (List.replicate 6 1) 6).bind
        ([JsonCall.raw [91], .string [34]].foldlM JsonBuffer.call) = some writer ∧
      writer.finish = 0 ∧ [91, 34, 92, 34, 34, 0] <+: writer.buffer := by
  obtain ⟨writer, hrun, -, -, hwhole, -⟩ :=
    json_never_truncated (List.replicate 6 1) (by decide) [.raw [91], .string [34]]
  have hfinish : ((JsonBuffer.begin (List.replicate 6 1) 6).bind
      ([JsonCall.raw [91], .string [34]].foldlM JsonBuffer.call)).map JsonBuffer.finish =
        some 0 := by
    decide
  rw [List.length_replicate] at hrun
  rw [hrun] at hfinish
  have hzero := Option.some.inj hfinish
  exact ⟨writer, hrun, hzero, (hwhole hzero).2.2⟩

end Camstream.Proofs.JsonWriting
