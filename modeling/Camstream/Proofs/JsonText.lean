import Camstream.App.AppServer

namespace Camstream.Proofs.JsonText
open Lib App

/-- A writer that has been given this text: all of it when it fits with its terminator,
and a note that it did not otherwise. -/
structure Wrote (capacity : Nat) (text : Bytes) (writer : JsonWriter) : Prop where
  size : writer.capacity = capacity
  fits : text.length < capacity → writer.truncated = false ∧ writer.text = text
  cut : capacity ≤ text.length → writer.truncated = true

/-- What `json_string` writes for a value. -/
def quoted (value : Bytes) : Bytes := 34 :: (value.flatMap jsonChar ++ [34])

theorem wrote_begin {capacity : Nat} (h : 0 < capacity) : Wrote capacity [] (jsonBegin capacity) :=
  ⟨rfl, fun _ => ⟨rfl, rfl⟩, fun hle => absurd hle (Nat.not_le_of_lt h)⟩

theorem Wrote.raw {capacity : Nat} {text piece : Bytes} {writer : JsonWriter}
    (h : Wrote capacity text writer) (hpiece : piece ≠ []) :
    Wrote capacity (text ++ piece) (jsonRaw writer piece) := by
  have hpos : 0 < piece.length := List.length_pos_iff.mpr hpiece
  have hcapacity := h.size
  unfold jsonRaw
  by_cases hfits : text.length < capacity
  · obtain ⟨hnot, htext⟩ := h.fits hfits
    subst hcapacity
    subst htext
    simp only [hnot, Bool.false_eq_true, false_or]
    split
    · refine ⟨rfl, fun hlt => ?_, fun _ => rfl⟩
      rw [List.length_append] at hlt
      omega
    · split
      · refine ⟨rfl, fun hlt => ?_, fun _ => rfl⟩
        rw [List.length_append] at hlt
        omega
      · refine ⟨rfl, fun _ => ⟨rfl, rfl⟩, fun hle => ?_⟩
        rw [List.length_append] at hle
        omega
  · have hover := h.cut (Nat.le_of_not_lt hfits)
    rw [if_pos (.inl hover)]
    refine ⟨hcapacity, fun hlt => ?_, fun _ => rfl⟩
    rw [List.length_append] at hlt
    omega

theorem jsonChar_ne_nil (c : UInt8) : jsonChar c ≠ [] := by
  unfold jsonChar
  repeat' split
  all_goals exact List.cons_ne_nil _ _

theorem Wrote.chars {capacity : Nat} {text : Bytes} {writer : JsonWriter}
    (h : Wrote capacity text writer) (value : Bytes) :
    Wrote capacity (text ++ value.flatMap jsonChar)
      (value.foldl (fun writer c => jsonRaw writer (jsonChar c)) writer) := by
  induction value generalizing text writer with
  | nil => simpa using h
  | cons c value ih =>
    have hnext := ih (h.raw (jsonChar_ne_nil c))
    rw [List.append_assoc] at hnext
    exact hnext

theorem Wrote.string {capacity : Nat} {text : Bytes} {writer : JsonWriter}
    (h : Wrote capacity text writer) (value : Bytes) :
    Wrote capacity (text ++ quoted value) (jsonString writer value) := by
  have hwrote := ((h.raw (List.cons_ne_nil 34 [])).chars value).raw (List.cons_ne_nil 34 [])
  simp only [List.append_assoc, List.cons_append, List.nil_append] at hwrote
  exact hwrote

/-- The reply is the text exactly when the text is shorter than the buffer. -/
theorem Wrote.finish {capacity : Nat} {text : Bytes} {writer : JsonWriter}
    (h : Wrote capacity text writer) :
    jsonFinish writer = if text.length < capacity then some text else none := by
  unfold jsonFinish
  split
  · rename_i htruncated
    rw [if_neg]
    intro hlt
    rw [(h.fits hlt).1] at htruncated
    cases htruncated
  · rename_i hnot
    have hlt : text.length < capacity := by
      by_contra hle
      exact hnot (h.cut (Nat.le_of_not_lt hle))
    rw [if_pos hlt, (h.fits hlt).2]

end Camstream.Proofs.JsonText
