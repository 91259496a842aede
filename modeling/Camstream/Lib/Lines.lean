import Camstream.Lib.CText

namespace Camstream.Lib

/-- The lines of a text, cut at the line feeds; `line` is what was read of the present
one. Nothing behind the last line feed is no line. -/
def linesFrom (line : Bytes) : Bytes → List Bytes
  | [] => if line = [] then [] else [line]
  | c :: rest => if c = 10 then line :: linesFrom [] rest else linesFrom (line ++ [c]) rest

def textLines (text : Bytes) : List Bytes := linesFrom [] text

/-- A text of lines that each end in CR LF. -/
def crlfText (lines : List Bytes) : Bytes := lines.flatMap fun line => line ++ [13, 10]

@[simp] theorem crlfText_nil : crlfText [] = [] := rfl

@[simp] theorem crlfText_cons (line : Bytes) (lines : List Bytes) :
    crlfText (line :: lines) = line ++ 13 :: 10 :: crlfText lines := by
  simp [crlfText]

@[simp] theorem crlfText_append (a b : List Bytes) :
    crlfText (a ++ b) = crlfText a ++ crlfText b := by
  simp [crlfText]

theorem linesFrom_append {letters : Bytes} (h : 10 ∉ letters) (line rest : Bytes) :
    linesFrom line (letters ++ rest) = linesFrom (line ++ letters) rest := by
  induction letters generalizing line with
  | nil => simp
  | cons c letters ih =>
    obtain ⟨hc, hrest⟩ : 10 ≠ c ∧ 10 ∉ letters := by simpa using h
    rw [List.cons_append, linesFrom, if_neg (Ne.symm hc), ih hrest]
    simp

theorem linesFrom_lf (line rest : Bytes) :
    linesFrom line (10 :: rest) = line :: textLines rest := by
  rw [linesFrom, if_pos rfl, textLines]

/-- The first line of a text with a line feed. -/
theorem textLines_cons {line : Bytes} (h : 10 ∉ line) (rest : Bytes) :
    textLines (line ++ 10 :: rest) = line :: textLines rest := by
  rw [textLines, linesFrom_append h, List.nil_append, linesFrom_lf]

theorem textLines_last {line : Bytes} (h : 10 ∉ line) (hne : line ≠ []) :
    textLines line = [line] := by
  have hlast := linesFrom_append h [] []
  rw [List.append_nil, List.nil_append] at hlast
  rw [textLines, hlast, linesFrom, if_neg hne]

theorem linesFrom_clean {line text : Bytes} (h : 10 ∉ line) :
    ∀ l ∈ linesFrom line text, 10 ∉ l := by
  induction text generalizing line with
  | nil =>
    intro l hl
    rw [linesFrom] at hl
    split at hl
    · cases hl
    · rw [List.mem_singleton.mp hl]
      exact h
  | cons c rest ih =>
    intro l hl
    rw [linesFrom] at hl
    split at hl
    · rcases List.mem_cons.mp hl with rfl | hl
      · exact h
      · exact ih (by simp) l hl
    · rename_i hc
      exact ih (by simp [h, Ne.symm hc]) l hl

/-- No line has a line feed in it. -/
theorem textLines_clean (text : Bytes) : ∀ l ∈ textLines text, 10 ∉ l :=
  linesFrom_clean (by simp)

/-- The lines of a text that was put together from lines. -/
theorem textLines_crlf {lines : List Bytes} (h : ∀ l ∈ lines, 10 ∉ l) :
    textLines (crlfText lines) = lines.map (· ++ [13]) := by
  induction lines with
  | nil => rfl
  | cons line lines ih =>
    have hline : 10 ∉ line ++ [13] := by simp [h line (by simp)]
    have hsplit : crlfText (line :: lines) = (line ++ [13]) ++ 10 :: crlfText lines := by simp
    rw [hsplit, textLines_cons hline, ih fun l hl => h l (by simp [hl]), List.map_cons]

/-- The texts between the spaces; `field` is what was read of the present one. -/
def fieldsFrom (field : Bytes) : Bytes → List Bytes
  | [] => if field = [] then [] else [field]
  | c :: rest =>
    if c = 32 then
      if field = [] then fieldsFrom [] rest else field :: fieldsFrom [] rest
    else fieldsFrom (field ++ [c]) rest

/-- The tokens `strtok_r(text, " ", ...)` yields. -/
def spaceFields (text : Bytes) : List Bytes := fieldsFrom [] text

end Camstream.Lib
