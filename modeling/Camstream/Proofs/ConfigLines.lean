import Camstream.App.AppConfig

namespace Camstream.Proofs.ConfigLines
open Lib App

/-- The lines of a file, each with its line feed; behind the last line feed there may be one
more without. `line` is what was read of the present one. -/
def logicalLines (line : Bytes) : Bytes → List Bytes
  | [] => if line = [] then [] else [line]
  | c :: rest => if c = 10 then (line ++ [c]) :: logicalLines [] rest else logicalLines (line ++ [c]) rest

/-- What is left of a line without its comment. -/
def uncommented (line : Bytes) : Bytes := line.takeWhile (· ≠ 35)

def lineText (line : Bytes) : Bytes := trim (uncommented line)

/-- Whether `app_config_set_key` accepts a setting does not depend on the configuration. -/
def accepted (key value : Bytes) : Bool := (appConfigSetKey appConfigDefaults key value).isSome

theorem setKey_accepted (config : AppConfig) (key value : Bytes) :
    (appConfigSetKey config key value).isSome = accepted key value := by
  simp only [accepted, appConfigSetKey, parseSourceKind, apply_ite Option.isSome, Option.isSome_map,
    Option.isSome_some, Option.isSome_none]

/-- What a line says. -/
inductive LineEffect
  | blank
  | setting (key value : Bytes)
  | refused
deriving Repr, DecidableEq

def lineEffect (line : Bytes) : LineEffect :=
  let text := lineText line
  if text = [] then .blank
  else if 61 ∉ text then .refused
  else
    let key := trim (text.takeWhile (· ≠ 61))
    let value := trim ((text.dropWhile (· ≠ 61)).drop 1)
    if key = [] ∨ value = [] ∨ accepted key value = false then .refused else .setting key value

def applyEffect (config : AppConfig) : LineEffect → AppConfig
  | .setting key value => (appConfigSetKey config key value).getD config
  | _ => config

/-- The body of the loop does what the line says. -/
theorem loadLine_effect (path : Bytes) (errorSize : Nat) (config : AppConfig) (number : Nat)
    {line : Bytes} (h : 0 ∉ line) :
    (lineEffect line = .refused → ∃ e, loadLine path errorSize config number line = .error e) ∧
    (lineEffect line ≠ .refused →
      loadLine path errorSize config number line = .ok (applyEffect config (lineEffect line))) := by
  have hstring : cString line = line := List.takeWhile_eq_self_iff.mpr fun c hc =>
    decide_eq_true fun heq => h (heq ▸ hc)
  have htext : trim ((cString line).takeWhile (· ≠ 35)) = lineText line := by
    rw [hstring]
    rfl
  unfold loadLine lineEffect
  rw [htext]
  generalize lineText line = text
  dsimp only
  by_cases hblank : text = []
  · simp [hblank, applyEffect]
  by_cases hequals : 61 ∈ text
  · simp only [hblank, if_false, hequals, not_true_eq_false]
    generalize trim (text.takeWhile (· ≠ 61)) = key
    generalize trim ((text.dropWhile (· ≠ 61)).drop 1) = value
    by_cases hempty : key = [] ∨ value = []
    · rw [if_pos hempty, if_pos (by tauto)]
      exact ⟨fun _ => ⟨_, rfl⟩, fun hne => absurd rfl hne⟩
    · have haccepted := setKey_accepted config key value
      rw [if_neg hempty]
      cases hset : appConfigSetKey config key value with
      | none =>
        rw [hset] at haccepted
        rw [if_pos (.inr (.inr haccepted.symm))]
        exact ⟨fun _ => ⟨_, rfl⟩, fun hne => absurd rfl hne⟩
      | some config' =>
        rw [hset, Option.isSome_some] at haccepted
        rw [if_neg (by rw [← haccepted]; tauto)]
        refine ⟨fun heq => (by cases heq), fun _ => ?_⟩
        simp [applyEffect, hset]
  · simp [hblank, hequals]

/-- The loop fails at the first refused line, and otherwise makes all settings. -/
theorem loadLines_effects (path : Bytes) (errorSize : Nat) (config : AppConfig) (number : Nat)
    {lines : List Bytes} (h : ∀ line ∈ lines, 0 ∉ line) :
    ((∃ line ∈ lines, lineEffect line = .refused) →
      ∃ e, loadLines path errorSize config number lines = .error e) ∧
    ((∀ line ∈ lines, lineEffect line ≠ .refused) →
      loadLines path errorSize config number lines =
        .ok ((lines.map lineEffect).foldl applyEffect config)) := by
  induction lines generalizing config number with
  | nil => exact ⟨fun hbad => absurd hbad (by simp), fun _ => rfl⟩
  | cons line lines ih =>
    obtain ⟨hrefused, hkept⟩ := loadLine_effect path errorSize config (number + 1) (h line (by simp))
    rw [loadLines]
    by_cases hline : lineEffect line = .refused
    · obtain ⟨e, he⟩ := hrefused hline
      rw [he]
      exact ⟨fun _ => ⟨e, rfl⟩, fun hall => absurd hline (hall line (by simp))⟩
    · obtain ⟨hbad, hgood⟩ := ih (applyEffect config (lineEffect line)) (number + 1)
        fun l hl => h l (List.mem_cons_of_mem line hl)
      rw [hkept hline]
      constructor
      · intro hsome
        obtain ⟨l, hl, hlr⟩ := hsome
        cases List.mem_cons.mp hl with
        | inl heq => exact absurd (heq ▸ hlr) hline
        | inr hrest => exact hbad ⟨l, hrest, hlr⟩
      · intro hall
        exact hgood fun l hl => hall l (List.mem_cons_of_mem line hl)

/-- The pieces of at most 511 bytes in which a line arrives. -/
def pieces (line : Bytes) : List Bytes :=
  if line = [] then [] else line.take 511 :: pieces (line.drop 511)
termination_by line.length
decreasing_by
  rename_i hne
  rw [List.length_drop]
  have := List.length_pos_iff.mpr hne
  omega

theorem pieces_full {piece : Bytes} (h : piece.length = 511) (rest : Bytes) :
    pieces (piece ++ rest) = piece :: pieces rest := by
  have hne : piece ++ rest ≠ [] := by
    intro hnil
    rw [(List.append_eq_nil_iff.mp hnil).1] at h
    cases h
  rw [pieces, if_neg hne, ← h, List.take_left, List.drop_left]

theorem pieces_short {piece : Bytes} (hne : piece ≠ []) (h : piece.length ≤ 511) :
    pieces piece = [piece] := by
  rw [pieces, if_neg hne, List.take_of_length_le h, List.drop_eq_nil_of_le h, pieces, if_pos rfl]

theorem pieces_done {done : List Bytes} (h : ∀ piece ∈ done, piece.length = 511) (rest : Bytes) :
    pieces (done.flatten ++ rest) = done ++ pieces rest := by
  induction done with
  | nil => rfl
  | cons piece done ih =>
    rw [List.flatten_cons, List.append_assoc, pieces_full (h piece (by simp)),
      ih fun p hp => h p (List.mem_cons_of_mem piece hp)]
    rfl

theorem pieces_flatten (line : Bytes) : (pieces line).flatten = line := by
  induction line using pieces.induct with
  | case1 => rw [pieces, if_pos rfl]; rfl
  | case2 line hne ih => rw [pieces, if_neg hne, List.flatten_cons, ih, List.take_append_drop]

/-- The pieces that `fgets` returns, those of one line together; a line feed ends its line. -/
def groupLines (group : List Bytes) : List Bytes → List (List Bytes)
  | [] => if group = [] then [] else [group]
  | piece :: rest =>
    if piece.getLast? = some 10 then (group ++ [piece]) :: groupLines [] rest
    else groupLines (group ++ [piece]) rest

/-- `fgets` cuts every line into its pieces. -/
theorem fgets_pieces {content : Bytes} {done : List Bytes} {line : Bytes}
    (hdone : ∀ piece ∈ done, piece.length = 511) (hline : line.length < 511) (hlf : 10 ∉ line) :
    groupLines done (fgetsLines 512 line content) =
      (logicalLines (done.flatten ++ line) content).map pieces := by
  induction content generalizing done line with
  | nil =>
    rw [fgetsLines, logicalLines]
    by_cases hempty : line = []
    · rw [if_pos hempty, hempty, List.append_nil, groupLines]
      by_cases hnone : done = []
      · rw [if_pos hnone, hnone]
        rfl
      · have hflat : done.flatten ≠ [] := by
          obtain ⟨piece, rest, rfl⟩ := List.exists_cons_of_ne_nil hnone
          intro hnil
          have hlen := congrArg List.length hnil
          rw [List.flatten_cons, List.length_append, hdone piece (by simp), List.length_nil] at hlen
          omega
        have hnil : pieces [] = [] := by rw [pieces, if_pos rfl]
        have hpieces := pieces_done hdone []
        rw [hnil, List.append_nil, List.append_nil] at hpieces
        rw [if_neg hnone, if_neg hflat, List.map_singleton, hpieces]
    · have hlast : line.getLast? ≠ some 10 := fun heq => hlf (List.mem_of_getLast? heq)
      have hne : done.flatten ++ line ≠ [] := fun hnil => hempty (List.append_eq_nil_iff.mp hnil).2
      rw [if_neg hempty, if_neg hne, groupLines, if_neg hlast, groupLines, if_neg (by simp),
        List.map_singleton, pieces_done hdone, pieces_short hempty (by omega)]
  | cons c rest ih =>
    rw [fgetsLines, logicalLines]
    by_cases hend : c = 10
    · subst hend
      have hlast : (line ++ [10]).getLast? = some 10 := List.getLast?_concat
      have hpieces : pieces (line ++ [10]) = [line ++ [10]] := pieces_short (by simp) (by
        rw [List.length_append, List.length_singleton]
        omega)
      rw [if_pos (.inl rfl), if_pos rfl, groupLines, if_pos hlast, List.map_cons, List.append_assoc,
        pieces_done hdone, hpieces, @ih [] [] (fun p hp => absurd hp List.not_mem_nil)
          (by decide) List.not_mem_nil]
      rfl
    · have hlf' : 10 ∉ line ++ [c] := by
        rw [List.mem_append, List.mem_singleton, not_or]
        exact ⟨hlf, Ne.symm hend⟩
      rw [if_neg hend]
      by_cases hfull : line.length + 2 = 512
      · have hlast : (line ++ [c]).getLast? ≠ some 10 := fun heq => hlf' (List.mem_of_getLast? heq)
        have hstep := @ih (done ++ [line ++ [c]]) [] (by
          intro piece hp
          cases List.mem_append.mp hp with
          | inl hold => exact hdone piece hold
          | inr hnew =>
            rw [List.mem_singleton.mp hnew, List.length_append, List.length_singleton]
            omega) (by decide) List.not_mem_nil
        rw [if_pos (.inr hfull), groupLines, if_neg hlast, hstep]
        simp
      · rw [if_neg (not_or.mpr ⟨hend, hfull⟩), ih hdone (by
          rw [List.length_append, List.length_singleton]
          omega) hlf', List.append_assoc]

/-- What is read of these pieces, up to the first refusal. -/
def readEffects : List LineEffect → List LineEffect
  | [] => []
  | .blank :: rest => readEffects rest
  | .refused :: _ => [.refused]
  | .setting key value :: rest => .setting key value :: readEffects rest

/-- The same for the pieces of every line. -/
def effectsByLine : List (List Bytes) → List (List LineEffect)
  | [] => []
  | group :: rest =>
    let seen := readEffects (group.map lineEffect)
    if .refused ∈ seen then [seen] else seen :: effectsByLine rest

theorem refused_mem_read (effects : List LineEffect) :
    .refused ∈ readEffects effects ↔ .refused ∈ effects := by
  induction effects with
  | nil => rfl
  | cons effect rest ih => cases effect <;> simp [readEffects, ih]

theorem fold_read (config : AppConfig) {effects : List LineEffect} (h : .refused ∉ effects) :
    (readEffects effects).foldl applyEffect config = effects.foldl applyEffect config := by
  induction effects generalizing config with
  | nil => rfl
  | cons effect rest ih =>
    rw [List.mem_cons, not_or] at h
    cases effect with
    | blank => exact ih config h.2
    | refused => exact absurd rfl h.1
    | setting key value => exact ih _ h.2

theorem refused_mem_byLine (groups : List (List Bytes)) :
    .refused ∈ (effectsByLine groups).flatten ↔ .refused ∈ groups.flatten.map lineEffect := by
  induction groups with
  | nil => rfl
  | cons group rest ih =>
    have hgroup := refused_mem_read (group.map lineEffect)
    rw [effectsByLine]
    rw [List.flatten_cons, List.map_append, List.mem_append]
    by_cases hrefused : .refused ∈ readEffects (group.map lineEffect)
    · rw [if_pos hrefused]
      have hmem := hgroup.mp hrefused
      simp [hrefused, hmem]
    · rw [if_neg hrefused, List.flatten_cons, List.mem_append, ih, hgroup]

theorem fold_byLine (config : AppConfig) {groups : List (List Bytes)}
    (h : .refused ∉ groups.flatten.map lineEffect) :
    (effectsByLine groups).flatten.foldl applyEffect config =
      (groups.flatten.map lineEffect).foldl applyEffect config := by
  induction groups generalizing config with
  | nil => rfl
  | cons group rest ih =>
    rw [List.flatten_cons, List.map_append, List.mem_append, not_or] at h
    have hgroup : .refused ∉ readEffects (group.map lineEffect) :=
      fun hmem => h.1 ((refused_mem_read _).mp hmem)
    rw [effectsByLine]
    rw [if_neg hgroup, List.flatten_cons, List.foldl_append, fold_read config h.1, ih _ h.2,
      List.flatten_cons, List.map_append, List.foldl_append]

theorem trim_nil_iff (text : Bytes) : trim text = [] ↔ ∀ c ∈ text, isSpaceByte c = true := by
  rw [trim, List.reverse_eq_nil_iff, List.dropWhile_eq_nil_iff]
  constructor
  · intro h
    rw [← List.dropWhile_eq_nil_iff]
    by_contra hne
    have hhead := List.head_dropWhile_not isSpaceByte hne
    rw [h _ (List.mem_reverse.mpr (List.head_mem hne))] at hhead
    cases hhead
  · intro h c hc
    exact h c ((List.dropWhile_sublist _).subset (List.mem_reverse.mp hc))

/-- White space around a text does not matter. -/
theorem trim_padded {front back : Bytes} (hfront : ∀ c ∈ front, isSpaceByte c = true)
    (hback : ∀ c ∈ back, isSpaceByte c = true) (text : Bytes) :
    trim (front ++ (text ++ back)) = trim text := by
  by_cases hspace : ∀ c ∈ text, isSpaceByte c = true
  · rw [(trim_nil_iff text).mpr hspace, trim_nil_iff]
    intro c hc
    obtain hc | hc := List.mem_append.mp hc
    · exact hfront c hc
    · cases List.mem_append.mp hc with
      | inl htext => exact hspace c htext
      | inr hrest => exact hback c hrest
  · have hkeep : (text ++ back).dropWhile isSpaceByte = text.dropWhile isSpaceByte ++ back := by
      rw [List.dropWhile_append, if_neg]
      rw [List.isEmpty_iff, List.dropWhile_eq_nil_iff]
      exact hspace
    have hreverse : ∀ c ∈ back.reverse, isSpaceByte c = true := fun c hc =>
      hback c (List.mem_reverse.mp hc)
    rw [trim, List.dropWhile_append_of_pos hfront, hkeep, List.reverse_append,
      List.dropWhile_append_of_pos hreverse, trim]

theorem uncommented_mem {front : Bytes} (h : 35 ∈ front) (rest : Bytes) :
    uncommented (front ++ rest) = uncommented front := by
  induction front with
  | nil => cases h
  | cons c front ih =>
    unfold uncommented at ih ⊢
    by_cases hc : c = 35
    · simp [hc]
    · cases List.mem_cons.mp h with
      | inl heq => exact absurd heq.symm hc
      | inr hrest => simpa [hc] using ih hrest

theorem uncommented_clean {front : Bytes} (h : 35 ∉ front) (rest : Bytes) :
    uncommented (front ++ rest) = front ++ uncommented rest :=
  List.takeWhile_append_of_pos fun _ hc => decide_eq_true fun heq => h (heq ▸ hc)

theorem uncommented_self {text : Bytes} (h : 35 ∉ text) : uncommented text = text := by
  have hclean := uncommented_clean h []
  rwa [List.append_nil, show uncommented [] = [] from rfl, List.append_nil] at hclean

/-- Blank pieces make a blank line. -/
theorem blank_flatten {texts : List Bytes} (h : ∀ text ∈ texts, lineText text = []) :
    ∀ c ∈ uncommented texts.flatten, isSpaceByte c = true := by
  induction texts with
  | nil => exact fun c hc => absurd hc List.not_mem_nil
  | cons text texts ih =>
    have hfirst := (trim_nil_iff _).mp (h text (by simp))
    rw [List.flatten_cons]
    by_cases hcomment : 35 ∈ text
    · rw [uncommented_mem hcomment]
      exact hfirst
    · rw [uncommented_clean hcomment]
      rw [uncommented_self hcomment] at hfirst
      intro c hc
      cases List.mem_append.mp hc with
      | inl hold => exact hfirst c hold
      | inr hrest => exact ih (fun t ht => h t (List.mem_cons_of_mem text ht)) c hrest

/-- A line with something on it, all in one piece, has the text of the piece. -/
theorem one_piece {before after : List Bytes} {piece : Bytes}
    (hbefore : ∀ text ∈ before, lineText text = []) (hafter : ∀ text ∈ after, lineText text = [])
    (hline : lineText (before ++ piece :: after).flatten ≠ []) :
    lineText (before ++ piece :: after).flatten = lineText piece := by
  have hfront := blank_flatten hbefore
  have hback := blank_flatten hafter
  rw [List.flatten_append, List.flatten_cons] at hline ⊢
  by_cases hcomment : 35 ∈ before.flatten
  · rw [lineText, uncommented_mem hcomment] at hline
    exact absurd ((trim_nil_iff _).mpr hfront) hline
  · rw [uncommented_self hcomment] at hfront
    unfold lineText
    rw [uncommented_clean hcomment]
    by_cases hinside : 35 ∈ piece
    · have hpadded := @trim_padded _ [] hfront (fun c hc => absurd hc List.not_mem_nil)
        (uncommented piece)
      rw [List.append_nil] at hpadded
      rw [uncommented_mem hinside, hpadded]
    · rw [uncommented_clean hinside, uncommented_self hinside, trim_padded hfront hback]

theorem effect_blank_iff (line : Bytes) : lineEffect line = .blank ↔ lineText line = [] := by
  unfold lineEffect
  dsimp only
  split
  · rename_i h
    exact ⟨fun _ => h, fun _ => rfl⟩
  · rename_i h
    refine ⟨fun heq => ?_, fun hnil => absurd hnil h⟩
    split at heq
    · cases heq
    · split at heq <;> cases heq

theorem effect_of_text {line line' : Bytes} (h : lineText line = lineText line') :
    lineEffect line = lineEffect line' := by
  unfold lineEffect
  rw [h]

theorem read_blank {lines : List Bytes} (h : ∀ line ∈ lines, lineText line = [])
    (rest : List LineEffect) : readEffects (lines.map lineEffect ++ rest) = readEffects rest := by
  induction lines with
  | nil => rfl
  | cons line lines ih =>
    rw [List.map_cons, (effect_blank_iff line).mpr (h line (by simp)), List.cons_append, readEffects]
    exact ih fun l hl => h l (List.mem_cons_of_mem line hl)

theorem first_text (lines : List Bytes) : (∀ line ∈ lines, lineText line = []) ∨
    ∃ before line after, lines = before ++ line :: after ∧
      (∀ text ∈ before, lineText text = []) ∧ lineText line ≠ [] := by
  induction lines with
  | nil => exact .inl fun line hline => absurd hline List.not_mem_nil
  | cons line lines ih =>
    by_cases hline : lineText line = []
    · obtain hall | ⟨before, text, after, rfl, hbefore, htext⟩ := ih
      · left
        intro l hl
        cases List.mem_cons.mp hl with
        | inl heq => rwa [heq]
        | inr hrest => exact hall l hrest
      · right
        refine ⟨line :: before, text, after, rfl, ?_, htext⟩
        intro l hl
        cases List.mem_cons.mp hl with
        | inl heq => rwa [heq]
        | inr hrest => exact hbefore l hrest
    · exact .inr ⟨[], line, lines, rfl, fun text ht => absurd ht List.not_mem_nil, hline⟩

/-- Nothing stands in any piece of the line, or all that stands in front of the comment of the
line stands in one piece; or the line is refused, and so is the first piece with a text. -/
def LineFits (line : Bytes) : Prop :=
  (∀ piece ∈ pieces line, lineText piece = []) ∨
  ∃ before piece after, pieces line = before ++ piece :: after ∧
    (∀ text ∈ before, lineText text = []) ∧ lineText piece ≠ [] ∧
    (((∀ text ∈ after, lineText text = []) ∧ lineText piece = lineText line) ∨
      (lineEffect piece = .refused ∧ lineEffect line = .refused))

/-- Every line up to the first one that is refused. -/
def LinesFit : List Bytes → Prop
  | [] => True
  | line :: rest => LineFits line ∧ (lineEffect line ≠ .refused → LinesFit rest)

theorem read_nil {effects : List LineEffect} (h : readEffects effects = []) :
    ∀ effect ∈ effects, effect = .blank := by
  induction effects with
  | nil => exact fun effect he => absurd he List.not_mem_nil
  | cons first rest ih =>
    cases first with
    | blank =>
      intro effect he
      cases List.mem_cons.mp he with
      | inl heq => exact heq
      | inr hrest => exact ih h effect hrest
    | refused => cases h
    | setting key value => cases h

theorem read_blank_behind (effect : LineEffect) {lines : List Bytes}
    (h : ∀ line ∈ lines, lineText line = []) :
    readEffects (effect :: lines.map lineEffect) = readEffects [effect] := by
  have hrest := read_blank h []
  rw [List.append_nil] at hrest
  cases effect with
  | blank => exact hrest
  | refused => rfl
  | setting key value => exact congrArg (LineEffect.setting key value :: ·) hrest

theorem fits_iff (line : Bytes) :
    readEffects ((pieces line).map lineEffect) = readEffects [lineEffect line] ↔ LineFits line := by
  have hsplit : ∀ {before : List Bytes} {piece : Bytes} {after : List Bytes},
      pieces line = before ++ piece :: after → (∀ text ∈ before, lineText text = []) →
        readEffects ((pieces line).map lineEffect) =
          readEffects (lineEffect piece :: after.map lineEffect) := by
    intro before piece after heq hbefore
    rw [heq, List.map_append, read_blank hbefore, List.map_cons]
  constructor
  · intro hread
    obtain hall | ⟨before, piece, after, heq, hbefore, hpiece⟩ := first_text (pieces line)
    · exact .inl hall
    rw [hsplit heq hbefore] at hread
    refine .inr ⟨before, piece, after, heq, hbefore, hpiece, ?_⟩
    cases heffect : lineEffect piece with
    | blank => exact absurd ((effect_blank_iff piece).mp heffect) hpiece
    | refused =>
      rw [heffect] at hread
      cases hline : lineEffect line with
      | blank => rw [hline] at hread; cases hread
      | refused => exact .inr ⟨rfl, rfl⟩
      | setting key value => rw [hline] at hread; cases hread
    | setting key value =>
      rw [heffect] at hread
      left
      have hline : lineText line ≠ [] := by
        intro hnil
        rw [(effect_blank_iff line).mpr hnil] at hread
        cases hread
      have hrest : readEffects (after.map lineEffect) = [] := by
        cases hother : lineEffect line with
        | blank => exact absurd ((effect_blank_iff line).mp hother) hline
        | refused => rw [hother] at hread; cases hread
        | setting key' value' =>
          rw [hother] at hread
          exact (List.cons.inj hread).2
      have hafter : ∀ text ∈ after, lineText text = [] := fun text ht =>
        (effect_blank_iff text).mp (read_nil hrest _ (List.mem_map_of_mem ht))
      have hwhole := pieces_flatten line
      rw [heq] at hwhole
      refine ⟨hafter, ?_⟩
      rw [← hwhole] at hline ⊢
      exact (one_piece hbefore hafter hline).symm
  · intro hfits
    obtain hall | ⟨before, piece, after, heq, hbefore, -, hcases⟩ := hfits
    · have hread := read_blank hall []
      have hblank := blank_flatten hall
      rw [pieces_flatten] at hblank
      rw [List.append_nil] at hread
      rw [hread, (effect_blank_iff line).mpr ((trim_nil_iff _).mpr hblank)]
      rfl
    rw [hsplit heq hbefore]
    obtain ⟨hafter, htext⟩ | ⟨hpiece, hline⟩ := hcases
    · rw [read_blank_behind _ hafter, effect_of_text htext]
    · rw [hpiece, hline]
      rfl

theorem byLine_iff (lines : List Bytes) :
    effectsByLine (lines.map pieces) = effectsByLine (lines.map fun line => [line]) ↔
      LinesFit lines := by
  induction lines with
  | nil => exact ⟨fun _ => trivial, fun _ => rfl⟩
  | cons line rest ih =>
    have hmem : .refused ∈ readEffects [lineEffect line] ↔ lineEffect line = .refused := by
      rw [refused_mem_read, List.mem_singleton, eq_comm]
    rw [List.map_cons, List.map_cons, effectsByLine, effectsByLine, LinesFit, ← fits_iff, ← ih,
      List.map_singleton]
    constructor
    · intro heq
      have hhead : readEffects ((pieces line).map lineEffect) = readEffects [lineEffect line] := by
        split at heq <;> split at heq <;> exact (List.cons.inj heq).1
      refine ⟨hhead, fun hkept => ?_⟩
      rw [hhead, if_neg (fun h => hkept (hmem.mp h)), if_neg (fun h => hkept (hmem.mp h))] at heq
      exact (List.cons.inj heq).2
    · intro hfits
      obtain ⟨hhead, htail⟩ := hfits
      rw [hhead]
      by_cases hrefused : lineEffect line = .refused
      · rw [if_pos (hmem.mpr hrefused), if_pos (hmem.mpr hrefused)]
      · rw [if_neg (fun h => hrefused (hmem.mp h)), if_neg (fun h => hrefused (hmem.mp h)),
          htail hrefused]

theorem groupLines_flatten (group lines : List Bytes) :
    (groupLines group lines).flatten = group ++ lines := by
  induction lines generalizing group with
  | nil =>
    rw [groupLines]
    split
    · rename_i h
      rw [h]
      rfl
    · simp
  | cons piece rest ih =>
    rw [groupLines]
    split
    · rw [List.flatten_cons, ih, List.append_assoc]
      rfl
    · rw [ih, List.append_assoc]
      rfl

theorem logicalLines_flatten (line content : Bytes) :
    (logicalLines line content).flatten = line ++ content := by
  induction content generalizing line with
  | nil =>
    rw [logicalLines]
    split
    · rename_i h
      rw [h]
      rfl
    · simp
  | cons c rest ih =>
    rw [logicalLines]
    split
    · rw [List.flatten_cons, ih, List.append_assoc]
      rfl
    · rw [ih, List.append_assoc]
      rfl

/-- The file is read line by line: it is accepted when all of its lines are, its settings are
made in the order of its lines, and each line has the effect of its text in front of the
comment and no other. -/
structure ReadsByLine (config : AppConfig) (path : Bytes) (configPath : Text 256) (content : Bytes)
    (errorSize : Nat) : Prop where
  accepts : (∃ config', appConfigLoadFile config path (some content) errorSize = .ok config') ↔
    ∀ line ∈ logicalLines [] content, lineEffect line ≠ .refused
  result : ∀ config', appConfigLoadFile config path (some content) errorSize = .ok config' →
    config' = ((logicalLines [] content).map lineEffect).foldl applyEffect { config with configPath }
  apart : effectsByLine (groupLines [] (fgetsLines 512 [] content)) =
    effectsByLine ((logicalLines [] content).map fun line => [line])

theorem config_lines_iff (config : AppConfig) {path : Bytes} {configPath : Text 256}
    (hpath : copyString 256 path = some configPath) {content : Bytes} (hclean : 0 ∉ content)
    (errorSize : Nat) :
    ReadsByLine config path configPath content errorSize ↔ LinesFit (logicalLines [] content) := by
  have hgroups : groupLines [] (fgetsLines 512 [] content) = (logicalLines [] content).map pieces :=
    fgets_pieces (fun p hp => absurd hp List.not_mem_nil) (by decide) List.not_mem_nil
  rw [← byLine_iff, ← hgroups]
  refine ⟨fun h => h.apart, fun hapart => ?_⟩
  have hpieces := groupLines_flatten [] (fgetsLines 512 [] content)
  have hlines := logicalLines_flatten [] content
  rw [List.nil_append] at hpieces hlines
  have hnul : ∀ piece ∈ fgetsLines 512 [] content, 0 ∉ piece := by
    intro piece hpiece hzero
    rw [← hpieces, hgroups] at hpiece
    obtain ⟨group, hgroup, hmem⟩ := List.mem_flatten.mp hpiece
    obtain ⟨line, hline, rfl⟩ := List.mem_map.mp hgroup
    apply hclean
    rw [← hlines, List.mem_flatten]
    refine ⟨line, hline, ?_⟩
    rw [← pieces_flatten line, List.mem_flatten]
    exact ⟨piece, hmem, hzero⟩
  have hne : path ≠ [] := by
    rintro rfl
    cases hpath
  have hload : appConfigLoadFile config path (some content) errorSize =
      loadLines path errorSize { config with configPath } 0 (fgetsLines 512 [] content) := by
    unfold appConfigLoadFile
    rw [if_neg hne]
    dsimp only
    rw [hpath]
  obtain ⟨hbad, hgood⟩ := loadLines_effects path errorSize { config with configPath } 0 hnul
  have hflat : ((logicalLines [] content).map fun line => [line]).flatten = logicalLines [] content := by
    rw [← List.flatMap_def, List.flatMap_singleton']
  have hrefused : .refused ∈ (fgetsLines 512 [] content).map lineEffect ↔
      .refused ∈ (logicalLines [] content).map lineEffect := by
    have hcode := refused_mem_byLine (groupLines [] (fgetsLines 512 [] content))
    rw [hapart, refused_mem_byLine, hflat, hpieces] at hcode
    exact hcode.symm
  have hkept : (∀ piece ∈ fgetsLines 512 [] content, lineEffect piece ≠ .refused) ↔
      ∀ line ∈ logicalLines [] content, lineEffect line ≠ .refused := by
    have hnot := not_congr hrefused
    simpa only [List.mem_map, not_exists, not_and] using hnot
  rw [← hload] at hbad hgood
  refine ⟨?_, ?_, hapart⟩
  · rw [← hkept]
    constructor
    · intro hok piece hpiece heffect
      obtain ⟨e, he⟩ := hbad ⟨piece, hpiece, heffect⟩
      obtain ⟨config', hconfig⟩ := hok
      rw [he] at hconfig
      cases hconfig
    · intro hall
      exact ⟨_, hgood hall⟩
  · intro config' hconfig
    have hall : ∀ piece ∈ fgetsLines 512 [] content, lineEffect piece ≠ .refused := by
      intro piece hpiece heffect
      obtain ⟨e, he⟩ := hbad ⟨piece, hpiece, heffect⟩
      rw [he] at hconfig
      cases hconfig
    have hnone : .refused ∉ (fgetsLines 512 [] content).map lineEffect := by
      rw [List.mem_map, not_exists]
      exact fun piece hpiece => hall piece hpiece.1 hpiece.2
    have hcode := @fold_byLine { config with configPath } (groupLines [] (fgetsLines 512 [] content))
      (by rwa [hpieces])
    have hwanted := @fold_byLine { config with configPath }
      ((logicalLines [] content).map fun line => [line]) (by rw [hflat, ← hrefused]; exact hnone)
    rw [hgood hall] at hconfig
    rw [← Except.ok.inj hconfig, ← hflat, ← hwanted, ← hapart, hcode, hpieces]

/-- A line that fits the buffer arrives whole. -/
theorem fits_short {line : Bytes} (h : line.length ≤ 511) : LineFits line := by
  by_cases hempty : line = []
  · left
    rw [hempty, pieces, if_pos rfl]
    exact fun piece hp => absurd hp List.not_mem_nil
  · apply (fits_iff line).mp
    rw [pieces_short hempty h]
    rfl

theorem linesFit_short {lines : List Bytes} (h : ∀ line ∈ lines, line.length ≤ 511) : LinesFit lines := by
  induction lines with
  | nil => trivial
  | cons line rest ih =>
    exact ⟨fits_short (h line (by simp)), fun _ => ih fun l hl => h l (List.mem_cons_of_mem line hl)⟩

def somePath : Text 256 := printText (ascii "cam.conf")

theorem short_file_read :
    ReadsByLine appConfigDefaults somePath.bytes somePath (ascii "fps = 1 # slow\n\n") 160 := by
  refine (config_lines_iff appConfigDefaults (by decide) (by decide) 160).mpr (linesFit_short ?_)
  decide

/-- A comment of 511 bytes with something like a setting behind them. -/
def longComment : Bytes := 35 :: (List.replicate 510 32 ++ ascii "fps = 1\n")

/-- The end of the comment is taken for a setting. -/
theorem comment_interpreted :
    ¬∀ (config : AppConfig) (path : Bytes) (configPath : Text 256) (content : Bytes) (errorSize : Nat),
      copyString 256 path = some configPath → 0 ∉ content →
        ReadsByLine config path configPath content errorSize := by
  intro hall
  have hreads := hall appConfigDefaults somePath.bytes somePath longComment 160 (by decide)
    (by decide +kernel)
  have hblank : ∀ line ∈ logicalLines [] longComment, lineEffect line = .blank := by decide +kernel
  have hcode : (appConfigLoadFile appConfigDefaults somePath.bytes (some longComment) 160).toOption.map
      AppConfig.fps = some 1 := by decide +kernel
  obtain ⟨config', hconfig⟩ := hreads.accepts.mpr fun line hline hrefused => by
    rw [hblank line hline] at hrefused
    cases hrefused
  have hfps : config'.fps = 30 := by
    have hfold : ∀ (effects : List LineEffect) (config : AppConfig), (∀ e ∈ effects, e = .blank) →
        effects.foldl applyEffect config = config := by
      intro effects
      induction effects with
      | nil => exact fun config _ => rfl
      | cons effect rest ih =>
        intro config heffects
        rw [List.foldl_cons, heffects effect (by simp)]
        exact ih config fun e he => heffects e (List.mem_cons_of_mem effect he)
    rw [hreads.result config' hconfig, hfold _ _ (by simpa using hblank)]
    rfl
  rw [hconfig, Except.toOption, Option.map_some, hfps] at hcode
  cases hcode

end Camstream.Proofs.ConfigLines
