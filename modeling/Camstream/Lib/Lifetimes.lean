import Mathlib.Data.Set.Insert
import Mathlib.Data.List.Nodup

namespace Camstream.Lib

/-- What happens to the parts of a system while it runs. -/
inductive Life (κ : Type)
  | opened (part : κ)
  | used (part : κ)
  | closed (part : κ)
deriving Repr, DecidableEq

variable {κ : Type} {needs : κ → κ → Prop}

/-- A history that leads from the parts open before it to those open after it. Nothing is
opened twice or ahead of what it needs, nothing is used or closed that is not open, and
nothing is closed that an open part needs. -/
inductive Orderly (needs : κ → κ → Prop) : Set κ → List (Life κ) → Set κ → Prop
  | nil (before : Set κ) : Orderly needs before [] before
  | opened {before after : Set κ} {part : κ} {history : List (Life κ)}
      (fresh : part ∉ before) (served : ∀ other, needs part other → other ∈ before)
      (rest : Orderly needs (insert part before) history after) :
      Orderly needs before (.opened part :: history) after
  | used {before after : Set κ} {part : κ} {history : List (Life κ)}
      (here : part ∈ before) (rest : Orderly needs before history after) :
      Orderly needs before (.used part :: history) after
  | closed {before after : Set κ} {part : κ} {history : List (Life κ)}
      (here : part ∈ before) (unneeded : ∀ other ∈ before, ¬ needs other part)
      (rest : Orderly needs (before \ {part}) history after) :
      Orderly needs before (.closed part :: history) after

theorem Orderly.append {before middle after : Set κ} {first second : List (Life κ)}
    (hfirst : Orderly needs before first middle) (hsecond : Orderly needs middle second after) :
    Orderly needs before (first ++ second) after := by
  induction hfirst with
  | nil => exact hsecond
  | opened fresh served _ ih => exact .opened fresh served (ih hsecond)
  | used here _ ih => exact .used here (ih hsecond)
  | closed here unneeded _ ih => exact .closed here unneeded (ih hsecond)

/-- One more part is opened; `after` is what is open then. -/
theorem Orderly.open {before middle after : Set κ} {history : List (Life κ)} {part : κ}
    (h : Orderly needs before history middle) (fresh : part ∉ middle)
    (served : ∀ other, needs part other → other ∈ middle)
    (hafter : ∀ other, other ∈ after ↔ other = part ∨ other ∈ middle) :
    Orderly needs before (history ++ [.opened part]) after := by
  have hset : insert part middle = after := by
    ext other
    exact (hafter other).symm
  apply h.append
  apply Orderly.opened fresh served
  rw [hset]
  exact .nil after

theorem Orderly.use {before after : Set κ} {history : List (Life κ)} {part : κ}
    (h : Orderly needs before history after) (here : part ∈ after) :
    Orderly needs before (history ++ [.used part]) after :=
  h.append (.used here (.nil after))

theorem Orderly.useAll {before after : Set κ} {history : List (Life κ)}
    (h : Orderly needs before history after) {parts : List κ}
    (here : ∀ part ∈ parts, part ∈ after) :
    Orderly needs before (history ++ parts.map .used) after := by
  induction parts generalizing history with
  | nil => simpa using h
  | cons part parts ih =>
    have hrest := ih (h.use (here part List.mem_cons_self)) fun other hother =>
      here other (List.mem_cons_of_mem _ hother)
    simpa using hrest

/-- One part is closed; `after` is what is still open then. -/
theorem Orderly.close {before middle after : Set κ} {history : List (Life κ)} {part : κ}
    (h : Orderly needs before history middle) (here : part ∈ middle)
    (unneeded : ∀ other ∈ middle, ¬ needs other part)
    (hafter : ∀ other, other ∈ after ↔ other ∈ middle ∧ other ≠ part) :
    Orderly needs before (history ++ [.closed part]) after := by
  have hset : middle \ {part} = after := by
    ext other
    exact (hafter other).symm
  apply h.append
  apply Orderly.closed here unneeded
  rw [hset]
  exact .nil after

/-- Parts are opened one after the other, each one behind what it needs. -/
theorem Orderly.openAll {before middle : Set κ} {history : List (Life κ)}
    (h : Orderly needs before history middle) {parts : List κ} (hnodup : parts.Nodup)
    (fresh : ∀ part ∈ parts, part ∉ middle) (hself : ∀ part ∈ parts, ¬ needs part part)
    (hsorted : parts.Pairwise fun first second => ¬ needs first second)
    (served : ∀ part ∈ parts, ∀ other, needs part other → other ∈ middle ∨ other ∈ parts) :
    Orderly needs before (history ++ parts.map .opened) (middle ∪ {part | part ∈ parts}) := by
  induction parts generalizing history middle with
  | nil =>
    have hset : middle ∪ {part | part ∈ ([] : List κ)} = middle := by
      ext other
      simp
    rw [hset]
    simpa using h
  | cons part parts ih =>
    obtain ⟨hnew, hnodup⟩ := List.nodup_cons.mp hnodup
    obtain ⟨hfirst, hsorted⟩ := List.pairwise_cons.mp hsorted
    have hserved : ∀ other, needs part other → other ∈ middle := by
      intro other hneeds
      cases served part List.mem_cons_self other hneeds with
      | inl hthere => exact hthere
      | inr hlater =>
        cases List.mem_cons.mp hlater with
        | inl heq => exact absurd (heq ▸ hneeds) (hself part List.mem_cons_self)
        | inr hlater => exact absurd hneeds (hfirst other hlater)
    have hopened : Orderly needs before (history ++ [.opened part]) (insert part middle) :=
      h.open (fresh part List.mem_cons_self) hserved fun other => Iff.rfl
    have hrest := ih hopened hnodup
      (fun other hother hin => by
        cases hin with
        | inl heq => exact hnew (heq ▸ hother)
        | inr hold => exact fresh other (List.mem_cons_of_mem _ hother) hold)
      (fun other hother => hself other (List.mem_cons_of_mem _ hother)) hsorted
      (fun other hother third hneeds => by
        cases served other (List.mem_cons_of_mem _ hother) third hneeds with
        | inl hthere => exact .inl (.inr hthere)
        | inr hlater =>
          cases List.mem_cons.mp hlater with
          | inl heq => exact .inl (.inl heq)
          | inr hlater => exact .inr hlater)
    have hset : insert part middle ∪ {other | other ∈ parts} =
        middle ∪ {other | other ∈ part :: parts} := by
      ext other
      simp only [Set.mem_union, Set.mem_insert_iff, Set.mem_ofPred_eq, List.mem_cons]
      tauto
    rw [← hset]
    simpa using hrest

/-- Parts are closed one after the other, each one before what it needs. -/
theorem Orderly.closeAll {before middle : Set κ} {history : List (Life κ)}
    (h : Orderly needs before history middle) {parts : List κ} (hnodup : parts.Nodup)
    (here : ∀ part ∈ parts, part ∈ middle) (hself : ∀ part ∈ parts, ¬ needs part part)
    (hsorted : parts.Pairwise fun first second => ¬ needs second first)
    (hneeded : ∀ part ∈ parts, ∀ other ∈ middle, needs other part → other ∈ parts) :
    Orderly needs before (history ++ parts.map .closed) (middle \ {part | part ∈ parts}) := by
  induction parts generalizing history middle with
  | nil =>
    have hset : middle \ {part | part ∈ ([] : List κ)} = middle := by
      ext other
      simp
    rw [hset]
    simpa using h
  | cons part parts ih =>
    obtain ⟨hnew, hnodup⟩ := List.nodup_cons.mp hnodup
    obtain ⟨hfirst, hsorted⟩ := List.pairwise_cons.mp hsorted
    have hunneeded : ∀ other ∈ middle, ¬ needs other part := by
      intro other hother hneeds
      cases List.mem_cons.mp (hneeded part List.mem_cons_self other hother hneeds) with
      | inl heq => exact hself part List.mem_cons_self (heq ▸ hneeds)
      | inr hlater => exact hfirst other hlater hneeds
    have hclosed : Orderly needs before (history ++ [.closed part]) (middle \ {part}) :=
      h.close (here part List.mem_cons_self) hunneeded
      fun other => Iff.rfl
    have hrest := ih hclosed hnodup
      (fun other hother => ⟨here other (List.mem_cons_of_mem _ hother), fun heq =>
        hnew ((show other = part from heq) ▸ hother)⟩)
      (fun other hother => hself other (List.mem_cons_of_mem _ hother)) hsorted
      (fun other hother third hthird hneeds => by
        cases List.mem_cons.mp
            (hneeded other (List.mem_cons_of_mem _ hother) third hthird.1 hneeds) with
        | inl heq => exact absurd heq hthird.2
        | inr hlater => exact hlater)
    have hset : (middle \ {part}) \ {other | other ∈ parts} =
        middle \ {other | other ∈ part :: parts} := by
      ext other
      simp only [Set.mem_sdiff, Set.mem_singleton_iff, Set.mem_ofPred_eq, List.mem_cons, not_or,
        and_assoc]
    rw [← hset]
    simpa using hrest

/-- Parts that are opened, and then closed before anything else is opened, leave no trace.
They may be closed in any order in which none comes before one that needs it. -/
theorem Orderly.openClose {before middle : Set κ} {history : List (Life κ)}
    (h : Orderly needs before history middle) {parts : List κ} (closing : List κ)
    (hnodup : parts.Nodup) (fresh : ∀ part ∈ parts, part ∉ middle)
    (hself : ∀ part ∈ parts, ¬ needs part part)
    (hsorted : parts.Pairwise fun first second => ¬ needs first second)
    (served : ∀ part ∈ parts, ∀ other, needs part other → other ∈ middle ∨ other ∈ parts)
    (hdistinct : closing.Nodup) (hsame : ∀ part, part ∈ closing ↔ part ∈ parts)
    (hclosing : closing.Pairwise fun first second => ¬ needs second first)
    (hunneeded : ∀ other ∈ middle, ∀ part ∈ parts, ¬ needs other part) :
    Orderly needs before (history ++ (parts.map .opened ++ closing.map .closed)) middle := by
  have hclosed := (h.openAll hnodup fresh hself hsorted served).closeAll
    hdistinct (fun part hpart => .inr ((hsame part).mp hpart))
    (fun part hpart => hself part ((hsame part).mp hpart)) hclosing
    (fun part hpart other hother hneeds => by
      cases hother with
      | inl hold => exact absurd hneeds (hunneeded other hold part ((hsame part).mp hpart))
      | inr hnew => exact (hsame other).mpr hnew)
  have hset : (middle ∪ {part | part ∈ parts}) \ {part | part ∈ closing} = middle := by
    ext other
    simp only [Set.mem_sdiff, Set.mem_union, Set.mem_ofPred_eq, hsame]
    have hfresh := fresh other
    tauto
  rw [hset] at hclosed
  simpa using hclosed

/-- What the open parts need is open as well, at every moment. -/
theorem Orderly.served {before after : Set κ} {history : List (Life κ)}
    (h : Orderly needs before history after)
    (hbefore : ∀ part ∈ before, ∀ other, needs part other → other ∈ before) :
    ∀ part ∈ after, ∀ other, needs part other → other ∈ after := by
  induction h with
  | nil => exact hbefore
  | @opened before after part history fresh served rest ih =>
    apply ih
    intro a ha b hab
    cases ha with
    | inl heq =>
      subst heq
      exact .inr (served b hab)
    | inr hold => exact .inr (hbefore a hold b hab)
  | used here rest ih => exact ih hbefore
  | @closed before after part history here unneeded rest ih =>
    apply ih
    intro a ha b hab
    refine ⟨hbefore a ha.1 b hab, ?_⟩
    intro hb
    have heq : b = part := hb
    exact unneeded a ha.1 (heq ▸ hab)

/-- A history of two pieces passes through some parts open between them. -/
theorem Orderly.split {before after : Set κ} {first second : List (Life κ)}
    (h : Orderly needs before (first ++ second) after) :
    ∃ middle, Orderly needs before first middle ∧ Orderly needs middle second after := by
  induction first generalizing before with
  | nil => exact ⟨before, .nil before, h⟩
  | cons event first ih =>
    cases h with
    | opened fresh served rest =>
      obtain ⟨middle, hfirst, hsecond⟩ := ih rest
      exact ⟨middle, .opened fresh served hfirst, hsecond⟩
    | used here rest =>
      obtain ⟨middle, hfirst, hsecond⟩ := ih rest
      exact ⟨middle, .used here hfirst, hsecond⟩
    | closed here unneeded rest =>
      obtain ⟨middle, hfirst, hsecond⟩ := ih rest
      exact ⟨middle, .closed here unneeded hfirst, hsecond⟩

section Counts
open Classical

/-- Every opening is matched by one closing, but for the parts that are open at the end. -/
theorem Orderly.balanced [DecidableEq κ] {before after : Set κ} {history : List (Life κ)}
    (h : Orderly needs before history after) (part : κ) :
    history.count (.opened part) + (if part ∈ before then 1 else 0) =
      history.count (.closed part) + if part ∈ after then 1 else 0 := by
  induction h with
  | nil => simp
  | @opened before after other history fresh served rest ih =>
    by_cases heq : other = part
    · subst heq
      simp only [Set.mem_insert_iff, true_or, if_true] at ih
      simp only [List.count_cons_self, if_neg fresh, List.count_cons, beq_iff_eq, reduceCtorEq,
        if_false]
      omega
    · have hne : part ≠ other := fun hp => heq hp.symm
      simp only [Set.mem_insert_iff, hne, false_or] at ih
      simp only [List.count_cons, beq_iff_eq, Life.opened.injEq, heq, reduceCtorEq, if_false]
      omega
  | used here rest ih =>
    simp only [List.count_cons, beq_iff_eq, reduceCtorEq, if_false]
    exact ih
  | @closed before after other history here unneeded rest ih =>
    by_cases heq : other = part
    · subst heq
      simp only [Set.mem_sdiff, Set.mem_singleton_iff, not_true_eq_false, and_false, if_false] at ih
      simp only [List.count_cons_self, if_pos here, List.count_cons, beq_iff_eq, reduceCtorEq,
        if_false]
      omega
    · have hne : part ≠ other := fun hp => heq hp.symm
      simp only [Set.mem_sdiff, Set.mem_singleton_iff, hne, not_false_eq_true, and_true] at ih
      simp only [List.count_cons, beq_iff_eq, Life.closed.injEq, heq, reduceCtorEq, if_false]
      omega

end Counts

/-- A history that opens nothing for good: each part is closed as often as it is opened. -/
theorem Orderly.none_left [DecidableEq κ] {history : List (Life κ)}
    (h : Orderly needs ∅ history ∅) (part : κ) :
    history.count (.opened part) = history.count (.closed part) := by
  have hbalanced := h.balanced part
  simpa using hbalanced

end Camstream.Lib
