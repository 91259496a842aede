import Mathlib.Data.List.Induction
import Mathlib.Data.Option.Basic

namespace Camstream.Lib.Mailbox

/-- What happens to a box that holds one thing: something is put in its place, a taker
leaves with what it gave, or a note is made that leaves the box alone. -/
inductive Event (α β γ : Type)
  | put (x : α)
  | took (r : Option β)
  | note (n : γ)
deriving Repr, DecidableEq

section Mailbox
variable {α β γ : Type}

def keep (slot : Option α) : Event α β γ → Option α
  | .put x => some x
  | .took _ => none
  | .note _ => slot

/-- What the box holds after a history, the newest event last. -/
def kept (log : List (Event α β γ)) : Option α := log.foldl keep none

def Event.putting : Event α β γ → Option α
  | .put x => some x
  | _ => none

def Event.taking : Event α β γ → Option β
  | .took r => r
  | _ => none

def puts (log : List (Event α β γ)) : List α := log.filterMap Event.putting

def taken (log : List (Event α β γ)) : List β := log.filterMap Event.taking

variable {log : List (Event α β γ)}

@[simp] theorem kept_nil : kept ([] : List (Event α β γ)) = none := rfl

@[simp] theorem kept_concat (e : Event α β γ) : kept (log ++ [e]) = keep (kept log) e := by
  simp [kept]

@[simp] theorem puts_append (more : List (Event α β γ)) :
    puts (log ++ more) = puts log ++ puts more := List.filterMap_append

@[simp] theorem taken_append (more : List (Event α β γ)) :
    taken (log ++ more) = taken log ++ taken more := List.filterMap_append

@[simp] theorem puts_put (x : α) : puts [(.put x : Event α β γ)] = [x] := rfl

@[simp] theorem puts_took (r : Option β) : puts [(.took r : Event α β γ)] = [] := rfl

@[simp] theorem puts_note (n : γ) : puts [(.note n : Event α β γ)] = [] := rfl

@[simp] theorem taken_put (x : α) : taken [(.put x : Event α β γ)] = [] := rfl

@[simp] theorem taken_took (r : Option β) : taken [(.took r : Event α β γ)] = r.toList := by
  cases r <;> rfl

@[simp] theorem taken_note (n : γ) : taken [(.note n : Event α β γ)] = [] := rfl

theorem mem_puts {x : α} : x ∈ puts log ↔ .put x ∈ log := by
  refine List.mem_filterMap.trans ⟨?_, fun h => ⟨.put x, h, rfl⟩⟩
  intro h
  obtain ⟨e, he, hx⟩ := h
  cases e with
  | put y =>
    cases hx
    exact he
  | took r => cases hx
  | note n => cases hx

theorem taken_eq_nil (h : ∀ r, .took r ∉ log) : taken log = [] := by
  apply List.filterMap_eq_nil_iff.mpr
  intro e he
  cases e with
  | put x => rfl
  | took r => exact absurd he (h r)
  | note n => rfl

theorem rel_imp {R R' : α → β → Prop} {o : Option α} {o' : Option β} (h : Option.Rel R o o')
    (himp : ∀ a b, o = some a → R a b → R' a b) : Option.Rel R' o o' := by
  cases h with
  | some hab => exact .some (himp _ _ rfl hab)
  | none => exact .none

theorem rel_map {R : γ → β → Prop} {g : α → γ} {o : Option α} {o' : Option β}
    (h : Option.Rel (fun a b => R (g a) b) o o') : Option.Rel R (o.map g) o' := by
  cases h with
  | some hab => exact .some hab
  | none => exact .none

/-- A split of a history that has one more event, at one of its events. -/
theorem split_concat {e f : Event α β γ} {a b : List (Event α β γ)}
    (h : log ++ [e] = a ++ f :: b) :
    (a = log ∧ f = e ∧ b = []) ∨ ∃ b', b = b' ++ [e] ∧ log = a ++ f :: b' := by
  cases b using List.reverseRecOn with
  | nil =>
    obtain ⟨hlog, he⟩ := List.append_inj' h rfl
    cases he
    exact .inl ⟨hlog.symm, rfl, rfl⟩
  | append_singleton b' g =>
    rw [← List.cons_append, ← List.append_assoc] at h
    obtain ⟨hlog, he⟩ := List.append_inj' h rfl
    cases he
    exact .inr ⟨b', rfl, hlog⟩

/-- What the box holds was put there, and nothing was put or taken since. -/
theorem kept_some {x : α} (h : kept log = some x) :
    ∃ a b, log = a ++ .put x :: b ∧ (∀ y, .put y ∉ b) ∧ ∀ r, .took r ∉ b := by
  induction log using List.reverseRecOn with
  | nil => cases h
  | append_singleton log e ih =>
    rw [kept_concat] at h
    cases e with
    | put y =>
      cases h
      exact ⟨log, [], rfl, by simp, by simp⟩
    | took r => cases h
    | note n =>
      obtain ⟨a, b, rfl, hput, htook⟩ := ih h
      exact ⟨a, b ++ [.note n], by simp, by simpa using hput, by simpa using htook⟩

/-- From an empty box, all that was put there has been followed by a take. -/
theorem kept_none (h : kept log = none) {a b : List (Event α β γ)} {x : α}
    (hlog : log = a ++ .put x :: b) : ∃ r, .took r ∈ b := by
  induction log using List.reverseRecOn generalizing b with
  | nil => simp at hlog
  | append_singleton log e ih =>
    rw [kept_concat] at h
    rcases split_concat hlog with ⟨-, rfl, -⟩ | ⟨b', rfl, hlog'⟩
    · cases h
    · cases e with
      | put y => cases h
      | took r => exact ⟨r, by simp⟩
      | note n =>
        obtain ⟨r, hr⟩ := ih h hlog'
        exact ⟨r, List.mem_append_left _ hr⟩

/-- Every taker left with what the box held. -/
def Faithful (S : β → α → Prop) (log : List (Event α β γ)) : Prop :=
  ∀ a r b, log = a ++ .took r :: b → Option.Rel S r (kept a)

variable {S : β → α → Prop}

theorem Faithful.nil : Faithful S ([] : List (Event α β γ)) := by
  intro a r b h
  simp at h

theorem Faithful.concat {e : Event α β γ} (h : Faithful S log)
    (he : ∀ r, e = .took r → Option.Rel S r (kept log)) : Faithful S (log ++ [e]) := by
  intro a r b hlog
  rcases split_concat hlog with ⟨rfl, htook, -⟩ | ⟨b', -, hlog'⟩
  · exact he r htook.symm
  · exact h a r b' hlog'

theorem Faithful.front {e : Event α β γ} (h : Faithful S (log ++ [e])) : Faithful S log := by
  intro a r b hlog
  refine h a r (b ++ [e]) ?_
  simp [hlog]

section Keys
variable {κ : Type} {key : β → κ} {key' : α → κ}

/-- What was taken, and then what is left, are among what was put, in the same order. -/
theorem Faithful.sublist (h : Faithful S log) (hkey : ∀ y x, S y x → key y = key' x) :
    ((taken log).map key ++ (kept log).toList.map key').Sublist ((puts log).map key') := by
  induction log using List.reverseRecOn with
  | nil => exact .slnil
  | append_singleton log e ih =>
    have hbefore := ih h.front
    cases e with
    | put x =>
      have htaken := (List.sublist_append_left _ _).trans hbefore
      have hmore := htaken.append_right [key' x]
      simpa [keep] using hmore
    | took r =>
      have hrel := h log r [] rfl
      cases hkept : kept log with
      | none =>
        rw [hkept] at hrel hbefore
        cases hrel
        simpa [keep] using hbefore
      | some x =>
        rw [hkept] at hrel hbefore
        cases hrel with
        | some hyx =>
          rw [Option.toList_some, List.map_singleton, ← hkey _ _ hyx] at hbefore
          simpa [keep] using hbefore
    | note n => simpa [keep] using hbefore

/-- Where the keys of what is put only go up, those of what is taken do too. -/
theorem Faithful.rising {R : κ → κ → Prop} (h : Faithful S log)
    (hkey : ∀ y x, S y x → key y = key' x) (hputs : ((puts log).map key').Pairwise R) :
    ((taken log).map key).Pairwise R :=
  hputs.sublist ((List.sublist_append_left _ _).trans (h.sublist hkey))

end Keys

end Mailbox

end Camstream.Lib.Mailbox
