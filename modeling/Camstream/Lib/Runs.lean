namespace Camstream.Lib

section Runs
variable {σ ε : Type} (step : σ → ε → σ)

/-- The state after a sequence of events. -/
def run (s : σ) (events : List ε) : σ := events.foldl step s

/-- Every event of the run is allowed in the state it meets. -/
def Allowed (ok : σ → ε → Prop) : σ → List ε → Prop
  | _, [] => True
  | s, e :: events => ok s e ∧ Allowed ok (step s e) events

variable {step}

@[simp] theorem run_nil (s : σ) : run step s [] = s := rfl

@[simp] theorem run_cons (s : σ) (e : ε) (events : List ε) :
    run step s (e :: events) = run step (step s e) events := rfl

theorem run_append (s : σ) (xs ys : List ε) :
    run step s (xs ++ ys) = run step (run step s xs) ys := List.foldl_append

/-- What every step preserves holds along the whole run. -/
theorem run_invariant {P : σ → Prop} {s : σ} (h0 : P s) (hstep : ∀ s e, P s → P (step s e))
    (events : List ε) : P (run step s events) := by
  induction events generalizing s with
  | nil => exact h0
  | cons e events ih => exact ih (hstep s e h0)

/-- The same for a run whose events are all allowed. -/
theorem run_invariant_of_allowed {P : σ → Prop} {ok : σ → ε → Prop} {s : σ} (h0 : P s)
    (hstep : ∀ s e, P s → ok s e → P (step s e)) (events : List ε)
    (ha : Allowed step ok s events) : P (run step s events) := by
  induction events generalizing s with
  | nil => exact h0
  | cons e events ih => exact ih (hstep s e h0 ha.1) ha.2

/-- The same for a run whose events all have a property. -/
theorem run_invariant_of_mem {P : σ → Prop} {Q : ε → Prop} {s : σ} (h0 : P s)
    (hstep : ∀ s e, P s → Q e → P (step s e)) (events : List ε) (hq : ∀ e ∈ events, Q e) :
    P (run step s events) := by
  induction events generalizing s with
  | nil => exact h0
  | cons e events ih =>
    exact ih (hstep s e h0 (hq e (by simp))) fun x hx => hq x (by simp [hx])

/-- A view that follows another machine step by step, follows it along every run. -/
theorem run_view {τ : Type} {step' : τ → ε → τ} {view : σ → τ} {P : σ → Prop} {s : σ} (h0 : P s)
    (hstep : ∀ s e, P s → P (step s e))
    (hview : ∀ s e, P s → view (step s e) = step' (view s) e) (events : List ε) :
    view (run step s events) = run step' (view s) events := by
  induction events generalizing s with
  | nil => rfl
  | cons e events ih =>
    rw [run_cons, run_cons, ih (hstep s e h0), hview s e h0]

/-- Two conditions on the steps that agree wherever the invariant holds, and of which the
first keeps it, admit the same of the runs that the environment allows. -/
theorem allowed_iff {P : σ → Prop} {env ok good : σ → ε → Prop} {s : σ} (h0 : P s)
    (hstep : ∀ s e, P s → env s e → ok s e → P (step s e))
    (hiff : ∀ s e, P s → env s e → (good s e ↔ ok s e)) (events : List ε)
    (henv : Allowed step env s events) :
    Allowed step good s events ↔ Allowed step ok s events := by
  induction events generalizing s with
  | nil => exact Iff.rfl
  | cons e events ih =>
    obtain ⟨he, hrest⟩ := henv
    refine ⟨?_, ?_⟩
    · rintro ⟨hgood, hgoods⟩
      have hok := (hiff s e h0 he).mp hgood
      exact ⟨hok, (ih (hstep s e h0 he hok) hrest).mp hgoods⟩
    · rintro ⟨hok, hoks⟩
      exact ⟨(hiff s e h0 he).mpr hok, (ih (hstep s e h0 he hok) hrest).mpr hoks⟩

/-- A condition on the steps that keeps the invariant, and gives what is wanted of a step
wherever it holds, gives it along the runs that the environment allows. -/
theorem allowed_of_allowed {P : σ → Prop} {env ok good : σ → ε → Prop} {s : σ} (h0 : P s)
    (hstep : ∀ s e, P s → env s e → ok s e → P (step s e))
    (hgood : ∀ s e, P s → env s e → ok s e → good s e) (events : List ε)
    (henv : Allowed step env s events) (hok : Allowed step ok s events) :
    Allowed step good s events := by
  induction events generalizing s with
  | nil => trivial
  | cons e events ih =>
    obtain ⟨he, hrest⟩ := henv
    obtain ⟨hfirst, hoks⟩ := hok
    exact ⟨hgood s e h0 he hfirst, ih (hstep s e h0 he hfirst) hrest hoks⟩

/-- What the invariant gives at every step admits every run. -/
theorem allowed_of_invariant {P : σ → Prop} {good : σ → ε → Prop} {s : σ} (h0 : P s)
    (hstep : ∀ s e, P s → P (step s e)) (hgood : ∀ s e, P s → good s e) (events : List ε) :
    Allowed step good s events := by
  induction events generalizing s with
  | nil => trivial
  | cons e events ih => exact ⟨hgood s e h0, ih (hstep s e h0)⟩

instance Allowed.decidable {ok : σ → ε → Prop} [∀ s e, Decidable (ok s e)] :
    ∀ (s : σ) (events : List ε), Decidable (Allowed step ok s events)
  | _, [] => isTrue trivial
  | s, e :: events =>
    haveI : Decidable (Allowed step ok (step s e) events) := Allowed.decidable (step s e) events
    inferInstanceAs (Decidable (ok s e ∧ Allowed step ok (step s e) events))

/-- Steps that may fail, and follow the others where they are allowed. -/
theorem partial_run_eq {step' : σ → ε → Option σ} {ok : σ → ε → Prop}
    (hok : ∀ s e, ok s e → step' s e = some (step s e)) {s : σ} {events : List ε}
    (h : Allowed step ok s events) : events.foldlM step' s = some (run step s events) := by
  induction events generalizing s with
  | nil => rfl
  | cons e events ih =>
    rw [List.foldlM_cons, hok s e h.1]
    exact ih h.2

/-- Where they fail on all others, a run fails unless all of it is allowed. -/
theorem partial_run_iff {step' : σ → ε → Option σ} {ok : σ → ε → Prop}
    (hok : ∀ s e, ok s e → step' s e = some (step s e))
    (hbad : ∀ s e, ¬ ok s e → step' s e = none) (s : σ) (events : List ε) :
    (events.foldlM step' s).isSome = true ↔ Allowed step ok s events := by
  refine ⟨fun h => ?_, fun h => by rw [partial_run_eq hok h]; rfl⟩
  induction events generalizing s with
  | nil => exact trivial
  | cons e events ih =>
    rw [List.foldlM_cons] at h
    by_cases he : ok s e
    · rw [hok s e he] at h
      exact ⟨he, ih (step s e) h⟩
    · rw [hbad s e he] at h
      cases h

end Runs

end Camstream.Lib
