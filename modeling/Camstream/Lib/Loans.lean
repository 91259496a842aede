import Mathlib.Data.List.Perm.Basic
import Mathlib.Logic.Function.Basic

namespace Camstream.Lib

section Loans
variable {α β : Type}

/-- Objects that go back and forth between two sides: each is on one of them, once. What
they have lent comes with a value, which is the object's for as long as it is lent. -/
structure Loans (all : List α) (value : α → β) (ours : List α) (lent : List (α × β)) : Prop where
  perm : (ours ++ lent.map Prod.fst).Perm all
  nodup : all.Nodup
  kept : ∀ p ∈ lent, value p.1 = p.2

variable {all : List α} {value value' : α → β} {ours ours' : List α} {lent : List (α × β)} {a : α}

theorem Loans.start (value : α → β) (hours : ours.Perm all) (hall : all.Nodup) :
    Loans all value ours [] :=
  ⟨by simpa using hours, hall, by simp⟩

/-- Nothing is on both sides. -/
theorem Loans.apart (h : Loans all value ours lent) (ha : a ∈ ours) : a ∉ lent.map Prod.fst := by
  have hnodup := h.perm.nodup_iff.mpr h.nodup
  exact fun hlent => (List.nodup_append.mp hnodup).2.2 a ha a hlent rfl

theorem Loans.length (h : Loans all value ours lent) : ours.length + lent.length = all.length := by
  have hlen := h.perm.length_eq
  rwa [List.length_append, List.length_map] at hlen

theorem Loans.mem (h : Loans all value ours lent) (ha : a ∈ ours) : a ∈ all :=
  h.perm.mem_iff.mp (List.mem_append_left _ ha)

theorem Loans.mem_lent (h : Loans all value ours lent) {p : α × β} (hp : p ∈ lent) : p.1 ∈ all :=
  h.perm.mem_iff.mp (List.mem_append_right _ (List.mem_map_of_mem hp))

theorem Loans.reorder (h : Loans all value ours lent) (hours : ours'.Perm ours) :
    Loans all value ours' lent :=
  ⟨(hours.append_right _).trans h.perm, h.nodup, h.kept⟩

/-- What is ours may change. -/
theorem Loans.write (h : Loans all value ours lent) (hvalue : ∀ b, b ∉ ours → value' b = value b) :
    Loans all value' ours lent := by
  refine ⟨h.perm, h.nodup, fun p hp => ?_⟩
  rw [hvalue p.1 fun hours => h.apart hours (List.mem_map_of_mem hp)]
  exact h.kept p hp

theorem Loans.lend (h : Loans all value (a :: ours) lent) :
    Loans all value ours (lent ++ [(a, value a)]) := by
  refine ⟨?_, h.nodup, ?_⟩
  · refine List.Perm.trans ?_ h.perm
    rw [List.map_append, ← List.append_assoc]
    exact List.perm_append_comm
  · intro p hp
    cases List.mem_append.mp hp with
    | inl hold => exact h.kept p hold
    | inr hnew => rw [List.mem_singleton.mp hnew]

/-- One of those lent comes back. -/
theorem Loans.back (h : Loans all value ours lent) {k : Nat} {p : α × β} (hk : lent[k]? = some p) :
    Loans all value (p.1 :: ours) (lent.eraseIdx k) := by
  obtain ⟨hlt, rfl⟩ := List.getElem?_eq_some_iff.mp hk
  refine ⟨?_, h.nodup, fun q hq => h.kept q (List.mem_of_mem_eraseIdx hq)⟩
  have hpick : (lent[k].1 :: (lent.eraseIdx k).map Prod.fst).Perm (lent.map Prod.fst) := by
    rw [← List.map_cons (f := Prod.fst)]
    exact (List.getElem_cons_eraseIdx_perm hlt).map _
  refine List.Perm.trans ?_ ((hpick.append_left ours).trans h.perm)
  exact List.perm_middle.symm

end Loans

end Camstream.Lib
