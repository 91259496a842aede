import Mathlib.Logic.Function.Basic
import Mathlib.Data.UInt
import Mathlib.Tactic

namespace Camstream.Lib

section DirectMapped
variable {α : Type}

/-- What became of items with 16 bit numbers, the latest first: each was stored, or
lost on the way. -/
abbrev ItemLog (α : Type) := List (UInt16 × Option α)

/-- The item that was last stored under a number. -/
def lastStored (log : ItemLog α) (n : UInt16) : Option α :=
  log.findSome? fun item => if item.1 = n then item.2 else none

/-- Numbers are given out one after the other and wrap around; `last` is the newest. -/
def Numbered (last : UInt16) (log : ItemLog α) : Prop :=
  ∀ k n r, log[k]? = some (n, r) → n + UInt16.ofNat k = last

/-- A direct mapped cache, where the slot of a number keeps one item with its
number, and the log of what was put into it. -/
structure Reflects (size : Nat) (slots : Nat → Option (UInt16 × α)) (log : ItemLog α) : Prop where
  placed : ∀ i n x, slots i = some (n, x) → n.toNat % size = i
  sound : ∀ i n x, slots i = some (n, x) → lastStored log n = some x
  fresh : ∀ k n x, k < size → log[k]? = some (n, some x) →
    slots (n.toNat % size) = some (n, x)

theorem numbered_nil (last : UInt16) : Numbered last ([] : ItemLog α) := by
  intro k n r h
  simp at h

theorem reflects_empty (size : Nat) : Reflects size (fun _ => none) ([] : ItemLog α) :=
  ⟨by simp, by simp, by simp⟩

theorem Numbered.next {last : UInt16} {log : ItemLog α} (h : Numbered last log) (r : Option α) :
    Numbered (last + 1) ((last + 1, r) :: log) := by
  intro k n r' hk
  cases k with
  | zero =>
    cases hk
    exact UInt16.add_zero _
  | succ k =>
    have hone := h k n r' hk
    rw [← hone, Nat.succ_eq_add_one, UInt16.ofNat_add, ← UInt16.add_assoc]
    rfl

theorem lastStored_lost (log : ItemLog α) (n m : UInt16) :
    lastStored ((n, none) :: log) m = lastStored log m := by
  simp [lastStored]

theorem lastStored_same (log : ItemLog α) (n : UInt16) (x : α) :
    lastStored ((n, some x) :: log) n = some x := by
  simp [lastStored]

theorem lastStored_other (log : ItemLog α) {n m : UInt16} (x : α) (h : n ≠ m) :
    lastStored ((n, some x) :: log) m = lastStored log m := by
  simp [lastStored, h]

theorem Reflects.lost {size : Nat} {slots : Nat → Option (UInt16 × α)} {log : ItemLog α}
    (h : Reflects size slots log) (n : UInt16) : Reflects size slots ((n, none) :: log) := by
  refine ⟨h.placed, ?_, ?_⟩
  · intro i m x hi
    rw [lastStored_lost]
    exact h.sound i m x hi
  · intro k m x hk hlog
    cases k with
    | zero => cases hlog
    | succ k => exact h.fresh k m x (by omega) hlog

/-- Two numbers less than a cache apart have slots of their own. -/
theorem slot_ne {size k : Nat} {n last : UInt16} (hsize : size ∣ 65536) (hk : k + 1 < size)
    (h : n + UInt16.ofNat k = last) : n.toNat % size ≠ (last + 1).toNat % size := by
  intro heq
  obtain ⟨c, hc⟩ := hsize
  have hsum : (last + 1).toNat = (n.toNat + (k + 1)) % 65536 := by
    rw [← h]
    simp [UInt16.toNat_add, Nat.add_assoc]
  rw [hsum, hc, Nat.mod_mul_right_mod] at heq
  have hz : (k + 1) % size = 0 := by
    have hmod : n.toNat % size = (n.toNat + (k + 1)) % size := heq
    have := Nat.sub_mod_eq_zero_of_mod_eq hmod.symm
    simpa using this
  rw [Nat.mod_eq_of_lt hk] at hz
  omega

/-- A stored item replaces the one in its slot, and the last `size` numbers keep
theirs. -/
theorem Reflects.stored {size : Nat} {slots : Nat → Option (UInt16 × α)} {log : ItemLog α}
    {last : UInt16} (hsize : size ∣ 65536) (h : Reflects size slots log)
    (hn : Numbered last log) (x : α) :
    Reflects size (Function.update slots ((last + 1).toNat % size) (some (last + 1, x)))
      ((last + 1, some x) :: log) := by
  refine ⟨?_, ?_, ?_⟩
  · intro i n y hi
    by_cases heq : i = (last + 1).toNat % size
    · subst heq
      rw [Function.update_self] at hi
      cases hi
      rfl
    · rw [Function.update_of_ne heq] at hi
      exact h.placed i n y hi
  · intro i n y hi
    by_cases heq : i = (last + 1).toNat % size
    · subst heq
      rw [Function.update_self] at hi
      cases hi
      exact lastStored_same log _ x
    · rw [Function.update_of_ne heq] at hi
      have hne : last + 1 ≠ n := by
        rintro rfl
        exact heq (h.placed i _ y hi).symm
      rw [lastStored_other log x hne]
      exact h.sound i n y hi
  · intro k n y hk hlog
    cases k with
    | zero =>
      cases hlog
      exact Function.update_self _ _ _
    | succ k =>
      rw [Function.update_of_ne (slot_ne hsize hk (hn k n _ hlog))]
      exact h.fresh k n y (by omega) hlog

end DirectMapped

end Camstream.Lib
