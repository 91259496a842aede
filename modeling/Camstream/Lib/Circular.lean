import Mathlib.Tactic
import Mathlib.Logic.Function.Basic

namespace Camstream.Lib

variable {α : Type}

/-- The occupied cells of a circular buffer of `n` cells, oldest first. -/
def window (cells : Nat → α) (n head count : Nat) : List α :=
  (List.range count).map (fun i => cells ((head + i) % n))

@[simp] theorem window_length (cells : Nat → α) (n head count : Nat) :
    (window cells n head count).length = count := by
  simp [window]

@[simp] theorem window_zero (cells : Nat → α) (n head : Nat) : window cells n head 0 = [] := rfl

/-- Advancing the head drops the oldest cell. -/
theorem window_succ (cells : Nat → α) {n head : Nat} (hh : head < n) (count : Nat) :
    window cells n head (count + 1) = cells head :: window cells n ((head + 1) % n) count := by
  simp only [window, List.range_succ_eq_map, List.map_cons, List.map_map, Nat.add_zero,
    Nat.mod_eq_of_lt hh, Function.comp_def, Nat.succ_eq_add_one, Nat.mod_add_mod]
  congr 2
  funext i
  rw [show head + (i + 1) = head + 1 + i by omega]

/-- Two positions of one revolution are different cells. -/
theorem position_ne {n head i count : Nat} (hi : i < count) (hc : count < n) :
    (head + i) % n ≠ (head + count) % n := by
  intro he
  have hn : 0 < n := by omega
  have h : (head + i) ≡ (head + count) [MOD n] := he
  have h' : i ≡ count [MOD n] := Nat.ModEq.add_left_cancel' head h
  have := Nat.ModEq.eq_of_lt_of_lt h' (by omega) hc
  omega

/-- Writing the free cell behind the newest one appends to the window. -/
theorem window_push (cells : Nat → α) {n head count : Nat} (hc : count < n) (a : α) :
    window (Function.update cells ((head + count) % n) a) n head (count + 1) =
      window cells n head count ++ [a] := by
  unfold window
  rw [List.range_succ, List.map_append]
  congr 1
  · apply List.map_congr_left
    intro i hi
    rw [Function.update_of_ne (position_ne (List.mem_range.mp hi) hc)]
  · simp

/-- Of a buffer whose cells may be empty: the occupied cells hold something, the others nothing. -/
structure Occupied (cells : Nat → Option α) (n head count : Nat) : Prop where
  filled : ∀ k < count, (cells ((head + k) % n)).isSome = true
  vacant : ∀ k, count ≤ k → k < n → cells ((head + k) % n) = none

/-- The oldest cell is emptied, and the head advances. -/
theorem Occupied.pop {cells : Nat → Option α} {n head count : Nat}
    (h : Occupied cells n head (count + 1)) (hc : count < n) :
    Occupied (Function.update cells (head % n) none) n ((head + 1) % n) count := by
  have hmove : ∀ k, ((head + 1) % n + k) % n = (head + (k + 1)) % n := by
    intro k
    rw [Nat.mod_add_mod, show head + 1 + k = head + (k + 1) by omega]
  refine ⟨?_, ?_⟩
  · intro k hk
    have hne : (head + (k + 1)) % n ≠ head % n :=
      (@position_ne n head 0 (k + 1) (by omega) (by omega)).symm
    rw [hmove, Function.update_of_ne hne]
    exact h.filled (k + 1) (by omega)
  · intro k hk hkn
    rw [hmove]
    by_cases heq : (head + (k + 1)) % n = head % n
    · rw [heq, Function.update_self]
    · rw [Function.update_of_ne heq]
      by_cases hlast : k + 1 < n
      · exact h.vacant (k + 1) (by omega) hlast
      · rw [show head + (k + 1) = head + n by omega, Nat.add_mod_right] at heq
        exact absurd rfl heq

/-- The free cell behind the newest one is filled. -/
theorem Occupied.push {cells : Nat → Option α} {n head count : Nat}
    (h : Occupied cells n head count) (a : α) :
    Occupied (Function.update cells ((head + count) % n) (some a)) n head (count + 1) := by
  refine ⟨?_, ?_⟩
  · intro k hk
    by_cases heq : (head + k) % n = (head + count) % n
    · rw [heq, Function.update_self]
      rfl
    · rw [Function.update_of_ne heq]
      apply h.filled
      have hne : k ≠ count := fun hk => heq (hk ▸ rfl)
      omega
  · intro k hk hkn
    have hne : (head + k) % n ≠ (head + count) % n := (position_ne hk hkn).symm
    rw [Function.update_of_ne hne]
    exact h.vacant k (by omega) hkn

/-- Emptying the oldest cell drops it from the window. -/
theorem window_pop (cells : Nat → α) {n head count : Nat} (hh : head < n) (hc : count < n) (a : α) :
    window cells n head (count + 1) =
      cells head :: window (Function.update cells head a) n ((head + 1) % n) count := by
  rw [window_succ cells hh]
  congr 1
  apply List.map_congr_left
  intro k hk
  have hlt := List.mem_range.mp hk
  have hne : ((head + 1) % n + k) % n ≠ head := by
    rw [Nat.mod_add_mod, show head + 1 + k = head + (k + 1) by omega]
    have hposition := @position_ne n head 0 (k + 1) (by omega) (by omega)
    rw [Nat.add_zero, Nat.mod_eq_of_lt hh] at hposition
    exact hposition.symm
  rw [Function.update_of_ne hne]

end Camstream.Lib
