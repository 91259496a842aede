import Mathlib.Data.List.Infix
import Mathlib.Tactic

namespace Camstream.Lib

section Blocks
variable {α : Type}

/-- The complete blocks of `size` elements, in order. -/
def wholeBlocks (size : Nat) (xs : List α) : List (List α) :=
  (List.range (xs.length / size)).map fun i => (xs.drop (i * size)).take size

/-- What is left behind them. -/
def lastBlock (size : Nat) (xs : List α) : List α := xs.drop (xs.length / size * size)

variable {size : Nat} {xs ys : List α}

@[simp] theorem wholeBlocks_nil : wholeBlocks size ([] : List α) = [] := by simp [wholeBlocks]

@[simp] theorem lastBlock_nil : lastBlock size ([] : List α) = [] := by simp [lastBlock]

@[simp] theorem wholeBlocks_length : (wholeBlocks size xs).length = xs.length / size := by
  simp [wholeBlocks]

@[simp] theorem lastBlock_length : (lastBlock size xs).length = xs.length % size := by
  have hdiv := Nat.div_add_mod' xs.length size
  simp only [lastBlock, List.length_drop]
  omega

theorem wholeBlocks_size {block : List α} (h : block ∈ wholeBlocks size xs) :
    block.length ≤ size := by
  obtain ⟨i, -, rfl⟩ := List.mem_map.mp h
  exact List.length_take_le _ _

/-- A block that ends inside the list is not changed by what comes behind it. -/
theorem block_append {i : Nat} (hi : i < xs.length / size) (ys : List α) :
    ((xs ++ ys).drop (i * size)).take size = (xs.drop (i * size)).take size := by
  have hend : (i + 1) * size ≤ xs.length :=
    (Nat.mul_le_mul_right size hi).trans (Nat.div_mul_le_self xs.length size)
  rw [Nat.add_mul, Nat.one_mul] at hend
  have hroom : size ≤ (xs.drop (i * size)).length := by
    rw [List.length_drop]
    omega
  rw [List.drop_append_of_le_length (by omega), List.take_append_of_le_length hroom]

/-- What does not fill the last block leaves the others as they are. -/
theorem wholeBlocks_append_part (h : xs.length % size + ys.length < size) :
    wholeBlocks size (xs ++ ys) = wholeBlocks size xs ∧
      lastBlock size (xs ++ ys) = lastBlock size xs ++ ys := by
  have hcount : (xs ++ ys).length / size = xs.length / size := by
    have hdiv := Nat.div_add_mod xs.length size
    calc (xs ++ ys).length / size
        = (size * (xs.length / size) + (xs.length % size + ys.length)) / size := by
          rw [List.length_append, ← Nat.add_assoc, hdiv]
      _ = xs.length / size := by
          rw [Nat.mul_add_div (by omega), Nat.div_eq_of_lt h, Nat.add_zero]
  refine ⟨?_, ?_⟩
  · simp only [wholeBlocks, hcount]
    apply List.map_congr_left
    intro i hi
    exact block_append (List.mem_range.mp hi) ys
  · have hle := Nat.div_mul_le_self xs.length size
    rw [lastBlock, hcount, List.drop_append_of_le_length hle, lastBlock]

/-- What fills it adds it to them. -/
theorem wholeBlocks_append_last (hsize : 0 < size) (h : xs.length % size + ys.length = size) :
    wholeBlocks size (xs ++ ys) = wholeBlocks size xs ++ [lastBlock size xs ++ ys] ∧
      lastBlock size (xs ++ ys) = [] := by
  have hdiv := Nat.div_add_mod' xs.length size
  have hlen : (xs ++ ys).length = (xs.length / size + 1) * size := by
    rw [List.length_append, Nat.add_mul]
    omega
  have hcount : (xs ++ ys).length / size = xs.length / size + 1 := by
    rw [hlen, Nat.mul_div_cancel _ hsize]
  refine ⟨?_, ?_⟩
  · simp only [wholeBlocks, hcount, List.range_succ, List.map_append, List.map_singleton]
    congr 1
    · apply List.map_congr_left
      intro i hi
      exact block_append (List.mem_range.mp hi) ys
    · have hle := Nat.div_mul_le_self xs.length size
      have hlast := @lastBlock_length α size xs
      rw [lastBlock] at hlast
      rw [List.drop_append_of_le_length hle, List.take_of_length_le, lastBlock]
      rw [List.length_append]
      omega
  · rw [lastBlock, hcount, ← hlen, List.drop_length]

end Blocks

end Camstream.Lib
