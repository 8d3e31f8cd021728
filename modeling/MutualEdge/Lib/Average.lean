import Mathlib.Algebra.BigOperators.Ring.Finset
import Mathlib.Algebra.Order.BigOperators.Group.Finset
import Mathlib.Algebra.Order.Field.Basic
import Mathlib.Tactic.Positivity

/-! Averages over the indices of an array that satisfy a condition.

    A loop that adds up and counts leaves a sum and a number; their quotient lies between any bounds of
    the values. -/

namespace Average
open Finset

variable {K : Type} [Field K] [LinearOrder K] [IsStrictOrderedRing K] {n : ℕ} {v : ℕ → Prop}
  [DecidablePred v] {x : ℕ → K} {lo hi : K}

/-- The number of indices below `n` that count. -/
def count (n : ℕ) (v : ℕ → Prop) [DecidablePred v] : ℕ := ∑ i ∈ range n, if v i then 1 else 0

/-- The sum of their values. -/
def total (n : ℕ) (v : ℕ → Prop) [DecidablePred v] (x : ℕ → K) : K :=
  ∑ i ∈ range n, if v i then x i else 0

omit [LinearOrder K] [IsStrictOrderedRing K] in
theorem total_const (c : K) : total n v (fun _ => c) = count n v * c := by
  rw [total, count, Nat.cast_sum, sum_mul]
  refine sum_congr rfl fun i _ => ?_
  split <;> simp

theorem count_pos (h : ∃ i < n, v i) : 0 < count n v := by
  obtain ⟨i, hi, hv⟩ := h
  refine sum_pos' (fun _ _ => Nat.zero_le _) ⟨i, mem_range.mpr hi, ?_⟩
  rw [if_pos hv]
  exact Nat.one_pos

theorem total_le_total {y : ℕ → K} (h : ∀ i < n, v i → x i ≤ y i) : total n v x ≤ total n v y := by
  refine sum_le_sum fun i hi => ?_
  split
  · rename_i hv
    exact h i (mem_range.mp hi) hv
  · exact le_rfl

/-- A lower bound of the values is one of their average. -/
theorem le_average (h : ∃ i < n, v i) (hlo : ∀ i < n, v i → lo ≤ x i) :
    lo ≤ total n v x / count n v := by
  have hpos : (0 : K) < count n v := Nat.cast_pos.mpr (count_pos h)
  rw [le_div_iff₀ hpos, mul_comm, ← total_const]
  exact total_le_total hlo

/-- An upper bound of the values is one of their average. -/
theorem average_le (h : ∃ i < n, v i) (hhi : ∀ i < n, v i → x i ≤ hi) :
    total n v x / count n v ≤ hi := by
  have hpos : (0 : K) < count n v := Nat.cast_pos.mpr (count_pos h)
  rw [div_le_iff₀ hpos, mul_comm, ← total_const]
  exact total_le_total hhi

end Average
