import Mathlib.Algebra.BigOperators.Group.Finset.Basic
import Mathlib.Algebra.Order.Ring.Nat
import Mathlib.Data.List.GetD

/-! Histograms of lists of small numbers, and how they follow an update of the list.

    `histogram k l` counts the numbers below `k`. Appending a number adds one to its bin; overwriting
    an entry moves one from the old value's bin to the new one's. -/

/-- How often each number below `k` occurs. -/
def histogram (k : ℕ) (l : List ℕ) : List ℕ := (List.range k).map fun a => l.count a

namespace histogram

variable {k a b : ℕ} {l : List ℕ}

@[simp] theorem length (k : ℕ) (l : List ℕ) : (histogram k l).length = k := by simp [histogram]

@[simp] theorem getElem {i : ℕ} (h : i < (histogram k l).length) :
    (histogram k l)[i] = l.count i := by simp [histogram]

theorem getD (h : a < k) (l : List ℕ) : (histogram k l).getD a 0 = l.count a := by
  rw [List.getD_eq_getElem _ _ (by simpa using h), getElem]

theorem nil (k : ℕ) : histogram k [] = List.replicate k 0 := by
  refine List.ext_getElem (by simp) fun i h _ => ?_
  rw [getElem, List.getElem_replicate, List.count_nil]

/-- A positive bin is that of a number below `k` that occurs. -/
theorem lt_of_getD_pos (h : 0 < (histogram k l).getD a 0) : a < k := by
  by_contra hge
  rw [List.getD_eq_default _ _ (by simpa using hge)] at h
  exact absurd h (Nat.lt_irrefl 0)

theorem snoc (l : List ℕ) (a : ℕ) :
    histogram k (l ++ [a]) = (histogram k l).modify a fun n => n + 1 := by
  refine List.ext_getElem (by simp) fun i h _ => ?_
  rw [getElem, List.getElem_modify, List.count_append, getElem]
  by_cases hia : a = i
  · subst hia
    simp
  · rw [if_neg hia, List.count_singleton, if_neg (by simpa using hia), Nat.add_zero]

/-- Overwriting an entry moves one from the bin of the old value to that of the new one. -/
theorem set {i : ℕ} (hi : i < l.length) (ha : l[i] = a) (b : ℕ) :
    histogram k (l.set i b) =
      ((histogram k l).modify a fun n => n - 1).modify b fun n => n + 1 := by
  refine List.ext_getElem (by simp) fun j h _ => ?_
  rw [getElem, List.count_set hi, ha, List.getElem_modify, List.getElem_modify, getElem]
  by_cases haj : a = j <;> by_cases hbj : b = j <;> simp [haj, hbj]

/-- The bins add up to the length when nothing falls outside them. -/
theorem sum (h : ∀ a ∈ l, a < k) : (histogram k l).sum = l.length := by
  calc (histogram k l).sum
      = ∑ a ∈ Finset.range k, (l : Multiset ℕ).count a := by
        simp only [Multiset.coe_count]
        rfl
    _ = (l : Multiset ℕ).card := by
      refine Multiset.sum_count_eq_card fun a ha => ?_
      exact Finset.mem_range.mpr (h a (by simpa using ha))
    _ = l.length := rfl

end histogram
