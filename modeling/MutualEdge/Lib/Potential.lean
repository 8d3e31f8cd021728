import Mathlib.Algebra.BigOperators.Group.Finset.Basic
import Mathlib.Data.Fintype.Basic
import Mathlib.Logic.Function.Basic

/-! Runs that a potential bounds.

    A partial step function takes a state and an action. When the steps of one kind lower a number, a run
    of them is no longer than the number it starts with; when they also can go on from every state of
    another kind, such a run leads out of these. `sum_update` is for potentials that are sums over the
    parts of a state. -/

namespace Potential

/-- One part of a state changes and the others stay. -/
theorem sum_update {ι β : Type} [Fintype ι] [DecidableEq ι] (f : β → ℕ) (g : ι → β) (i : ι) (b : β) :
    (∑ j, f (Function.update g i b j)) + f (g i) = (∑ j, f (g j)) + f b := by
  have hrest : ∑ j ∈ Finset.univ.erase i, f (Function.update g i b j) =
      ∑ j ∈ Finset.univ.erase i, f (g j) := by
    refine Finset.sum_congr rfl fun j hj => ?_
    rw [Function.update_of_ne (Finset.ne_of_mem_erase hj)]
  rw [← Finset.add_sum_erase _ _ (Finset.mem_univ i), hrest, Function.update_self,
    ← Finset.add_sum_erase _ (fun j => f (g j)) (Finset.mem_univ i)]
  omega

section Runs
variable {σ α : Type} {step : σ → α → Option σ} {φ : σ → ℕ} {P : α → Prop} {I : σ → Prop}

/-- A run of steps that lower the potential is no longer than the potential it starts with, and keeps
    what its steps keep. -/
theorem length_le (hstep : ∀ {s a s'}, I s → P a → step s a = some s' → I s' ∧ φ s' < φ s)
    {actions : List α} {s s' : σ} (hs : I s) (hP : ∀ a ∈ actions, P a)
    (h : actions.foldlM step s = some s') : I s' ∧ actions.length + φ s' ≤ φ s := by
  induction actions generalizing s with
  | nil =>
    obtain rfl := Option.some.inj h
    exact ⟨hs, by simp⟩
  | cons a actions ih =>
    obtain ⟨t, ht, hrest⟩ := Option.bind_eq_some_iff.mp h
    obtain ⟨hI, hlt⟩ := hstep hs (hP a List.mem_cons_self) ht
    obtain ⟨hI', hle⟩ := ih hI (fun b hb => hP b (List.mem_cons_of_mem _ hb)) hrest
    exact ⟨hI', by rw [List.length_cons]; omega⟩

/-- From every state a run of such steps leads to one where none is left to take. -/
theorem exists_stuck (hstep : ∀ {s a s'}, I s → P a → step s a = some s' → I s' ∧ φ s' < φ s)
    {s : σ} (hs : I s) : ∃ (actions : List α) (s' : σ), (∀ a ∈ actions, P a) ∧ actions.foldlM step s = some s' ∧
      ∀ a, P a → step s' a = none := by
  induction hn : φ s using Nat.strong_induction_on generalizing s with
  | _ n ih =>
    subst hn
    by_cases hstuck : ∀ a, P a → step s a = none
    · exact ⟨[], s, by simp, rfl, hstuck⟩
    · push Not at hstuck
      obtain ⟨a, ha, hne⟩ := hstuck
      obtain ⟨t, ht⟩ := Option.ne_none_iff_exists'.mp hne
      obtain ⟨hI, hlt⟩ := hstep hs ha ht
      obtain ⟨actions, s', hall, hrun, hstuck⟩ := ih _ hlt hI rfl
      refine ⟨a :: actions, s', ?_, ?_, hstuck⟩
      · intro b hb
        rcases List.mem_cons.mp hb with rfl | hb
        · exact ha
        · exact hall b hb
      · rw [List.foldlM_cons, ht]
        exact hrun

end Runs

end Potential
