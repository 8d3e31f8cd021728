import Mathlib.Algebra.BigOperators.Group.Finset.Basic
import MutualEdge.Lib.Checks

/-! Loops as folds: the rules for a fold that may fail, and for a fold whose state holds a running
    sum. -/

open Checks

/-- What every step of a fallible fold preserves holds of its result. -/
theorem foldlM_invariant {ε σ α : Type} {I : σ → Prop} {f : σ → α → Except ε σ}
    (hf : ∀ s a s', I s → f s a = .ok s' → I s') {l : List α} {s s' : σ} (h : I s)
    (hl : l.foldlM f s = .ok s') : I s' := by
  induction l generalizing s with
  | nil =>
    obtain rfl := pure_ok.mp hl
    exact h
  | cons a l ih =>
    obtain ⟨t, ha, hl⟩ := bind_ok.mp hl
    exact ih (hf s a t h ha) hl

/-- A fallible fold over the parts of each element. -/
theorem foldlM_flatMap {ε σ α β : Type} {f : σ → β → Except ε σ} {g : α → List β} (l : List α)
    (s : σ) : (l.flatMap g).foldlM f s = l.foldlM (fun s a => (g a).foldlM f s) s := by
  induction l generalizing s with
  | nil => rfl
  | cons a l ih =>
    rw [List.flatMap_cons, List.foldlM_append, List.foldlM_cons]
    exact congrArg _ (funext ih)

/-- Folds of functions that agree on the list. -/
theorem foldlM_ext {ε σ α : Type} {f g : σ → α → Except ε σ} {l : List α}
    (h : ∀ a ∈ l, ∀ s, f s a = g s a) (s : σ) : l.foldlM f s = l.foldlM g s := by
  induction l generalizing s with
  | nil => rfl
  | cons a l ih =>
    rw [List.foldlM_cons, List.foldlM_cons, h a List.mem_cons_self s,
      funext fun s' => ih (fun b hb => h b (List.mem_cons_of_mem a hb)) s']

/-- A fallible fold that succeeds is the fold of what its steps compute. -/
theorem foldlM_eq_foldl {ε σ α : Type} {f : σ → α → Except ε σ} {g : σ → α → σ}
    (hf : ∀ s a s', f s a = .ok s' → s' = g s a) {l : List α} {s s' : σ}
    (hl : l.foldlM f s = .ok s') : s' = l.foldl g s := by
  induction l generalizing s with
  | nil => exact (pure_ok.mp hl).symm
  | cons a l ih =>
    obtain ⟨t, ha, hl⟩ := bind_ok.mp hl
    rw [List.foldl_cons, ← hf s a t ha]
    exact ih hl

/-- A component to which step `i` adds `c i`, as long as an invariant holds, ends up with the sum of
    the `c i`. -/
theorem foldl_range_sum_of {σ M : Type} [AddCommMonoid M] {f : σ → ℕ → σ} {φ : σ → M} {c : ℕ → M}
    {I : σ → Prop} {n : ℕ} (h : ∀ s i, i < n → I s → φ (f s i) = φ s + c i ∧ I (f s i)) {s : σ}
    (hs : I s) : φ ((List.range n).foldl f s) = φ s + ∑ i ∈ Finset.range n, c i := by
  have hmain : φ ((List.range n).foldl f s) = φ s + ∑ i ∈ Finset.range n, c i ∧
      I ((List.range n).foldl f s) := by
    induction n with
    | zero => simpa using hs
    | succ n ih =>
      obtain ⟨hsum, hinv⟩ := ih fun s i hi => h s i (Nat.lt_succ_of_lt hi)
      obtain ⟨hstep, hinv'⟩ := h _ n n.lt_succ_self hinv
      rw [List.range_succ, List.foldl_append, List.foldl_cons, List.foldl_nil,
        Finset.sum_range_succ, ← add_assoc, ← hsum]
      exact ⟨hstep, hinv'⟩
  exact hmain.1

/-- A component to which step `i` adds `c i` ends up with the sum of the `c i`. -/
theorem foldl_range_sum {σ M : Type} [AddCommMonoid M] {f : σ → ℕ → σ} {φ : σ → M} {c : ℕ → M}
    (h : ∀ s i, φ (f s i) = φ s + c i) (s : σ) (n : ℕ) :
    φ ((List.range n).foldl f s) = φ s + ∑ i ∈ Finset.range n, c i :=
  foldl_range_sum_of (I := fun _ => True) (fun s i _ _ => ⟨h s i, trivial⟩) trivial

/-- What step `i` establishes and no later step undoes holds at the end of the range. -/
theorem foldl_range_established {σ : Type} {f : σ → ℕ → σ} {P : ℕ → σ → Prop}
    (hset : ∀ s i, P i (f s i)) (hkeep : ∀ s i j, P j s → P j (f s i)) {n i : ℕ} (hi : i < n)
    (s : σ) : P i ((List.range n).foldl f s) := by
  induction n with
  | zero => exact absurd hi (Nat.not_lt_zero i)
  | succ n ih =>
    rw [List.range_succ, List.foldl_append, List.foldl_cons, List.foldl_nil]
    rcases Nat.lt_succ_iff_lt_or_eq.mp hi with hlt | rfl
    · exact hkeep _ n i (ih hlt)
    · exact hset _ i

/-- A fallible fold over a range, whose step fails at `i` exactly when `i` is bad, comes to its end or
    fails at the first bad index. -/
theorem foldlM_range_first {ε σ : Type} {f : σ → ℕ → Except ε σ} {bad : ℕ → Prop} {err : ℕ → ε}
    (hbad : ∀ s i, bad i → f s i = .error (err i)) (hgood : ∀ s i, ¬ bad i → ∃ s', f s i = .ok s')
    (n : ℕ) (s : σ) :
    ((∀ i < n, ¬ bad i) → ∃ s', (List.range n).foldlM f s = .ok s') ∧
      ∀ i < n, bad i → (∀ j < i, ¬ bad j) → (List.range n).foldlM f s = .error (err i) := by
  induction n with
  | zero => exact ⟨fun _ => ⟨s, rfl⟩, fun i hi => absurd hi (Nat.not_lt_zero i)⟩
  | succ n ih =>
    obtain ⟨hok, herr⟩ := ih
    rw [List.range_succ, List.foldlM_append]
    refine ⟨fun h => ?_, fun i hi hbi hfirst => ?_⟩
    · obtain ⟨s', hs'⟩ := hok fun i hi => h i (Nat.lt_succ_of_lt hi)
      obtain ⟨t, ht⟩ := hgood s' n (h n n.lt_succ_self)
      exact ⟨t, bind_ok.mpr ⟨s', hs', bind_ok.mpr ⟨t, ht, rfl⟩⟩⟩
    · rcases Nat.lt_succ_iff_lt_or_eq.mp hi with hlt | rfl
      · exact bind_error.mpr (.inl (herr i hlt hbi hfirst))
      · obtain ⟨s', hs'⟩ := hok hfirst
        exact bind_error.mpr (.inr ⟨s', hs', bind_error.mpr (.inl (hbad s' i hbi))⟩)
