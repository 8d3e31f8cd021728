import Mathlib.Algebra.BigOperators.Group.List.Basic
import Mathlib.Data.List.DropRight

/-! Accounts changed by a history of operations.

    An operation adds an amount to one account or sets one account to zero. `accounts_eq`: the balance
    of an account is the sum of the amounts added to it since it was last reset. `Rearranged` relates
    two histories with the same stops and the same operations between any two of them, in any order;
    what comes after the last stop is then the same up to order. `Along` says that every call of a
    history has a property. -/

namespace Ledger

variable {κ M α : Type}

inductive Op (κ M : Type) where
  | reset (k : κ)
  | add (k : κ) (a : M)

section Accounts
variable [DecidableEq κ] [AddCommMonoid M]

/-- The accounts after an operation. -/
def Op.apply (b : κ → M) : Op κ M → κ → M
  | .reset k => Function.update b k 0
  | .add k a => Function.update b k (b k + a)

/-- What an operation adds to account `k`. -/
def Op.amount (k : κ) : Op κ M → M
  | .reset _ => 0
  | .add k' a => if k' = k then a else 0

def Op.resets (k : κ) : Op κ M → Bool
  | .reset k' => k' = k
  | .add _ _ => false

/-- The accounts after a history that starts from empty ones. -/
def accounts (ops : List (Op κ M)) : κ → M := ops.foldl Op.apply 0

/-- The operations since account `k` was last reset. -/
def since (k : κ) (ops : List (Op κ M)) : List (Op κ M) := ops.rtakeWhile (!·.resets k)

def total (k : κ) (ops : List (Op κ M)) : M := (ops.map (Op.amount k)).sum

theorem Op.apply_of_resets {op : Op κ M} {k : κ} (h : op.resets k = true) (b : κ → M) :
    op.apply b k = 0 := by
  cases op with
  | reset k' =>
    obtain rfl : k' = k := by simpa [Op.resets] using h
    exact Function.update_self ..
  | add k' a => cases h

theorem Op.apply_of_not_resets {op : Op κ M} {k : κ} (h : op.resets k = false) (b : κ → M) :
    op.apply b k = b k + op.amount k := by
  cases op with
  | reset k' =>
    have hne : k ≠ k' := by
      rintro rfl
      simp [Op.resets] at h
    rw [Op.apply, Function.update_of_ne hne, Op.amount, add_zero]
  | add k' a =>
    by_cases hk : k' = k
    · subst hk
      rw [Op.apply, Function.update_self, Op.amount, if_pos rfl]
    · rw [Op.apply, Function.update_of_ne (Ne.symm hk), Op.amount, if_neg hk, add_zero]

/-- A balance is the sum of what was added since the last reset. -/
theorem accounts_eq (ops : List (Op κ M)) (k : κ) : accounts ops k = total k (since k ops) := by
  induction ops using List.reverseRecOn with
  | nil => rfl
  | append_singleton ops op ih =>
    rw [accounts, List.foldl_append, List.foldl_cons, List.foldl_nil, ← accounts]
    cases h : op.resets k with
    | true =>
      rw [Op.apply_of_resets h, since, List.rtakeWhile_concat_neg _ _ _ (by simp [h])]
      rfl
    | false =>
      have hsince : since k (ops ++ [op]) = since k ops ++ [op] :=
        List.rtakeWhile_concat_pos _ _ _ (by simp [h])
      rw [Op.apply_of_not_resets h, ih, hsince, total, total, List.map_append, List.sum_append,
        List.map_singleton, List.sum_singleton]

omit [AddCommMonoid M] in
/-- Without a reset of the account the whole history counts. -/
theorem since_eq_self {k : κ} {ops : List (Op κ M)} (h : ∀ op ∈ ops, op.resets k = false) :
    since k ops = ops := by
  rw [since, List.rtakeWhile_eq_self_iff]
  intro op hop
  rw [h op hop]
  rfl

end Accounts

/-! ### Histories with the same stops -/

inductive Rearranged (stop : α → Bool) : List α → List α → Prop where
  | last {l l'} (hl : ∀ x ∈ l, stop x = false) (h : l.Perm l') : Rearranged stop l l'
  | next {l l' t t' x} (hl : ∀ x ∈ l, stop x = false) (h : l.Perm l') (hx : stop x = true)
      (ht : Rearranged stop t t') : Rearranged stop (l ++ x :: t) (l' ++ x :: t')

variable {stop : α → Bool} {l l' : List α}

theorem Rearranged.perm (h : Rearranged stop l l') : l.Perm l' := by
  induction h with
  | last _ h => exact h
  | next _ h _ _ ih => exact h.append (ih.cons _)

/-- What comes before a stop is not taken from the end. -/
theorem rtakeWhile_append_stop {x : α} (hx : stop x = true) (l t : List α) :
    (l ++ x :: t).rtakeWhile (!stop ·) = t.rtakeWhile (!stop ·) := by
  induction t using List.reverseRecOn with
  | nil => rw [List.rtakeWhile_nil, List.rtakeWhile_concat_neg _ _ _ (by simp [hx])]
  | append_singleton t y ih =>
    rw [← List.cons_append, ← List.append_assoc]
    cases hy : stop y with
    | true => rw [List.rtakeWhile_concat_neg _ _ _ (by simp [hy]),
        List.rtakeWhile_concat_neg _ _ _ (by simp [hy])]
    | false => rw [List.rtakeWhile_concat_pos _ _ _ (by simp [hy]),
        List.rtakeWhile_concat_pos _ _ _ (by simp [hy]), ih]

theorem Rearranged.rtakeWhile (h : Rearranged stop l l') :
    (l.rtakeWhile (!stop ·)).Perm (l'.rtakeWhile (!stop ·)) := by
  induction h with
  | @last l l' hl h =>
    have hself : ∀ m : List α, (∀ x ∈ m, stop x = false) → m.rtakeWhile (!stop ·) = m := by
      intro m hm
      rw [List.rtakeWhile_eq_self_iff]
      intro x hx
      rw [hm x hx]
      rfl
    rwa [hself l hl, hself l' fun x hx => hl x (h.mem_iff.mpr hx)]
  | next _ _ hx _ ih => rwa [rtakeWhile_append_stop hx, rtakeWhile_append_stop hx]

/-! ### Calls -/

section Calls
variable {σ : Type} {next : σ → α → σ} {P Q : σ → α → Prop}

/-- Every call of a history has the property in the state it is made in. -/
def Along (next : σ → α → σ) (P : σ → α → Prop) : σ → List α → Prop
  | _, [] => True
  | s, c :: cs => P s c ∧ Along next P (next s c) cs

theorem Along.mono (h : ∀ s c, P s c → Q s c) {s : σ} {cs : List α} (hP : Along next P s cs) :
    Along next Q s cs := by
  induction cs generalizing s with
  | nil => exact trivial
  | cons c cs ih => exact ⟨h s c hP.1, ih hP.2⟩

/-- Properties that agree in every state agree along every history. -/
theorem along_congr (h : ∀ s c, P s c ↔ Q s c) (s : σ) (cs : List α) :
    Along next P s cs ↔ Along next Q s cs :=
  ⟨Along.mono fun s c => (h s c).mp, Along.mono fun s c => (h s c).mpr⟩

end Calls

end Ledger
