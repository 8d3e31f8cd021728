import Mathlib.Tactic.Common
import MutualEdge.Lib.Checks

/-! Tables that a reader fills row by row.

    A row says an entry, which may depend on its place in the table, or nothing; the reader appends the
    entry if the table stays admissible and fails otherwise. `Appends.foldlM_iff` says when a list of
    rows is read and what it leaves: not more than what the rows say, whatever was in the way. -/

namespace Tabulate
open Checks

variable {ρ β σ ε : Type}

/-! ### What rows say -/

/-- The entries of the rows, the first at place `n`. -/
def entries (entry : ℕ → ρ → Option β) : ℕ → List ρ → Option (List β)
  | _, [] => some []
  | n, r :: rs => (entry n r).bind fun v => (entries entry (n + 1) rs).map (v :: ·)

section Entries
variable {entry : ℕ → ρ → Option β} {n : ℕ} {r : ρ} {rs rs' : List ρ} {l : List β}

theorem entries_cons : entries entry n (r :: rs) = some l ↔
    ∃ v vs, entry n r = some v ∧ entries entry (n + 1) rs = some vs ∧ l = v :: vs := by
  simp only [entries, Option.bind_eq_some_iff, Option.map_eq_some_iff]
  constructor
  · rintro ⟨v, hv, vs, hvs, rfl⟩
    exact ⟨v, vs, hv, hvs, rfl⟩
  · rintro ⟨v, vs, hv, hvs, rfl⟩
    exact ⟨v, hv, vs, hvs, rfl⟩

/-- One entry a row. -/
theorem length_entries (h : entries entry n rs = some l) : l.length = rs.length := by
  induction rs generalizing n l with
  | nil =>
    obtain rfl := Option.some.inj h
    rfl
  | cons r rs ih =>
    obtain ⟨v, vs, -, hvs, rfl⟩ := entries_cons.mp h
    rw [List.length_cons, List.length_cons, ih hvs]

theorem entries_append : entries entry n (rs ++ rs') = some l ↔ ∃ vs vs',
    entries entry n rs = some vs ∧ entries entry (n + vs.length) rs' = some vs' ∧ l = vs ++ vs' := by
  induction rs generalizing n l with
  | nil =>
    constructor
    · intro h
      exact ⟨[], l, rfl, h, rfl⟩
    · rintro ⟨vs, vs', hvs, hvs', rfl⟩
      obtain rfl := Option.some.inj hvs
      exact hvs'
  | cons r rs ih =>
    rw [List.cons_append, entries_cons]
    constructor
    · rintro ⟨v, vs, hv, hvs, rfl⟩
      obtain ⟨us, us', hus, hus', rfl⟩ := ih.mp hvs
      refine ⟨v :: us, us', entries_cons.mpr ⟨v, us, hv, hus, rfl⟩, ?_, rfl⟩
      rwa [List.length_cons, Nat.add_comm us.length, ← Nat.add_assoc]
    · rintro ⟨vs, vs', hvs, hvs', rfl⟩
      obtain ⟨v, us, hv, hus, rfl⟩ := entries_cons.mp hvs
      refine ⟨v, us ++ vs', hv, ih.mpr ⟨us, vs', hus, ?_, rfl⟩, rfl⟩
      rwa [Nat.add_assoc, Nat.add_comm 1]

end Entries

/-! ### Tables -/

/-- A table of limited size with its entries in order. -/
structure Within (size : ℕ) (R : β → β → Prop) (l : List β) : Prop where
  length_le : l.length ≤ size
  ordered : l.Pairwise R

theorem within_nil (size : ℕ) (R : β → β → Prop) : Within size R [] :=
  ⟨Nat.zero_le _, List.Pairwise.nil⟩

theorem Within.of_append {size : ℕ} {R : β → β → Prop} {l l' : List β} (h : Within size R (l ++ l')) :
    Within size R l :=
  ⟨Nat.le_trans (List.prefix_append l l').length_le h.length_le,
    (List.pairwise_append.mp h.ordered).1⟩

/-- The table holds what the rows say, and is admissible. -/
structure Filled (entry : ℕ → ρ → Option β) (Ok : List β → Prop) (rs : List ρ) (l : List β) : Prop where
  holds : entries entry 0 rs = some l
  ok : Ok l

/-- A reader of rows: it appends the entry of a row to its table, if the table stays admissible, and
    leaves the rest of its state alone. -/
structure Appends (step : σ → ρ → Except ε σ) (table : σ → List β) (put : σ → List β → σ)
    (entry : ℕ → ρ → Option β) (Ok : List β → Prop) : Prop where
  table_put : ∀ s l, table (put s l) = l
  put_put : ∀ s l l', put (put s l) l' = put s l'
  put_table : ∀ s, put s (table s) = s
  shorter : ∀ l l', Ok (l ++ l') → Ok l
  step_iff : ∀ s r s', Ok (table s) → (step s r = .ok s' ↔
    ∃ v, entry (table s).length r = some v ∧ Ok (table s ++ [v]) ∧ s' = put s (table s ++ [v]))

section Appends
variable {step : σ → ρ → Except ε σ} {table : σ → List β} {put : σ → List β → σ}
  {entry : ℕ → ρ → Option β} {Ok : List β → Prop} {s s' : σ} {rs rs' : List ρ}

/-- Rows are read exactly when they say something and the table with all their entries is
    admissible. -/
theorem Appends.foldlM_iff (h : Appends step table put entry Ok) (hs : Ok (table s)) :
    rs.foldlM step s = .ok s' ↔ ∃ vs, entries entry (table s).length rs = some vs ∧
      Ok (table s ++ vs) ∧ s' = put s (table s ++ vs) := by
  induction rs generalizing s with
  | nil =>
    constructor
    · intro hfold
      obtain rfl := pure_ok.mp hfold
      exact ⟨[], rfl, by rwa [List.append_nil], by rw [List.append_nil, h.put_table]⟩
    · rintro ⟨vs, hvs, -, rfl⟩
      obtain rfl := Option.some.inj hvs
      rw [List.append_nil, h.put_table]
      rfl
  | cons r rs ih =>
    rw [List.foldlM_cons, bind_ok]
    constructor
    · rintro ⟨t, hstep, hfold⟩
      obtain ⟨v, hv, hok, rfl⟩ := (h.step_iff s r t hs).mp hstep
      obtain ⟨vs, hvs, hall, rfl⟩ := (ih (by rwa [h.table_put])).mp hfold
      rw [h.table_put, List.append_assoc] at hall
      rw [h.table_put, List.length_append] at hvs
      rw [h.table_put, h.put_put, List.append_assoc]
      exact ⟨v :: vs, entries_cons.mpr ⟨v, vs, hv, hvs, rfl⟩, hall, rfl⟩
    · rintro ⟨vs, hvs, hall, rfl⟩
      obtain ⟨v, us, hv, hus, rfl⟩ := entries_cons.mp hvs
      have hsplit : table s ++ v :: us = (table s ++ [v]) ++ us := by simp
      rw [hsplit] at hall
      have hok := h.shorter _ _ hall
      refine ⟨_, (h.step_iff s r _ hs).mpr ⟨v, hv, hok, rfl⟩, (ih (by rwa [h.table_put])).mpr ?_⟩
      refine ⟨us, by rwa [h.table_put, List.length_append], by rwa [h.table_put], ?_⟩
      rw [h.table_put, h.put_put, hsplit]

/-- Reading on from a table that holds what the rows so far say. -/
theorem Appends.foldlM_filled (h : Appends step table put entry Ok)
    (hs : Filled entry Ok rs (table s)) : rs'.foldlM step s = .ok s' ↔
      Filled entry Ok (rs ++ rs') (table s') ∧ s' = put s (table s') := by
  rw [h.foldlM_iff hs.ok]
  constructor
  · rintro ⟨vs, hvs, hok, rfl⟩
    rw [h.table_put]
    refine ⟨⟨entries_append.mpr ⟨_, vs, hs.holds, ?_, rfl⟩, hok⟩, rfl⟩
    rwa [Nat.zero_add]
  · rintro ⟨hfill, heq⟩
    obtain ⟨us, vs, hus, hvs, htable⟩ := entries_append.mp hfill.holds
    obtain rfl : table s = us := Option.some.inj (hs.holds.symm.trans hus)
    rw [Nat.zero_add] at hvs
    exact ⟨vs, hvs, htable ▸ hfill.ok, htable ▸ heq⟩

/-- What longer rows fill, their beginning fills in part. -/
theorem Filled.of_append (hshorter : ∀ l l', Ok (l ++ l') → Ok l) {l : List β}
    (h : Filled entry Ok (rs ++ rs') l) : ∃ l', Filled entry Ok rs l' := by
  obtain ⟨us, vs, hus, -, rfl⟩ := entries_append.mp h.holds
  exact ⟨us, hus, hshorter _ _ h.ok⟩

end Appends

end Tabulate
