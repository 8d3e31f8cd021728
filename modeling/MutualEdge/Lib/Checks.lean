import Mathlib.Tactic.Common

/-! Sequences of checks: programs that go on while each check succeeds.

    The rules say when a sequence comes to its end, so that a long list of early exits is read off as a
    conjunction of what was checked. -/

namespace Checks

variable {ε α β : Type}

/-- Go on with the value, if there is one. -/
def require (e : ε) : Option α → Except ε α
  | some a => .ok a
  | none => .error e

/-- Go on if the condition holds. -/
def check (e : ε) (c : Prop) [Decidable c] : Except ε Unit := if c then .ok () else .error e

theorem bind_ok {x : Except ε α} {f : α → Except ε β} {b : β} :
    (x >>= f) = .ok b ↔ ∃ a, x = .ok a ∧ f a = .ok b := by
  cases x with
  | error e => simp [bind, Except.bind]
  | ok a => simp [bind, Except.bind]

theorem bind_error {x : Except ε α} {f : α → Except ε β} {e : ε} :
    (x >>= f) = .error e ↔ x = .error e ∨ ∃ a, x = .ok a ∧ f a = .error e := by
  cases x with
  | error e' => simp [bind, Except.bind]
  | ok a => simp [bind, Except.bind]

theorem pure_ok {a b : α} : (pure a : Except ε α) = .ok b ↔ a = b := by
  simp [pure, Except.pure]

theorem require_ok {e : ε} {x : Option α} {a : α} : require e x = .ok a ↔ x = some a := by
  cases x <;> simp [require]

theorem check_ok {e : ε} {c : Prop} [Decidable c] {u : Unit} : check e c = .ok u ↔ c := by
  unfold check
  split <;> simp_all

/-- An early exit that is not taken. -/
theorem ite_error_ok {c : Prop} [Decidable c] {e : ε} {x : Except ε α} {a : α} :
    (if c then .error e else x) = .ok a ↔ ¬ c ∧ x = .ok a := by
  by_cases hc : c
  · simp [hc]
  · simp [hc]

/-- Why a sequence did not come to its end. -/
def failure : Except ε α → Option ε
  | .error e => some e
  | .ok _ => none

theorem error_of_failure {x : Except ε α} {e : ε} (h : failure x = some e) : x = .error e := by
  cases x with
  | error e' => rw [failure, Option.some.injEq] at h; rw [h]
  | ok a => simp [failure] at h

theorem ok_of_toOption {x : Except ε α} {a : α} (h : x.toOption = some a) : x = .ok a := by
  cases x with
  | error e => cases h
  | ok b => rw [Option.some.inj h]

/-- A value that passes a test is one that was returned. -/
theorem exists_ok_of_any {x : Except ε α} {test : α → Bool} (h : x.toOption.any test = true) :
    ∃ a, x = .ok a ∧ test a = true := by
  obtain ⟨a, ha, ht⟩ := (Option.any_eq_true _ _).mp h
  exact ⟨a, ok_of_toOption ha, ht⟩

/-- Whether a test was passed, and with a value of which kind. -/
instance decidableExistsOk {P : α → Prop} [DecidablePred P] :
    (x : Except ε (Bool × α)) → Decidable (∃ a, x = .ok (true, a) ∧ P a)
  | .ok (true, a) => decidable_of_iff (P a)
    ⟨fun h => ⟨a, rfl, h⟩, fun ⟨_, h, ha⟩ => (Prod.mk.inj (Except.ok.inj h)).2 ▸ ha⟩
  | .ok (false, _) => .isFalse fun ⟨_, h, _⟩ =>
    Bool.false_ne_true (Prod.mk.inj (Except.ok.inj h)).1
  | .error _ => .isFalse fun ⟨_, h, _⟩ => nomatch h

end Checks
