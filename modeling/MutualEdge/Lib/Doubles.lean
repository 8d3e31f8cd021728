import Mathlib.Algebra.BigOperators.Group.Finset.Basic
import MutualEdge.Lib.Printf

/-! What IEEE 754 makes of computations with rational numbers.

    `Kind` tells what a result is when a divisor may be zero: a number, infinite or not a number. It is
    for computations whose infinite results are all positive, so that a sum of them is infinite too.
    `Binary64.nearest` is the rounding of a result that is a number, to the nearest double. -/

namespace Doubles

/-! ### Numbers, infinities and the rest -/

inductive Kind where | number | infinite | nan
  deriving DecidableEq

namespace Kind

/-- `a / b`, for `a ≥ 0` -/
def quot (a b : ℚ) : Kind := if b ≠ 0 then .number else if a = 0 then .nan else .infinite

/-- `0.0 * x` -/
def timesZero : Kind → Kind
  | .number => .number
  | .infinite | .nan => .nan

protected def add : Kind → Kind → Kind
  | .number, k => k
  | k, .number => k
  | .infinite, .infinite => .infinite
  | _, _ => .nan

instance : Add Kind := ⟨Kind.add⟩
instance : Zero Kind := ⟨.number⟩

instance : AddCommMonoid Kind where
  add_assoc a b c := by cases a <;> cases b <;> cases c <;> rfl
  add_comm a b := by cases a <;> cases b <;> rfl
  zero_add a := by cases a <;> rfl
  add_zero a := by cases a <;> rfl
  nsmul := nsmulRec

theorem add_eq_number {a b : Kind} : a + b = .number ↔ a = .number ∧ b = .number := by
  cases a <;> cases b <;> decide

theorem add_eq_nan {a b : Kind} : a + b = .nan ↔ a = .nan ∨ b = .nan := by
  cases a <;> cases b <;> decide

theorem quot_eq_number {a b : ℚ} : quot a b = .number ↔ b ≠ 0 := by
  unfold quot
  split
  · simpa
  · split <;> simp_all

theorem quot_eq_nan {a b : ℚ} : quot a b = .nan ↔ b = 0 ∧ a = 0 := by
  unfold quot
  split
  · simp_all
  · split <;> simp_all

theorem timesZero_eq_number {k : Kind} : k.timesZero = .number ↔ k = .number := by
  cases k <;> decide

theorem timesZero_eq_nan {k : Kind} : k.timesZero = .nan ↔ k ≠ .number := by
  cases k <;> decide

theorem timesZero_ne_infinite (k : Kind) : k.timesZero ≠ .infinite := by
  cases k <;> decide

/-- A sum is a number exactly if all of its terms are. -/
theorem sum_eq_number {n : ℕ} {k : ℕ → Kind} :
    ∑ i ∈ Finset.range n, k i = .number ↔ ∀ i < n, k i = .number := by
  induction n with
  | zero => exact iff_of_true rfl fun i hi => absurd hi (Nat.not_lt_zero i)
  | succ n ih => rw [Finset.sum_range_succ, add_eq_number, ih, Nat.forall_lt_succ_right]

/-- A sum is not a number exactly if one of its terms is not. -/
theorem sum_eq_nan {n : ℕ} {k : ℕ → Kind} :
    ∑ i ∈ Finset.range n, k i = .nan ↔ ∃ i < n, k i = .nan := by
  induction n with
  | zero => exact iff_of_false Kind.noConfusion fun ⟨i, hi, _⟩ => Nat.not_lt_zero i hi
  | succ n ih => rw [Finset.sum_range_succ, add_eq_nan, ih, Nat.exists_lt_succ_right]

end Kind

/-- A result: what it is, and its value when it is a number. -/
structure Double where
  kind : Kind
  value : ℚ

namespace Double

/-- Nothing compares with what is no number, itself included. -/
instance : LE Double where
  le a b := a.kind ≠ .nan ∧ b.kind = .infinite ∨
    a.kind = .number ∧ b.kind = .number ∧ a.value ≤ b.value

instance : LT Double where
  lt a b := a.kind = .number ∧ (b.kind = .infinite ∨ b.kind = .number ∧ a.value < b.value)

instance (a b : Double) : Decidable (a ≤ b) := inferInstanceAs (Decidable (_ ∨ _))
instance (a b : Double) : Decidable (a < b) := inferInstanceAs (Decidable (_ ∧ _))

variable {a b : Double}

theorem le_iff_of_number (ha : a.kind = .number) (hb : b.kind = .number) :
    a ≤ b ↔ a.value ≤ b.value := by
  change _ ∨ _ ↔ _
  simp [ha, hb]

theorem lt_iff_of_number (ha : a.kind = .number) (hb : b.kind = .number) :
    a < b ↔ a.value < b.value := by
  change _ ∧ _ ↔ _
  simp [ha, hb]

theorem lt_irrefl (a : Double) : ¬ a < a := by
  rintro ⟨ha, hinf | ⟨-, hlt⟩⟩
  · rw [ha] at hinf
    exact Kind.noConfusion hinf
  · exact hlt.false

/-- Below a number there are only numbers. -/
theorem number_of_le (h : a ≤ b) (hb : b.kind = .number) : a.kind = .number := by
  obtain ⟨-, hinf⟩ | ⟨ha, -, -⟩ := h
  · rw [hb] at hinf
    exact Kind.noConfusion hinf
  · exact ha

theorem not_nan_of_le (h : a ≤ b) : a.kind ≠ .nan ∧ b.kind ≠ .nan := by
  obtain ⟨ha, hb⟩ | ⟨ha, hb, -⟩ := h
  · exact ⟨ha, by rw [hb]; exact Kind.noConfusion⟩
  · exact ⟨by rw [ha]; exact Kind.noConfusion, by rw [hb]; exact Kind.noConfusion⟩

end Double

/-! ### Rounding -/

namespace Binary64

/-- The exponent of the last binary place a double of the size of `x > 0` has: there are 53 places, and
    none below `2 ^ -1074`. -/
def exponent (x : ℚ) : ℤ :=
  let e := (Nat.log2 x.num.natAbs : ℤ) - Nat.log2 x.den - 52
  max (-1074) (if x < 2 ^ 52 * 2 ^ e then e - 1 else e)

/-- The nearest double, of two equally near ones the even one. -/
def nearest (x : ℚ) : ℚ :=
  let ulp : ℚ := 2 ^ exponent |x|
  let magnitude := Printf.roundEven (|x| / ulp) * ulp
  if x < 0 then -magnitude else magnitude

end Binary64

end Doubles
