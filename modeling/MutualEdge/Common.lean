import Mathlib.Algebra.Order.Field.Rat
import MutualEdge.Lib.Checks
import MutualEdge.Lib.Choice

/-! `common.h` and `util.c`: ways to stop, and random draws.

    Doubles are read as exact rationals (a quotient by zero, which no rational is, as `0`) and
    `unsigned` values as naturals, with the wrap-around written out where an operation can leave 32
    bits. A run reads the results of `rand()` as its environment's choices; a run for which the list of
    draws is too short has not come to an end. -/

namespace MutualEdge
open Checks Choice

/-- Arguments of a formatted message. -/
inductive Arg where
  | num (q : ℚ)
  | text (s : String)
  deriving DecidableEq

/-- Why the program does not go on. -/
inductive Halt where
  /-- `FATAL(exitcode, fmt, ...)`: message on stderr and `exit`. -/
  | fatal (exitcode : ℕ) (fmt : String) (args : List Arg)
  /-- `ASSERT(cond)` with a false condition. -/
  | assertFailed
  /-- An integer remainder by zero. -/
  | sigfpe
  /-- `list_entry` of a list head: not a pointer to an entry. -/
  | wildPointer
  /-- An access that leaves its arrays. -/
  | memoryFault
  /-- A `list_for_each` that does not come back to the head of its list. -/
  | endless
  /-- More random draws are needed. -/
  | starved
  deriving DecidableEq

/-- A part of the program that draws random numbers. -/
abbrev Rand (α : Type) := Choice Halt α

/-- Arithmetic of `unsigned`. -/
def u32 (n : ℕ) : ℕ := n % 2 ^ 32

/-- `abs(rand()) % max_value` for the result `r` of `rand()`, which is never negative. -/
def getRandOf (r maxValue : ℕ) : Except Halt ℕ :=
  if maxValue = 0 then .error .sigfpe else .ok (r % maxValue)

def getRand (maxValue : ℕ) : Rand ℕ := do
  let r ← next .starved
  getRandOf r maxValue

/-- Draw until the value is not `exValue`. -/
def getRandExcept (maxValue exValue : ℕ) : Rand ℕ :=
  retry .starved fun r => do
    let value ← getRandOf r maxValue
    return if value ≠ exValue then some value else none

theorem getRandOf_ok {r maxValue v : ℕ} (h : getRandOf r maxValue = .ok v) :
    0 < maxValue ∧ v = r % maxValue := by
  rw [getRandOf] at h
  split at h
  · simp at h
  · rename_i h0
    exact ⟨Nat.pos_of_ne_zero h0, by simpa using h.symm⟩

theorem getRandOf_of_pos {maxValue : ℕ} (h : 0 < maxValue) (r : ℕ) :
    getRandOf r maxValue = .ok (r % maxValue) := by
  rw [getRandOf, if_neg (by omega)]

theorem getRandOf_lt {r maxValue v : ℕ} (h : getRandOf r maxValue = .ok v) : v < maxValue := by
  obtain ⟨h0, rfl⟩ := getRandOf_ok h
  exact Nat.mod_lt _ h0

theorem getRand_lt {maxValue v : ℕ} (h : Returns (getRand maxValue) v) : v < maxValue := by
  obtain ⟨r, _, h⟩ := h.bind
  exact getRandOf_lt (returns_lift.mp h)

theorem getRandExcept_spec {maxValue exValue v : ℕ}
    (h : Returns (getRandExcept maxValue exValue) v) : v < maxValue ∧ v ≠ exValue := by
  obtain ⟨r, h⟩ := h.retry
  obtain ⟨w, hr, h⟩ := bind_ok.mp h
  rw [pure_ok, Option.ite_none_right_eq_some] at h
  obtain ⟨hw, heq⟩ := h
  obtain rfl := Option.some.inj heq
  exact ⟨getRandOf_lt hr, hw⟩

end MutualEdge
