import Mathlib.Data.Nat.Notation
import Mathlib.Tactic.Common

/-! A largest counter, followed while the counters change one step at a time.

    `follow` compares the remembered counter with the one that gained. After a gain that is enough; after
    a move it is enough unless the remembered counter itself lost and a third one was as large:
    `largest_move_iff`. -/

namespace Argmax

variable {κ : Type}

/-- No counter is larger than that of `m`. -/
def Largest (c : κ → ℕ) (m : κ) : Prop := ∀ s, c s ≤ c m

/-- What is remembered after `dst` has gained. -/
def follow (c : κ → ℕ) (m dst : κ) : κ := if c m < c dst then dst else m

theorem le_follow (c : κ → ℕ) (m dst : κ) : c m ≤ c (follow c m dst) ∧ c dst ≤ c (follow c m dst) := by
  unfold follow
  split <;> omega

theorem follow_eq (c : κ → ℕ) (m dst : κ) : c (follow c m dst) = max (c m) (c dst) := by
  unfold follow
  split <;> omega

variable [DecidableEq κ] {c : κ → ℕ} {m src dst : κ}

/-- One more for `dst`. -/
def gain (c : κ → ℕ) (dst : κ) : κ → ℕ := fun s => if s = dst then c s + 1 else c s

/-- One from `src` to `dst`. -/
def move (c : κ → ℕ) (src dst : κ) : κ → ℕ :=
  fun s => if s = dst then c s + 1 else if s = src then c s - 1 else c s

theorem largest_gain (h : Largest c m) (dst : κ) :
    Largest (gain c dst) (follow (gain c dst) m dst) := by
  intro s
  obtain ⟨hm, hdst⟩ := le_follow (gain c dst) m dst
  by_cases hs : s = dst
  · rw [hs]
    exact hdst
  · have hle : gain c dst s ≤ gain c dst m := by
      have hs' := h s
      rw [gain, gain, if_neg hs]
      split <;> omega
    exact Nat.le_trans hle hm

/-- A move keeps track of a largest counter unless it takes from the remembered one while a third
    counter is as large and the one that gains is not close behind. -/
theorem largest_move_iff (h : Largest c m) (hne : src ≠ dst) :
    Largest (move c src dst) (follow (move c src dst) m dst) ↔
      (src = m → ∀ s, s ≠ src → s ≠ dst → c s = c src → c src ≤ c dst + 1) := by
  have hdst : move c src dst dst = c dst + 1 := if_pos rfl
  have hsrc : move c src dst src = c src - 1 := by rw [move, if_neg hne, if_pos rfl]
  have hother : ∀ s, s ≠ src → s ≠ dst → move c src dst s = c s :=
    fun s hs hd => by rw [move, if_neg hd, if_neg hs]
  have hval := follow_eq (move c src dst) m dst
  constructor
  · rintro hlarge rfl s hs hd hcount
    have hle := hlarge s
    rw [hval, hother s hs hd, hsrc, hdst] at hle
    omega
  · intro hsafe s
    rw [hval, hdst]
    have hm := h s
    have hm' := h src
    by_cases hd : s = dst
    · subst hd
      omega
    · by_cases hs : s = src
      · subst hs
        rw [hsrc]
        by_cases hms : m = s
        · subst hms
          omega
        · by_cases hmd : m = dst
          · subst hmd
            omega
          · rw [hother m hms hmd]
            omega
      · rw [hother s hs hd]
        by_cases hms : m = src
        · subst hms
          have hgap := hsafe rfl s hs hd
          rw [hsrc]
          omega
        · by_cases hmd : m = dst
          · subst hmd
            omega
          · rw [hother m hms hmd]
            omega

end Argmax
