import Mathlib.Data.Nat.Notation
import Mathlib.Logic.Relation
import Mathlib.Tactic.Common

/-! Programs driven by the choices of an environment, and their runs.

    A `Choice ε α` reads the environment's choices (random draws, results of system calls) one by one
    from a list and ends with a value or with a reason `ε` for not returning; a list that is too short
    is such a reason, so every definition is total and a run that returns uses finitely many choices.
    `Returns x a` says that some choices make `x` return `a`: a property of every `a` with
    `Returns x a` holds whatever the environment does.

    `System` is a set of initial states with a step relation; what every step preserves holds in every
    reachable state. -/

/-- A program reading its environment's choices from a list. -/
abbrev Choice (ε α : Type) := StateT (List ℕ) (Except ε) α

namespace Choice

variable {ε α β : Type}

/-- Read the next choice; `starved` when there is none left. -/
def next (starved : ε) : Choice ε ℕ
  | [] => .error starved
  | d :: ds => .ok (d, ds)

/-- Read choices until `f` accepts one. -/
def retry (starved : ε) (f : ℕ → Except ε (Option α)) : Choice ε α
  | [] => .error starved
  | d :: ds =>
    match f d with
    | .error e => .error e
    | .ok (some a) => .ok (a, ds)
    | .ok none => retry starved f ds

/-- Some choices of the environment make the program return `a`. -/
def Returns (x : Choice ε α) (a : α) : Prop := ∃ ds ds', x ds = .ok (a, ds')

@[simp] theorem returns_pure {a b : α} : Returns (pure a : Choice ε α) b ↔ a = b := by
  constructor
  · rintro ⟨ds, ds', h⟩
    have h : (Except.ok (a, ds) : Except ε _) = .ok (b, ds') := h
    exact (Prod.mk.inj (Except.ok.inj h)).1
  · rintro rfl
    exact ⟨[], [], rfl⟩

@[simp] theorem returns_throw {e : ε} {a : α} : ¬ Returns (throw e : Choice ε α) a := by
  rintro ⟨ds, ds', h⟩
  simp [throw, throwThe, MonadExceptOf.throw, StateT.lift, bind, Except.bind] at h

@[simp] theorem returns_lift {x : Except ε α} {a : α} :
    Returns (liftM x : Choice ε α) a ↔ x = .ok a := by
  constructor
  · rintro ⟨ds, ds', h⟩
    cases x with
    | error e => simp [liftM, monadLift, MonadLift.monadLift, StateT.lift, bind, Except.bind] at h
    | ok b =>
      simp only [liftM, monadLift, MonadLift.monadLift, StateT.lift, bind, Except.bind, pure,
        Except.pure, Except.ok.injEq, Prod.mk.injEq] at h
      rw [h.1]
  · rintro rfl
    exact ⟨[], [], rfl⟩

/-- A sequence whose first part returns goes on with the choices that part leaves. -/
theorem bind_run {x : Choice ε α} {f : α → Choice ε β} {ds ds' : List ℕ} {a : α}
    (h : x ds = .ok (a, ds')) : (x >>= f) ds = f a ds' := by
  simp only [Bind.bind, StateT.bind, Except.bind, h]

theorem bind_run_error {x : Choice ε α} {f : α → Choice ε β} {ds : List ℕ} {e : ε}
    (h : x ds = .error e) : (x >>= f) ds = .error e := by
  simp only [Bind.bind, StateT.bind, Except.bind, h]

/-- A sequence returns only through a value its first part returns. -/
theorem Returns.bind {x : Choice ε α} {f : α → Choice ε β} {b : β} (h : Returns (x >>= f) b) :
    ∃ a, Returns x a ∧ Returns (f a) b := by
  obtain ⟨ds, ds', h⟩ := h
  cases hx : x ds with
  | error e => simp [bind_run_error hx] at h
  | ok r =>
    rw [bind_run hx] at h
    exact ⟨r.1, ⟨ds, r.2, hx⟩, r.2, ds', h⟩

/-- What `retry` returns was accepted. -/
theorem Returns.retry {starved : ε} {f : ℕ → Except ε (Option α)} {a : α}
    (h : Returns (Choice.retry starved f) a) : ∃ d, f d = .ok (some a) := by
  obtain ⟨ds, ds', h⟩ := h
  induction ds with
  | nil => simp [Choice.retry] at h
  | cons d ds ih =>
    rw [Choice.retry] at h
    split at h
    · simp at h
    · rename_i hf
      simp only [Except.ok.injEq, Prod.mk.injEq] at h
      exact ⟨d, h.1 ▸ hf⟩
    · exact ih h

theorem exists_ok_of_isOk {x : Except ε α} (h : x.isOk = true) : ∃ a, x = .ok a := by
  cases x with
  | error e => simp [Except.isOk, Except.toBool] at h
  | ok a => exact ⟨a, rfl⟩

/-- A run that ends in a value is one that returns it. -/
theorem returns_of_isOk {x : Choice ε α} (ds : List ℕ) (h : (x ds).isOk = true) :
    ∃ a, Returns x a := by
  obtain ⟨⟨a, ds'⟩, hx⟩ := exists_ok_of_isOk h
  exact ⟨a, ds, ds', hx⟩

end Choice

/-! ### Transition systems -/

/-- Initial states and steps. -/
structure System (σ : Type) where
  init : σ → Prop
  step : σ → σ → Prop

namespace System

variable {σ : Type} (S : System σ)

/-- The states some run from an initial state passes through. -/
def Reachable (s : σ) : Prop := ∃ s₀, S.init s₀ ∧ Relation.ReflTransGen S.step s₀ s

theorem Reachable.of_init {s : σ} (h : S.init s) : S.Reachable s := ⟨s, h, .refl⟩

theorem Reachable.steps {S : System σ} {s s' : σ} (h : S.Reachable s)
    (hs : Relation.ReflTransGen S.step s s') : S.Reachable s' := by
  obtain ⟨s₀, h0, hr⟩ := h
  exact ⟨s₀, h0, hr.trans hs⟩

/-- Steps preserve what a run starts with. -/
theorem invariant_steps {I : σ → Prop} (hstep : ∀ s s', I s → S.step s s' → I s') {s s' : σ}
    (h : I s) (hs : Relation.ReflTransGen S.step s s') : I s' := by
  induction hs with
  | refl => exact h
  | tail _ hlast ih => exact hstep _ _ ih hlast

/-- What holds initially and is preserved by every step holds in every reachable state. -/
theorem invariant {I : σ → Prop} (hinit : ∀ s, S.init s → I s)
    (hstep : ∀ s s', I s → S.step s s' → I s') {s : σ} (h : S.Reachable s) : I s := by
  obtain ⟨s₀, h0, hr⟩ := h
  exact S.invariant_steps hstep (hinit s₀ h0) hr

end System
