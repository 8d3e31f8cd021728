import MutualEdge.Lib.Outcome
import MutualEdge.Lib.Streams

/-! The two loops of programs that read choices.

    `attempts` is a bounded number of tries. `loop` is a `while` whose every round reads a choice, so
    that the number of choices bounds the number of rounds: it is total, and `loop_eq` says that it is
    the loop of the source. `Spends n x` says that a program reads at least `n` choices. -/

namespace Choice

variable {ε α β σ : Type}

/-! ### A bounded number of tries -/

/-- Run the body until it answers `true`, at most the given number of times. -/
def attempts (failed : σ → ε) (body : σ → Choice ε (Bool × σ)) : ℕ → σ → Choice ε σ
  | 0, s => throw (failed s)
  | n + 1, s => do
    let r ← body s
    if r.1 then return r.2 else attempts failed body n r.2

/-- Tries that succeed at once. -/
theorem Reads.attempts {failed : σ → ε} {body : σ → Choice ε (Bool × σ)} {n : ℕ} {s s' : σ}
    {ds : List ℕ} (h : Reads (body s) ds (true, s')) :
    Reads (Choice.attempts failed body (n + 1) s) ds s' :=
  Reads.bind_nil h (Reads.pure s')

theorem Stops.attempts {failed : σ → ε} {body : σ → Choice ε (Bool × σ)} {n : ℕ} {s : σ}
    {ds : List ℕ} {e : ε} (h : Stops (body s) ds e) :
    Stops (Choice.attempts failed body (n + 1) s) ds e := h.bind _

/-- Tries that return are a number of failed ones and one that succeeded. -/
theorem Returns.attempts {failed : σ → ε} {body : σ → Choice ε (Bool × σ)} {n : ℕ} {s s' : σ}
    (h : Returns (Choice.attempts failed body n s) s') :
    ∃ t, Relation.ReflTransGen (fun a b => Returns (body a) (false, b)) s t ∧
      Returns (body t) (true, s') := by
  induction n generalizing s with
  | zero => exact absurd h returns_throw
  | succ n ih =>
    obtain ⟨⟨done, t⟩, hr, h⟩ := h.bind
    cases done with
    | true =>
      obtain rfl := returns_pure.mp h
      exact ⟨s, .refl, hr⟩
    | false =>
      obtain ⟨t', hsteps, ht'⟩ := ih h
      exact ⟨t', .head hr hsteps, ht'⟩

/-- More tries change nothing for a run that does not use them up. -/
theorem attempts_more {failed : σ → ε} {body : σ → Choice ε (Bool × σ)} {n : ℕ} {s : σ} {ds : List ℕ}
    (h : ∀ t, attempts failed body n s ds ≠ .error (failed t)) (m : ℕ) :
    attempts failed body (n + m) s ds = attempts failed body n s ds := by
  induction n generalizing s ds with
  | zero => exact absurd rfl (h s)
  | succ n ih =>
    rw [Nat.succ_add]
    cases hbody : body s ds with
    | error e =>
      have hstop : ∀ j, attempts failed body (j + 1) s ds = .error e := fun _ => bind_run_error hbody
      rw [hstop, hstop]
    | ok r =>
      obtain ⟨⟨done, t⟩, ds'⟩ := r
      have hgo : ∀ j, attempts failed body (j + 1) s ds =
          (if done then pure t else attempts failed body j t : Choice ε σ) ds' :=
        fun _ => bind_run hbody
      rw [hgo] at h
      rw [hgo, hgo]
      cases done with
      | true => rfl
      | false => exact ih h

/-- Tries end without a result for the reasons of their rounds or because there are no more. -/
theorem Fails.attempts {failed : σ → ε} {body : σ → Choice ε (Bool × σ)} {E : ε → Prop} {I : σ → Prop}
    (hfailed : ∀ s, E (failed s)) (hbody : ∀ s, I s → Fails (body s) E)
    (hnext : ∀ s t, I s → Returns (body s) (false, t) → I t) {n : ℕ} {s : σ} (hs : I s) :
    Fails (Choice.attempts failed body n s) E := by
  induction n generalizing s with
  | zero => exact Fails.throw (hfailed s)
  | succ n ih =>
    refine (hbody s hs).bind fun r hr => ?_
    obtain ⟨done, t⟩ := r
    cases done with
    | true => exact Fails.pure _
    | false => exact ih (hnext s t hs hr)

/-- Tries whose rounds come to an end do. -/
theorem Finishes.attempts {failed : σ → ε} {body : σ → Choice ε (Bool × σ)} {E : ε → Prop}
    {I : σ → Prop} {stream : ℕ → ℕ} (hfailed : ∀ s, E (failed s))
    (hbody : ∀ s, I s → Finishes stream (body s) (fun _ => True) E)
    (hnext : ∀ s t, I s → Returns (body s) (false, t) → I t) {n : ℕ} {s : σ} (hs : I s) :
    Finishes stream (Choice.attempts failed body n s) (fun _ => True) E := by
  induction n generalizing s with
  | zero => exact Finishes.throw (hfailed s)
  | succ n ih =>
    refine (hbody s hs).bind fun r _ hr => ?_
    obtain ⟨done, t⟩ := r
    cases done with
    | true => exact Finishes.pure trivial
    | false => exact ih (hnext s t hs hr)

/-! ### While loops -/

/-- The loop, for at most the given number of rounds. -/
def rounds (starved : ε) (cond : σ → Bool) (body : σ → Choice ε σ) : ℕ → σ → Choice ε σ
  | 0, _ => throw starved
  | n + 1, s => if cond s then body s >>= rounds starved cond body n else pure s

/-- `while (cond) body`, for a body that reads a choice in every round (`loop_eq`). -/
def loop (starved : ε) (cond : σ → Bool) (body : σ → Choice ε σ) (s : σ) : Choice ε σ := fun ds =>
  rounds starved cond body (ds.length + 1) s ds

/-- The program reads at least `n` choices before it returns. -/
def Spends (n : ℕ) (x : Choice ε α) : Prop :=
  ∀ ds a ds', x ds = .ok (a, ds') → ds'.length + n ≤ ds.length

namespace Spends

theorem pure (a : α) : Spends 0 (Pure.pure a : Choice ε α) := by
  intro ds b ds' h
  have h : (Except.ok (a, ds) : Except ε _) = .ok (b, ds') := h
  rw [(Prod.mk.inj (Except.ok.inj h)).2]
  exact Nat.le_refl _

theorem throw {n : ℕ} (e : ε) : Spends n (throw e : Choice ε α) := by
  intro ds a ds' h
  cases h

theorem lift (x : Except ε α) : Spends 0 (liftM x : Choice ε α) := by
  intro ds b ds' h
  cases x with
  | error e => cases h
  | ok a =>
    have h : (Except.ok (a, ds) : Except ε _) = .ok (b, ds') := h
    rw [(Prod.mk.inj (Except.ok.inj h)).2]
    exact Nat.le_refl _

theorem next (starved : ε) : Spends 1 (Choice.next starved) := by
  intro ds a ds' h
  cases ds with
  | nil => cases h
  | cons d ds =>
    rw [(Prod.mk.inj (Except.ok.inj h)).2]
    exact Nat.le_refl _

theorem retry (starved : ε) (f : ℕ → Except ε (Option α)) : Spends 1 (Choice.retry starved f) := by
  intro ds a ds' h
  induction ds with
  | nil => cases h
  | cons d ds ih =>
    rw [Choice.retry] at h
    split at h
    · cases h
    · rw [(Prod.mk.inj (Except.ok.inj h)).2]
      exact Nat.le_refl _
    · exact Nat.le_succ_of_le (ih h)

theorem bind {n m : ℕ} {x : Choice ε α} {f : α → Choice ε β} (hx : Spends n x)
    (hf : ∀ a, Spends m (f a)) : Spends (n + m) (x >>= f) := by
  intro ds b ds' h
  cases hr : x ds with
  | error e => simp [bind_run_error hr] at h
  | ok r =>
    rw [bind_run hr] at h
    have h1 := hx ds r.1 r.2 hr
    have h2 := hf r.1 r.2 b ds' h
    omega

theorem weaken {n m : ℕ} {x : Choice ε α} (h : Spends n x) (hm : m ≤ n) : Spends m x := by
  intro ds a ds' hx
  have h1 := h ds a ds' hx
  omega

/-- Tries whose every round reads choices read them once at least. -/
theorem attempts {m : ℕ} {failed : σ → ε} {body : σ → Choice ε (Bool × σ)}
    (hbody : ∀ s, Spends m (body s)) (n : ℕ) (s : σ) :
    Spends m (Choice.attempts failed body n s) := by
  induction n generalizing s with
  | zero => exact .throw _
  | succ n ih =>
    refine (hbody s).bind (m := 0) fun r => ?_
    split
    · exact .pure _
    · exact (ih _).weaken (Nat.zero_le _)

end Spends

section Loop
variable {starved : ε} {cond : σ → Bool} {body : σ → Choice ε σ}

/-- Further rounds make no difference. -/
theorem rounds_eq (hbody : ∀ s, Spends 1 (body s)) {n m : ℕ} {s : σ} {ds : List ℕ}
    (hn : ds.length < n) (hm : ds.length < m) :
    rounds starved cond body n s ds = rounds starved cond body m s ds := by
  induction n generalizing m s ds with
  | zero => exact absurd hn (Nat.not_lt_zero _)
  | succ n ih =>
    obtain ⟨m, rfl⟩ := Nat.exists_eq_succ_of_ne_zero (Nat.ne_zero_of_lt hm)
    rw [rounds, rounds]
    by_cases hc : cond s = true
    · rw [if_pos hc, if_pos hc]
      cases hx : body s ds with
      | error e => rw [bind_run_error hx, bind_run_error hx]
      | ok r =>
        have hlt := hbody s ds r.1 r.2 hx
        rw [bind_run hx, bind_run hx]
        exact ih (by omega) (by omega)
    · rw [if_neg hc, if_neg hc]

/-- The loop is the one of the source. -/
theorem loop_eq (hbody : ∀ s, Spends 1 (body s)) (s : σ) : loop starved cond body s =
    if cond s then body s >>= loop starved cond body else pure s := by
  funext ds
  rw [loop, rounds]
  by_cases hc : cond s = true
  · rw [if_pos hc, if_pos hc]
    cases hx : body s ds with
    | error e => rw [bind_run_error hx, bind_run_error hx]
    | ok r =>
      have hlt := hbody s ds r.1 r.2 hx
      rw [bind_run hx, bind_run hx]
      exact rounds_eq hbody hlt (Nat.lt_succ_self _)
  · rw [if_neg hc, if_neg hc]

/-- A loop that returns has gone from state to state while the condition held. -/
theorem Returns.loop {s s' : σ} (h : Returns (Choice.loop starved cond body s) s') :
    Relation.ReflTransGen (fun a b => cond a = true ∧ Returns (body a) b) s s' ∧
      ¬ cond s' = true := by
  obtain ⟨ds, ds', h⟩ := h
  rw [Choice.loop] at h
  generalize ds.length + 1 = n at h
  induction n generalizing s ds with
  | zero => exact absurd ⟨ds, ds', h⟩ returns_throw
  | succ n ih =>
    rw [rounds] at h
    by_cases hc : cond s = true
    · rw [if_pos hc] at h
      cases hx : body s ds with
      | error e => simp [bind_run_error hx] at h
      | ok r =>
        rw [bind_run hx] at h
        obtain ⟨hsteps, hdone⟩ := ih _ h
        exact ⟨.head ⟨hc, ds, r.2, hx⟩ hsteps, hdone⟩
    · rw [if_neg hc] at h
      obtain rfl := returns_pure.mp ⟨ds, ds', h⟩
      exact ⟨.refl, hc⟩

end Loop

end Choice
