import MutualEdge.Lib.Loops

/-! Two programs on the same choices.

    `Lockstep R x y`: whatever the choices, both programs read the same ones and end alike, with the same
    reason or with values that `R` relates. It is a refinement between two levels of one program when
    `R` is a representation, and a statement that an input does not matter when `R` is a likeness of
    states. There is one rule for each way to build a program, the loops included; a rule may use what
    the programs return. -/

namespace Choice

variable {ε α β γ δ σ τ : Type}

/-- The same reason, or related values. -/
inductive Matched (R : α → β → Prop) : Except ε α → Except ε β → Prop where
  | ok {a b} (h : R a b) : Matched R (.ok a) (.ok b)
  | error (e : ε) : Matched R (.error e) (.error e)

namespace Matched

variable {R : α → β → Prop} {S : γ → δ → Prop} {x : Except ε α} {y : Except ε β}

theorem pure {a : α} {b : β} (h : R a b) :
    Matched R (Pure.pure a : Except ε α) (Pure.pure b : Except ε β) := .ok h

theorem refl {R : α → α → Prop} (hR : ∀ a, R a a) (x : Except ε α) : Matched R x x := by
  cases x with
  | ok a => exact .ok (hR a)
  | error e => exact .error e

theorem bind {f : α → Except ε γ} {g : β → Except ε δ} (h : Matched R x y)
    (hf : ∀ a b, R a b → x = .ok a → y = .ok b → Matched S (f a) (g b)) :
    Matched S (x >>= f) (y >>= g) := by
  cases h with
  | ok h => exact hf _ _ h rfl rfl
  | error e => exact .error e

theorem mono {R' : α → β → Prop} (h : Matched R x y)
    (hR : ∀ a b, R a b → x = .ok a → y = .ok b → R' a b) : Matched R' x y := by
  cases h with
  | ok h => exact .ok (hR _ _ h rfl rfl)
  | error e => exact .error e

theorem eq {x y : Except ε α} (h : Matched Eq x y) : x = y := by
  cases h with
  | ok h => rw [h]
  | error e => rfl

end Matched

/-- On any choices the two programs end alike and leave the same ones. -/
def Lockstep (R : α → β → Prop) (x : Choice ε α) (y : Choice ε β) : Prop :=
  ∀ ds, Matched (fun r s => R r.1 s.1 ∧ r.2 = s.2) (x ds) (y ds)

namespace Lockstep

variable {R : α → β → Prop} {S : γ → δ → Prop} {x : Choice ε α} {y : Choice ε β}

theorem pure {a : α} {b : β} (h : R a b) :
    Lockstep R (Pure.pure a : Choice ε α) (Pure.pure b) := fun _ => .ok ⟨h, rfl⟩

theorem throw (e : ε) : Lockstep R (throw e : Choice ε α) (throw e) := fun _ => .error e

theorem refl (x : Choice ε α) : Lockstep Eq x x := fun ds => .refl (fun _ => ⟨rfl, rfl⟩) (x ds)

theorem lift {x : Except ε α} {y : Except ε β} (h : Matched R x y) :
    Lockstep R (liftM x : Choice ε α) (liftM y) := by
  intro ds
  cases h with
  | ok h => exact .ok ⟨h, rfl⟩
  | error e => exact .error e

theorem mono {R' : α → β → Prop} (h : Lockstep R x y)
    (hR : ∀ a b, R a b → Returns x a → Returns y b → R' a b) : Lockstep R' x y := fun ds =>
  (h ds).mono fun r s hrs hx hy => ⟨hR _ _ hrs.1 ⟨ds, r.2, hx⟩ ⟨ds, s.2, hy⟩, hrs.2⟩

theorem bind {f : α → Choice ε γ} {g : β → Choice ε δ} (h : Lockstep R x y)
    (hf : ∀ a b, R a b → Returns x a → Returns y b → Lockstep S (f a) (g b)) :
    Lockstep S (x >>= f) (y >>= g) := by
  intro ds
  refine (h ds).bind fun r s hrs hx hy => ?_
  obtain ⟨a, rest⟩ := r
  obtain ⟨b, rest'⟩ := s
  obtain rfl : rest = rest' := hrs.2
  exact hf a b hrs.1 ⟨ds, rest, hx⟩ ⟨ds, rest, hy⟩ rest

/-- The second program goes on without a choice. -/
theorem map_right {T : α → γ → Prop} {g : β → γ} (h : Lockstep (fun a b => T a (g b)) x y) :
    Lockstep T x (y >>= fun b => Pure.pure (g b)) := by
  intro ds
  have hds := h ds
  generalize x ds = r at hds ⊢
  cases hy : y ds with
  | error e =>
    rw [bind_run_error hy]
    rw [hy] at hds
    cases hds
    exact .error e
  | ok r =>
    rw [bind_run hy]
    rw [hy] at hds
    cases hds with
    | ok hr => exact .ok hr

/-- Both programs refuse the same choices. -/
theorem retry {starved : ε} {f : ℕ → Except ε (Option α)} {g : ℕ → Except ε (Option β)}
    (h : ∀ d, Matched (Option.Rel R) (f d) (g d)) :
    Lockstep R (Choice.retry starved f) (Choice.retry starved g) := by
  intro ds
  induction ds with
  | nil => exact .error starved
  | cons d ds ih =>
    have hd := h d
    rw [Choice.retry, Choice.retry]
    cases hf : f d <;> cases hg : g d <;> rw [hf, hg] at hd <;> cases hd
    · exact .error _
    · rename_i hrel
      cases hrel with
      | some hab => exact .ok ⟨hab, rfl⟩
      | none => exact ih

/-- Programs in lockstep with equal values are the same program. -/
theorem eq {x y : Choice ε α} (h : Lockstep Eq x y) : x = y := by
  funext ds
  exact ((h ds).mono fun r s hrs _ _ => Prod.ext hrs.1 hrs.2).eq

end Lockstep

/-! ### Loops -/

/-- Two rounds that answer alike, with `I` between the states of failed ones and `R` between the
    states of the last ones, make two loops. -/
theorem Lockstep.attempts {I R : σ → τ → Prop} {failed : σ → ε} {failed' : τ → ε}
    {body : σ → Choice ε (Bool × σ)} {body' : τ → Choice ε (Bool × τ)}
    (hfailed : ∀ s t, I s t → failed s = failed' t)
    (hbody : ∀ s t, I s t →
      Lockstep (fun r r' => r.1 = r'.1 ∧ if r.1 then R r.2 r'.2 else I r.2 r'.2) (body s) (body' t))
    {n : ℕ} {s : σ} {t : τ} (h : I s t) :
    Lockstep R (Choice.attempts failed body n s) (Choice.attempts failed' body' n t) := by
  induction n generalizing s t with
  | zero =>
    rw [Choice.attempts, Choice.attempts, hfailed s t h]
    exact .throw _
  | succ n ih =>
    refine (hbody s t h).bind fun r r' hr _ _ => ?_
    obtain ⟨done, s'⟩ := r
    obtain ⟨done', t'⟩ := r'
    obtain ⟨rfl, hr⟩ := hr
    cases done with
    | true => exact .pure hr
    | false => exact ih hr

/-- Rounds that keep one relation whatever they answer. -/
theorem Lockstep.attempts_kept {I : σ → τ → Prop} {failed : σ → ε} {failed' : τ → ε}
    {body : σ → Choice ε (Bool × σ)} {body' : τ → Choice ε (Bool × τ)}
    (hfailed : ∀ s t, I s t → failed s = failed' t)
    (hbody : ∀ s t, I s t → Lockstep (fun r r' => r.1 = r'.1 ∧ I r.2 r'.2) (body s) (body' t))
    {n : ℕ} {s : σ} {t : τ} (h : I s t) :
    Lockstep I (Choice.attempts failed body n s) (Choice.attempts failed' body' n t) := by
  refine Lockstep.attempts hfailed (fun s t hst => ?_) h
  simpa only [ite_self] using hbody s t hst

/-- Loops with equal conditions whose rounds keep in step. -/
theorem Lockstep.loop {I : σ → τ → Prop} {starved : ε} {cond : σ → Bool} {cond' : τ → Bool}
    {body : σ → Choice ε σ} {body' : τ → Choice ε τ}
    (hcond : ∀ s t, I s t → cond s = cond' t)
    (hbody : ∀ s t, I s t → cond s = true → Lockstep I (body s) (body' t)) {s : σ} {t : τ}
    (h : I s t) :
    Lockstep I (Choice.loop starved cond body s) (Choice.loop starved cond' body' t) := by
  have hrounds : ∀ n s t, I s t →
      Lockstep I (rounds starved cond body n s) (rounds starved cond' body' n t) := by
    intro n
    induction n with
    | zero => exact fun _ _ _ => .throw starved
    | succ n ih =>
      intro s t h
      rw [rounds, rounds, ← hcond s t h]
      by_cases hc : cond s = true
      · rw [if_pos hc, if_pos hc]
        exact (hbody s t h hc).bind fun a b hab _ _ => ih a b hab
      · rw [if_neg hc, if_neg hc]
        exact .pure h
  exact fun ds => hrounds (ds.length + 1) s t h ds

end Choice
