import MutualEdge.Lib.Script

/-! Loops over an environment's choices, and what a program ends with.

    `whileLoop` spends one choice a round. `Ends x P E` bounds every end of a program: a value
    satisfies `P`, a reason for not returning satisfies `E`; `Fails x E` speaks of the reasons alone.
    `Yields x n P` is total correctness: any `n` positive choices make the program return a value that
    satisfies `P` (a choice is how many units the environment moves, so `0` is its refusal to move
    any); `Settles x n a` joins the two where there is one value to return.
    `Takes starved x n P` is the same as `Yields` for choices of which none is a refusal. `Below B x P`
    is partial correctness for bounded choices. Each has one rule for each way to build a program. -/

namespace Choice

variable {ε α β σ : Type}

/-- Run the body while the condition holds, one choice a round. -/
def whileLoop (starved : σ → ε) (cond : σ → Bool) (body : σ → ℕ → Except ε σ) (s : σ) :
    Choice ε σ
  | [] => if cond s then .error (starved s) else .ok (s, [])
  | d :: ds =>
    if cond s then
      match body s d with
      | .error e => .error e
      | .ok s' => whileLoop starved cond body s' ds
    else .ok (s, d :: ds)

section Rounds
variable {starved : σ → ε} {cond : σ → Bool} {body : σ → ℕ → Except ε σ} {s s' : σ}

theorem whileLoop_done (hc : ¬ cond s = true) (ds : List ℕ) :
    whileLoop starved cond body s ds = .ok (s, ds) := by
  cases ds with
  | nil => rw [whileLoop, if_neg hc]
  | cons d ds => rw [whileLoop, if_neg hc]

theorem whileLoop_nil (hc : cond s = true) :
    whileLoop starved cond body s [] = .error (starved s) := by
  rw [whileLoop, if_pos hc]

theorem whileLoop_ok (hc : cond s = true) {d : ℕ} (hb : body s d = .ok s') (ds : List ℕ) :
    whileLoop starved cond body s (d :: ds) = whileLoop starved cond body s' ds := by
  rw [whileLoop, if_pos hc]
  simp only [hb]

theorem whileLoop_error (hc : cond s = true) {d : ℕ} {e : ε} (hb : body s d = .error e)
    (ds : List ℕ) : whileLoop starved cond body s (d :: ds) = .error e := by
  rw [whileLoop, if_pos hc]
  simp only [hb]

end Rounds

/-! ### Loops that follow one another -/

section Follow
variable {τ : Type} {starved : σ → ε} {cond : σ → Bool} {body : σ → ℕ → Except ε σ}
  {starved' : τ → ε} {cond' : τ → Bool} {body' : τ → ℕ → Except ε τ}

/-- A loop that does to the image of each state what another one does to the state. -/
theorem whileLoop_map {f : σ → τ} (hcond : ∀ s, cond' (f s) = cond s)
    (hstarved : ∀ s, cond s = true → starved' (f s) = starved s)
    (hbody : ∀ s d, cond s = true → body' (f s) d = f <$> body s d) (ds : List ℕ) (s : σ) :
    whileLoop starved' cond' body' (f s) ds =
      (whileLoop starved cond body s >>= fun s' => Pure.pure (f s')) ds := by
  induction ds generalizing s with
  | nil =>
    by_cases hc : cond s = true
    · rw [whileLoop_nil ((hcond s).trans hc), bind_run_error (whileLoop_nil hc), hstarved s hc]
    · rw [whileLoop_done (by rwa [hcond s]), bind_run (whileLoop_done hc [])]
      rfl
  | cons d ds ih =>
    by_cases hc : cond s = true
    · have hb := hbody s d hc
      cases hbs : body s d with
      | error e =>
        rw [hbs] at hb
        rw [whileLoop_error ((hcond s).trans hc) hb, bind_run_error (whileLoop_error hc hbs ds)]
      | ok s' =>
        rw [hbs] at hb
        rw [whileLoop_ok ((hcond s).trans hc) hb, ih s']
        simp only [Bind.bind, StateT.bind, whileLoop_ok hc hbs]
    · rw [whileLoop_done (by rwa [hcond s]), bind_run (whileLoop_done hc (d :: ds))]
      rfl

/-- A loop that first does what another one does, and goes on from where that one ends. -/
theorem whileLoop_phases {f g : σ → τ} (hcond : ∀ s, cond s = true → cond' (f s) = true)
    (hstarved : ∀ s, cond s = true → starved' (f s) = starved s)
    (hbody : ∀ s d, cond s = true →
      body' (f s) d = (fun s' => if cond s' then f s' else g s') <$> body s d)
    (ds : List ℕ) (s : σ) (hc : cond s = true) : whileLoop starved' cond' body' (f s) ds =
      (whileLoop starved cond body s >>= fun s' => whileLoop starved' cond' body' (g s')) ds := by
  induction ds generalizing s with
  | nil =>
    rw [whileLoop_nil (hcond s hc), bind_run_error (whileLoop_nil hc), hstarved s hc]
  | cons d ds ih =>
    have hb := hbody s d hc
    cases hbs : body s d with
    | error e =>
      rw [hbs] at hb
      rw [whileLoop_error (hcond s hc) hb, bind_run_error (whileLoop_error hc hbs ds)]
    | ok s' =>
      have hb : body' (f s) d = .ok (if cond s' then f s' else g s') := by rw [hb, hbs]; rfl
      rw [whileLoop_ok (hcond s hc) hb]
      simp only [Bind.bind, StateT.bind, whileLoop_ok hc hbs]
      by_cases hc' : cond s' = true
      · rw [if_pos hc', ih s' hc']
        rfl
      · rw [if_neg hc', whileLoop_done hc']
        rfl

end Follow

/-! ### Every end -/

/-- Whatever the choices, a value satisfies `P` and a reason satisfies `E`. -/
def Ends (x : Choice ε α) (P : α → Prop) (E : ε → Prop) : Prop :=
  ∀ ds, (∀ a ds', x ds = .ok (a, ds') → P a) ∧ ∀ e, x ds = .error e → E e

theorem Ends.pure {P : α → Prop} {E : ε → Prop} {a : α} (h : P a) :
    Ends (Pure.pure a : Choice ε α) P E := by
  intro ds
  refine ⟨?_, ?_⟩
  · rintro a' ds' heq
    obtain rfl := (Prod.mk.inj (Except.ok.inj heq)).1
    exact h
  · rintro e heq
    have heq : (Except.ok (a, ds) : Except ε (α × List ℕ)) = .error e := heq
    cases heq

theorem Ends.mono {x : Choice ε α} {P P' : α → Prop} {E E' : ε → Prop} (h : Ends x P E)
    (hP : ∀ a, P a → P' a) (hE : ∀ e, E e → E' e) : Ends x P' E' :=
  fun ds => ⟨fun a ds' heq => hP a ((h ds).1 a ds' heq), fun e heq => hE e ((h ds).2 e heq)⟩

theorem Ends.bind {x : Choice ε α} {f : α → Choice ε β} {P : α → Prop} {Q : β → Prop}
    {E : ε → Prop} (hx : Ends x P E) (hf : ∀ a, P a → Ends (f a) Q E) : Ends (x >>= f) Q E := by
  intro ds
  cases hxd : x ds with
  | error e =>
    rw [bind_run_error hxd]
    refine ⟨by simp, ?_⟩
    intro e' heq
    obtain rfl := Except.error.inj heq
    exact (hx ds).2 e hxd
  | ok r =>
    rw [bind_run hxd]
    exact hf r.1 ((hx ds).1 r.1 r.2 hxd) r.2

/-- An invariant of the body holds when the loop is left, the condition being false, and every reason
    the body or a lack of choices gives satisfies `E`. -/
theorem Ends.whileLoop {starved : σ → ε} {cond : σ → Bool} {body : σ → ℕ → Except ε σ}
    {I : σ → Prop} {E : ε → Prop}
    (hok : ∀ s d s', I s → cond s = true → body s d = .ok s' → I s')
    (herr : ∀ s d e, I s → cond s = true → body s d = .error e → E e)
    (hstarved : ∀ s, I s → cond s = true → E (starved s)) {s : σ} (hs : I s) :
    Ends (whileLoop starved cond body s) (fun s' => I s' ∧ cond s' = false) E := by
  intro ds
  induction ds generalizing s with
  | nil =>
    by_cases hc : cond s = true
    · rw [whileLoop_nil hc]
      refine ⟨by simp, ?_⟩
      rintro e heq
      obtain rfl := Except.error.inj heq
      exact hstarved s hs hc
    · rw [whileLoop_done hc]
      exact Ends.pure (P := fun s' => I s' ∧ cond s' = false) ⟨hs, by simpa using hc⟩ []
  | cons d ds ih =>
    by_cases hc : cond s = true
    · cases hb : body s d with
      | error e =>
        rw [whileLoop_error hc hb]
        refine ⟨by simp, ?_⟩
        rintro e' heq
        obtain rfl := Except.error.inj heq
        exact herr s d e hs hc hb
      | ok s' =>
        rw [whileLoop_ok hc hb]
        exact ih (hok s d s' hs hc hb)
    · rw [whileLoop_done hc]
      exact Ends.pure (P := fun s' => I s' ∧ cond s' = false) ⟨hs, by simpa using hc⟩ (d :: ds)

/-! ### Reasons for not returning -/

/-- Every reason the program gives for not returning satisfies `E`. -/
def Fails (x : Choice ε α) (E : ε → Prop) : Prop := ∀ ds e, x ds = .error e → E e

section Fails
variable {E : ε → Prop}

theorem Fails.pure (a : α) : Fails (Pure.pure a : Choice ε α) E := by
  intro ds e h
  have h : (Except.ok (a, ds) : Except ε (α × List ℕ)) = .error e := h
  cases h

theorem Fails.throw {e : ε} (h : E e) : Fails (throw e : Choice ε α) E := by
  intro ds e' heq
  have heq : (Except.error e : Except ε (α × List ℕ)) = .error e' := heq
  obtain rfl := Except.error.inj heq
  exact h

theorem Fails.lift {x : Except ε α} (h : ∀ e, x = .error e → E e) :
    Fails (liftM x : Choice ε α) E := by
  intro ds e heq
  cases x with
  | error e' =>
    have heq : (Except.error e' : Except ε (α × List ℕ)) = .error e := heq
    obtain rfl := Except.error.inj heq
    exact h e' rfl
  | ok a =>
    have heq : (Except.ok (a, ds) : Except ε (α × List ℕ)) = .error e := heq
    cases heq

theorem Fails.next {starved : ε} (h : E starved) : Fails (Choice.next starved) E := by
  intro ds e heq
  cases ds with
  | nil =>
    obtain rfl := Except.error.inj heq
    exact h
  | cons d ds => cases heq

theorem Fails.retry {starved : ε} {f : ℕ → Except ε (Option α)} (h : E starved)
    (hf : ∀ d e, f d = .error e → E e) : Fails (Choice.retry starved f) E := by
  intro ds e heq
  induction ds with
  | nil =>
    obtain rfl := Except.error.inj heq
    exact h
  | cons d ds ih =>
    rw [Choice.retry] at heq
    split at heq
    · rename_i hfd
      obtain rfl := Except.error.inj heq
      exact hf d _ hfd
    · cases heq
    · exact ih heq

/-- In a sequence the second part only has to cope with the values the first part returns. -/
theorem Fails.bind {x : Choice ε α} {f : α → Choice ε β} (hx : Fails x E)
    (hf : ∀ a, Returns x a → Fails (f a) E) : Fails (x >>= f) E := by
  intro ds e heq
  cases hxd : x ds with
  | error e' =>
    rw [bind_run_error hxd] at heq
    obtain rfl := Except.error.inj heq
    exact hx ds e' hxd
  | ok r =>
    rw [bind_run hxd] at heq
    exact hf r.1 ⟨ds, r.2, hxd⟩ r.2 e heq

end Fails

/-! ### Total correctness -/

/-- Any `n` positive choices make the program return, with a value that satisfies `P`. -/
def Yields (x : Choice ε α) (n : ℕ) (P : α → Prop) : Prop :=
  ∀ ds : List ℕ, (∀ d ∈ ds, 0 < d) → n ≤ ds.length →
    ∃ a ds', x ds = .ok (a, ds') ∧ P a ∧ (∀ d ∈ ds', 0 < d) ∧ ds.length ≤ ds'.length + n

theorem Yields.pure {P : α → Prop} {a : α} (h : P a) :
    Yields (Pure.pure a : Choice ε α) 0 P :=
  fun ds hpos _ => ⟨a, ds, rfl, h, hpos, Nat.le_refl _⟩

theorem Yields.mono {x : Choice ε α} {n : ℕ} {P P' : α → Prop} (h : Yields x n P)
    (hP : ∀ a, P a → P' a) : Yields x n P' := by
  intro ds hpos hlen
  obtain ⟨a, ds', hx, ha, hpos', hlen'⟩ := h ds hpos hlen
  exact ⟨a, ds', hx, hP a ha, hpos', hlen'⟩

theorem Yields.bind {x : Choice ε α} {f : α → Choice ε β} {n m : ℕ} {P : α → Prop}
    {Q : β → Prop} (hx : Yields x n P) (hf : ∀ a, P a → Yields (f a) m Q) :
    Yields (x >>= f) (n + m) Q := by
  intro ds hpos hlen
  obtain ⟨a, ds', hxd, ha, hpos', hlen'⟩ := hx ds hpos (by omega)
  obtain ⟨b, ds'', hfd, hb, hpos'', hlen''⟩ := hf a ha ds' hpos' (by omega)
  refine ⟨b, ds'', ?_, hb, hpos'', by omega⟩
  rw [bind_run hxd, hfd]

/-- A body that with a positive choice keeps the invariant and lowers a measure leaves the loop. -/
theorem Yields.whileLoop {starved : σ → ε} {cond : σ → Bool} {body : σ → ℕ → Except ε σ}
    {I : σ → Prop} {μ : σ → ℕ}
    (hbody : ∀ s d, I s → cond s = true → 0 < d → ∃ s', body s d = .ok s' ∧ I s' ∧ μ s' < μ s)
    {s : σ} (hs : I s) :
    Yields (whileLoop starved cond body s) (μ s) (fun s' => I s' ∧ cond s' = false) := by
  intro ds
  induction ds generalizing s with
  | nil =>
    intro hpos hlen
    have hc : ¬ cond s = true := by
      intro hc
      obtain ⟨_, _, _, hlt⟩ := hbody s 1 hs hc Nat.one_pos
      simp only [List.length_nil] at hlen
      omega
    exact ⟨s, [], whileLoop_done hc [], ⟨hs, by simpa using hc⟩, hpos, by omega⟩
  | cons d ds ih =>
    intro hpos hlen
    by_cases hc : cond s = true
    · obtain ⟨s', hb, hs', hlt⟩ := hbody s d hs hc (hpos d List.mem_cons_self)
      have htail : ∀ d ∈ ds, 0 < d := fun d hd => hpos d (List.mem_cons_of_mem _ hd)
      rw [List.length_cons] at hlen
      obtain ⟨t, ds', hrun, ht, hpos', hlen'⟩ := ih hs' htail (by omega)
      refine ⟨t, ds', ?_, ht, hpos', by rw [List.length_cons]; omega⟩
      rw [whileLoop_ok hc hb, hrun]
    · exact ⟨s, d :: ds, whileLoop_done hc _, ⟨hs, by simpa using hc⟩, hpos, by omega⟩

/-! ### One result -/

/-- Every run that returns returns `a`, and any `n` positive choices make one that does. -/
structure Settles (x : Choice ε α) (n : ℕ) (a : α) : Prop where
  ends : Ends x (· = a) fun _ => True
  yields : Yields x n (· = a)

namespace Settles

theorem pure (a : α) : Settles (Pure.pure a : Choice ε α) 0 a := ⟨Ends.pure rfl, Yields.pure rfl⟩

theorem bind {x : Choice ε α} {f : α → Choice ε β} {n m : ℕ} {a : α} {b : β}
    (hx : Settles x n a) (hf : Settles (f a) m b) : Settles (x >>= f) (n + m) b := by
  refine ⟨hx.ends.bind ?_, hx.yields.bind ?_⟩
  · rintro _ rfl
    exact hf.ends
  · rintro _ rfl
    exact hf.yields

theorem returns_iff {x : Choice ε α} {n : ℕ} {a b : α} (h : Settles x n a) :
    Returns x b ↔ b = a := by
  constructor
  · rintro ⟨ds, ds', hx⟩
    exact (h.ends ds).1 b ds' hx
  · rintro rfl
    have hpos : ∀ d ∈ List.replicate n 1, 0 < d := fun d hd => by
      rw [List.eq_of_mem_replicate hd]
      exact Nat.one_pos
    obtain ⟨_, ds', hx, rfl, _⟩ := h.yields (List.replicate n 1) hpos (by simp)
    exact ⟨_, ds', hx⟩

end Settles

/-! ### Total but for the number of choices -/

/-- Whatever the choices, the program returns a value that satisfies `P` after at most `n` of them, or
    it was given fewer than `n` and asked for more. -/
def Takes (starved : ε) (x : Choice ε α) (n : ℕ) (P : α → Prop) : Prop :=
  ∀ ds, (∃ a ds', x ds = .ok (a, ds') ∧ P a ∧ ds.length ≤ ds'.length + n) ∨
    x ds = .error starved ∧ ds.length < n

section Takes
variable {starved : ε} {P : α → Prop} {n : ℕ}

theorem Takes.pure {a : α} (h : P a) : Takes starved (Pure.pure a : Choice ε α) 0 P :=
  fun ds => .inl ⟨a, ds, rfl, h, Nat.le_refl _⟩

theorem Takes.next : Takes starved (Choice.next starved) 1 fun _ => True := by
  intro ds
  cases ds with
  | nil => exact .inr ⟨rfl, Nat.one_pos⟩
  | cons d ds => exact .inl ⟨d, ds, rfl, trivial, Nat.le_refl _⟩

theorem Takes.lift {x : Except ε α} {a : α} (hx : x = .ok a) (h : P a) :
    Takes starved (liftM x : Choice ε α) 0 P := by
  subst hx
  exact fun ds => .inl ⟨a, ds, rfl, h, Nat.le_refl _⟩

theorem Takes.mono {x : Choice ε α} {m : ℕ} {Q : α → Prop} (h : Takes starved x n P) (hn : n ≤ m)
    (hP : ∀ a, P a → Q a) : Takes starved x m Q := by
  intro ds
  rcases h ds with ⟨a, ds', hx, ha, hlen⟩ | ⟨hx, hlen⟩
  · exact .inl ⟨a, ds', hx, hP a ha, by omega⟩
  · exact .inr ⟨hx, by omega⟩

theorem Takes.bind {x : Choice ε α} {f : α → Choice ε β} {m : ℕ} {Q : β → Prop}
    (hx : Takes starved x n P) (hf : ∀ a, P a → Takes starved (f a) m Q) :
    Takes starved (x >>= f) (n + m) Q := by
  intro ds
  rcases hx ds with ⟨a, ds', hxd, ha, hlen⟩ | ⟨hxd, hlen⟩
  · rw [bind_run hxd]
    rcases hf a ha ds' with ⟨b, ds'', hfd, hb, hlen'⟩ | ⟨hfd, hlen'⟩
    · exact .inl ⟨b, ds'', hfd, hb, by omega⟩
    · exact .inr ⟨hfd, by omega⟩
  · exact .inr ⟨bind_run_error hxd, by omega⟩

/-- A program that reads nothing takes nothing. -/
theorem Takes.reads {x : Choice ε α} {a : α} (hx : Reads x [] a) (h : P a) : Takes starved x 0 P :=
  fun ds => .inl ⟨a, ds, hx ds, h, Nat.le_refl _⟩

/-- What is returned is among what can be returned. -/
theorem Takes.returns {x : Choice ε α} (h : Takes starved x n P) :
    Takes starved x n fun a => P a ∧ Returns x a := by
  intro ds
  rcases h ds with ⟨a, ds', hx, ha, hlen⟩ | hstarved
  · exact .inl ⟨a, ds', hx, ⟨ha, ds, ds', hx⟩, hlen⟩
  · exact .inr hstarved

end Takes

/-! ### Bounded choices -/

/-- Whatever the choices below `B`, a value satisfies `P`, and the choices left are below `B` too. -/
def Below (B : ℕ) (x : Choice ε α) (P : α → Prop) : Prop :=
  ∀ ds, (∀ d ∈ ds, d < B) → ∀ a ds', x ds = .ok (a, ds') → P a ∧ ∀ d ∈ ds', d < B

section Below
variable {B : ℕ} {P : α → Prop}

theorem Below.pure {a : α} (h : P a) : Below B (Pure.pure a : Choice ε α) P := by
  intro ds hds b ds' hrun
  obtain ⟨rfl, rfl⟩ := Prod.mk.inj (Except.ok.inj hrun)
  exact ⟨h, hds⟩

theorem Below.next {starved : ε} : Below B (Choice.next starved) (· < B) := by
  intro ds hds d ds' hrun
  cases ds with
  | nil => cases hrun
  | cons e ds =>
    obtain ⟨rfl, rfl⟩ := Prod.mk.inj (Except.ok.inj hrun)
    exact ⟨hds e List.mem_cons_self, fun d hd => hds d (List.mem_cons_of_mem _ hd)⟩

theorem Below.lift {x : Except ε α} (h : ∀ a, x = .ok a → P a) :
    Below B (liftM x : Choice ε α) P := by
  cases x with
  | ok a => exact Below.pure (h a rfl)
  | error e =>
    intro ds _ a ds' hrun
    cases hrun

theorem Below.bind {x : Choice ε α} {f : α → Choice ε β} {Q : β → Prop} (hx : Below B x P)
    (hf : ∀ a, P a → Below B (f a) Q) : Below B (x >>= f) Q := by
  intro ds hds b ds' hrun
  cases hxd : x ds with
  | error e =>
    rw [bind_run_error hxd] at hrun
    cases hrun
  | ok r =>
    obtain ⟨ha, hrest⟩ := hx ds hds r.1 r.2 hxd
    rw [bind_run hxd] at hrun
    exact hf r.1 ha r.2 hrest b ds' hrun

theorem Below.mono {x : Choice ε α} {Q : α → Prop} (h : Below B x P) (hP : ∀ a, P a → Q a) :
    Below B x Q := by
  intro ds hds a ds' hrun
  obtain ⟨ha, hrest⟩ := h ds hds a ds' hrun
  exact ⟨hP a ha, hrest⟩

/-- A script of bounded choices is among them. -/
theorem Below.reads {x : Choice ε α} {ds : List ℕ} {a : α} (h : Below B x P) (hx : Reads x ds a)
    (hds : ∀ d ∈ ds, d < B) : P a :=
  (h (ds ++ []) (by simpa using hds) a [] (hx [])).1

end Below

/-! ### Bounded choices, every end -/

/-- Whatever the choices below `B`, a value satisfies `P` and a reason for not returning `E`. -/
structure Safe (B : ℕ) (x : Choice ε α) (P : α → Prop) (E : ε → Prop) : Prop where
  below : Below B x P
  reason : ∀ ds, (∀ d ∈ ds, d < B) → ∀ e, x ds = .error e → E e

section Safe
variable {B : ℕ} {P : α → Prop} {Q : β → Prop} {E : ε → Prop}

theorem Safe.of_fails {x : Choice ε α} (hx : Below B x P) (hE : Fails x E) : Safe B x P E :=
  ⟨hx, fun ds _ => hE ds⟩

theorem Safe.pure {a : α} (h : P a) : Safe B (Pure.pure a : Choice ε α) P E :=
  .of_fails (Below.pure h) (Fails.pure a)

theorem Safe.bind {x : Choice ε α} {f : α → Choice ε β} (hx : Safe B x P E)
    (hf : ∀ a, P a → Safe B (f a) Q E) : Safe B (x >>= f) Q E := by
  refine ⟨hx.below.bind fun a ha => (hf a ha).below, fun ds hds e heq => ?_⟩
  cases hxd : x ds with
  | error e' =>
    rw [bind_run_error hxd] at heq
    obtain rfl := Except.error.inj heq
    exact hx.reason ds hds e' hxd
  | ok r =>
    obtain ⟨ha, hrest⟩ := hx.below ds hds r.1 r.2 hxd
    rw [bind_run hxd] at heq
    exact (hf r.1 ha).reason r.2 hrest e heq

/-- The first part of a safe sequence gives no other reasons. -/
theorem Safe.first {x : Choice ε α} {f : α → Choice ε β} (h : Safe B (x >>= f) Q E) {ds : List ℕ}
    (hds : ∀ d ∈ ds, d < B) {e : ε} (hx : x ds = .error e) : E e :=
  h.reason ds hds e (bind_run_error hx)

/-- What follows a script of bounded choices in a safe sequence is safe. -/
theorem Safe.after {x : Choice ε α} {f : α → Choice ε β} (h : Safe B (x >>= f) Q E) {ds : List ℕ}
    (hds : ∀ d ∈ ds, d < B) {a : α} (hx : Reads x ds a) : Safe B (f a) Q E := by
  have hboth : ∀ ds', (∀ d ∈ ds', d < B) → ∀ d ∈ ds ++ ds', d < B :=
    fun ds' hds' => List.forall_mem_append.mpr ⟨hds, hds'⟩
  refine ⟨fun ds' hds' b rest hrun => ?_, fun ds' hds' e hrun => ?_⟩
  · exact h.below (ds ++ ds') (hboth ds' hds') b rest ((bind_run (hx ds')).trans hrun)
  · exact h.reason (ds ++ ds') (hboth ds' hds') e ((bind_run (hx ds')).trans hrun)

end Safe

end Choice
