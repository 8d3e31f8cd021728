import MutualEdge.Lib.Choice

/-! Scripts: choices that lead a program to a given end, whatever choices follow them.

    `Reads x ds a`: given the choices `ds` the program returns `a` and leaves the rest unread.
    `Stops x ds e`: given them it ends with the reason `e`. Scripts are composed along the program, one
    rule for each way to build it. -/

namespace Choice

variable {ε α β : Type}

/-- The program reads exactly `ds` and returns `a`. -/
def Reads (x : Choice ε α) (ds : List ℕ) (a : α) : Prop := ∀ rest, x (ds ++ rest) = .ok (a, rest)

/-- The choices `ds` end the program with the reason `e`. -/
def Stops (x : Choice ε α) (ds : List ℕ) (e : ε) : Prop := ∀ rest, x (ds ++ rest) = .error e

theorem Reads.returns {x : Choice ε α} {ds : List ℕ} {a : α} (h : Reads x ds a) : Returns x a :=
  ⟨ds ++ [], [], h []⟩

theorem Stops.eq {x : Choice ε α} {ds : List ℕ} {e : ε} (h : Stops x ds e) : x ds = .error e := by
  simpa using h []

theorem Reads.pure (a : α) : Reads (Pure.pure a : Choice ε α) [] a := fun _ => rfl

theorem Reads.lift {x : Except ε α} {a : α} (h : x = .ok a) :
    Reads (liftM x : Choice ε α) [] a := by
  subst h
  exact fun _ => rfl

theorem Stops.lift {x : Except ε α} {e : ε} (h : x = .error e) :
    Stops (liftM x : Choice ε α) [] e := by
  subst h
  exact fun _ => rfl

theorem Reads.next (starved : ε) (d : ℕ) : Reads (Choice.next starved) [d] d := fun _ => rfl

/-- `retry` accepts the first choice it is given. -/
theorem Reads.retry {starved : ε} {f : ℕ → Except ε (Option α)} {d : ℕ} {a : α}
    (h : f d = .ok (some a)) : Reads (Choice.retry starved f) [d] a := by
  intro rest
  rw [List.singleton_append, Choice.retry, h]

theorem Reads.bind {x : Choice ε α} {f : α → Choice ε β} {ds es : List ℕ} {a : α} {b : β}
    (hx : Reads x ds a) (hf : Reads (f a) es b) : Reads (x >>= f) (ds ++ es) b := by
  intro rest
  rw [List.append_assoc, bind_run (hx _), hf]

/-- A continuation that reads nothing more. -/
theorem Reads.bind_nil {x : Choice ε α} {f : α → Choice ε β} {ds : List ℕ} {a : α} {b : β}
    (hx : Reads x ds a) (hf : Reads (f a) [] b) : Reads (x >>= f) ds b := by
  have h := hx.bind hf
  rwa [List.append_nil] at h

theorem Reads.bind_stops {x : Choice ε α} {f : α → Choice ε β} {ds es : List ℕ} {a : α} {e : ε}
    (hx : Reads x ds a) (hf : Stops (f a) es e) : Stops (x >>= f) (ds ++ es) e := by
  intro rest
  rw [List.append_assoc, bind_run (hx _), hf]

theorem Reads.bind_stops_nil {x : Choice ε α} {f : α → Choice ε β} {ds : List ℕ} {a : α} {e : ε}
    (hx : Reads x ds a) (hf : Stops (f a) [] e) : Stops (x >>= f) ds e := by
  have h := hx.bind_stops hf
  rwa [List.append_nil] at h

theorem Stops.bind {x : Choice ε α} {ds : List ℕ} {e : ε} (hx : Stops x ds e)
    (f : α → Choice ε β) : Stops (x >>= f) ds e := by
  intro rest
  exact bind_run_error (hx rest)

end Choice
