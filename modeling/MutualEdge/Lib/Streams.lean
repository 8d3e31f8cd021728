import Mathlib.Algebra.Order.Group.Nat
import Mathlib.Data.List.GetD
import MutualEdge.Lib.Script

/-! Programs on an endless stream of choices.

    `Finishes s x P E`: wherever in the stream `s` the program starts, it has come to an end after
    finitely many choices, with a value that satisfies `P` or a reason that satisfies `E`, and more
    choices do not change that. Programs that repeat a choice until it suits do so on streams that keep
    offering one that does. -/

namespace Choice

variable {ε α β : Type}

/-- The choices number `i` to `n - 1`. -/
def slice (s : ℕ → ℕ) (i n : ℕ) : List ℕ := (List.range' i (n - i)).map s

theorem slice_cons (s : ℕ → ℕ) {i n : ℕ} (h : i < n) : slice s i n = s i :: slice s (i + 1) n := by
  rw [slice, slice, show n - i = (n - (i + 1)) + 1 by omega, List.range'_succ, List.map_cons]

/-- A stream that starts with given choices. -/
def startingWith (ds : List ℕ) (s : ℕ → ℕ) (i : ℕ) : ℕ := ds.getD i (s i)

theorem slice_startingWith (ds : List ℕ) (s : ℕ → ℕ) {n : ℕ} (h : ds.length ≤ n) :
    ∃ rest, slice (startingWith ds s) 0 n = ds ++ rest := by
  refine ⟨(slice (startingWith ds s) 0 n).drop ds.length, ?_⟩
  have htake : (slice (startingWith ds s) 0 n).take ds.length = ds := by
    refine List.ext_getElem (by simp [slice, h]) fun i hi hi' => ?_
    simp [slice, startingWith, hi']
  conv_lhs => rw [← List.take_append_drop ds.length (slice (startingWith ds s) 0 n), htake]

/-- Every choice comes up again and again, up to multiples of `m`. -/
def Fair (m : ℕ) (s : ℕ → ℕ) : Prop := ∀ v < m, ∀ n, ∃ k ≥ n, s k % m = v

theorem Fair.startingWith {m : ℕ} {s : ℕ → ℕ} (h : Fair m s) (ds : List ℕ) :
    Fair m (startingWith ds s) := by
  intro v hv n
  obtain ⟨k, hk, hsk⟩ := h v hv (max n ds.length)
  refine ⟨k, (Nat.le_max_left _ _).trans hk, ?_⟩
  rwa [Choice.startingWith, List.getD_eq_default _ _ ((Nat.le_max_right _ _).trans hk)]

theorem fair_id (m : ℕ) : Fair m id := by
  intro v hv n
  refine ⟨v + m * n, ?_, ?_⟩
  · have hmul : 1 * n ≤ m * n := Nat.mul_le_mul_right n (Nat.zero_lt_of_lt hv)
    omega
  · rw [id, Nat.add_mul_mod_self_left, Nat.mod_eq_of_lt hv]

/-- Started at choice number `i` of the stream, the program comes to an end. -/
def FinishesFrom (s : ℕ → ℕ) (x : Choice ε α) (P : α → Prop) (E : ε → Prop) (i : ℕ) : Prop :=
  ∃ j ≥ i, (∃ a, P a ∧ ∀ n ≥ j, x (slice s i n) = .ok (a, slice s j n)) ∨
    ∃ e, E e ∧ ∀ n ≥ j, x (slice s i n) = .error e

/-- The program comes to an end wherever it starts. -/
def Finishes (s : ℕ → ℕ) (x : Choice ε α) (P : α → Prop) (E : ε → Prop) : Prop :=
  ∀ i, FinishesFrom s x P E i

section Finishes
variable {s : ℕ → ℕ} {P : α → Prop} {E : ε → Prop}

theorem Finishes.pure {a : α} (h : P a) : Finishes s (Pure.pure a : Choice ε α) P E :=
  fun i => ⟨i, le_rfl, .inl ⟨a, h, fun _ _ => rfl⟩⟩

theorem Finishes.throw {e : ε} (h : E e) : Finishes s (throw e : Choice ε α) P E :=
  fun i => ⟨i, le_rfl, .inr ⟨e, h, fun _ _ => rfl⟩⟩

theorem Finishes.lift {x : Except ε α} (hok : ∀ a, x = .ok a → P a)
    (herr : ∀ e, x = .error e → E e) : Finishes s (liftM x : Choice ε α) P E := by
  cases x with
  | ok a => exact fun i => ⟨i, le_rfl, .inl ⟨a, hok a rfl, fun _ _ => rfl⟩⟩
  | error e => exact fun i => ⟨i, le_rfl, .inr ⟨e, herr e rfl, fun _ _ => rfl⟩⟩

theorem Finishes.next {starved : ε} : Finishes s (Choice.next starved) (fun _ => True) E := by
  intro i
  refine ⟨i + 1, i.le_succ, .inl ⟨s i, trivial, fun n hn => ?_⟩⟩
  rw [slice_cons s hn]
  rfl

theorem Finishes.mono {x : Choice ε α} {P' : α → Prop} {E' : ε → Prop} (h : Finishes s x P E)
    (hP : ∀ a, P a → P' a) (hE : ∀ e, E e → E' e) : Finishes s x P' E' := by
  intro i
  obtain ⟨j, hj, ⟨a, ha, hrun⟩ | ⟨e, he, hrun⟩⟩ := h i
  · exact ⟨j, hj, .inl ⟨a, hP a ha, hrun⟩⟩
  · exact ⟨j, hj, .inr ⟨e, hE e he, hrun⟩⟩

/-- The second part starts where the first one leaves the stream. -/
theorem Finishes.bind {x : Choice ε α} {f : α → Choice ε β} {Q : β → Prop} (hx : Finishes s x P E)
    (hf : ∀ a, P a → Returns x a → Finishes s (f a) Q E) : Finishes s (x >>= f) Q E := by
  intro i
  obtain ⟨j, hj, ⟨a, ha, hrun⟩ | ⟨e, he, hrun⟩⟩ := hx i
  · obtain ⟨k, hk, hend⟩ := hf a ha ⟨_, _, hrun j le_rfl⟩ j
    refine ⟨k, hj.trans hk, ?_⟩
    rcases hend with ⟨b, hb, hrun'⟩ | ⟨e, he, hrun'⟩
    · refine .inl ⟨b, hb, fun n hn => ?_⟩
      rw [bind_run (hrun n (hk.trans hn)), hrun' n hn]
    · refine .inr ⟨e, he, fun n hn => ?_⟩
      rw [bind_run (hrun n (hk.trans hn)), hrun' n hn]
  · exact ⟨j, hj, .inr ⟨e, he, fun n hn => bind_run_error (hrun n hn)⟩⟩

/-- Trying choice after choice comes to an end where the stream keeps offering one that is not
    refused. -/
theorem Finishes.retry {starved : ε} {f : ℕ → Except ε (Option α)}
    (hoffer : ∀ i, ∃ k ≥ i, f (s k) ≠ .ok none) (hok : ∀ d a, f d = .ok (some a) → P a)
    (herr : ∀ d e, f d = .error e → E e) : Finishes s (Choice.retry starved f) P E := by
  have hnow : ∀ i, f (s i) ≠ .ok none → FinishesFrom s (Choice.retry starved f) P E i := by
    intro i hi
    refine ⟨i + 1, i.le_succ, ?_⟩
    cases hf : f (s i) with
    | error e =>
      refine .inr ⟨e, herr _ e hf, fun n hn => ?_⟩
      rw [slice_cons s hn, Choice.retry, hf]
    | ok o =>
      obtain ⟨a, rfl⟩ := Option.ne_none_iff_exists'.mp fun h0 => hi (h0 ▸ hf)
      refine .inl ⟨a, hok _ a hf, fun n hn => ?_⟩
      rw [slice_cons s hn, Choice.retry, hf]
  have hwithin : ∀ m i, f (s (i + m)) ≠ .ok none →
      FinishesFrom s (Choice.retry starved f) P E i := by
    intro m
    induction m with
    | zero => exact hnow
    | succ m ih =>
      intro i hi
      by_cases hf : f (s i) = .ok none
      · -- refused: the rest of the stream decides
        have hskip : ∀ n ≥ i + 1, Choice.retry starved f (slice s i n) =
            Choice.retry starved f (slice s (i + 1) n) := by
          intro n hn
          rw [slice_cons s hn, Choice.retry, hf]
        obtain ⟨j, hj, hend⟩ := ih (i + 1) (by rwa [show i + 1 + m = i + (m + 1) by omega])
        refine ⟨j, by omega, ?_⟩
        rcases hend with ⟨a, ha, hrun⟩ | ⟨e, he, hrun⟩
        · exact .inl ⟨a, ha, fun n hn => (hskip n (by omega)).trans (hrun n hn)⟩
        · exact .inr ⟨e, he, fun n hn => (hskip n (by omega)).trans (hrun n hn)⟩
      · exact hnow i hf
  intro i
  obtain ⟨k, hk, hnone⟩ := hoffer i
  exact hwithin (k - i) i (by rwa [show i + (k - i) = k by omega])

/-- A script is followed on the streams that start with it. -/
theorem Finishes.stops {x : Choice ε α} {ds : List ℕ} {e : ε} (s : ℕ → ℕ)
    (h : Finishes (startingWith ds s) x P E) (hx : Stops x ds e) : E e := by
  obtain ⟨j, _, hend⟩ := h 0
  obtain ⟨rest, hrest⟩ := slice_startingWith ds s (Nat.le_max_right j ds.length)
  rcases hend with ⟨a, _, hrun⟩ | ⟨e', he', hrun⟩
  · have hboth := hrun _ (Nat.le_max_left j ds.length)
    rw [hrest, hx rest] at hboth
    cases hboth
  · have hboth := hrun _ (Nat.le_max_left j ds.length)
    rw [hrest, hx rest] at hboth
    exact Except.error.inj hboth ▸ he'

end Finishes

end Choice
