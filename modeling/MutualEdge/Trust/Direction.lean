import MutualEdge.Trust.Mileage

/-! In which direction transactions move the credits.

    An amount is any Go `int` and the sum is taken in 64 bits, so the sign of the amount and the two
    ends of the range decide together. The law about one transaction carries over to histories, in
    which a transaction that fails leaves the ledger as it was. -/

namespace MutualEdge.Trust
open Checks Ledger

/-! ### 64-bit sums -/

/-- `b + a` is not below `b`: the amount is not negative and the sum fits, or it is negative and the
    sum is cut off at the lower end. -/
def SumGrows (b a : ℤ) : Prop := if 0 ≤ a then b + a < 2 ^ 63 else b + a < -2 ^ 63

instance (b a : ℤ) : Decidable (SumGrows b a) := inferInstanceAs (Decidable (ite _ _ _))

/-- `b - a` is not above `b`: the amount is not negative and the difference fits, or it is negative and
    the difference is cut off at the upper end. -/
def DiffFalls (b a : ℤ) : Prop := if 0 ≤ a then -2 ^ 63 ≤ b - a else 2 ^ 63 ≤ b - a

instance (b a : ℤ) : Decidable (DiffFalls b a) := inferInstanceAs (Decidable (ite _ _ _))

theorem le_add_iff (b a : Int64) : b ≤ b + a ↔ SumGrows b.toInt a.toInt := by
  have hb := Int64.le_toInt b
  have hb' := Int64.toInt_lt b
  have ha := Int64.le_toInt a
  have ha' := Int64.toInt_lt a
  rw [Int64.le_iff_toInt_le, Int64.toInt_add, SumGrows, Int.bmod_def]
  split <;> split <;> omega

theorem sub_le_iff (b a : Int64) : b - a ≤ b ↔ DiffFalls b.toInt a.toInt := by
  have hb := Int64.le_toInt b
  have hb' := Int64.toInt_lt b
  have ha := Int64.le_toInt a
  have ha' := Int64.toInt_lt a
  rw [Int64.le_iff_toInt_le, Int64.toInt_sub, DiffFalls, Int.bmod_def]
  split <;> split <;> omega

/-! ### Balances -/

section Balances
variable {σ ε : Type} (stub : Stub σ ε) (json : Json)

/-- The ledger after a transaction: what a failing one has put is not committed. -/
def commit (s : σ) (tx : Tx) : σ := (exec stub json s tx).toOption.getD s

/-- The balance that `Query` returns. -/
def balanceOf (s : σ) (enterprise : String) : Int64 := (query stub json s enterprise).balance

/-- The transaction raises a balance only if it is an `Earn` and lowers one only if it is a
    `Consume`. -/
def Directed (s : σ) (tx : Tx) : Prop :=
  ∀ e, (balanceOf stub json s e < balanceOf stub json (commit stub json s tx) e →
      ∃ amount, tx = .earn e amount) ∧
    (balanceOf stub json (commit stub json s tx) e < balanceOf stub json s e →
      ∃ amount, tx = .consume e amount)

/-- What the amount has to be, given the balance before the transaction. -/
def Forward (s : σ) : Tx → Prop
  | .initLedger => balanceOf stub json s "A" = 0
  | .consume e amount => DiffFalls (balanceOf stub json s e).toInt amount.toInt
  | .earn e amount => SumGrows (balanceOf stub json s e).toInt amount.toInt
  | .query _ => True

end Balances

section Laws
variable {σ ε : Type} {stub : Stub σ ε} {json : Json}

theorem commit_ok {s s' : σ} {tx : Tx} (h : exec stub json s tx = .ok s') :
    commit stub json s tx = s' := by
  rw [commit, h]
  rfl

theorem balanceOf_earn (hs : stub.KeyValue) (hj : json.RoundTrips) {s s' : σ} {k : String}
    {amount : Int64} (h : earn stub json s k amount = .ok s') (e : String) :
    balanceOf stub json s' e =
      if e = k then balanceOf stub json s k + amount else balanceOf stub json s e := by
  rw [balanceOf, query_put hs hj h e]
  split <;> rfl

theorem balanceOf_consume (hs : stub.KeyValue) (hj : json.RoundTrips) {s s' : σ} {k : String}
    {amount : Int64} (h : consume stub json s k amount = .ok s') (e : String) :
    balanceOf stub json s' e =
      if e = k then balanceOf stub json s k - amount else balanceOf stub json s e := by
  rw [balanceOf, query_put hs hj h e]
  split <;> rfl

theorem balanceOf_initLedger (hs : stub.KeyValue) (hj : json.RoundTrips) {s s' : σ}
    (h : initLedger stub json s = .ok s') (e : String) :
    balanceOf stub json s' e = if e = "A" then 0 else balanceOf stub json s e := by
  rw [balanceOf, query_put hs hj h e]
  split <;> rfl

/-- The direction of the credits, balance by balance. -/
theorem directed_iff_of_ok {s s' : σ} {tx : Tx} (h : exec stub json s tx = .ok s') :
    Directed stub json s tx ↔
      ∀ e, ((∃ amount, tx = .earn e amount) ∨ balanceOf stub json s' e ≤ balanceOf stub json s e) ∧
        ((∃ amount, tx = .consume e amount) ∨ balanceOf stub json s e ≤ balanceOf stub json s' e) := by
  rw [Directed, commit_ok h]
  refine forall_congr' fun e => and_congr ?_ ?_
  · rw [← Int64.not_lt, or_comm, ← imp_iff_not_or]
  · rw [← Int64.not_lt, or_comm, ← imp_iff_not_or]

/-- A transaction that puts the balance `v` for `k` is judged by that balance alone. -/
theorem directed_iff_of_put {s s' : σ} {tx : Tx} (h : exec stub json s tx = .ok s') {k : String}
    {v : Int64} (hb : ∀ e, balanceOf stub json s' e = if e = k then v else balanceOf stub json s e) :
    Directed stub json s tx ↔
      ((∃ amount, tx = .earn k amount) ∨ v ≤ balanceOf stub json s k) ∧
        ((∃ amount, tx = .consume k amount) ∨ balanceOf stub json s k ≤ v) := by
  rw [directed_iff_of_ok h]
  constructor
  · intro hd
    have hk := hd k
    rwa [hb k, if_pos rfl] at hk
  · intro hk e
    rw [hb e]
    by_cases he : e = k
    · rw [if_pos he, he]
      exact hk
    · rw [if_neg he]
      exact ⟨.inr Int64.le_rfl, .inr Int64.le_rfl⟩

/-- A transaction that succeeds moves the credits as documented exactly when its amount does. -/
theorem directed_iff (hs : stub.KeyValue) (hj : json.RoundTrips) {s s' : σ} {tx : Tx}
    (h : exec stub json s tx = .ok s') : Directed stub json s tx ↔ Forward stub json s tx := by
  cases tx with
  | initLedger =>
    rw [directed_iff_of_put h (balanceOf_initLedger hs hj h), Forward]
    constructor
    · rintro ⟨hup, hdown⟩
      exact Int64.le_antisymm (hdown.resolve_left (by simp)) (hup.resolve_left (by simp))
    · intro h0
      rw [h0]
      exact ⟨.inr Int64.le_rfl, .inr Int64.le_rfl⟩
  | earn k amount =>
    rw [directed_iff_of_put h (balanceOf_earn hs hj h), Forward, ← le_add_iff]
    exact ⟨fun hd => hd.2.resolve_left (by simp), fun hle => ⟨.inl ⟨amount, rfl⟩, .inr hle⟩⟩
  | consume k amount =>
    rw [directed_iff_of_put h (balanceOf_consume hs hj h), Forward, ← sub_le_iff]
    exact ⟨fun hd => hd.1.resolve_left (by simp), fun hle => ⟨.inr hle, .inl ⟨amount, rfl⟩⟩⟩
  | query k =>
    obtain rfl := Except.ok.inj h
    exact (directed_iff_of_ok h).trans
      ⟨fun _ => trivial, fun _ _ => ⟨.inr Int64.le_rfl, .inr Int64.le_rfl⟩⟩

/-- A transaction that fails moves nothing. -/
theorem directed_of_error {s : σ} {tx : Tx} {err : ε} (h : exec stub json s tx = .error err) :
    Directed stub json s tx := by
  have hsame : commit stub json s tx = s := by
    rw [commit, h]
    rfl
  rw [Directed, hsame]
  exact fun e => ⟨fun hlt => (Int64.lt_irrefl hlt).elim, fun hlt => (Int64.lt_irrefl hlt).elim⟩

/-- Credits move as documented. A successful `Earn` does not lower and a successful `Consume` does not
    raise the balance exactly when amount and balance are as `SumGrows` and `DiffFalls` say; and over a
    history balances go up through `Earn` and down through `Consume` only exactly when that is so for
    all its successful transactions and `InitLedger` meets a balance of zero. -/
theorem credits_directed_iff (hs : stub.KeyValue) (hj : json.RoundTrips) :
    (∀ s e amount s', earn stub json s e amount = .ok s' →
      (balanceOf stub json s e ≤ balanceOf stub json s' e ↔
        SumGrows (balanceOf stub json s e).toInt amount.toInt)) ∧
    (∀ s e amount s', consume stub json s e amount = .ok s' →
      (balanceOf stub json s' e ≤ balanceOf stub json s e ↔
        DiffFalls (balanceOf stub json s e).toInt amount.toInt)) ∧
    ∀ s txs, Along (commit stub json) (Directed stub json) s txs ↔
      Along (commit stub json)
        (fun s tx => (exec stub json s tx).isOk = true → Forward stub json s tx) s txs := by
  refine ⟨fun s e amount s' h => ?_, fun s e amount s' h => ?_, along_congr fun s tx => ?_⟩
  · rw [balanceOf_earn hs hj h, if_pos rfl, le_add_iff]
  · rw [balanceOf_consume hs hj h, if_pos rfl, sub_le_iff]
  · cases h : exec stub json s tx with
    | error err => exact iff_of_true (directed_of_error h) fun hok => by cases hok
    | ok s' =>
      rw [directed_iff hs hj h]
      exact ⟨fun hf _ => hf, fun hf => hf rfl⟩

end Laws

/-- Supplying seven and borrowing nine of them. -/
theorem credits_directed_mapStub :
    Along (commit mapStub mileageJson) (Directed mapStub mileageJson) (fun _ => none)
      [.earn "A" 7, .consume "A" 9] := by
  obtain ⟨_, _, hrun⟩ := credits_directed_iff mapStub_keyValue mileageJson_roundTrips
  obtain ⟨s, h⟩ : ∃ s, earn mapStub mileageJson (fun _ => none) "A" 7 = .ok s := ⟨_, rfl⟩
  have hexec : exec mapStub mileageJson (fun _ => none) (.earn "A" 7) = .ok s := h
  have hb := balanceOf_earn mapStub_keyValue mileageJson_roundTrips h "A"
  refine (hrun _ _).mpr ⟨fun _ => ?_, fun _ => ?_, trivial⟩
  · change SumGrows _ _
    decide
  · rw [commit_ok hexec]
    change DiffFalls (balanceOf mapStub mileageJson s "A").toInt _
    rw [hb]
    decide

/-- Supplying minus five takes five credits. -/
theorem credits_directed_fails : ∃ s', earn mapStub mileageJson (fun _ => none) "A" (-5) = .ok s' ∧
    ¬ balanceOf mapStub mileageJson (fun _ => none) "A" ≤ balanceOf mapStub mileageJson s' "A" ∧
    ¬ Directed mapStub mileageJson (fun _ => none) (.earn "A" (-5)) := by
  obtain ⟨s', h⟩ : ∃ s', earn mapStub mileageJson (fun _ => none) "A" (-5) = .ok s' := ⟨_, rfl⟩
  have hexec : exec mapStub mileageJson (fun _ => none) (.earn "A" (-5)) = .ok s' := h
  have hb := balanceOf_earn mapStub_keyValue mileageJson_roundTrips h "A"
  refine ⟨s', h, ?_, fun hd => ?_⟩
  · rw [hb]
    decide
  · have hforward : SumGrows _ _ := (directed_iff mapStub_keyValue mileageJson_roundTrips hexec).mp hd
    exact absurd hforward (by decide)

end MutualEdge.Trust
