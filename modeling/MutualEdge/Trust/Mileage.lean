import MutualEdge.Lib.Checks
import MutualEdge.Lib.Ledger
import MutualEdge.Lib.Printf

/-! `mileage_cc.go`: the mileage accounts of the trust model.

    The chaincode stub and the encoding are the contract's environment: `Stub` has the two calls the
    contract makes, `Json` the two functions of `encoding/json`. The contract drops every error but
    that of `PutState`, which makes a transaction fail. A Go `int` is an `Int64`.

    Abstractly the accounts are unbounded integers and a transaction is an operation of `Ledger` on
    them; `Represents` says that the stored balances are these integers cut to 64 bits, and every
    successful transaction keeps it. -/

namespace MutualEdge.Trust
open Checks Ledger

/-- `type Mileage struct` -/
structure Mileage where
  balance : Int64 := 0
  deriving DecidableEq

/-- `ctx.GetStub()`, over the states `σ` of the ledger. -/
structure Stub (σ ε : Type) where
  getState : σ → String → List Char × Option ε
  putState : σ → String → List Char → Except ε σ

/-- `encoding/json` on a `Mileage`. `unmarshal b m` is what is left in a variable that held `m`. -/
structure Json where
  marshal : Mileage → List Char
  unmarshal : List Char → Mileage → Mileage

section Contract
variable {σ ε : Type} (stub : Stub σ ε) (json : Json)

def initLedger (s : σ) : Except ε σ :=
  let initial : Mileage := { balance := 0 }
  let b := json.marshal initial
  stub.putState s "A" b

def consume (s : σ) (enterprise : String) (amount : Int64) : Except ε σ :=
  let b := (stub.getState s enterprise).1
  let m := json.unmarshal b {}
  let m := { m with balance := m.balance - amount }
  let nb := json.marshal m
  stub.putState s enterprise nb

def earn (s : σ) (enterprise : String) (amount : Int64) : Except ε σ :=
  let b := (stub.getState s enterprise).1
  let m := json.unmarshal b {}
  let m := { m with balance := m.balance + amount }
  let nb := json.marshal m
  stub.putState s enterprise nb

def query (s : σ) (enterprise : String) : Mileage :=
  let b := (stub.getState s enterprise).1
  json.unmarshal b {}

/-- A call of the contract. -/
inductive Tx where
  | initLedger
  | consume (enterprise : String) (amount : Int64)
  | earn (enterprise : String) (amount : Int64)
  | query (enterprise : String)
  deriving DecidableEq

def exec (s : σ) : Tx → Except ε σ
  | .initLedger => initLedger stub json s
  | .consume enterprise amount => consume stub json s enterprise amount
  | .earn enterprise amount => earn stub json s enterprise amount
  | .query _ => .ok s

/-- A sequence of transactions, all of them successful. -/
def run (s : σ) (txs : List Tx) : Except ε σ := txs.foldlM (exec stub json) s

end Contract

/-! ### What the contract relies on -/

/-- The stub is a key-value map: what is put is got, and nothing else changes. -/
structure Stub.KeyValue {σ ε : Type} (stub : Stub σ ε) : Prop where
  get_put : ∀ s k b s', stub.putState s k b = .ok s' → (stub.getState s' k).1 = b
  get_put_ne : ∀ s k b s' k', stub.putState s k b = .ok s' → k' ≠ k →
    (stub.getState s' k').1 = (stub.getState s k').1

/-- No key is present: `GetState` returns `nil` for each. -/
def Stub.Empty {σ ε : Type} (stub : Stub σ ε) (s : σ) : Prop := ∀ k, (stub.getState s k).1 = []

/-- Decoding undoes encoding, and decoding no bytes is an error that leaves the variable alone. -/
structure Json.RoundTrips (json : Json) : Prop where
  unmarshal_marshal : ∀ m m', json.unmarshal (json.marshal m) m' = m
  unmarshal_nil : ∀ m, json.unmarshal [] m = m

/-! ### The accounts -/

/-- What a transaction does to the unbounded accounts. -/
def Tx.op : Tx → Op String ℤ
  | .initLedger => .reset "A"
  | .consume enterprise amount => .add enterprise (-amount.toInt)
  | .earn enterprise amount => .add enterprise amount.toInt
  | .query enterprise => .add enterprise 0

/-- The enterprise a transaction names; `InitLedger` names `"A"`. -/
def Tx.named : Tx → String
  | .initLedger => "A"
  | .consume enterprise _ | .earn enterprise _ | .query enterprise => enterprise

def Tx.isInit (tx : Tx) : Bool := tx = .initLedger

/-- The transactions that count for an enterprise: those since the last `InitLedger` for `"A"`, all of
    them for any other. -/
def counted (enterprise : String) (txs : List Tx) : List Tx :=
  if enterprise = "A" then txs.rtakeWhile (!·.isInit) else txs

/-- The sum of the amounts of all `Earn` transactions of an enterprise. -/
def earned (enterprise : String) (txs : List Tx) : ℤ :=
  (txs.map fun
    | .earn e amount => if e = enterprise then amount.toInt else 0
    | _ => 0).sum

/-- The sum of the amounts of all `Consume` transactions of an enterprise. -/
def consumed (enterprise : String) (txs : List Tx) : ℤ :=
  (txs.map fun
    | .consume e amount => if e = enterprise then amount.toInt else 0
    | _ => 0).sum

/-- The stored balances are the accounts, cut to 64 bits. -/
def Represents {σ ε : Type} (stub : Stub σ ε) (json : Json) (s : σ) (accounts : String → ℤ) : Prop :=
  ∀ e, query stub json s e = ⟨Int64.ofInt (accounts e)⟩

section Laws
variable {σ ε : Type} {stub : Stub σ ε} {json : Json}

/-- After a record is put, a query of its key returns it and every other query is what it was. -/
theorem query_put (hs : stub.KeyValue) (hj : json.RoundTrips) {s s' : σ} {k : String} {m : Mileage}
    (h : stub.putState s k (json.marshal m) = .ok s') (e : String) :
    query stub json s' e = if e = k then m else query stub json s e := by
  by_cases he : e = k
  · subst he
    rw [if_pos rfl, query, hs.get_put _ _ _ _ h, hj.unmarshal_marshal]
  · rw [if_neg he, query, query, hs.get_put_ne _ _ _ _ _ h he]

theorem ofInt_add_amount (n : ℤ) (amount : Int64) :
    Int64.ofInt (n + amount.toInt) = Int64.ofInt n + amount := by
  rw [Int64.ofInt_add, Int64.ofInt_toInt]

theorem ofInt_sub_amount (n : ℤ) (amount : Int64) :
    Int64.ofInt (n + -amount.toInt) = Int64.ofInt n - amount := by
  rw [← sub_eq_add_neg, Int64.ofInt_sub, Int64.ofInt_toInt]

/-- A successful transaction does to the stored balances what its operation does to the accounts. -/
theorem exec_represents (hs : stub.KeyValue) (hj : json.RoundTrips) {s s' : σ} {b : String → ℤ}
    (hb : Represents stub json s b) {tx : Tx} (h : exec stub json s tx = .ok s') :
    Represents stub json s' (tx.op.apply b) := by
  have hm : ∀ e, json.unmarshal (stub.getState s e).1 {} = ⟨Int64.ofInt (b e)⟩ := hb
  intro e
  cases tx with
  | initLedger =>
    rw [query_put hs hj h, Tx.op, Op.apply, Function.update_apply, hb e]
    split <;> rfl
  | consume k amount =>
    rw [query_put hs hj h, Tx.op, Op.apply, Function.update_apply, hb e, hm k]
    split
    · rw [ofInt_sub_amount]
    · rfl
  | earn k amount =>
    rw [query_put hs hj h, Tx.op, Op.apply, Function.update_apply, hb e, hm k]
    split
    · rw [ofInt_add_amount]
    · rfl
  | query k =>
    obtain rfl := Except.ok.inj h
    have hsame : (Op.add k (0 : ℤ)).apply b = b := by
      rw [Op.apply, add_zero, Function.update_eq_self]
    rw [Tx.op, hsame]
    exact hb e

/-- A sequence of transactions on an empty ledger leaves the balances of its history. -/
theorem run_represents (hs : stub.KeyValue) (hj : json.RoundTrips) {s₀ s : σ} (h0 : stub.Empty s₀)
    {txs : List Tx} (h : run stub json s₀ txs = .ok s) :
    Represents stub json s (accounts (txs.map Tx.op)) := by
  induction txs using List.reverseRecOn generalizing s with
  | nil =>
    obtain rfl := Except.ok.inj h
    intro e
    rw [query, h0 e, hj.unmarshal_nil]
    rfl
  | append_singleton txs tx ih =>
    rw [run, List.foldlM_append] at h
    obtain ⟨q, hq, h⟩ := bind_ok.mp h
    obtain ⟨s', hs', h⟩ := bind_ok.mp h
    obtain rfl := pure_ok.mp h
    rw [accounts, List.map_append, List.map_singleton, List.foldl_append, List.foldl_cons,
      List.foldl_nil]
    exact exec_represents hs hj (ih hq) hs'

theorem amount_op (e : String) (txs : List Tx) :
    total e (txs.map Tx.op) = earned e txs - consumed e txs := by
  induction txs with
  | nil => rfl
  | cons tx txs ih =>
    rw [total] at ih
    rw [total, earned, consumed, List.map_cons, List.map_cons, List.map_cons, List.map_cons,
      List.sum_cons, List.sum_cons, List.sum_cons, ih, earned, consumed]
    cases tx with
    | initLedger =>
      simp only [Tx.op, Op.amount]
      ring
    | consume k amount =>
      simp only [Tx.op, Op.amount]
      split <;> ring
    | earn k amount =>
      simp only [Tx.op, Op.amount]
      split <;> ring
    | query k =>
      simp only [Tx.op, Op.amount, ite_self]
      ring

/-- Only `InitLedger` resets an account, and only that of `"A"`. -/
theorem resets_op (e : String) (tx : Tx) : tx.op.resets e = (decide (e = "A") && tx.isInit) := by
  cases tx with
  | initLedger => simp [Tx.op, Op.resets, Tx.isInit, eq_comm]
  | _ => simp [Tx.op, Op.resets, Tx.isInit]

/-- The operations since the last reset are those of the transactions that count. -/
theorem since_op (e : String) (txs : List Tx) :
    since e (txs.map Tx.op) = (counted e txs).map Tx.op := by
  unfold counted
  split
  · rename_i he
    have hp : (fun tx : Tx => !tx.op.resets e) = fun tx => !tx.isInit := by
      funext tx
      rw [resets_op, decide_eq_true he, Bool.true_and]
    rw [since, List.rtakeWhile, ← List.map_reverse, List.takeWhile_map, ← List.map_reverse,
      List.rtakeWhile]
    simp only [Function.comp_def, hp]
  · rename_i he
    refine since_eq_self fun op hop => ?_
    obtain ⟨tx, _, rfl⟩ := List.mem_map.mp hop
    rw [resets_op, decide_eq_false he, Bool.false_and]

/-- A query after a history returns the earned less the consumed amounts that count. -/
theorem query_eq (hs : stub.KeyValue) (hj : json.RoundTrips) {s₀ s : σ} (h0 : stub.Empty s₀)
    {txs : List Tx} (h : run stub json s₀ txs = .ok s) (e : String) :
    query stub json s e =
      ⟨Int64.ofInt (earned e (counted e txs) - consumed e (counted e txs))⟩ := by
  rw [run_represents hs hj h0 h e, accounts_eq, since_op, amount_op]

/-- A transaction leaves the balance of every enterprise it does not name. -/
theorem query_frame (hs : stub.KeyValue) (hj : json.RoundTrips) {s s' : σ} {tx : Tx}
    (h : exec stub json s tx = .ok s') {e : String} (he : e ≠ tx.named) :
    query stub json s' e = query stub json s e := by
  cases tx with
  | initLedger => exact (query_put hs hj h e).trans (if_neg he)
  | consume k amount => exact (query_put hs hj h e).trans (if_neg he)
  | earn k amount => exact (query_put hs hj h e).trans (if_neg he)
  | query k => rw [Except.ok.inj h]

/-- What counts for an enterprise is the same up to order. -/
theorem counted_perm {txs txs' : List Tx} (h : Rearranged Tx.isInit txs txs') (e : String) :
    (counted e txs).Perm (counted e txs') := by
  unfold counted
  split
  · exact h.rtakeWhile
  · exact h.perm

/-- Reordering between the calls of `InitLedger` changes no balance. -/
theorem query_rearranged (hs : stub.KeyValue) (hj : json.RoundTrips) {s₀ s s' : σ}
    (h0 : stub.Empty s₀) {txs txs' : List Tx} (hperm : Rearranged Tx.isInit txs txs')
    (h : run stub json s₀ txs = .ok s) (h' : run stub json s₀ txs' = .ok s') (e : String) :
    query stub json s' e = query stub json s e := by
  have hc := counted_perm hperm e
  have hearned : earned e (counted e txs) = earned e (counted e txs') := (hc.map _).sum_eq
  have hconsumed : consumed e (counted e txs) = consumed e (counted e txs') := (hc.map _).sum_eq
  rw [query_eq hs hj h0 h, query_eq hs hj h0 h', hearned, hconsumed]

/-- The history law: on an empty ledger every query returns, cut to 64 bits, what was earned less what
    was consumed since the last `InitLedger` for `"A"` and since the start for any other enterprise; no
    transaction changes the balance of an enterprise it does not name; and the order of the
    transactions between two calls of `InitLedger` does not matter. -/
theorem mileage_history (hs : stub.KeyValue) (hj : json.RoundTrips) {s₀ : σ} (h0 : stub.Empty s₀) :
    (∀ txs s, run stub json s₀ txs = .ok s → ∀ e, query stub json s e =
      ⟨Int64.ofInt (earned e (counted e txs) - consumed e (counted e txs))⟩) ∧
    (∀ s tx s', exec stub json s tx = .ok s' → ∀ e, e ≠ tx.named →
      query stub json s' e = query stub json s e) ∧
    ∀ txs txs' s s', Rearranged Tx.isInit txs txs' → run stub json s₀ txs = .ok s →
      run stub json s₀ txs' = .ok s' → ∀ e, query stub json s' e = query stub json s e :=
  ⟨fun _ _ h e => query_eq hs hj h0 h e, fun _ _ _ h _ he => query_frame hs hj h he,
    fun _ _ _ _ hperm h h' e => query_rearranged hs hj h0 hperm h h' e⟩

end Laws

/-! ### A stub and an encoding -/

/-- A map from keys to values. The peer refuses the empty key. -/
def mapStub : Stub (String → Option (List Char)) String where
  getState s k := ((s k).getD [], none)
  putState s k b :=
    if k = "" then .error "key must not be an empty string" else .ok (Function.update s k (some b))

theorem mapStub_keyValue : mapStub.KeyValue := by
  have hput : ∀ s k b s', mapStub.putState s k b = .ok s' → s' = Function.update s k (some b) := by
    intro s k b s' h
    simp only [mapStub] at h
    split at h
    · cases h
    · exact (Except.ok.inj h).symm
  refine ⟨fun s k b s' h => ?_, fun s k b s' k' h hne => ?_⟩
  · rw [hput s k b s' h]
    simp [mapStub]
  · rw [hput s k b s' h]
    simp [mapStub, Function.update_of_ne hne]

/-- `{"balance":n}` -/
def balanceKey : List Char := "\x7b\"balance\":".toList

def mileageMarshal (m : Mileage) : List Char :=
  balanceKey ++ (Printf.int m.balance.toInt ++ ['\x7d'])

/-- A number without leading blanks. -/
def readInt : List Char → Option ℤ
  | '-' :: ds => if ds ≠ [] ∧ ds.all Char.isDigit then some (-(Scanf.digitsValue ds)) else none
  | ds => if ds ≠ [] ∧ ds.all Char.isDigit then some (Scanf.digitsValue ds) else none

def mileageUnmarshal (b : List Char) (m : Mileage) : Mileage :=
  if balanceKey.isPrefixOf b then
    match readInt (b.drop balanceKey.length).dropLast with
    | some n => { m with balance := Int64.ofInt n }
    | none => m
  else m

theorem readInt_int (n : ℤ) : readInt (Printf.int n) = some n := by
  have hds : ∀ k, Printf.unsigned k ≠ [] ∧ (Printf.unsigned k).all Char.isDigit = true :=
    fun k => ⟨Printf.unsigned_ne_nil k, List.all_eq_true.mpr fun _ => Printf.isDigit_unsigned⟩
  have hfirst : ∀ k cs, Printf.unsigned k ≠ '-' :: cs := by
    intro k cs h
    have hd := Printf.isDigit_unsigned (h ▸ List.mem_cons_self : '-' ∈ Printf.unsigned k)
    exact absurd hd (by decide)
  unfold Printf.int
  by_cases hn : n < 0
  · rw [if_pos hn, readInt, if_pos (hds _), Printf.digitsValue_unsigned]
    congr 1
    omega
  · rw [if_neg hn, readInt, if_pos (hds _), Printf.digitsValue_unsigned]
    · congr 1
      omega
    · exact fun cs => hfirst _ cs

/-- The encoding of the contract's record. -/
def mileageJson : Json := ⟨mileageMarshal, mileageUnmarshal⟩

theorem mileageJson_roundTrips : mileageJson.RoundTrips := by
  refine ⟨fun m m' => ?_, fun m => rfl⟩
  have hprefix : balanceKey.isPrefixOf (mileageMarshal m) = true :=
    List.isPrefixOf_iff_prefix.mpr ( List.prefix_append _ _)
  change mileageUnmarshal (mileageMarshal m) m' = m
  rw [mileageUnmarshal, if_pos hprefix, mileageMarshal, List.drop_left, List.dropLast_concat,
    readInt_int]
  simp only [Int64.ofInt_toInt]

/-- Earning, a reset of `"A"` between, and consuming more than there is. -/
def sampleTxs : List Tx :=
  [.earn "A" 7, .earn "B" 5, .initLedger, .query "B", .consume "A" 3, .consume "B" 2]

theorem mileage_history_sampleTxs : ∃ s, run mapStub mileageJson (fun _ => none) sampleTxs = .ok s ∧
    query mapStub mileageJson s "A" = ⟨-3⟩ ∧ query mapStub mileageJson s "B" = ⟨3⟩ ∧
    query mapStub mileageJson s "C" = ⟨0⟩ := by
  obtain ⟨s, hs⟩ : ∃ s, run mapStub mileageJson (fun _ => none) sampleTxs = .ok s := ⟨_, rfl⟩
  have h := (mileage_history mapStub_keyValue mileageJson_roundTrips
    (fun _ => rfl : mapStub.Empty fun _ => none)).1 sampleTxs s hs
  exact ⟨s, hs, (h "A").trans (by decide), (h "B").trans (by decide), (h "C").trans (by decide)⟩

end MutualEdge.Trust
