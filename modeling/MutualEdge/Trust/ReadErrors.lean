import MutualEdge.Trust.Direction

/-! Reads that fail.

    `Earn`, `Consume` and `Query` drop the errors of `GetState` and `json.Unmarshal`, so a record that
    cannot be read counts as a balance of zero. `Faults` are the errors `GetState` returns while one
    transaction runs; in a history each transaction has its own. -/

namespace MutualEdge.Trust
open Checks Ledger

/-- `encoding/json` with the error that `json.Unmarshal` returns for the bytes. -/
structure DecodingJson (δ : Type) extends Json where
  unmarshalError : List Char → Option δ

/-- The error that `GetState` returns for a key, if any. -/
abbrev Faults (ε : Type) := String → Option ε

/-- `GetState` returns no bytes along with an error. -/
def Stub.withFaults {σ ε : Type} (stub : Stub σ ε) (faults : Faults ε) : Stub σ ε where
  getState s k :=
    match faults k with
    | some err => ([], some err)
    | none => stub.getState s k
  putState := stub.putState

section Contract
variable {σ ε δ : Type} (stub : Stub σ ε) (json : DecodingJson δ)

/-- `return &m, nil` -/
def queryReply (s : σ) (enterprise : String) : Except ε Mileage :=
  .ok (query stub json.toJson s enterprise)

/-- The read of an enterprise's record fails, or there is a record and it does not decode. -/
def Unreadable (s : σ) (enterprise : String) : Prop :=
  (stub.getState s enterprise).2.isSome ∨
    ((stub.getState s enterprise).1 ≠ [] ∧
      (json.unmarshalError (stub.getState s enterprise).1).isSome)

/-- The transaction returns an error and calls no `PutState`: whatever `PutState` would do, it returns
    the same error. -/
def Refuses (s : σ) (tx : Tx) : Prop :=
  ∃ err, ∀ putState, exec { stub with putState := putState } json.toJson s tx = .error err

/-- A record that cannot be read makes the transaction fail. -/
def ErrorAtomic (s : σ) : Tx → Prop
  | .initLedger => True
  | .consume e amount => Unreadable stub json s e → Refuses stub json s (.consume e amount)
  | .earn e amount => Unreadable stub json s e → Refuses stub json s (.earn e amount)
  | .query e => Unreadable stub json s e → ∃ err, queryReply stub json s e = .error err

/-- The record that the transaction reads, if it reads one, can be read. -/
def Readable (s : σ) : Tx → Prop
  | .initLedger => True
  | .consume e _ | .earn e _ | .query e => ¬ Unreadable stub json s e

end Contract

section Histories
variable {σ ε δ : Type} (stub : Stub σ ε) (json : DecodingJson δ)

/-- A transaction during which reads may fail. -/
def commitFaulty (s : σ) (call : Faults ε × Tx) : σ :=
  commit (stub.withFaults call.1) json.toJson s call.2

/-- The balance `b'` of an enterprise after a transaction is the one before it, computed from that one,
    or reset by `InitLedger`. -/
def ComputedFrom (tx : Tx) (e : String) (b b' : Int64) : Prop :=
  b' = b ∨ (∃ amount, tx = .earn e amount ∧ b' = b + amount) ∨
    (∃ amount, tx = .consume e amount ∧ b' = b - amount) ∨ (tx = .initLedger ∧ e = "A")

/-- No balance is lost. -/
def KeepsCredit (s : σ) (call : Faults ε × Tx) : Prop :=
  ∀ e, ComputedFrom call.2 e (balanceOf stub json.toJson s e)
    (balanceOf stub json.toJson (commitFaulty stub json s call) e)

end Histories

section Laws
variable {σ ε δ : Type} {stub : Stub σ ε} {json : DecodingJson δ}

/-- What a transaction that puts returns is up to `PutState`. -/
theorem not_refuses {s : σ} {tx : Tx} (h : ∀ e, tx ≠ .query e) : ¬ Refuses stub json s tx := by
  rintro ⟨err, hall⟩
  have hput := hall fun _ _ _ => .ok s
  cases tx with
  | query e => exact h e rfl
  | initLedger => cases hput
  | consume e amount => cases hput
  | earn e amount => cases hput

/-- No transaction reports a record that cannot be read. -/
theorem errorAtomic_iff (s : σ) (tx : Tx) : ErrorAtomic stub json s tx ↔ Readable stub json s tx := by
  cases tx with
  | initLedger => exact Iff.rfl
  | consume e amount =>
    exact forall_congr' fun _ => iff_false_intro (not_refuses fun _ h => by cases h)
  | earn e amount =>
    exact forall_congr' fun _ => iff_false_intro (not_refuses fun _ h => by cases h)
  | query e =>
    refine forall_congr' fun _ => iff_false_intro ?_
    rintro ⟨err, h⟩
    cases h

/-- A stub whose read of a key does not fail reads it as the stub without faults does. -/
theorem getState_withFaults {faults : Faults ε} {s : σ} {k : String}
    (h : ¬ Unreadable (stub.withFaults faults) json s k) :
    (stub.withFaults faults).getState s k = stub.getState s k := by
  cases hf : faults k with
  | none => simp only [Stub.withFaults, hf]
  | some err =>
    refine absurd (.inl ?_) h
    simp only [Stub.withFaults, hf, Option.isSome_some]

/-- With its record readable a transaction does what it does without faults. -/
theorem exec_withFaults {faults : Faults ε} {s : σ} {tx : Tx}
    (h : Readable (stub.withFaults faults) json s tx) :
    exec (stub.withFaults faults) json.toJson s tx = exec stub json.toJson s tx := by
  cases tx with
  | initLedger => rfl
  | query e => rfl
  | consume e amount =>
    simp only [exec, consume, getState_withFaults h]
    rfl
  | earn e amount =>
    simp only [exec, earn, getState_withFaults h]
    rfl

/-- With its record readable a transaction keeps every credit. -/
theorem keepsCredit (hs : stub.KeyValue) (hj : json.RoundTrips) {s : σ} {call : Faults ε × Tx}
    (h : Readable (stub.withFaults call.1) json s call.2) : KeepsCredit stub json s call := by
  obtain ⟨faults, tx⟩ := call
  intro e
  rw [commitFaulty, commit, exec_withFaults h]
  cases hx : exec stub json.toJson s tx with
  | error err => exact .inl rfl
  | ok s' =>
    change ComputedFrom tx e _ (balanceOf stub json.toJson s' e)
    cases tx with
    | initLedger =>
      rw [balanceOf_initLedger hs hj hx e]
      by_cases he : e = "A"
      · exact .inr (.inr (.inr ⟨rfl, he⟩))
      · exact .inl (if_neg he)
    | consume k amount =>
      rw [balanceOf_consume hs hj hx e]
      by_cases he : e = k
      · subst he
        exact .inr (.inr (.inl ⟨amount, rfl, if_pos rfl⟩))
      · exact .inl (if_neg he)
    | earn k amount =>
      rw [balanceOf_earn hs hj hx e]
      by_cases he : e = k
      · subst he
        exact .inr (.inl ⟨amount, rfl, if_pos rfl⟩)
      · exact .inl (if_neg he)
    | query k =>
      rw [Except.ok.inj hx]
      exact .inl rfl

/-- A failed read is an error exactly where there is none: in every state, whatever reads fail, a
    transaction is error atomic if and only if the record it reads can be read. Along histories whose
    transactions can all read their records, every transaction is error atomic and no balance is
    replaced by one that is not computed from it. -/
theorem errorAtomicity_iff (hs : stub.KeyValue) (hj : json.RoundTrips) :
    (∀ faults s tx, ErrorAtomic (stub.withFaults faults) json s tx ↔
      Readable (stub.withFaults faults) json s tx) ∧
    ∀ s calls,
      Along (commitFaulty stub json) (fun s call => Readable (stub.withFaults call.1) json s call.2)
        s calls →
      Along (commitFaulty stub json) (fun s call =>
        ErrorAtomic (stub.withFaults call.1) json s call.2 ∧ KeepsCredit stub json s call) s calls :=
  ⟨fun _ s tx => errorAtomic_iff s tx, fun _ _ h =>
    h.mono fun s call hcall => ⟨(errorAtomic_iff s call.2).mpr hcall, keepsCredit hs hj hcall⟩⟩

end Laws

/-- The encoding of the contract's record; all bytes but those of a record are an error. -/
def mileageDecoding : DecodingJson String where
  toJson := mileageJson
  unmarshalError b :=
    if balanceKey.isPrefixOf b ∧ (readInt (b.drop balanceKey.length).dropLast).isSome then none
    else some "invalid character"

/-- A run that supplies seven credits and borrows two while all reads succeed. -/
theorem errorAtomicity_mapStub : Along (commitFaulty mapStub mileageDecoding) (fun s call =>
    ErrorAtomic (mapStub.withFaults call.1) mileageDecoding s call.2 ∧
      KeepsCredit mapStub mileageDecoding s call) (fun _ => none)
    [(fun _ => none, .earn "A" 7), (fun _ => none, .consume "A" 2)] := by
  have hj : mileageDecoding.RoundTrips := mileageJson_roundTrips
  obtain ⟨_, hrun⟩ := errorAtomicity_iff mapStub_keyValue hj
  refine hrun _ _ ⟨?_, ?_, trivial⟩
  · rintro (h | h)
    · cases h
    · exact h.1 rfl
  · rintro (h | h)
    · cases h
    · exact absurd h.2 (by decide)

/-- Seven credits of `"A"` are gone after an `Earn` whose read fails. -/
theorem errorAtomicity_fails : ∃ s,
    run mapStub mileageJson (fun _ => none) [.earn "A" 7] = .ok s ∧
    ¬ ErrorAtomic (mapStub.withFaults fun _ => some "timeout") mileageDecoding s (.earn "A" 1) ∧
    ¬ KeepsCredit mapStub mileageDecoding s (fun _ => some "timeout", .earn "A" 1) := by
  obtain ⟨s, h⟩ : ∃ s, run mapStub mileageJson (fun _ => none) [.earn "A" 7] = .ok s := ⟨_, rfl⟩
  refine ⟨s, h, fun hatomic => ?_, fun hkeeps => ?_⟩
  · exact (errorAtomic_iff _ _).mp hatomic (.inl rfl)
  · obtain rfl := Except.ok.inj h
    rcases hkeeps "A" with hk | ⟨amount, htx, hk⟩ | ⟨_, htx, _⟩ | ⟨htx, _⟩
    · exact absurd hk (by decide)
    · cases htx
      exact absurd hk (by decide)
    · cases htx
    · cases htx

end MutualEdge.Trust
