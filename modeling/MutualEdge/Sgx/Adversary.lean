import MutualEdge.Lib.Choice
import MutualEdge.Lib.Symbolic

/-! The device and the enclave when the relay between them is the adversary.

    `gateway_client.c` with RSA-OAEP idealised: a frame is a term, and the relay hands a party any
    frame it can derive from those it has seen. The device holds the enclave's public key; a frame is
    taken whole, as `recv_len_data` returns it. Neither `recv_iiot_pubkey` nor `response_offload` nor
    `request_offload` looks at where a frame comes from, and no result of OpenSSL is checked: a frame
    that does not decrypt is processed like any other one. -/

namespace MutualEdge.Sgx
open Symbolic

inductive KeyName where
  | device
  | enclave
  | adversary (i : ℕ)
  deriving DecidableEq

inductive Seed where
  | device (n : ℕ)
  | enclave (n : ℕ)
  | adversary (n : ℕ)
  deriving DecidableEq

abbrev Msg := List UInt8

abbrev SymFrame := Term KeyName Msg Seed

/-- The relay holds the key pairs it has made and knows the given messages. -/
def relayPower (known : Msg → Prop) : Power KeyName Msg Seed where
  holds k := ∃ i, k = .adversary i
  knows := known
  draws r := ∃ n, r = .adversary n

/-- One call of `response_offload`: the frame received, `pubkey_iiot`, `response_msg` and the frame
    sent. -/
structure Exchange where
  request : SymFrame
  key : Option KeyName
  response : Msg
  frame : SymFrame
  deriving DecidableEq

structure AdvState where
  /-- All frames the relay has seen; the document has the enclave's public key. -/
  seen : List SymFrame := [.pub .enclave]
  keySent : Bool := false
  /-- The data of the calls of `request_offload`, and the frames that those which came back received. -/
  calls : List Msg := []
  taken : List SymFrame := []
  /-- What `recv_iiot_pubkey` has returned. -/
  accepted : Option (Option KeyName) := none
  exchanges : List Exchange := []
  enclaveExited : Bool := false

inductive AdvAction where
  | sendKey
  | deliverKey (f : SymFrame)
  | call (data : Msg)
  | deliverRequest (f : SymFrame) (response : Msg)
  | deliverResponse (f : SymFrame)

/-- `PEM_read_bio_PUBKEY`; `none` is NULL. -/
def readKey : SymFrame → Option KeyName
  | .pub k => some k
  | _ => none

/-- What the `k`-th call of `request_offload` sends. -/
def requestFrame (k : ℕ) (data : Msg) : SymFrame := .enc .enclave data (.device k)

/-- What the `n`-th call of `response_offload` sends. Without a key nothing is encrypted, and the buffer
    still holds the request. -/
def responseFrame (key : Option KeyName) (n : ℕ) (request : SymFrame) (response : Msg) : SymFrame :=
  match key with
  | some k => .enc k response (.enclave n)
  | none => request

/-- What the parties do. -/
def advNext (s : AdvState) : AdvAction → Option AdvState
  | .sendKey =>
    if s.keySent then none else some { s with keySent := true, seen := .pub .device :: s.seen }
  | .deliverKey f => if s.accepted = none then some { s with accepted := some (readKey f) } else none
  | .call data =>
    if s.keySent ∧ s.calls.length = s.taken.length then
      some { s with
        calls := s.calls ++ [data]
        seen := requestFrame s.calls.length data :: s.seen }
    else none
  | .deliverRequest f response =>
    match s.accepted with
    | none => none
    | some key =>
      if s.enclaveExited then none
      -- `if (encrypted_len <= 0)`
      else if f = .text [] then some { s with enclaveExited := true }
      else
        let frame := responseFrame key s.exchanges.length f response
        some { s with
          exchanges := s.exchanges ++ [⟨f, key, response, frame⟩]
          seen := frame :: s.seen }
  | .deliverResponse f =>
    if s.taken.length < s.calls.length then some { s with taken := s.taken ++ [f] } else none

/-- A request ends the enclave, or is answered under the key it has accepted. -/
theorem advNext_deliverRequest {s s' : AdvState} {f : SymFrame} {response : Msg}
    (h : advNext s (.deliverRequest f response) = some s') :
    (f = .text [] ∧ s' = { s with enclaveExited := true }) ∨
    ∃ key, s.accepted = some key ∧ f ≠ .text [] ∧
      s' = { s with
        exchanges := s.exchanges ++
          [⟨f, key, response, responseFrame key s.exchanges.length f response⟩]
        seen := responseFrame key s.exchanges.length f response :: s.seen } := by
  simp only [advNext] at h
  cases hkey : s.accepted with
  | none =>
    rw [hkey] at h
    cases h
  | some key =>
    simp only [hkey, Option.ite_none_left_eq_some] at h
    obtain ⟨-, h⟩ := h
    by_cases hempty : f = .text []
    · rw [if_pos hempty] at h
      exact Or.inl ⟨hempty, (Option.some.inj h).symm⟩
    · rw [if_neg hempty] at h
      exact Or.inr ⟨key, rfl, hempty, (Option.some.inj h).symm⟩

/-- The frame that the relay hands to a party. -/
def AdvAction.handed : AdvAction → Option SymFrame
  | .deliverKey f => some f
  | .deliverRequest f _ => some f
  | .deliverResponse f => some f
  | _ => none

/-- The runs with a relay that knows the given messages and keeps to a condition. -/
def untrusted (known : Msg → Prop) (condition : AdvState → AdvAction → Prop) : System AdvState where
  init s := s = {}
  step s s' := ∃ a, (∀ f, a.handed = some f → Derives (relayPower known) {t | t ∈ s.seen} f) ∧
    condition s a ∧ advNext s a = some s'

/-- The relay does what it can. -/
def unrestricted (_ : AdvState) (_ : AdvAction) : Prop := True

instance (s : AdvState) (a : AdvAction) : Decidable (unrestricted s a) := .isTrue trivial

/-- What the relay can hand over as it is: a frame that it has seen, a key that it has made. -/
def AtHand (s : AdvState) (f : SymFrame) : Prop := f ∈ s.seen ∨ f = .pub (.adversary 0)

instance (s : AdvState) (f : SymFrame) : Decidable (AtHand s f) :=
  inferInstanceAs (Decidable (f ∈ s.seen ∨ f = .pub (.adversary 0)))

section Runs
variable {known : Msg → Prop} {condition : AdvState → AdvAction → Prop}
  [∀ s a, Decidable (condition s a)]

/-- A run in which the relay hands over what it has at hand. -/
def advRun (condition : AdvState → AdvAction → Prop) [∀ s a, Decidable (condition s a)] :
    AdvState → List AdvAction → Option AdvState
  | s, [] => some s
  | s, a :: actions =>
    if (∀ f ∈ a.handed, AtHand s f) ∧ condition s a then
      (advNext s a).bind fun s' => advRun condition s' actions
    else none

theorem AtHand.derives {s : AdvState} {f : SymFrame} (h : AtHand s f) :
    Derives (relayPower known) {t | t ∈ s.seen} f := by
  rcases h with hseen | rfl
  · exact .seen hseen
  · exact .pub ⟨0, rfl⟩

theorem advRun_reachable {s s' : AdvState} {actions : List AdvAction}
    (h : (untrusted known condition).Reachable s) (hrun : advRun condition s actions = some s') :
    (untrusted known condition).Reachable s' := by
  induction actions generalizing s with
  | nil => exact Option.some.inj hrun ▸ h
  | cons a actions ih =>
    simp only [advRun, Option.ite_none_right_eq_some, Option.bind_eq_some_iff] at hrun
    obtain ⟨⟨hhand, hcond⟩, t, hnext, hrun⟩ := hrun
    exact ih (h.steps (.single ⟨a, fun f hf => (hhand f hf).derives, hcond, hnext⟩)) hrun

end Runs

end MutualEdge.Sgx
