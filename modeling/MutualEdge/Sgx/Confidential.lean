import MutualEdge.Sgx.Adversary

/-! Result confidentiality: the relay cannot read a response unless the enclave takes a key of the
    relay's for the device's.

    The key frame is the one frame of the protocol that nothing protects: `recv_iiot_pubkey` takes any
    public key it can parse. -/

namespace MutualEdge.Sgx
open Symbolic

/-- The enclave accepts no key but the device's, encrypts no response under a key of the relay's, and
    the relay finds out nothing it does not know. -/
structure ConfidentialResults (known : Msg → Prop) (s : AdvState) : Prop where
  accepted : ∀ k, s.accepted = some (some k) → k = .device
  encrypted : ∀ e ∈ s.exchanges, ∀ k, e.key = some k → ¬ (relayPower known).holds k
  secret : ∀ m, Derives (relayPower known) {t | t ∈ s.seen} (.text m) → known m

/-- What is handed to `recv_iiot_pubkey` is the device's public key or none at all. -/
def KeyGenuine (_ : AdvState) : AdvAction → Prop
  | .deliverKey f => ∀ k, readKey f = some k → k = .device
  | _ => True

instance (s : AdvState) : (a : AdvAction) → Decidable (KeyGenuine s a)
  | .deliverKey f => inferInstanceAs (Decidable (∀ k, readKey f = some k → k = .device))
  | .sendKey | .call _ | .deliverRequest _ _ | .deliverResponse _ => .isTrue trivial

/-- The responses are under the key that the enclave has accepted, and no frame gives anything away. -/
structure KeyGenuineInv (known : Msg → Prop) (s : AdvState) : Prop where
  accepted : ∀ k, s.accepted = some (some k) → k = .device
  keys : ∀ e ∈ s.exchanges, ∀ k, e.key = some k → k = .device
  guarded : ∀ t ∈ s.seen, Guarded (relayPower known) t

theorem guarded_enc {known : Msg → Prop} {k : KeyName} {m : Msg} {r : Seed}
    (hk : ¬ (relayPower known).holds k) : Guarded (relayPower known) (.enc k m r) :=
  fun h => absurd h hk

theorem not_holds_device {known : Msg → Prop} : ¬ (relayPower known).holds .device := by
  rintro ⟨i, hi⟩
  cases hi

theorem not_holds_enclave {known : Msg → Prop} : ¬ (relayPower known).holds .enclave := by
  rintro ⟨i, hi⟩
  cases hi

theorem keyGenuineInv_init {known : Msg → Prop} : KeyGenuineInv known {} where
  accepted k hk := by cases hk
  keys e he := by cases he
  guarded t ht := by
    rw [List.mem_singleton.mp ht]
    trivial

/-- What the enclave sends gives nothing away: a response is under the device's key, and without a key
    it is the request that the relay itself has handed over. -/
theorem guarded_responseFrame {known : Msg → Prop} {key : Option KeyName} {n : ℕ} {f : SymFrame}
    {response : Msg} (hkey : ∀ k, key = some k → k = .device) (hf : Guarded (relayPower known) f) :
    Guarded (relayPower known) (responseFrame key n f response) := by
  cases key with
  | none => exact hf
  | some k =>
    obtain rfl := hkey k rfl
    exact guarded_enc not_holds_device

theorem KeyGenuineInv.step {known : Msg → Prop} {s s' : AdvState} (h : KeyGenuineInv known s)
    (hstep : (untrusted known KeyGenuine).step s s') : KeyGenuineInv known s' := by
  obtain ⟨a, hderives, hcond, hnext⟩ := hstep
  cases a with
  | sendKey =>
    simp only [advNext, Option.ite_none_left_eq_some, Option.some.injEq] at hnext
    obtain ⟨-, rfl⟩ := hnext
    exact { h with guarded := List.forall_mem_cons.mpr ⟨trivial, h.guarded⟩ }
  | deliverKey f =>
    simp only [advNext, Option.ite_none_right_eq_some, Option.some.injEq] at hnext
    obtain ⟨-, rfl⟩ := hnext
    exact { h with accepted := fun k hk => hcond k (Option.some.inj hk) }
  | call data =>
    simp only [advNext, Option.ite_none_right_eq_some, Option.some.injEq] at hnext
    obtain ⟨-, rfl⟩ := hnext
    exact { h with
      guarded := List.forall_mem_cons.mpr ⟨guarded_enc not_holds_enclave, h.guarded⟩ }
  | deliverRequest f response =>
    rcases advNext_deliverRequest hnext with ⟨-, rfl⟩ | ⟨key, hkey, -, rfl⟩
    · exact { h with }
    · have hdevice : ∀ k, key = some k → k = .device := fun k hk => h.accepted k (hk ▸ hkey)
      have hguarded : Guarded (relayPower known) f := (hderives f rfl).guarded h.guarded
      refine { h with
        keys := ?_
        guarded := List.forall_mem_cons.mpr
          ⟨guarded_responseFrame hdevice hguarded, h.guarded⟩ }
      intro e he
      rcases List.mem_append.mp he with he | he
      · exact h.keys e he
      · rw [List.mem_singleton.mp he]
        exact hdevice
  | deliverResponse f =>
    simp only [advNext, Option.ite_none_right_eq_some, Option.some.injEq] at hnext
    obtain ⟨-, rfl⟩ := hnext
    exact { h with }

theorem KeyGenuineInv.confidential {known : Msg → Prop} {s : AdvState} (h : KeyGenuineInv known s) :
    ConfidentialResults known s where
  accepted := h.accepted
  encrypted e he k hk := by
    obtain rfl := h.keys e he k hk
    exact not_holds_device
  secret _ hm := hm.guarded h.guarded

/-- In every run in which `recv_iiot_pubkey` gets the device's key or none, the relay learns no request
    and no response, whatever else it does. -/
theorem confidentialResults_of_keyGenuine {known : Msg → Prop} {s : AdvState}
    (h : (untrusted known KeyGenuine).Reachable s) : ConfidentialResults known s :=
  ((untrusted known KeyGenuine).invariant (fun _ hs => hs ▸ keyGenuineInv_init)
    (fun _ _ hi hstep => hi.step hstep) h).confidential

/-- One round with the device's key, the request handed over twice. -/
def keyPassedOn : List AdvAction :=
  [.sendKey, .deliverKey (.pub .device), .call [1], .deliverRequest (requestFrame 0 [1]) [2],
    .deliverRequest (requestFrame 0 [1]) [3]]

theorem confidentialResults_keyPassedOn :
    ∃ s, (untrusted (fun m => m = [1]) KeyGenuine).Reachable s ∧
      s.exchanges.map Exchange.response = [[2], [3]] ∧ ConfidentialResults (fun m => m = [1]) s := by
  have hrun : (advRun KeyGenuine {} keyPassedOn).map
      (fun s => s.exchanges.map Exchange.response) = some [[2], [3]] := by decide
  obtain ⟨s, hs, hresponses⟩ := Option.map_eq_some_iff.mp hrun
  have hreach : (untrusted (fun m => m = [1]) KeyGenuine).Reachable s :=
    advRun_reachable (.of_init _ rfl) hs
  exact ⟨s, hreach, hresponses, confidentialResults_of_keyGenuine hreach⟩

/-- The relay hands over a key of its own in place of the device's. -/
def keyReplaced : List AdvAction :=
  [.sendKey, .deliverKey (.pub (.adversary 0)), .call [1], .deliverRequest (requestFrame 0 [1]) [2]]

/-- A relay that knows nothing reads the response of the enclave. -/
theorem confidentialResults_fails : ∃ s, (untrusted (fun _ => False) unrestricted).Reachable s ∧
    s.accepted = some (some (.adversary 0)) ∧
    Derives (relayPower fun _ => False) {t | t ∈ s.seen} (.text [2]) ∧
    ¬ ConfidentialResults (fun _ => False) s := by
  have hrun : (advRun unrestricted {} keyReplaced).map (fun s => (s.accepted, s.seen)) =
      some (some (some (.adversary 0)), [.enc (.adversary 0) [2] (.enclave 0),
        requestFrame 0 [1], .pub .device, .pub .enclave]) := by decide
  obtain ⟨s, hs, heq⟩ := Option.map_eq_some_iff.mp hrun
  obtain ⟨haccepted, hseen⟩ := Prod.mk.inj heq
  have hread : Derives (relayPower fun _ => False) {t | t ∈ s.seen} (.text [2]) := by
    have hmem : Term.enc (.adversary 0) [2] (.enclave 0) ∈ s.seen := by
      rw [hseen]
      exact List.mem_cons_self
    exact .dec (.seen hmem) ⟨0, rfl⟩
  exact ⟨s, advRun_reachable (.of_init _ rfl) hs, haccepted, hread, fun h => h.secret _ hread⟩

end MutualEdge.Sgx
