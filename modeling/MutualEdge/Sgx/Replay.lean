import Mathlib.Data.List.Nodup
import MutualEdge.Sgx.Adversary

/-! Replay protection: what the relay has to keep to for the requests and responses to be matched.

    Nothing in a frame binds it to a call, so the two parties are in step only as long as no frame
    reaches them twice or from the relay itself. -/

namespace MutualEdge.Sgx
open Symbolic

/-- Every request processed is one of the device's, each at most once, and a call of `request_offload`
    returns what the enclave has answered to that very call. -/
structure ReplayProtected (s : AdvState) : Prop where
  requests : ∀ e ∈ s.exchanges, ∃ k data, s.calls[k]? = some data ∧ e.request = requestFrame k data
  once : (s.exchanges.map Exchange.request).Nodup
  responses : ∀ k f, s.taken[k]? = some f → ∃ data, s.calls[k]? = some data ∧
    ∃ e ∈ s.exchanges, e.request = requestFrame k data ∧ e.frame = f ∧
      decrypt .device f = some e.response

/-- An honest ciphertext for the owner of a key. -/
def Genuine (k : KeyName) : SymFrame → Prop
  | .enc k' _ (.device _) => k' = k
  | .enc k' _ (.enclave _) => k' = k
  | _ => False

instance (k : KeyName) : (f : SymFrame) → Decidable (Genuine k f)
  | .enc k' _ (.device _) => inferInstanceAs (Decidable (k' = k))
  | .enc k' _ (.enclave _) => inferInstanceAs (Decidable (k' = k))
  | .enc _ _ (.adversary _) | .text _ | .pub _ => .isFalse fun h => h

theorem Genuine.eq_enc {k : KeyName} {f : SymFrame} (h : Genuine k f) :
    ∃ m r, f = .enc k m r ∧ ¬ ∃ n, r = Seed.adversary n := by
  unfold Genuine at h
  split at h
  · subst h
    exact ⟨_, _, rfl, fun ⟨_, hn⟩ => by cases hn⟩
  · subst h
    exact ⟨_, _, rfl, fun ⟨_, hn⟩ => by cases hn⟩
  · exact h.elim

/-- The relay hands to each party only ciphertexts under that party's key that it has not made itself,
    none of them twice, and does not give the enclave its own public key for the device's. An empty
    request only ends the enclave. -/
def NoReplay (s : AdvState) : AdvAction → Prop
  | .deliverKey f => f ≠ .pub .enclave
  | .deliverRequest f _ =>
    f = .text [] ∨ Genuine .enclave f ∧ f ∉ s.exchanges.map Exchange.request
  | .deliverResponse f => Genuine .device f ∧ f ∉ s.taken
  | _ => True

instance (s : AdvState) : (a : AdvAction) → Decidable (NoReplay s a)
  | .deliverKey f => inferInstanceAs (Decidable (f ≠ .pub .enclave))
  | .deliverRequest f _ => inferInstanceAs
    (Decidable (f = .text [] ∨ Genuine .enclave f ∧ f ∉ s.exchanges.map Exchange.request))
  | .deliverResponse f => inferInstanceAs (Decidable (Genuine .device f ∧ f ∉ s.taken))
  | .sendKey | .call _ => .isTrue trivial

/-- Where the frames come from when nothing is replayed. -/
structure NoReplayInv (s : AdvState) : Prop extends ReplayProtected s where
  taken_le : s.taken.length ≤ s.calls.length
  calls_le : s.calls.length ≤ s.taken.length + 1
  accepted : ∀ key, s.accepted = some key → key ≠ some .enclave
  answers : ∀ e ∈ s.exchanges,
    e.frame = e.request ∨ ∃ k n, k ≠ .enclave ∧ e.frame = .enc k e.response (.enclave n)
  origin : ∀ f ∈ s.seen, f = .pub .enclave ∨ f = .pub .device ∨
    (∃ k data, s.calls[k]? = some data ∧ f = requestFrame k data) ∨ ∃ e ∈ s.exchanges, f = e.frame

theorem noReplayInv_init : NoReplayInv {} where
  requests e he := by cases he
  once := List.nodup_nil
  responses k f hf := by cases hf
  taken_le := Nat.le_refl _
  calls_le := by decide
  accepted key hkey := by cases hkey
  answers e he := by cases he
  origin f hf := Or.inl (List.mem_singleton.mp hf)

/-- What was there before a further call of `request_offload` is there after it. -/
theorem getElem?_snoc {α : Type} {l : List α} {k : ℕ} {a b : α} (h : l[k]? = some a) :
    (l ++ [b])[k]? = some a := by
  obtain ⟨hk, -⟩ := List.getElem?_eq_some_iff.mp h
  rw [List.getElem?_append_left hk, h]

section Steps
variable {known : Msg → Prop} {s : AdvState}

/-- An honest ciphertext for the enclave is a request of the device. -/
theorem NoReplayInv.request_of_genuine (h : NoReplayInv s) {f : SymFrame}
    (hd : Derives (relayPower known) {t | t ∈ s.seen} f) (hf : Genuine .enclave f) :
    ∃ k data, s.calls[k]? = some data ∧ f = requestFrame k data := by
  obtain ⟨m, r, rfl, hr⟩ := hf.eq_enc
  rcases h.origin _ (hd.origin hr) with heq | heq | hreq | ⟨e, he, heq⟩
  · cases heq
  · cases heq
  · exact hreq
  · rcases h.answers e he with hecho | ⟨k, n, hk, hframe⟩
    · rw [heq, hecho]
      exact h.requests e he
    · rw [hframe] at heq
      cases heq
      exact absurd rfl hk

/-- An honest ciphertext for the device is an answer of the enclave. -/
theorem NoReplayInv.answer_of_genuine (h : NoReplayInv s) {f : SymFrame}
    (hd : Derives (relayPower known) {t | t ∈ s.seen} f) (hf : Genuine .device f) :
    ∃ e ∈ s.exchanges, e.frame = f ∧ decrypt .device f = some e.response := by
  obtain ⟨m, r, rfl, hr⟩ := hf.eq_enc
  rcases h.origin _ (hd.origin hr) with heq | heq | ⟨k, data, -, heq⟩ | ⟨e, he, heq⟩
  · cases heq
  · cases heq
  · cases heq
  · refine ⟨e, he, heq.symm, ?_⟩
    rcases h.answers e he with hecho | ⟨k, n, -, hframe⟩
    · -- an echoed request is not under the device's key
      obtain ⟨j, data, -, hreq⟩ := h.requests e he
      rw [hecho, hreq] at heq
      cases heq
    · rw [hframe] at heq
      cases heq
      rw [decrypt, if_pos rfl]

/-- The answer that is handed over is the one to the call that is open: those to the earlier calls have
    all been handed over before. -/
theorem NoReplayInv.deliverResponse (h : NoReplayInv s) {f : SymFrame}
    (hopen : s.taken.length < s.calls.length)
    (hans : ∃ e ∈ s.exchanges, e.frame = f ∧ decrypt .device f = some e.response)
    (hnew : f ∉ s.taken) : NoReplayInv { s with taken := s.taken ++ [f] } := by
  obtain ⟨e, he, rfl, hread⟩ := hans
  obtain ⟨k, data, hk, hreq⟩ := h.requests e he
  obtain ⟨hlt, -⟩ := List.getElem?_eq_some_iff.mp hk
  have hcall : k = s.taken.length := by
    by_contra hne
    have hcalls := h.calls_le
    have hk' : k < s.taken.length := by omega
    obtain ⟨data', hdata', e', he', hreq', hframe, -⟩ :=
      h.responses k _ (List.getElem?_eq_getElem hk')
    rw [hk] at hdata'
    obtain rfl := Option.some.inj hdata'
    obtain rfl : e' = e := List.inj_on_of_nodup_map h.once he' he (hreq'.trans hreq.symm)
    exact hnew (hframe ▸ List.getElem_mem hk')
  have hlen : (s.taken ++ [e.frame]).length = s.taken.length + 1 := by
    rw [List.length_append, List.length_singleton]
  have hcalls := h.calls_le
  refine { h with
    responses := ?_
    taken_le := by rw [hlen]; exact hopen
    calls_le := by
      show s.calls.length ≤ (s.taken ++ [e.frame]).length + 1
      omega }
  intro j g hg
  rcases Nat.lt_or_ge j s.taken.length with hj | hj
  · rw [List.getElem?_append_left hj] at hg
    exact h.responses j g hg
  · obtain ⟨hj', -⟩ := List.getElem?_eq_some_iff.mp hg
    rw [List.length_append, List.length_singleton] at hj'
    obtain rfl : j = s.taken.length := by omega
    rw [List.getElem?_append_right (Nat.le_refl _), Nat.sub_self] at hg
    obtain rfl := Option.some.inj hg
    exact ⟨data, hcall ▸ hk, e, he, hcall ▸ hreq, rfl, hread⟩

/-- A further call is numbered behind the earlier ones, whose requests and answers stay as they are. -/
theorem NoReplayInv.call (h : NoReplayInv s) (data : Msg) (hidle : s.calls.length = s.taken.length) :
    NoReplayInv { s with
      calls := s.calls ++ [data]
      seen := requestFrame s.calls.length data :: s.seen } where
  requests e he := by
    obtain ⟨k, d, hk, hreq⟩ := h.requests e he
    exact ⟨k, d, getElem?_snoc hk, hreq⟩
  once := h.once
  responses k f hf := by
    obtain ⟨d, hk, he⟩ := h.responses k f hf
    exact ⟨d, getElem?_snoc hk, he⟩
  taken_le := by
    simp only [List.length_append, hidle]
    exact Nat.le_add_right _ _
  calls_le := by
    simp only [List.length_append, List.length_singleton, hidle]
    exact Nat.le_refl _
  accepted := h.accepted
  answers := h.answers
  origin f hf := by
    rcases List.mem_cons.mp hf with rfl | hf
    · exact Or.inr (Or.inr (Or.inl ⟨s.calls.length, data, by simp, rfl⟩))
    · rcases h.origin f hf with heq | heq | ⟨k, d, hk, heq⟩ | hans
      · exact Or.inl heq
      · exact Or.inr (Or.inl heq)
      · exact Or.inr (Or.inr (Or.inl ⟨k, d, getElem?_snoc hk, heq⟩))
      · exact Or.inr (Or.inr (Or.inr hans))

/-- A request of the device that is new to the enclave is processed under a key that is not its own. -/
theorem NoReplayInv.deliverRequest (h : NoReplayInv s) {f : SymFrame} {key : Option KeyName}
    (response : Msg) (hkey : key ≠ some .enclave)
    (hreq : ∃ k data, s.calls[k]? = some data ∧ f = requestFrame k data)
    (hnew : f ∉ s.exchanges.map Exchange.request) :
    NoReplayInv { s with
      exchanges := s.exchanges ++
        [⟨f, key, response, responseFrame key s.exchanges.length f response⟩]
      seen := responseFrame key s.exchanges.length f response :: s.seen } where
  requests e he := by
    rcases List.mem_append.mp he with he | he
    · exact h.requests e he
    · rw [List.mem_singleton.mp he]
      exact hreq
  once := by
    rw [List.map_append, List.nodup_append]
    refine ⟨h.once, List.nodup_singleton _, ?_⟩
    intro a ha b hb
    rw [List.mem_singleton.mp hb]
    rintro rfl
    exact hnew ha
  responses k g hg := by
    obtain ⟨d, hk, e, he, hmatch⟩ := h.responses k g hg
    exact ⟨d, hk, e, List.mem_append_left _ he, hmatch⟩
  taken_le := h.taken_le
  calls_le := h.calls_le
  accepted := h.accepted
  answers e he := by
    rcases List.mem_append.mp he with he | he
    · exact h.answers e he
    · rw [List.mem_singleton.mp he]
      cases key with
      | none => exact Or.inl rfl
      | some k => exact Or.inr ⟨k, _, fun hk => hkey (congrArg some hk), rfl⟩
  origin g hg := by
    rcases List.mem_cons.mp hg with rfl | hg
    · exact Or.inr (Or.inr (Or.inr ⟨_, List.mem_append_right _ (List.mem_singleton_self _), rfl⟩))
    · rcases h.origin g hg with heq | heq | hcall | ⟨e, he, heq⟩
      · exact Or.inl heq
      · exact Or.inr (Or.inl heq)
      · exact Or.inr (Or.inr (Or.inl hcall))
      · exact Or.inr (Or.inr (Or.inr ⟨e, List.mem_append_left _ he, heq⟩))

theorem NoReplayInv.step {s' : AdvState} (h : NoReplayInv s)
    (hstep : (untrusted known NoReplay).step s s') : NoReplayInv s' := by
  obtain ⟨a, hderives, hcond, hnext⟩ := hstep
  cases a with
  | sendKey =>
    simp only [advNext, Option.ite_none_left_eq_some, Option.some.injEq] at hnext
    obtain ⟨-, rfl⟩ := hnext
    refine { h with origin := ?_ }
    intro f hf
    rcases List.mem_cons.mp hf with rfl | hf
    · exact Or.inr (Or.inl rfl)
    · exact h.origin f hf
  | deliverKey f =>
    simp only [advNext, Option.ite_none_right_eq_some, Option.some.injEq] at hnext
    obtain ⟨-, rfl⟩ := hnext
    refine { h with accepted := ?_ }
    intro key hkey henc
    obtain rfl := Option.some.inj hkey
    cases f with
    | pub k => exact hcond (congrArg Term.pub (Option.some.inj henc))
    | _ => cases henc
  | call data =>
    simp only [advNext, Option.ite_none_right_eq_some, Option.some.injEq] at hnext
    obtain ⟨⟨-, hidle⟩, rfl⟩ := hnext
    exact h.call data hidle
  | deliverRequest f response =>
    rcases advNext_deliverRequest hnext with ⟨-, rfl⟩ | ⟨key, hkey, hne, rfl⟩
    · exact { h with }
    · obtain ⟨hgenuine, hnew⟩ := hcond.resolve_left hne
      exact h.deliverRequest response (h.accepted key hkey)
        (h.request_of_genuine (hderives f rfl) hgenuine) hnew
  | deliverResponse f =>
    obtain ⟨hgenuine, hnew⟩ := hcond
    have hans := h.answer_of_genuine (hderives f rfl) hgenuine
    simp only [advNext, Option.ite_none_right_eq_some, Option.some.injEq] at hnext
    obtain ⟨hopen, rfl⟩ := hnext
    exact h.deliverResponse hopen hans hnew

end Steps

/-- In every run in which the relay hands to each party only ciphertexts that it has not made itself,
    none of them twice, and the enclave does not get its own public key, replay protection holds in
    every state. -/
theorem replayProtected_of_noReplay {known : Msg → Prop} {s : AdvState}
    (h : (untrusted known NoReplay).Reachable s) : ReplayProtected s :=
  ((untrusted known NoReplay).invariant (fun _ hs => hs ▸ noReplayInv_init)
    (fun _ _ hi hstep => hi.step hstep) h).toReplayProtected

/-- One round in which every frame is passed on. -/
def passedOn : List AdvAction :=
  [.sendKey, .deliverKey (.pub .device), .call [1], .deliverRequest (requestFrame 0 [1]) [2],
    .deliverResponse (.enc .device [2] (.enclave 0))]

theorem replayProtected_passedOn : ∃ s, (untrusted (fun _ => False) NoReplay).Reachable s ∧
    s.taken = [.enc .device [2] (.enclave 0)] ∧ ReplayProtected s := by
  have hrun : (advRun NoReplay {} passedOn).map AdvState.taken =
      some [.enc .device [2] (.enclave 0)] := by decide
  obtain ⟨s, hs, htaken⟩ := Option.map_eq_some_iff.mp hrun
  have hreach : (untrusted (fun _ => False) NoReplay).Reachable s :=
    advRun_reachable (.of_init _ rfl) hs
  exact ⟨s, hreach, htaken, replayProtected_of_noReplay hreach⟩

/-- The request is handed to the enclave a second time, the first answer to the device for both of its
    calls. -/
def replayed : List AdvAction :=
  [.sendKey, .deliverKey (.pub .device), .call [1], .deliverRequest (requestFrame 0 [1]) [2],
    .deliverRequest (requestFrame 0 [1]) [3], .deliverResponse (.enc .device [2] (.enclave 0)),
    .call [4], .deliverResponse (.enc .device [2] (.enclave 0))]

/-- A relay that knows nothing and only stores frames makes the enclave process one request twice, and
    the device take for its second result the answer to its first call. -/
theorem replay_fails : ∃ s, (untrusted (fun _ => False) unrestricted).Reachable s ∧
    s.exchanges.map Exchange.request = [requestFrame 0 [1], requestFrame 0 [1]] ∧
    s.taken = [.enc .device [2] (.enclave 0), .enc .device [2] (.enclave 0)] ∧
    ¬ (∀ k f, s.taken[k]? = some f → ∃ data, s.calls[k]? = some data ∧
      ∃ e ∈ s.exchanges, e.request = requestFrame k data ∧ e.frame = f) ∧
    ¬ ReplayProtected s := by
  have hrun : (advRun unrestricted {} replayed).map
      (fun s => (s.exchanges.map Exchange.request, s.taken)) =
      some ([requestFrame 0 [1], requestFrame 0 [1]],
        [.enc .device [2] (.enclave 0), .enc .device [2] (.enclave 0)]) := by decide
  obtain ⟨s, hs, heq⟩ := Option.map_eq_some_iff.mp hrun
  obtain ⟨hrequests, htaken⟩ := Prod.mk.inj heq
  refine ⟨s, advRun_reachable (.of_init _ rfl) hs, hrequests, htaken, ?_, ?_⟩
  · intro h
    obtain ⟨data, -, e, he, hreq, -⟩ := h 1 (.enc .device [2] (.enclave 0)) (by rw [htaken]; rfl)
    have hmem := List.mem_map_of_mem (f := Exchange.request) he
    rw [hrequests, hreq] at hmem
    simp [requestFrame] at hmem
  · intro h
    have honce := h.once
    rw [hrequests] at honce
    exact absurd honce (by decide)

end MutualEdge.Sgx
