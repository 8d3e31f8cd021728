import MutualEdge.Sgx.Answers
import MutualEdge.Sgx.Session

/-! Every task is answered.

    A step of the session is a step of the relay, so it lowers the same potential; and where the relay
    could go on with some bytes the session can with those it computes, as long as they fit the buffers
    they are received in. -/

namespace MutualEdge.Sgx
open Pkey Potential

/-- The steps by which the programs go on with what the device has asked for. -/
def SessionAction.Serving {Seed : Type} : SessionAction Seed → Prop
  | .offload _ => False
  | .other a => a.Serving
  | _ => True

/-- The document and the key fit the buffers on their way, and an empty request is no ciphertext. -/
structure SessionFits {Cert Key Seed : Type} (L : Platform Cert Key Seed) (mykey keypair : Key) : Prop where
  attsdoc : ∀ seed, (L.attestationRequest keypair seed).length ≤ 8192
  pubkey : (L.writePubkey mykey).length ≤ 1024
  empty : L.scheme.decrypt keypair [] = none

/-- The device is back at the top of its loop behind `n` tasks: the enclave has read all of them, and the
    device has printed the response to each. -/
structure AllAnswered {Key : Type} (n : ℕ) (σ : Session Key) : Prop where
  emulate : σ.relay.pc .device = .emulate
  asked : σ.nOffloads = n
  opened : σ.opened = (List.range n).map offloadText
  printed : σ.printed = (List.range n).map responseText

section Service
variable {Cert Key Seed : Type} {L : Platform Cert Key Seed} {mykey keypair : Key} {overhead : ℕ}
  {order : ByteOrder} {σ σ' : Session Key} {s : RelayState}

/-! ### Steps -/

theorem Session.update_relay (a : SessionAction Seed) : (σ.update L mykey keypair s a).relay = s := by
  unfold Session.update
  split <;> first | rfl | (split <;> rfl)

theorem Session.update_nOffloads {a : SessionAction Seed} (ha : a.Serving) :
    (σ.update L mykey keypair s a).nOffloads = σ.nOffloads := by
  unfold Session.update
  split <;> first | rfl | exact ha.elim | (split <;> rfl)

theorem sessionStep_eq {a : SessionAction Seed} {act : Action}
    (hact : σ.action L mykey keypair a = some act) (hrelay : relayStep order σ.relay act = some s) :
    sessionStep L mykey keypair order σ a = some (σ.update L mykey keypair s a) :=
  Option.bind_eq_some_iff.mpr ⟨act, hact, Option.bind_eq_some_iff.mpr ⟨s, hrelay, rfl⟩⟩

/-- A step that goes on with what was asked for is one of the relay that does. -/
theorem sessionStep_serving (h : SessionInv L mykey keypair order σ) {a : SessionAction Seed}
    (ha : a.Serving) (hstep : sessionStep L mykey keypair order σ a = some σ') :
    σ'.nOffloads = σ.nOffloads ∧ ∃ act : Action, act.Serving ∧
      relayStep order σ.relay act = some σ'.relay := by
  obtain ⟨act, hact, hstep⟩ := Option.bind_eq_some_iff.mp hstep
  obtain ⟨s, hrelay, hσ⟩ := Option.bind_eq_some_iff.mp hstep
  obtain rfl := Option.some.inj hσ
  rw [Session.update_relay]
  refine ⟨Session.update_nOffloads ha, act, ?_, hrelay⟩
  cases a with
  | getAttsdoc seed =>
    obtain rfl := Option.some.inj hact
    exact trivial
  | sendKey =>
    simp only [Session.action] at hact
    split at hact
    · rename_i doc hp
      rw [h.validating doc hp] at hact
      obtain rfl := Option.some.inj hact
      exact trivial
    · cases hact
  | offload seed => exact ha.elim
  | respond seed =>
    simp only [Session.action] at hact
    split at hact
    · simp only [Option.ite_none_right_eq_some, Option.some.injEq] at hact
      obtain ⟨-, rfl⟩ := hact
      exact trivial
    · cases hact
  | other a =>
    cases a with
    | getAttsdoc _ | sendKey _ | offload _ | respond _ => cases hact
    | _ =>
      obtain rfl := Option.some.inj hact
      exact ha

/-! ### Going on -/

theorem SessionInv.asked (hfits : SessionFits L mykey keypair) (h : SessionInv L mykey keypair order σ) :
    ∀ request ∈ (σ.relay.sent .deviceGateway).tail, request ≠ [] := by
  rintro _ hmem rfl
  obtain ⟨k, hk⟩ := List.mem_iff_getElem?.mp hmem
  rw [List.getElem?_tail] at hk
  have hdec := (h.request k [] hk).2
  rw [hfits.empty] at hdec
  cases hdec

/-- What the enclave answers with is a block under the key of the device. -/
theorem SessionInv.response_length (hkeys : SessionKeys L mykey keypair overhead)
    (h : SessionInv L mykey keypair order σ) {request : List UInt8}
    (hp : σ.relay.pc .enclave = .serve request) (seed : Seed) (msg : List UInt8) :
    σ.nResponse < 2 ^ 31 ∧
      (sealResponse L σ.pubkeyIiot seed request msg).length = L.scheme.size mykey := by
  obtain ⟨hkey, hrequest⟩ := h.serving hp
  refine ⟨(h.request _ _ hrequest).1, ?_⟩
  rw [hkey, sealResponse]
  exact length_output_encryptCall hkeys.correct (by simpa using hkeys.device.2)

/-- Where the session cannot go on the relay cannot. -/
theorem SessionInv.stuck (hkeys : SessionKeys L mykey keypair overhead)
    (hfits : SessionFits L mykey keypair) (seed : Seed) (h : SessionInv L mykey keypair order σ)
    (hstuck : ∀ a : SessionAction Seed, a.Serving → sessionStep L mykey keypair order σ a = none) :
    Stuck order σ.relay := by
  have hno : ∀ {a : SessionAction Seed} {act : Action} {s : RelayState}, a.Serving →
      σ.action L mykey keypair a = some act → relayStep order σ.relay act ≠ some s := by
    intro a act s ha hact hrelay
    have hnone := hstuck a ha
    rw [sessionStep_eq hact hrelay] at hnone
    cases hnone
  intro a ha
  cases hrelay : relayStep order σ.relay a with
  | none => rfl
  | some s =>
    exfalso
    cases a with
    | getAttsdoc doc =>
      obtain ⟨hp, -⟩ := relayStep_fired hrelay
      have hfit : Fits (L.attestationRequest keypair seed) [.recvEnclaveAttsdoc, .recvAttsdoc] := by
        simpa [Fits, RecvSite.bufSize] using hfits.attsdoc seed
      exact hno (a := .getAttsdoc seed) trivial rfl (if_pos ⟨hp, hfit⟩)
    | sendKey key =>
      obtain ⟨doc, hp, -⟩ := relayStep_fired hrelay
      have hfit : Fits (L.writePubkey mykey) [.relayIiotPubkey, .recvIiotPubkey] := by
        have hlen := hfits.pubkey
        simp only [Fits, RecvSite.bufSize, List.forall_mem_cons, List.not_mem_nil, false_implies,
          implies_true, and_true]
        omega
      have hact : σ.action L mykey keypair (.sendKey : SessionAction Seed) =
          some (.sendKey (L.writePubkey mykey)) := by
        simp only [Session.action, hp, h.validating doc hp]
      have hstep : relayStep order σ.relay (.sendKey (L.writePubkey mykey)) = some
          (σ.relay.enter .device (send .sendIiotPubkey (L.writePubkey mykey))) := by
        simp only [relayStep, hp, if_pos hfit]
      exact hno (a := .sendKey) trivial hact hstep
    | respond response =>
      obtain ⟨request, hp, -⟩ := relayStep_fired hrelay
      obtain ⟨hn, hlen⟩ := h.response_length hkeys hp seed (responseText σ.nResponse)
      have hblock := hkeys.device.2
      have hfit : Fits (sealResponse L σ.pubkeyIiot seed request (responseText σ.nResponse))
          [.relayOffloadResponse, .requestOffload] := by
        simp only [Fits, RecvSite.bufSize, List.forall_mem_cons, List.not_mem_nil, false_implies,
          implies_true, and_true]
        omega
      have hact : σ.action L mykey keypair (.respond seed) =
          some (.respond (sealResponse L σ.pubkeyIiot seed request (responseText σ.nResponse))) := by
        simp only [Session.action, hp, if_pos hn]
      obtain ⟨s', hstep⟩ : ∃ s', relayStep order σ.relay
          (.respond (sealResponse L σ.pubkeyIiot seed request (responseText σ.nResponse))) = some s' := by
        simp only [relayStep, hp, if_pos hfit]
        exact ⟨_, rfl⟩
      exact hno (a := .respond seed) trivial hact hstep
    | offload _ | runLocally | exit _ => exact ha.elim
    | connectEnclave => exact hno (a := .other .connectEnclave) trivial rfl hrelay
    | acceptEnclave bufs => exact hno (a := .other (.acceptEnclave bufs)) trivial rfl hrelay
    | connectDevice bufs => exact hno (a := .other (.connectDevice bufs)) trivial rfl hrelay
    | acceptDevice => exact hno (a := .other .acceptDevice) trivial rfl hrelay
    | write p chunk => exact hno (a := .other (.write p chunk)) trivial rfl hrelay
    | wrote p bufs => exact hno (a := .other (.wrote p bufs)) trivial rfl hrelay
    | read p chunk => exact hno (a := .other (.read p chunk)) trivial rfl hrelay
    | received p bufs => exact hno (a := .other (.received p bufs)) trivial rfl hrelay

theorem SessionInv.allAnswered (h : SessionInv L mykey keypair order σ)
    (hp : σ.relay.pc .device = .emulate) : AllAnswered σ.nOffloads σ := by
  obtain ⟨hprinted, hle, hle', hemulate⟩ := h.counts
  have hall := hemulate hp
  have hserved : σ.nResponse = σ.nOffloads := by omega
  refine ⟨hp, rfl, hserved ▸ h.opened, ?_⟩
  rw [← hall, hprinted]
  exact h.printed

/-! ### Runs -/

/-- The programs run, and the device has asked for `n` tasks. -/
structure Ongoing (L : Platform Cert Key Seed) (mykey keypair : Key) (order : ByteOrder) (n : ℕ)
    (σ : Session Key) : Prop where
  inv : SessionInv L mykey keypair order σ
  running : Running order σ.relay
  asked : σ.nOffloads = n

theorem Ongoing.step (hkeys : SessionKeys L mykey keypair overhead) {n : ℕ}
    (h : Ongoing L mykey keypair order n σ) {a : SessionAction Seed} (ha : a.Serving)
    (hstep : sessionStep L mykey keypair order σ a = some σ') :
    Ongoing L mykey keypair order n σ' ∧ σ'.relay.potential order < σ.relay.potential order := by
  obtain ⟨hsame, act, hact, hrelay⟩ := sessionStep_serving h.inv ha hstep
  obtain ⟨hrunning, hlt⟩ := h.running.step hact hrelay
  exact ⟨⟨sessionStep_inv hkeys h.inv hstep, hrunning, hsame.trans h.asked⟩, hlt⟩

/-- From every state that the three programs can reach and in which they all run: however they go on with
    what the device has asked for, they take no more than `potential` steps; where no step is left, the
    enclave has read every task of the device and the device has printed the response to each; and some
    such run gets there. -/
theorem session_answers (hkeys : SessionKeys L mykey keypair overhead)
    (hfits : SessionFits L mykey keypair) (seed : Seed)
    (h : (session L mykey keypair order).Reachable σ) (hlive : ∀ p, Live σ.relay p) :
    (∀ (actions : List (SessionAction Seed)) (σ' : Session Key), (∀ a ∈ actions, a.Serving) →
      sessionRun L mykey keypair order σ actions = some σ' →
      actions.length ≤ σ.relay.potential order ∧
        ((∀ a : SessionAction Seed, a.Serving → sessionStep L mykey keypair order σ' a = none) →
          AllAnswered σ.nOffloads σ')) ∧
    ∃ (actions : List (SessionAction Seed)) (σ' : Session Key), (∀ a ∈ actions, a.Serving) ∧
      sessionRun L mykey keypair order σ actions = some σ' ∧ AllAnswered σ.nOffloads σ' := by
  have hinv := session_inv hkeys h
  have hstart : Ongoing L mykey keypair order σ.nOffloads σ :=
    ⟨hinv, ⟨relay_inv hinv.reachable, opening_reachable hinv.reachable, hlive, hinv.asked hfits⟩, rfl⟩
  have hend : ∀ {τ : Session Key}, Ongoing L mykey keypair order σ.nOffloads τ →
      (∀ a : SessionAction Seed, a.Serving → sessionStep L mykey keypair order τ a = none) →
      AllAnswered σ.nOffloads τ := by
    intro τ hτ hstuck
    have hemulate := (hτ.inv.stuck hkeys hfits seed hstuck).emulate hτ.running.inv hτ.running.opening
      hτ.running.live
    exact hτ.asked ▸ hτ.inv.allAnswered hemulate
  constructor
  · intro actions σ' hall hrun
    obtain ⟨hσ', hle⟩ := length_le (fun hs ha hstep => Ongoing.step hkeys hs ha hstep) hstart hall hrun
    exact ⟨by omega, hend hσ'⟩
  · obtain ⟨actions, σ', hall, hrun, hstuck⟩ :=
      exists_stuck (fun hs ha hstep => Ongoing.step hkeys hs ha hstep) hstart
    obtain ⟨hσ', -⟩ := length_le (fun hs ha hstep => Ongoing.step hkeys hs ha hstep) hstart hall hrun
    exact ⟨actions, σ', hall, hrun, hend hσ' hstuck⟩

end Service

theorem blockPlatform_fits : SessionFits blockPlatform 1 0x42 :=
  ⟨fun _ => show forgedAttsdoc.length ≤ 8192 by decide +kernel, by decide, by decide⟩

/-- A task, behind the start-up: it is answered. -/
theorem session_answers_startUp : ∃ σ σ' actions, (session blockPlatform 1 0x42 .little).Reachable σ ∧
    σ.nOffloads = 1 ∧ sessionRun blockPlatform 1 0x42 .little σ actions = some σ' ∧
    σ'.opened = [offloadText 0] ∧ σ'.printed = [responseText 0] := by
  have hrun : (sessionRun blockPlatform 1 0x42 .little { relay := relayInit }
      (startUp ++ [.offload ()])).map
      (fun σ => (σ.nOffloads, [.device, .gateway, .enclave].map
        fun p => decide (σ.relay.pc p = .exited))) = some (1, [false, false, false]) := by
    decide +kernel
  obtain ⟨σ, hσ, heq⟩ := Option.map_eq_some_iff.mp hrun
  simp only [Prod.mk.injEq, List.map_cons, List.cons.injEq, decide_eq_false_iff_not] at heq
  obtain ⟨hn, hdevice, hgateway, henclave, -⟩ := heq
  have hreach : (session blockPlatform 1 0x42 .little).Reachable σ :=
    sessionRun_reachable (.of_init _ rfl) hσ
  have hlive : ∀ p, Live σ.relay p := Party.rec hdevice hgateway henclave
  obtain ⟨-, actions, σ', -, hend, hanswered⟩ :=
    session_answers blockPlatform_keys blockPlatform_fits () hreach hlive
  rw [hn] at hanswered
  exact ⟨σ, σ', actions, hreach, hn, hend, hanswered.opened, hanswered.printed⟩

end MutualEdge.Sgx
