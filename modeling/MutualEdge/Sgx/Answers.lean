import MutualEdge.Sgx.Progress

/-! Every request is answered.

    The steps by which the three programs go on lower the potential and keep them running, unless the
    device has asked for nothing; where no step is left, everything that was asked for has arrived. -/

namespace MutualEdge.Sgx
open Potential

variable {order : ByteOrder}

/-- The device is back at the top of its loop, and has the response to each of its requests. -/
structure Answered (s : RelayState) : Prop where
  emulate : s.pc .device = .emulate
  requests : ∀ k request, (s.sent .deviceGateway)[k + 1]? = some request →
    ∃ response, s.served[k]? = some (request, response) ∧
      (s.got .gatewayDevice)[k + 1]? = some response

theorem RelayInv.answered {s : RelayState} (h : RelayInv order s) (hp : s.pc .device = .emulate) :
    Answered s := by
  refine ⟨hp, fun k request hk => ?_⟩
  have hdev := h.device
  rw [hp] at hdev
  obtain ⟨hlt, -⟩ := List.getElem?_eq_some_iff.mp hk
  rw [← hdev.2] at hlt
  have hgot := List.getElem?_eq_getElem hlt
  obtain ⟨request', hserved, -, hsent⟩ := h.response hgot
  rw [hk] at hsent
  obtain rfl := Option.some.inj hsent
  exact ⟨_, hserved, hgot⟩

/-- The three programs run, and the device has not asked for nothing. -/
structure Running (order : ByteOrder) (s : RelayState) : Prop where
  inv : RelayInv order s
  opening : Opening s
  live : ∀ p, Live s p
  asked : ∀ request ∈ (s.sent .deviceGateway).tail, request ≠ []

section Running
variable {s s' : RelayState} {p : Party}

/-- What a step of the running programs does to the requests and to those who run: one party moves, the
    device asks for nothing more, and only an empty request ends a program. -/
structure Moved (s s' : RelayState) (p : Party) (pc : Pc) : Prop where
  pc_eq : s'.pc = Function.update s.pc p pc
  asked : s'.sent .deviceGateway = s.sent .deviceGateway ∨
    ∃ doc key, s.pc .device = .validate doc ∧
      s'.sent .deviceGateway = s.sent .deviceGateway ++ [key]
  live : pc = .exited → ∃ call, s.pc p = .receiving .responseOffload call ∧ call.done = true ∧
    call.message = []

theorem serving_moved {a : Action} (ha : a.Serving) (hstep : relayStep order s a = some s') :
    ∃ p pc, Moved s s' p pc := by
  cases a with
  | connectEnclave =>
    obtain ⟨-, rfl⟩ := relayStep_fired hstep
    exact ⟨_, _, rfl, .inl rfl, nofun⟩
  | acceptEnclave bufs =>
    obtain ⟨-, -, rfl⟩ := relayStep_fired hstep
    exact ⟨_, _, rfl, .inl rfl, nofun⟩
  | getAttsdoc doc =>
    obtain ⟨-, rfl⟩ := relayStep_fired hstep
    exact ⟨_, _, rfl, .inl rfl, nofun⟩
  | connectDevice bufs =>
    obtain ⟨-, rfl⟩ := relayStep_fired hstep
    exact ⟨_, _, rfl, .inl rfl, nofun⟩
  | acceptDevice =>
    obtain ⟨doc, -, -, rfl⟩ := relayStep_fired hstep
    exact ⟨_, _, rfl, .inl rfl, nofun⟩
  | sendKey key =>
    obtain ⟨doc, hp, rfl⟩ := relayStep_fired hstep
    exact ⟨_, _, rfl, .inr ⟨doc, key, hp, by rw [RelayState.enter_sent_send]; rfl⟩, nofun⟩
  | respond response =>
    obtain ⟨request, -, rfl⟩ := relayStep_fired hstep
    exact ⟨_, _, rfl, .inl rfl, nofun⟩
  | write p chunk =>
    obtain ⟨site, call, call', bytes, -, -, rfl⟩ := relayStep_fired hstep
    exact ⟨_, _, rfl, .inl rfl, nofun⟩
  | wrote p bufs =>
    obtain ⟨site, call, -, rfl⟩ := relayStep_fired hstep
    refine ⟨_, _, rfl, .inl (by rw [(site.next_cases order bufs).2]), fun hexit => ?_⟩
    cases site <;> cases hexit
  | read p chunk =>
    obtain ⟨site, call, call', bytes, -, -, rfl⟩ := relayStep_fired hstep
    exact ⟨_, _, rfl, .inl rfl, nofun⟩
  | received p bufs =>
    obtain ⟨site, call, hp, hd, rfl⟩ := relayStep_fired hstep
    refine ⟨p, site.next bufs call.message, rfl, .inl ?_, fun hexit => ?_⟩
    · rcases site.next_cases order bufs call.message with ⟨site', hlink, hnext⟩ | ⟨-, hsent⟩
      · rw [hnext, RelayState.enter_sent_send, Function.update_of_ne hlink.symm]
        rfl
      · rw [hsent]
        rfl
    · cases site with
      | responseOffload =>
        rw [RecvSite.next] at hexit
        split at hexit
        · rename_i hempty
          exact ⟨call, hp, hd, List.eq_nil_of_length_eq_zero hempty⟩
        · cases hexit
      | _ => cases hexit
  | offload _ | runLocally | exit _ => exact ha.elim

/-- A request that has arrived at the enclave is one of those the device has asked for. -/
theorem RelayInv.request_mem (h : RelayInv order s) {call : RecvCall}
    (hp : s.pc p = .receiving .responseOffload call) (hd : call.done = true) :
    call.message ∈ (s.sent .deviceGateway).tail := by
  obtain rfl : Party.enclave = p := h.target_eq hp
  have henc := h.enclave.2.2
  rw [hp] at henc
  obtain ⟨hm, -⟩ := h.delivered hp hd
  obtain ⟨k, hk⟩ : ∃ k, (s.got .gatewayEnclave).length = k + 1 :=
    ⟨(s.got .gatewayEnclave).length - 1, by omega⟩
  have hm : (s.sent .gatewayEnclave)[k + 1]? = some call.message := hk ▸ hm
  rw [h.gateway.1] at hm
  obtain ⟨rest, hrest⟩ := h.got_prefix_sent .deviceGateway
  obtain ⟨hlt, -⟩ := List.getElem?_eq_some_iff.mp hm
  have hsent : (s.sent .deviceGateway)[k + 1]? = some call.message := by
    rw [← hrest, List.getElem?_append_left hlt, hm]
  rw [← List.getElem?_tail] at hsent
  exact List.mem_of_getElem? hsent

/-- The programs run on, and there is less left to do. -/
theorem Running.step {a : Action} (h : Running order s) (ha : a.Serving)
    (hstep : relayStep order s a = some s') :
    Running order s' ∧ s'.potential order < s.potential order := by
  obtain ⟨p, pc, hmoved⟩ := serving_moved ha hstep
  refine ⟨⟨relayStep_inv h.inv hstep, opening_step h.opening hstep, fun q => ?_, ?_⟩,
    potential_lt h.inv ha hstep⟩
  · rw [Live, hmoved.pc_eq]
    refine update_pc (P := fun c => c ≠ .exited) (fun _ hexit => ?_) fun _ => h.live q
    obtain ⟨call, hp, hd, hempty⟩ := hmoved.live hexit
    exact h.asked _ (h.inv.request_mem hp hd) hempty
  · rcases hmoved.asked with heq | ⟨doc, key, hp, heq⟩
    · rw [heq]
      exact h.asked
    · have hdev := h.inv.device
      rw [hp] at hdev
      rw [heq, hdev.1]
      exact nofun

end Running

/-- In every state that the three programs can reach, with all of them running and no empty request among
    those of the device: however they go on, until one ends or the device takes up another task, they
    take no more than `potential` steps; where no step is left the device is back at the top of its loop
    and has the response that the enclave has made to each of its requests; and some such run gets
    there. -/
theorem relay_answers {s : RelayState} (h : (relay order).Reachable s) (hlive : ∀ p, Live s p)
    (hasked : ∀ request ∈ (s.sent .deviceGateway).tail, request ≠ []) :
    (∀ actions s', (∀ a ∈ actions, a.Serving) → relayRun order s actions = some s' →
      actions.length ≤ s.potential order ∧ (Stuck order s' → Answered s')) ∧
    ∃ actions s', (∀ a ∈ actions, a.Serving) ∧ relayRun order s actions = some s' ∧ Answered s' := by
  have hrunning : Running order s := ⟨relay_inv h, opening_reachable h, hlive, hasked⟩
  have hstuck : ∀ {s'}, Running order s' → Stuck order s' → Answered s' := fun hs' hstuck =>
    hs'.inv.answered (hstuck.emulate hs'.inv hs'.opening hs'.live)
  constructor
  · intro actions s' hall hrun
    obtain ⟨hs', hle⟩ := length_le (fun hs ha hstep => Running.step hs ha hstep) hrunning hall hrun
    exact ⟨by omega, hstuck hs'⟩
  · obtain ⟨actions, s', hall, hrun, hend⟩ :=
      exists_stuck (fun hs ha hstep => Running.step hs ha hstep) hrunning
    obtain ⟨hs', -⟩ := length_le (fun hs ha hstep => Running.step hs ha hstep) hrunning hall hrun
    exact ⟨actions, s', hall, hrun, hstuck hs' hend⟩

/-- A second request, after a round: it is answered. -/
theorem relay_answers_offload : ∃ s actions s', relayRun .little relayInit
      (oneRound ++ [.offload [7]]) = some s ∧ s.served = [([4], [5, 6])] ∧
    relayRun .little s actions = some s' ∧ Answered s' := by
  have hrun : (relayRun .little relayInit (oneRound ++ [.offload [7]])).map
      (fun s => (s.sent .deviceGateway, s.served, [.device, .gateway, .enclave].map
        fun p => decide (s.pc p = .exited))) =
      some ([[2, 3], [4], [7]], [([4], [5, 6])], [false, false, false]) := by decide +kernel
  obtain ⟨s, hs, heq⟩ := Option.map_eq_some_iff.mp hrun
  simp only [Prod.mk.injEq, List.map_cons, List.cons.injEq, decide_eq_false_iff_not] at heq
  obtain ⟨hsent, hserved, hdevice, hgateway, henclave, -⟩ := heq
  have hreach : (relay .little).Reachable s := relayRun_reachable (.of_init _ rfl) hs
  have hlive : ∀ p, Live s p := Party.rec hdevice hgateway henclave
  obtain ⟨-, actions, s', -, hend, hanswered⟩ := relay_answers hreach hlive (by rw [hsent]; decide)
  exact ⟨s, actions, s', hs, hserved, hend, hanswered⟩

end MutualEdge.Sgx
