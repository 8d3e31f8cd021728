import Mathlib.Algebra.Order.BigOperators.Group.Finset
import Mathlib.Algebra.Ring.Nat
import MutualEdge.Lib.Potential
import MutualEdge.Sgx.Fidelity

/-! How much the three programs have left to do.

    Once the device has handed over a request, a bounded number of system calls and computations is left,
    whatever the order in which the programs take them: every step lowers `potential`. -/

namespace MutualEdge.Sgx
open Potential

variable {order : ByteOrder}

/-! ### Steps -/

/-- What a step needs and what it leaves behind, for each action. -/
def Fired (order : ByteOrder) (s s' : RelayState) : Action → Prop
  | .connectEnclave => s.pc .enclave = .connect ∧
    s' = { s with enclaveConnected := true }.enter .enclave .getAttsdoc
  | .acceptEnclave bufs => s.pc .gateway = .acceptEnclave ∧ s.enclaveConnected = true ∧
    s' = s.enter .gateway (recv bufs .recvEnclaveAttsdoc)
  | .getAttsdoc doc => s.pc .enclave = .getAttsdoc ∧ s' = s.enter .enclave (send .sendAttsdoc doc)
  | .connectDevice bufs => s.pc .device = .connect ∧
    s' = { s with deviceConnected := true }.enter .device (recv bufs .recvAttsdoc)
  | .acceptDevice => ∃ doc, s.pc .gateway = .acceptDevice doc ∧ s.deviceConnected = true ∧
    s' = s.enter .gateway (send .sendEnclaveAttsdoc doc)
  | .sendKey key => ∃ doc, s.pc .device = .validate doc ∧
    s' = s.enter .device (send .sendIiotPubkey key)
  | .offload request => s.pc .device = .emulate ∧ s' = s.enter .device (send .requestOffload request)
  | .runLocally => s' = s
  | .respond response => ∃ request, s.pc .enclave = .serve request ∧
    s' = { s with served := s.served ++ [(request, response)] }.enter .enclave
      (send .responseOffload response)
  | .write p chunk => ∃ site call call' bytes, s.pc p = .sending site call ∧
    call.write order (s.inflight site.link) chunk = .ok (call', bytes) ∧
    s' = s.advance p (.sending site call') site.link bytes
  | .wrote p bufs => ∃ site call, s.pc p = .sending site call ∧ s' = s.enter p (site.next bufs)
  | .read p chunk => ∃ site call call' bytes, s.pc p = .receiving site call ∧
    call.read order (s.inflight site.link) chunk = .ok (call', bytes) ∧
    s' = s.advance p (.receiving site call') site.link bytes
  | .received p bufs => ∃ site call, s.pc p = .receiving site call ∧ call.done = true ∧
    s' = (s.deliver site.link call.message).enter p (site.next bufs call.message)
  | .exit p => s' = s.enter p .exited

theorem relayStep_fired {s s' : RelayState} {a : Action} (h : relayStep order s a = some s') :
    Fired order s s' a := by
  cases a with
  | connectEnclave | acceptEnclave _ | getAttsdoc _ | offload _ | runLocally =>
    simp only [relayStep, Option.ite_none_right_eq_some, Option.some.injEq] at h
    obtain ⟨hp, rfl⟩ := h
    first
    | exact ⟨hp.1, hp.2, rfl⟩
    | exact ⟨hp.1, rfl⟩
    | rfl
  | exit p => exact (Option.some.inj h).symm
  | write p chunk =>
    simp only [relayStep] at h
    split at h
    · rename_i site call hp
      split at h
      · rename_i call' bytes hw
        cases h
        exact ⟨site, call, call', bytes, hp, hw, rfl⟩
      · cases h
    · cases h
  | read p chunk =>
    simp only [relayStep] at h
    split at h
    · rename_i site call hp
      split at h
      · rename_i call' bytes hr
        cases h
        exact ⟨site, call, call', bytes, hp, hr, rfl⟩
      · cases h
    · cases h
  | _ =>
    simp only [relayStep] at h
    split at h
    · rename_i hpc
      simp only [Option.ite_none_right_eq_some, Option.some.injEq] at h
      obtain ⟨hcond, rfl⟩ := h
      first
      | exact ⟨hcond, rfl⟩
      | exact ⟨_, hpc, hcond, rfl⟩
      | exact ⟨_, hpc, rfl⟩
      | exact ⟨_, _, hpc, hcond, rfl⟩
      | exact ⟨_, _, hpc, rfl⟩
    · cases h

instance : Fintype Party := ⟨{.device, .gateway, .enclave}, fun p => by cases p <;> decide⟩

instance : Fintype Link :=
  ⟨{.deviceGateway, .gatewayEnclave, .enclaveGateway, .gatewayDevice}, fun l => by cases l <;> decide⟩

/-- Steps by which the programs go on with what has been asked of them: nobody ends, and the device does
    not take up another task. -/
def Action.Serving : Action → Prop
  | .offload _ | .runLocally | .exit _ => False
  | _ => True

/-! ### The potential -/

/-- More than a frame takes to be written and read. -/
def frameCost : ℕ := 2 * (4 + 8192) + 1

/-- What is left to do of what a party is at. -/
def Pc.effort (order : ByteOrder) : Pc → ℕ
  | .sending _ call => frameCost + 2 * (call.unsent order).length
  | .connect | .acceptEnclave => frameCost
  | _ => 0

namespace RelayState

/-- The rounds the device has asked for, the exchange of the keys among them. -/
def rounds (s : RelayState) : ℕ := max 1 (s.sent .deviceGateway).length

/-- The frames that have been taken up and those that have arrived. -/
def handled (s : RelayState) : ℕ := ∑ l, ((s.sent l).length + (s.got l).length)

/-- In every round a frame passes each of the four links. -/
def potential (order : ByteOrder) (s : RelayState) : ℕ :=
  (∑ p, (s.pc p).effort order) + (∑ l, (s.inflight l).length) +
    2 * frameCost * (8 * s.rounds - s.handled)

end RelayState

section Counts
variable {s : RelayState}

/-- A frame that was sent fits the largest buffer. -/
theorem RelayInv.length_le (h : RelayInv order s) {l : Link} {m : Frame} (hm : m ∈ s.sent l) :
    m.length ≤ 8192 := by
  obtain ⟨i, hi⟩ := List.mem_iff_getElem?.mp hm
  have hfit := h.fits l i m hi
  obtain ⟨site, hsite⟩ : ∃ site, site ∈ route l i := by
    unfold route
    split <;> split <;> exact ⟨_, List.mem_cons_self⟩
  refine (hfit site hsite).trans ?_
  cases site <;> decide

/-- No link carries more frames than there are rounds. -/
theorem RelayInv.sent_le (h : RelayInv order s) (l : Link) : (s.sent l).length ≤ s.rounds := by
  have hdg : (s.sent .deviceGateway).length ≤ s.rounds := le_max_right _ _
  have hge : (s.sent .gatewayEnclave).length ≤ s.rounds := by
    rw [h.gateway.1]
    exact (h.got_prefix_sent .deviceGateway).length_le.trans hdg
  have heg : (s.sent .enclaveGateway).length ≤ s.rounds := by
    obtain ⟨hserved, hsent, -⟩ := h.enclave
    have hin := hserved.length_le
    have hout := congrArg List.length hsent
    have hgot := (h.got_prefix_sent .gatewayEnclave).length_le
    have hone : 1 ≤ s.rounds := le_max_left _ _
    simp only [List.length_map, List.length_tail] at hin hout
    omega
  cases l with
  | deviceGateway => exact hdg
  | gatewayEnclave => exact hge
  | enclaveGateway => exact heg
  | gatewayDevice =>
    exact h.gateway.passedOn.length_le.trans
      ((h.got_prefix_sent .enclaveGateway).length_le.trans heg)

theorem RelayInv.handled_le (h : RelayInv order s) : s.handled ≤ 8 * s.rounds := by
  have hle : ∀ l ∈ Finset.univ, (s.sent l).length + (s.got l).length ≤ 2 * s.rounds := by
    intro l _
    have hsent := h.sent_le l
    have hgot := (h.got_prefix_sent l).length_le
    omega
  have hsum := Finset.sum_le_card_nsmul _ _ _ hle
  rw [show (Finset.univ : Finset Link).card = 4 from rfl, nsmul_eq_mul, Nat.cast_ofNat] at hsum
  rw [RelayState.handled]
  omega

end Counts

/-! ### What steps do to it -/

section Steps
variable {s : RelayState} {p : Party}

section Moves
variable (order)

theorem potential_advance (s : RelayState) (p : Party) (pc : Pc) (l : Link) (bytes : List UInt8) :
    (s.advance p pc l bytes).potential order + (s.pc p).effort order + (s.inflight l).length =
      s.potential order + pc.effort order + bytes.length := by
  have hpc := sum_update (Pc.effort order) s.pc p pc
  have hin := sum_update List.length s.inflight l bytes
  have hrounds : (s.advance p pc l bytes).rounds = s.rounds := rfl
  have hhandled : (s.advance p pc l bytes).handled = s.handled := rfl
  rw [RelayState.potential, RelayState.potential, hrounds, hhandled, RelayState.advance_pc,
    RelayState.advance_inflight]
  omega

/-- A party moves on to a point at which it sends nothing. -/
theorem potential_enter {s : RelayState} {p : Party} {pc : Pc} (hpc : (s.enter p pc).sent = s.sent) :
    (s.enter p pc).potential order + (s.pc p).effort order =
      s.potential order + pc.effort order := by
  have hsum := sum_update (Pc.effort order) s.pc p pc
  have hrounds : (s.enter p pc).rounds = s.rounds := by rw [RelayState.rounds, hpc]; rfl
  have hhandled : (s.enter p pc).handled = s.handled := by rw [RelayState.handled, hpc]; rfl
  rw [RelayState.potential, RelayState.potential, hrounds, hhandled, RelayState.enter_pc,
    RelayState.enter_inflight]
  omega

theorem handled_send (site : SendSite) (m : Frame) :
    (s.enter p (send site m)).handled = s.handled + 1 := by
  have hsum := sum_update List.length s.sent site.link (s.sent site.link ++ [m])
  rw [List.length_append, List.length_singleton] at hsum
  rw [RelayState.handled, RelayState.handled, Finset.sum_add_distrib, Finset.sum_add_distrib,
    RelayState.enter_sent_send, RelayState.enter_got]
  omega

theorem handled_deliver (l : Link) (m : Frame) : (s.deliver l m).handled = s.handled + 1 := by
  have hsum := sum_update List.length s.got l (s.got l ++ [m])
  rw [List.length_append, List.length_singleton] at hsum
  rw [RelayState.handled, RelayState.handled, Finset.sum_add_distrib, Finset.sum_add_distrib]
  simp only [RelayState.deliver]
  omega

/-- A message is handed over. -/
theorem potential_deliver {s : RelayState} (l : Link) (m : Frame) (hroom : s.handled < 8 * s.rounds) :
    (s.deliver l m).potential order + 2 * frameCost = s.potential order := by
  have hrounds : (s.deliver l m).rounds = s.rounds := rfl
  have hpc : (s.deliver l m).pc = s.pc := rfl
  have hin : (s.deliver l m).inflight = s.inflight := rfl
  rw [RelayState.potential, RelayState.potential, hrounds, handled_deliver, hpc, hin, frameCost]
  omega

end Moves

/-- A party starts to send. -/
theorem potential_send {site : SendSite} {m : Frame}
    (hrounds : (s.enter p (send site m)).rounds = s.rounds) (hroom : s.handled < 8 * s.rounds)
    (hm : m.length ≤ 8192) :
    (s.enter p (send site m)).potential order + (s.pc p).effort order < s.potential order := by
  have hsum := sum_update (Pc.effort order) s.pc p (send site m)
  have heffort : (send site m).effort order = frameCost + 2 * (4 + m.length) := by
    rw [send, Pc.effort, SendCall.unsent_fresh, length_frame]
  rw [RelayState.potential, RelayState.potential, hrounds, handled_send, RelayState.enter_pc,
    RelayState.enter_inflight]
  rw [heffort] at hsum
  unfold frameCost at *
  omega

/-- A frame that is taken up in a round that has been asked for lowers the potential. -/
theorem RelayInv.potential_send_lt {site : SendSite} {m : Frame}
    (h : RelayInv order (s.enter p (send site m)))
    (hrounds : (s.enter p (send site m)).rounds = s.rounds) :
    (s.enter p (send site m)).potential order + (s.pc p).effort order < s.potential order := by
  have hle := h.handled_le
  rw [hrounds, handled_send] at hle
  refine potential_send hrounds hle (h.length_le (l := site.link) ?_)
  rw [RelayState.enter_sent_send, Function.update_self]
  exact List.mem_append_right _ List.mem_cons_self

theorem rounds_send {site : SendSite} (hsite : site.link ≠ .deviceGateway) (m : Frame) :
    (s.enter p (send site m)).rounds = s.rounds := by
  rw [RelayState.rounds, RelayState.enter_sent_send, Function.update_of_ne hsite.symm,
    ← RelayState.rounds]

/-- What a party does with a message: it passes it on, or there is nothing it has taken up. -/
theorem RecvSite.next_cases (order : ByteOrder) (bufs : Buffers) (site : RecvSite) (m : Frame) :
    (∃ site' : SendSite, site'.link ≠ .deviceGateway ∧ site.next bufs m = send site' m) ∨
      ((site.next bufs m).effort order = 0 ∧
        ∀ s p, (RelayState.enter s p (site.next bufs m)).sent = s.sent) := by
  cases site with
  | relayIiotPubkey => exact .inl ⟨.relayIiotPubkey, by decide, rfl⟩
  | relayOffloadRequest => exact .inl ⟨.relayOffloadRequest, by decide, rfl⟩
  | relayOffloadResponse => exact .inl ⟨.relayOffloadResponse, by decide, rfl⟩
  | responseOffload =>
    rw [RecvSite.next]
    split
    · exact .inr ⟨rfl, fun _ _ => rfl⟩
    · exact .inr ⟨rfl, fun _ _ => rfl⟩
  | _ => exact .inr ⟨rfl, fun _ _ => rfl⟩

theorem SendSite.next_cases (order : ByteOrder) (bufs : Buffers) (site : SendSite) :
    (site.next bufs).effort order = 0 ∧
      ∀ s p, (RelayState.enter s p (site.next bufs)).sent = s.sent := by
  cases site <;> exact ⟨rfl, fun _ _ => rfl⟩

theorem SendCall.unsent_length (order : ByteOrder) (c : SendCall) : (c.unsent order).length =
    if c.lenSent then c.data.length - c.totalSent else 4 - c.totalSent + c.data.length := by
  rw [unsent]
  split
  · rw [List.length_drop]
  · rw [List.length_append, List.length_drop, length_intBytes]

/-- A `write` leaves less to write. -/
theorem SendCall.write_progress {c c' : SendCall} {output output' : List UInt8} {chunk : ℕ}
    (h : c.write order output chunk = .ok (c', output')) :
    (c'.unsent order).length < (c.unsent order).length := by
  unfold write at h
  rw [unsent_length, unsent_length]
  by_cases hlen : c.lenSent = true
  · rw [if_pos hlen] at h ⊢
    obtain ⟨t, ht, hok⟩ := Checks.bind_ok.mp h
    obtain ⟨rfl, -⟩ := Prod.mk.inj (Checks.pure_ok.mp hok)
    obtain ⟨sent, hpos, hle, htotal, -⟩ := writeSome_ok ht
    simp only [hlen, if_true] at hle htotal ⊢
    omega
  · rw [if_neg hlen] at h ⊢
    obtain ⟨t, ht, hok⟩ := Checks.bind_ok.mp h
    obtain ⟨sent, hpos, hle, htotal, -⟩ := writeSome_ok ht
    simp only at hle htotal
    split at hok
    · obtain ⟨rfl, -⟩ := Prod.mk.inj (Checks.pure_ok.mp hok)
      rw [if_neg hlen]
      dsimp only
      omega
    · obtain ⟨rfl, -⟩ := Prod.mk.inj (Checks.pure_ok.mp hok)
      rw [if_pos rfl]
      dsimp only
      omega

/-- A `read` leaves less on the wire. -/
theorem RecvCall.read_progress {c c' : RecvCall} {input input' : List UInt8} {chunk : ℕ}
    (h : c.read order input chunk = .ok (c', input')) : input'.length < input.length := by
  have hmoved : ∀ {r : Receiving} {bytes : List UInt8}, input = bytes ++ r.input → 0 < bytes.length →
      r.input.length < input.length := by
    intro r bytes hin hpos
    rw [hin, List.length_append]
    omega
  unfold read at h
  split at h
  · obtain ⟨r, hr, hok⟩ := Checks.bind_ok.mp h
    obtain ⟨bytes, hin, hpos, -⟩ := readSome_ok hr
    split at hok
    · obtain ⟨-, rfl⟩ := Prod.mk.inj (Checks.pure_ok.mp hok)
      exact hmoved hin hpos
    · obtain ⟨-, rfl⟩ := Prod.mk.inj (Checks.pure_ok.mp hok)
      exact hmoved hin hpos
  · obtain ⟨r, hr, hok⟩ := Checks.bind_ok.mp h
    obtain ⟨bytes, hin, hpos, -⟩ := readSome_ok hr
    obtain ⟨-, rfl⟩ := Prod.mk.inj (Checks.pure_ok.mp hok)
    exact hmoved hin hpos

theorem RelayInv.received_lt {site : RecvSite} {call : RecvCall} (bufs : Buffers) (h : RelayInv order
      ((s.deliver site.link call.message).enter p (site.next bufs call.message))) :
    ((s.deliver site.link call.message).enter p (site.next bufs call.message)).potential order <
      s.potential order := by
  have hle := h.handled_le
  rcases site.next_cases order bufs call.message with ⟨site', hlink, hnext⟩ | ⟨hzero, hsent⟩
  · rw [hnext] at h hle ⊢
    have hlt := h.potential_send_lt (rounds_send hlink _)
    rw [rounds_send hlink, handled_send, handled_deliver] at hle
    have hroom : s.handled + 1 + 1 ≤ 8 * s.rounds := hle
    have hdeliver := potential_deliver order site.link call.message
      (s := s) (by omega)
    omega
  · have henter := potential_enter order (hsent (s.deliver site.link call.message) p)
    rw [RelayState.rounds, RelayState.handled, hsent] at hle
    have hroom : (s.deliver site.link call.message).handled ≤ 8 * s.rounds := hle
    rw [handled_deliver] at hroom
    have hdeliver := potential_deliver order site.link call.message (s := s) hroom
    have hcost : 0 < frameCost := by decide
    omega

/-- Every step by which the programs go on with what has been asked of them lowers the potential. -/
theorem potential_lt {s' : RelayState} {a : Action} (h : RelayInv order s) (ha : a.Serving)
    (hstep : relayStep order s a = some s') : s'.potential order < s.potential order := by
  have h' := relayStep_inv h hstep
  have hcost : 0 < frameCost := by decide
  cases a with
  | connectEnclave =>
    obtain ⟨hp, rfl⟩ := relayStep_fired hstep
    have henter := @potential_enter order { s with enclaveConnected := true } .enclave .getAttsdoc rfl
    rw [show ({ s with enclaveConnected := true } : RelayState).pc .enclave = .connect from hp]
      at henter
    exact Nat.lt_of_lt_of_eq (Nat.lt_add_of_pos_right hcost) henter
  | acceptEnclave bufs =>
    obtain ⟨hp, -, rfl⟩ := relayStep_fired hstep
    have henter := potential_enter order (s.enter_sent_recv .gateway bufs .recvEnclaveAttsdoc)
    rw [hp] at henter
    exact Nat.lt_of_lt_of_eq (Nat.lt_add_of_pos_right hcost) henter
  | getAttsdoc doc =>
    obtain ⟨-, rfl⟩ := relayStep_fired hstep
    exact Nat.lt_of_add_right_lt (h'.potential_send_lt (rounds_send (by decide) _))
  | connectDevice bufs =>
    obtain ⟨hp, rfl⟩ := relayStep_fired hstep
    have henter := @potential_enter order { s with deviceConnected := true } .device (recv bufs .recvAttsdoc) rfl
    rw [show ({ s with deviceConnected := true } : RelayState).pc .device = .connect from hp]
      at henter
    exact Nat.lt_of_lt_of_eq (Nat.lt_add_of_pos_right hcost) henter
  | acceptDevice =>
    obtain ⟨doc, -, -, rfl⟩ := relayStep_fired hstep
    exact Nat.lt_of_add_right_lt (h'.potential_send_lt (rounds_send (by decide) _))
  | sendKey key =>
    obtain ⟨doc, hp, rfl⟩ := relayStep_fired hstep
    -- the key is what the first round is asked for with
    have hdev := h.device
    rw [hp] at hdev
    have hrounds : (s.enter .device (send .sendIiotPubkey key)).rounds = s.rounds := by
      rw [RelayState.rounds, RelayState.rounds, hdev.1, RelayState.enter_sent_send, SendSite.link,
        Function.update_self, hdev.1]
      rfl
    exact Nat.lt_of_add_right_lt (h'.potential_send_lt hrounds)
  | respond response =>
    obtain ⟨request, -, rfl⟩ := relayStep_fired hstep
    exact Nat.lt_of_add_right_lt (h'.potential_send_lt (rounds_send (by decide) _))
  | write p chunk =>
    obtain ⟨site, call, call', bytes, hp, hw, rfl⟩ := relayStep_fired hstep
    have hadvance := potential_advance order s p
      (.sending site call') site.link bytes
    have hprogress := SendCall.write_progress hw
    obtain ⟨moved, rfl, hunsent⟩ := SendCall.write_ok hw
    have hmoved := congrArg List.length hunsent
    rw [List.length_append] at hmoved hadvance
    rw [hp, Pc.effort, Pc.effort] at hadvance
    omega
  | wrote p bufs =>
    obtain ⟨site, call, hp, rfl⟩ := relayStep_fired hstep
    obtain ⟨hzero, hsent⟩ := site.next_cases order bufs
    have henter := potential_enter order (hsent s p)
    rw [hp, Pc.effort] at henter
    omega
  | read p chunk =>
    obtain ⟨site, call, call', bytes, hp, hr, rfl⟩ := relayStep_fired hstep
    have hadvance := potential_advance order s p
      (.receiving site call') site.link bytes
    have hprogress := RecvCall.read_progress hr
    simp only [hp, Pc.effort] at hadvance
    omega
  | received p bufs =>
    obtain ⟨site, call, -, -, rfl⟩ := relayStep_fired hstep
    exact h'.received_lt bufs
  | offload _ | runLocally | exit _ => exact ha.elim

end Steps

end MutualEdge.Sgx
