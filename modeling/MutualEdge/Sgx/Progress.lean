import MutualEdge.Sgx.Effort

/-! As long as none of the three programs ends, one of them can go on.

    `Opening` says who waits for a connection; together with `RelayInv` it leaves only the device at the
    top of its loop with nothing to do (`Stuck.emulate`). -/

namespace MutualEdge.Sgx

variable {order : ByteOrder}

/-! ### Connections -/

/-- Where the gateway is as long as it has not accepted the device. -/
def Pc.BeforeDevice : Pc → Prop
  | .acceptEnclave | .receiving .recvEnclaveAttsdoc _ | .acceptDevice _ | .exited => True
  | _ => False

/-- Where a party has the connections it needs. -/
def Pc.Underway : Pc → Prop
  | .connect | .acceptEnclave | .receiving .recvEnclaveAttsdoc _ | .acceptDevice _ | .exited => False
  | _ => True

/-- A call writes its data when its length is written. -/
def Pc.InOrder : Pc → Prop
  | .sending _ call => call.lenSent = true ∨ call.totalSent < 4
  | _ => True

/-- Connections are made by those who wait for them, and the gateway gets past its two calls of `accept`
    with connections only. -/
structure Opening (s : RelayState) : Prop where
  enclave_connected : s.enclaveConnected = true → s.pc .enclave ≠ .connect
  enclave_waits : s.enclaveConnected = false → s.pc .enclave = .connect ∨ s.pc .enclave = .exited
  gateway_waits : s.enclaveConnected = false → s.pc .gateway = .acceptEnclave ∨
    s.pc .gateway = .exited
  device_connected : s.deviceConnected = true → s.pc .device ≠ .connect
  device_waits : s.deviceConnected = false → s.pc .device = .connect ∨ s.pc .device = .exited
  gateway_before : s.deviceConnected = false → (s.pc .gateway).BeforeDevice
  inOrder : ∀ p, (s.pc p).InOrder

section Connections
variable {s t : RelayState} {p : Party} {pc : Pc}

theorem opening_init : Opening relayInit :=
  ⟨nofun, fun _ => .inl rfl, fun _ => .inl rfl, nofun, fun _ => .inl rfl, fun _ => trivial,
    fun p => by cases p <;> trivial⟩

/-- A party that has its connection moves on. -/
theorem Opening.move (h : Opening s) (hpc : t.pc = Function.update s.pc p pc)
    (he : t.enclaveConnected = s.enclaveConnected) (hd : t.deviceConnected = s.deviceConnected)
    (hconnect : s.pc p ≠ .connect) (hexited : s.pc p ≠ .exited)
    (haccept : s.enclaveConnected = false → s.pc p ≠ .acceptEnclave)
    (hbefore : s.deviceConnected = false → (s.pc p).BeforeDevice → pc.BeforeDevice)
    (hnew : pc ≠ .connect) (horder : pc.InOrder) : Opening t where
  enclave_connected hc := by
    rw [hpc]
    exact update_pc (P := fun c => c ≠ .connect) (fun _ => hnew)
      fun _ => h.enclave_connected (he ▸ hc)
  enclave_waits hc := by
    have hold := h.enclave_waits (he ▸ hc)
    rw [hpc, Function.update_of_ne]
    · exact hold
    · rintro rfl
      exact hold.elim hconnect hexited
  gateway_waits hc := by
    have hold := h.gateway_waits (he ▸ hc)
    rw [hpc, Function.update_of_ne]
    · exact hold
    · rintro rfl
      exact hold.elim (haccept (he ▸ hc)) hexited
  device_connected hc := by
    rw [hpc]
    exact update_pc (P := fun c => c ≠ .connect) (fun _ => hnew)
      fun _ => h.device_connected (hd ▸ hc)
  device_waits hc := by
    have hold := h.device_waits (hd ▸ hc)
    rw [hpc, Function.update_of_ne]
    · exact hold
    · rintro rfl
      exact hold.elim hconnect hexited
  gateway_before hc := by
    have hold := h.gateway_before (hd ▸ hc)
    rw [hpc]
    exact update_pc (P := Pc.BeforeDevice) (fun hp => hbefore (hd ▸ hc) (hp ▸ hold)) fun _ => hold
  inOrder q := by
    rw [hpc]
    exact update_pc (P := Pc.InOrder) (fun _ => horder) fun _ => h.inOrder q

/-- So does one in the rest of its program. -/
theorem Opening.goOn (h : Opening s) {pc₀ : Pc} (hp : s.pc p = pc₀) (hunder : pc₀.Underway)
    (hpc : t.pc = Function.update s.pc p pc) (he : t.enclaveConnected = s.enclaveConnected)
    (hd : t.deviceConnected = s.deviceConnected) (hnew : pc ≠ .connect) (horder : pc.InOrder) :
    Opening t := by
  subst hp
  refine h.move hpc he hd ?_ ?_ ?_ ?_ hnew horder
  · intro hc
    exact (hc ▸ hunder : Pc.connect.Underway)
  · intro hc
    exact (hc ▸ hunder : Pc.exited.Underway)
  · intro _ hc
    exact (hc ▸ hunder : Pc.acceptEnclave.Underway)
  · intro _ hbefore
    generalize s.pc p = pc₀ at hunder hbefore
    unfold Pc.Underway at hunder
    unfold Pc.BeforeDevice at hbefore
    split at hbefore <;> first | exact hunder.elim | exact hbefore.elim

theorem Opening.exit (h : Opening s) (p : Party) : Opening (s.enter p .exited) where
  enclave_connected hc := update_pc (P := fun c => c ≠ .connect) (fun _ => nofun)
    fun _ => h.enclave_connected hc
  enclave_waits hc := update_pc (P := fun c => c = .connect ∨ c = .exited) (fun _ => .inr rfl)
    fun _ => h.enclave_waits hc
  gateway_waits hc := update_pc (P := fun c => c = .acceptEnclave ∨ c = .exited) (fun _ => .inr rfl)
    fun _ => h.gateway_waits hc
  device_connected hc := update_pc (P := fun c => c ≠ .connect) (fun _ => nofun)
    fun _ => h.device_connected hc
  device_waits hc := update_pc (P := fun c => c = .connect ∨ c = .exited) (fun _ => .inr rfl)
    fun _ => h.device_waits hc
  gateway_before hc := update_pc (P := Pc.BeforeDevice) (fun _ => trivial)
    fun _ => h.gateway_before hc
  inOrder q := update_pc (P := Pc.InOrder) (fun _ => trivial) fun _ => h.inOrder q

theorem SendCall.write_inOrder {c c' : SendCall} {output output' : List UInt8} {chunk : ℕ}
    (h : c.write order output chunk = .ok (c', output')) :
    c'.lenSent = true ∨ c'.totalSent < 4 := by
  unfold write at h
  split at h
  · rename_i hlen
    obtain ⟨t, -, hok⟩ := Checks.bind_ok.mp h
    obtain ⟨rfl, -⟩ := Prod.mk.inj (Checks.pure_ok.mp hok)
    exact .inl hlen
  · obtain ⟨t, -, hok⟩ := Checks.bind_ok.mp h
    split at hok
    · rename_i hfour
      obtain ⟨rfl, -⟩ := Prod.mk.inj (Checks.pure_ok.mp hok)
      exact .inr hfour
    · obtain ⟨rfl, -⟩ := Prod.mk.inj (Checks.pure_ok.mp hok)
      exact .inl rfl

theorem inOrder_send (site : SendSite) (m : Frame) : (send site m).InOrder :=
  .inr (Nat.succ_pos 3)

theorem RecvSite.next_inOrder (bufs : Buffers) (site : RecvSite) (m : Frame) :
    site.next bufs m ≠ .connect ∧ (site.next bufs m).InOrder := by
  cases site with
  | relayIiotPubkey => exact ⟨(by rintro ⟨⟩), inOrder_send _ _⟩
  | relayOffloadRequest => exact ⟨(by rintro ⟨⟩), inOrder_send _ _⟩
  | relayOffloadResponse => exact ⟨(by rintro ⟨⟩), inOrder_send _ _⟩
  | responseOffload =>
    rw [RecvSite.next]
    split
    · exact ⟨(by rintro ⟨⟩), trivial⟩
    · exact ⟨(by rintro ⟨⟩), trivial⟩
  | _ => exact ⟨(by rintro ⟨⟩), trivial⟩

theorem SendSite.next_inOrder (bufs : Buffers) (site : SendSite) :
    site.next bufs ≠ .connect ∧ (site.next bufs).InOrder := by
  cases site <;> exact ⟨(by rintro ⟨⟩), trivial⟩

theorem opening_step {a : Action} (h : Opening s) (hstep : relayStep order s a = some t) :
    Opening t := by
  cases a with
  | connectEnclave =>
    obtain ⟨-, rfl⟩ := relayStep_fired hstep
    exact ⟨fun _ => nofun, nofun, nofun, h.device_connected, h.device_waits, h.gateway_before,
      fun q => update_pc (P := Pc.InOrder) (fun _ => trivial) fun _ => h.inOrder q⟩
  | acceptEnclave bufs =>
    obtain ⟨hp, hc, rfl⟩ := relayStep_fired hstep
    exact h.move rfl rfl rfl (by rw [hp]; nofun) (by rw [hp]; nofun)
      (fun hnot => absurd hc (by rw [hnot]; nofun)) (fun _ _ => trivial) nofun trivial
  | getAttsdoc doc =>
    obtain ⟨hp, rfl⟩ := relayStep_fired hstep
    exact h.goOn hp trivial rfl rfl rfl nofun (inOrder_send _ _)
  | connectDevice bufs =>
    obtain ⟨-, rfl⟩ := relayStep_fired hstep
    exact ⟨h.enclave_connected, h.enclave_waits, h.gateway_waits, fun _ => nofun, nofun, nofun,
      fun q => update_pc (P := Pc.InOrder) (fun _ => trivial) fun _ => h.inOrder q⟩
  | acceptDevice =>
    obtain ⟨doc, hp, hc, rfl⟩ := relayStep_fired hstep
    exact h.move rfl rfl rfl (by rw [hp]; nofun) (by rw [hp]; nofun) (fun _ => by rw [hp]; nofun)
      (fun hnot => absurd hc (by rw [hnot]; nofun)) nofun (inOrder_send _ _)
  | sendKey key =>
    obtain ⟨doc, hp, rfl⟩ := relayStep_fired hstep
    exact h.goOn hp trivial rfl rfl rfl nofun (inOrder_send _ _)
  | offload request =>
    obtain ⟨hp, rfl⟩ := relayStep_fired hstep
    exact h.goOn hp trivial rfl rfl rfl nofun (inOrder_send _ _)
  | runLocally =>
    obtain rfl : t = s := relayStep_fired hstep
    exact h
  | respond response =>
    obtain ⟨request, hp, rfl⟩ := relayStep_fired hstep
    exact h.goOn hp trivial rfl rfl rfl nofun (inOrder_send _ _)
  | write p chunk =>
    obtain ⟨site, call, call', bytes, hp, hw, rfl⟩ := relayStep_fired hstep
    exact h.goOn hp trivial rfl rfl rfl nofun (SendCall.write_inOrder hw)
  | wrote p bufs =>
    obtain ⟨site, call, hp, rfl⟩ := relayStep_fired hstep
    exact h.goOn hp trivial rfl rfl rfl (site.next_inOrder bufs).1 (site.next_inOrder bufs).2
  | read p chunk =>
    obtain ⟨site, call, call', bytes, hp, hr, rfl⟩ := relayStep_fired hstep
    refine h.move rfl rfl rfl (by rw [hp]; nofun) (by rw [hp]; nofun)
      (fun _ => by rw [hp]; nofun) (fun _ hb => ?_) nofun trivial
    rw [hp] at hb
    cases site <;> first | exact trivial | exact hb.elim
  | received p bufs =>
    obtain ⟨site, call, hp, -, rfl⟩ := relayStep_fired hstep
    refine h.move rfl rfl rfl (by rw [hp]; nofun) (by rw [hp]; nofun)
      (fun _ => by rw [hp]; nofun) (fun _ hb => ?_) (site.next_inOrder bufs _).1
      (site.next_inOrder bufs _).2
    rw [hp] at hb
    cases site <;> first | exact trivial | exact hb.elim
  | exit p =>
    obtain rfl : t = s.enter p .exited := relayStep_fired hstep
    exact h.exit p

theorem opening_reachable (h : (relay order).Reachable s) : Opening s :=
  (relay order).invariant (fun _ hs => hs ▸ opening_init)
    (fun _ _ hi ⟨_, hstep⟩ => opening_step hi hstep) h

end Connections

/-! ### Somebody can always go on -/

/-- No step is left of what has been asked for. -/
def Stuck (order : ByteOrder) (s : RelayState) : Prop :=
  ∀ a : Action, a.Serving → relayStep order s a = none

theorem writeSome_isOk (message : String) (data : List UInt8) {size : ℤ} {t : Sending}
    (h : (t.totalSent : ℤ) < size) : ∃ t', writeSome message data size t 1 = .ok t' := by
  simp only [writeSome]
  rw [if_neg (by omega)]
  exact ⟨_, rfl⟩

theorem SendCall.write_isOk (order : ByteOrder) {c : SendCall} (horder : c.lenSent = true ∨ c.totalSent < 4)
    (hd : c.done = false) (output : List UInt8) : ∃ r, c.write order output 1 = .ok r := by
  unfold write
  by_cases hlen : c.lenSent = true
  · rw [if_pos hlen]
    rw [done, hlen, Bool.true_and, decide_eq_false_iff_not, not_le] at hd
    obtain ⟨t, ht⟩ := writeSome_isOk "send_len_data: failed to send data" c.data
      (t := ⟨c.totalSent, output⟩) (Int.ofNat_lt.mpr hd)
    exact ⟨_, Checks.bind_ok.mpr ⟨t, ht, rfl⟩⟩
  · rw [if_neg hlen]
    have hfour := horder.resolve_left hlen
    have hroom : (c.totalSent : ℤ) < 4 := by omega
    obtain ⟨t, ht⟩ := writeSome_isOk "send_len_data: failed to send length"
      (intBytes order (Int32.ofInt c.data.length)) (t := ⟨c.totalSent, output⟩) hroom
    by_cases htotal : t.totalSent < 4
    · exact ⟨_, Checks.bind_ok.mpr ⟨t, ht, if_pos htotal⟩⟩
    · exact ⟨_, Checks.bind_ok.mpr ⟨t, ht, if_neg htotal⟩⟩

theorem readSome_isOk (fault : Stop → List (ℕ × UInt8) → Stopped) (message : String) {size : ℤ}
    {t : Receiving} (h : (t.totalRecvd : ℤ) < size) (hin : t.input ≠ []) :
    ∃ t', readSome fault message size t 1 = .ok t' := by
  have hpos := List.length_pos_iff.mpr hin
  simp only [readSome]
  rw [if_neg (by omega)]
  exact ⟨_, rfl⟩

theorem RecvCall.read_isOk {c : RecvCall} {taken input : List UInt8} (ht : c.Took order taken)
    (hd : c.done = false) (hin : input ≠ []) : ∃ r, c.read order input 1 = .ok r := by
  unfold read
  unfold Took at ht
  unfold done at hd
  cases hlen : c.len with
  | none =>
    simp only [hlen] at ht
    have hroom : (c.totalRecvd : ℤ) < 4 := by omega
    obtain ⟨t, ht⟩ := readSome_isOk (fun stop _ => (⟨stop, []⟩ : Stopped))
      "recv_len_data: failed to receive length" (t := ⟨c.totalRecvd, c.stores, input⟩) hroom hin
    by_cases htotal : t.totalRecvd < 4
    · exact ⟨_, Checks.bind_ok.mpr ⟨t, ht, if_pos htotal⟩⟩
    · exact ⟨_, Checks.bind_ok.mpr ⟨t, ht, if_neg htotal⟩⟩
  | some len =>
    simp only [hlen, decide_eq_false_iff_not, not_le] at hd
    obtain ⟨t, ht⟩ := readSome_isOk (fun stop stores => (⟨stop, stores⟩ : Stopped))
      "recv_len_data: failed to receive data" (t := ⟨c.totalRecvd, c.stores, input⟩) hd hin
    exact ⟨_, Checks.bind_ok.mpr ⟨t, ht, rfl⟩⟩

section Progress
variable {s : RelayState} {p : Party}

/-- Nobody is stuck in a `write`. -/
theorem Stuck.not_sending (h : Stuck order s) (hopen : Opening s) (site : SendSite)
    (call : SendCall) : s.pc p ≠ .sending site call := by
  intro hp
  cases hd : call.done with
  | true =>
    have hstep := h (.wrote p zeroBuffers) trivial
    simp only [relayStep, hp, hd, if_true] at hstep
    cases hstep
  | false =>
    have horder := hopen.inOrder p
    rw [hp] at horder
    obtain ⟨⟨call', bytes⟩, hw⟩ := SendCall.write_isOk order horder hd (s.inflight site.link)
    have hstep := h (.write p 1) trivial
    simp only [relayStep, hp, hw] at hstep
    cases hstep

/-- Who is stuck in a `read` has nothing to read. -/
theorem Stuck.blocked (h : Stuck order s) (hinv : RelayInv order s) (hlive : ∀ p, Live s p)
    {site : RecvSite} {call : RecvCall} (hp : s.pc p = .receiving site call) : Blocked s p := by
  have hd : call.done = false := by
    by_contra hd
    rw [Bool.not_eq_false] at hd
    have hstep := h (.received p zeroBuffers) trivial
    simp only [relayStep, hp, hd, if_true] at hstep
    cases hstep
  refine ⟨site, call, hp, hd, ?_, hlive _⟩
  by_contra hin
  obtain ⟨taken, unsent, -, htook, -⟩ := hinv.links site.link
  rw [hinv.target_eq hp, hp, Pc.Took, if_pos rfl] at htook
  obtain ⟨⟨call', bytes⟩, hr⟩ := RecvCall.read_isOk htook hd hin
  have hstep := h (.read p 1) trivial
  simp only [relayStep, hp, hr] at hstep
  cases hstep

theorem fits_nil (sites : List RecvSite) : Fits [] sites := fun _ _ => Nat.zero_le _

section Parties
variable (h : Stuck order s) (hinv : RelayInv order s) (hopen : Opening s) (hlive : ∀ p, Live s p)
include h hinv hopen hlive

theorem Stuck.gateway : Blocked s .gateway := by
  have hgate := hinv.gateway.2
  cases hp : s.pc .gateway with
  | acceptEnclave =>
    exfalso
    cases hc : s.enclaveConnected with
    | true =>
      have hstep := h (.acceptEnclave zeroBuffers) trivial
      simp [relayStep, hp, hc] at hstep
    | false =>
      have he := (hopen.enclave_waits hc).resolve_right (hlive .enclave)
      have hstep := h .connectEnclave trivial
      simp [relayStep, hp, he] at hstep
  | acceptDevice doc =>
    exfalso
    cases hc : s.deviceConnected with
    | true =>
      have hstep := h .acceptDevice trivial
      simp [relayStep, hp, hc] at hstep
    | false =>
      have hd := (hopen.device_waits hc).resolve_right (hlive .device)
      have hstep := h (.connectDevice zeroBuffers) trivial
      simp [relayStep, hp, hd] at hstep
  | sending site call => exact absurd hp (h.not_sending hopen site call)
  | receiving site call => exact h.blocked hinv hlive hp
  | exited => exact absurd hp (hlive .gateway)
  | _ =>
    rw [hp] at hgate
    exact hgate.elim

theorem Stuck.enclave : Blocked s .enclave := by
  have henc := hinv.enclave.2.2
  cases hp : s.pc .enclave with
  | connect =>
    exfalso
    have hc : s.enclaveConnected = false := by
      by_contra hc
      exact hopen.enclave_connected (by simpa using hc) hp
    have hg := (hopen.gateway_waits hc).resolve_right (hlive .gateway)
    have hstep := h .connectEnclave trivial
    simp [relayStep, hp, hg] at hstep
  | getAttsdoc =>
    have hstep := h (.getAttsdoc []) trivial
    simp [relayStep, hp, fits_nil] at hstep
  | serve request =>
    have hstep := h (.respond []) trivial
    simp [relayStep, hp, fits_nil] at hstep
  | sending site call => exact absurd hp (h.not_sending hopen site call)
  | receiving site call => exact h.blocked hinv hlive hp
  | exited => exact absurd hp (hlive .enclave)
  | _ =>
    rw [hp] at henc
    exact henc.elim

/-- When nobody can go on, everything the device has asked for is done. -/
theorem Stuck.emulate : s.pc .device = .emulate := by
  have hgate := h.gateway hinv hopen hlive
  have henc := h.enclave hinv hopen hlive
  have hdev := hinv.device
  cases hp : s.pc .device with
  | connect =>
    exfalso
    -- the gateway waits for the enclave, and the enclave for the gateway
    have hinv' := hinv.exit .device
    have hc : s.deviceConnected = false := by
      by_contra hc
      exact hopen.device_connected (by simpa using hc) hp
    have hbefore := hopen.gateway_before hc
    obtain ⟨site, call, hg, hd, hin, -⟩ := hgate
    rw [hg] at hbefore
    have hsource : site.link.source = .enclave := by
      cases site <;> first | rfl | exact hbefore.elim
    have hgate' : Blocked (s.enter .device .exited) .gateway :=
      ⟨site, call, hg, hd, hin, by rw [hsource]; exact hlive .enclave⟩
    obtain ⟨site', call', he, hd', hin', -⟩ := henc
    have hsource' : site'.link.source = .gateway := by
      have htarget := hinv.target_eq he
      cases site' <;> first | rfl | cases htarget
    have henc' : Blocked (s.enter .device .exited) .enclave :=
      ⟨site', call', he, hd', hin', by rw [hsource']; exact hlive .gateway⟩
    refine hinv'.gateway_not_blocked (fun p hp => ?_) hgate'
    cases p with
    | device => exact absurd rfl hp
    | gateway => exact hgate'
    | enclave => exact henc'
  | validate doc =>
    have hstep := h (.sendKey []) trivial
    simp [relayStep, hp, fits_nil] at hstep
  | emulate => rfl
  | sending site call => exact absurd hp (h.not_sending hopen site call)
  | receiving site call =>
    exfalso
    refine hinv.not_all_blocked ⟨⟨.device, hlive .device⟩, fun p _ => ?_⟩
    cases p with
    | device => exact h.blocked hinv hlive hp
    | gateway => exact hgate
    | enclave => exact henc
  | exited => exact absurd hp (hlive .device)
  | _ =>
    rw [hp] at hdev
    exact hdev.elim

end Parties

end Progress

end MutualEdge.Sgx
