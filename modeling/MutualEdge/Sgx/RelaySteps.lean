import MutualEdge.Sgx.RelayInvariant

/-! Every step of the relay keeps its invariant. -/

namespace MutualEdge.Sgx

variable {order : ByteOrder}

/-- What a party starts at a point of its program fits: the message it sends the buffers on the way, the
    buffer it receives in its call. -/
def Pc.Ready (s : RelayState) (pc : Pc) : Prop :=
  (∀ site call, pc = .sending site call →
    Fits call.data (route site.link (s.sent site.link).length)) ∧
  ∀ site call, pc = .receiving site call → call.buf.length = site.bufSize

theorem ready_send {s : RelayState} {site : SendSite} {m : Frame}
    (h : Fits m (route site.link (s.sent site.link).length)) : (send site m).Ready s := by
  refine ⟨?_, fun site' call hpc => by cases hpc⟩
  intro site' call hpc
  cases hpc
  exact h

theorem ready_recv (s : RelayState) (bufs : Buffers) (site : RecvSite) :
    (recv bufs site).Ready s := by
  refine ⟨fun site' call hpc => (by cases hpc), ?_⟩
  intro site' call hpc
  cases hpc
  exact bufs.size _

theorem Pc.Between.ready {pc : Pc} (h : pc.Between) (s : RelayState) : pc.Ready s := by
  refine ⟨fun _ _ hpc => ?_, fun _ _ hpc => ?_⟩
  · rw [hpc] at h
    exact h.elim
  · rw [hpc] at h
    exact h.elim

/-- The frames that are sent keep fitting when a party moves on to a point it is ready for. -/
theorem fits_enter {s : RelayState} {p : Party} {pc : Pc} (hready : pc.Ready s)
    (hfits : ∀ l i m, (s.sent l)[i]? = some m → Fits m (route l i)) :
    ∀ l i m, ((s.enter p pc).sent l)[i]? = some m → Fits m (route l i) := by
  intro l i m hm
  cases pc with
  | sending site call =>
    by_cases hl : l = site.link
    · subst hl
      simp only [RelayState.enter, Function.update_self] at hm
      rcases lt_trichotomy i (s.sent site.link).length with hi | rfl | hi
      · rw [List.getElem?_append_left hi] at hm
        exact hfits _ i m hm
      · rw [List.getElem?_append_right le_rfl, Nat.sub_self] at hm
        obtain rfl := Option.some.inj hm
        exact hready.1 site call rfl
      · rw [List.getElem?_eq_none (by rw [List.length_append]; exact hi)] at hm
        cases hm
    · simp only [RelayState.enter, Function.update_of_ne hl] at hm
      exact hfits l i m hm
  | _ => exact hfits l i m hm

/-- A party that moves on keeps the invariant, if its own part of it and that of the others hold
    behind the step. -/
theorem relayInv_enter {s : RelayState} {p : Party} {pc : Pc} (hset : Settled order s p)
    (hstart : pc.Starts order p) (hready : pc.Ready s)
    (hfits : ∀ l i m, (s.sent l)[i]? = some m → Fits m (route l i))
    (hbufs : ∀ p site call, s.pc p = .receiving site call → call.buf.length = site.bufSize)
    (hd : DeviceInv (Function.update s.pc p pc .device) ((s.enter p pc).sent .deviceGateway)
      (s.got .gatewayDevice))
    (hg : GatewayInv (Function.update s.pc p pc .gateway) (s.got .deviceGateway)
      ((s.enter p pc).sent .gatewayEnclave) (s.got .enclaveGateway)
      ((s.enter p pc).sent .gatewayDevice))
    (he : EnclaveInv (Function.update s.pc p pc .enclave) (s.got .gatewayEnclave)
      ((s.enter p pc).sent .enclaveGateway) s.served) :
    RelayInv order (s.enter p pc) where
  links := hset.enter hstart
  device := hd
  gateway := hg
  enclave := he
  fits := fits_enter hready hfits
  bufs p' site call hp := by
    rw [RelayState.enter_pc] at hp
    exact update_pc (P := fun c => c = .receiving site call → call.buf.length = site.bufSize)
      (fun _ => hready.2 site call) (fun _ => hbufs p' site call) hp

/-- The same call, further on. -/
inductive Pc.SameCall : Pc → Pc → Prop
  | sending (site : SendSite) (call call' : SendCall) :
    SameCall (.sending site call) (.sending site call')
  | receiving (site : RecvSite) (call call' : RecvCall) :
    SameCall (.receiving site call) (.receiving site call')

theorem Pc.SameCall.device {pc pc' : Pc} (h : pc.SameCall pc') {sent got : List Frame}
    (hd : DeviceInv pc sent got) : DeviceInv pc' sent got := by
  cases h with
  | sending site => cases site <;> exact hd
  | receiving site => cases site <;> exact hd

theorem Pc.SameCall.gateway {pc pc' : Pc} (h : pc.SameCall pc')
    {fromDevice toEnclave fromEnclave toDevice : List Frame}
    (hg : GatewayInv pc fromDevice toEnclave fromEnclave toDevice) :
    GatewayInv pc' fromDevice toEnclave fromEnclave toDevice := by
  cases h with
  | sending site => cases site <;> exact hg
  | receiving site => cases site <;> exact hg

theorem Pc.SameCall.enclave {pc pc' : Pc} (h : pc.SameCall pc') {got sent : List Frame}
    {served : List (Frame × Frame)} (he : EnclaveInv pc got sent served) :
    EnclaveInv pc' got sent served := by
  cases h with
  | sending site => cases site <;> exact he
  | receiving site => cases site <;> exact he

/-- A `write` or a `read` keeps the invariant. -/
theorem RelayInv.advance {s : RelayState} {p : Party} {pc : Pc} {l : Link} {bytes : List UInt8}
    (h : RelayInv order s) (hlinks : ∀ l', LinkInv order (s.advance p pc l bytes) l')
    (hbufs : ∀ site call, pc = .receiving site call → call.buf.length = site.bufSize)
    (hsame : (s.pc p).SameCall pc) : RelayInv order (s.advance p pc l bytes) where
  links := hlinks
  device := by
    rw [RelayState.advance_pc]
    exact update_pc (P := fun c => DeviceInv c (s.sent .deviceGateway) (s.got .gatewayDevice))
      (fun hp => hsame.device (hp ▸ h.device)) fun _ => h.device
  gateway := by
    rw [RelayState.advance_pc]
    exact update_pc (P := fun c => GatewayInv c (s.got .deviceGateway) (s.sent .gatewayEnclave)
      (s.got .enclaveGateway) (s.sent .gatewayDevice))
      (fun hp => hsame.gateway (hp ▸ h.gateway)) fun _ => h.gateway
  enclave := by
    rw [RelayState.advance_pc]
    exact update_pc (P := fun c => EnclaveInv c (s.got .gatewayEnclave) (s.sent .enclaveGateway)
      s.served) (fun hp => hsame.enclave (hp ▸ h.enclave)) fun _ => h.enclave
  fits := h.fits
  bufs p' site call hp := by
    rw [RelayState.advance_pc] at hp
    exact update_pc (P := fun c => c = .receiving site call → call.buf.length = site.bufSize)
      (fun _ => hbufs site call) (fun _ => h.bufs p' site call) hp

/-- The bytes of a `write` go from the sender to the wire. -/
theorem RelayInv.write {s : RelayState} {p : Party} {site : SendSite} {call call' : SendCall}
    {bytes : List UInt8} {chunk : ℕ} (h : RelayInv order s) (hp : s.pc p = .sending site call)
    (hw : call.write order (s.inflight site.link) chunk = .ok (call', bytes)) :
    RelayInv order (s.advance p (.sending site call') site.link bytes) := by
  have hsource := h.source_eq hp
  refine h.advance ?_ (fun _ _ hpc => by cases hpc) (hp ▸ .sending site call call')
  · intro l
    by_cases hl : l = site.link
    · subst hl
      obtain ⟨taken, unsent, hflow, htook, hunsent⟩ := h.links site.link
      rw [hsource, hp, Pc.Unsent, if_pos rfl] at hunsent
      obtain ⟨sent, rfl, hsent⟩ := SendCall.write_ok hw
      rw [hunsent, hsent] at hflow
      have hne : site.link.target ≠ p := hsource ▸ site.link.source_ne_target.symm
      refine ⟨taken, call'.unsent order, ?_, ?_, ?_⟩
      · rw [RelayState.advance_inflight, Function.update_self]
        exact hflow.write
      · rwa [RelayState.advance_pc, Function.update_of_ne hne]
      · rw [RelayState.advance_pc, hsource, Function.update_self, Pc.Unsent, if_pos rfl]
    · refine (h.links l).advance hl ?_ ?_
      · rw [hp]
        exact fun _ ht => ht
      · rw [hp]
        intro unsent hu
        rw [Pc.Unsent, if_neg (Ne.symm hl)] at hu ⊢
        exact hu

/-- The bytes of a `read` go from the wire to the receiver. -/
theorem RelayInv.read {s : RelayState} {p : Party} {site : RecvSite} {call call' : RecvCall}
    {bytes : List UInt8} {chunk : ℕ} (h : RelayInv order s) (hp : s.pc p = .receiving site call)
    (hr : call.read order (s.inflight site.link) chunk = .ok (call', bytes)) :
    RelayInv order (s.advance p (.receiving site call') site.link bytes) := by
  have htarget := h.target_eq hp
  obtain ⟨taken, unsent, hflow, htook, hunsent⟩ := h.links site.link
  rw [htarget, hp, Pc.Took, if_pos rfl] at htook
  obtain ⟨took, hin, htook', hbuf⟩ := RecvCall.read_ok hr htook
  refine h.advance ?_ ?_ (hp ▸ .receiving site call call')
  · intro l
    by_cases hl : l = site.link
    · subst hl
      rw [hin] at hflow
      have hne : site.link.source ≠ p := htarget ▸ site.link.source_ne_target
      refine ⟨taken ++ took, unsent, ?_, ?_, ?_⟩
      · rw [RelayState.advance_inflight, Function.update_self]
        exact hflow.read
      · rw [RelayState.advance_pc, htarget, Function.update_self, Pc.Took, if_pos rfl]
        exact htook'
      · rwa [RelayState.advance_pc, Function.update_of_ne hne]
    · refine (h.links l).advance hl ?_ ?_
      · rw [hp]
        intro taken ht
        rw [Pc.Took, if_neg (Ne.symm hl)] at ht ⊢
        exact ht
      · rw [hp]
        exact fun _ hu => hu
  · intro site' c hpc
    cases hpc
    rw [hbuf]
    exact h.bufs p site call hp

/-- A party may end at any time. -/
theorem RelayInv.exit {s : RelayState} (h : RelayInv order s) (p : Party) :
    RelayInv order (s.enter p .exited) where
  links l := by
    obtain ⟨taken, unsent, hflow, htook, hunsent⟩ := h.links l
    refine ⟨taken, unsent, hflow, ?_, ?_⟩
    · rw [RelayState.enter_pc]
      exact update_pc (P := fun c => c.Took order l taken) (fun _ => trivial) fun _ => htook
    · rw [RelayState.enter_pc]
      exact update_pc (P := fun c => c.Unsent order l unsent) (fun _ => trivial) fun _ => hunsent
  device := by
    cases p with
    | device => trivial
    | gateway => exact h.device
    | enclave => exact h.device
  gateway := by
    cases p with
    | device => exact h.gateway
    | gateway =>
      exact ⟨h.gateway.1, h.gateway.passedOn⟩
    | enclave => exact h.gateway
  enclave := by
    cases p with
    | device => exact h.enclave
    | gateway => exact h.enclave
    | enclave => exact ⟨h.enclave.1, h.enclave.2.1, trivial⟩
  fits := h.fits
  bufs p' site call hp := by
    rw [RelayState.enter_pc] at hp
    exact update_pc (P := fun c => c = .receiving site call → call.buf.length = site.bufSize)
      (fun _ hpc => (by cases hpc)) (fun _ => h.bufs p' site call) hp

/-- A party that has finished sending goes on. -/
theorem RelayInv.wrote {s : RelayState} {p : Party} {site : SendSite} {call : SendCall}
    (h : RelayInv order s) (hp : s.pc p = .sending site call) (hd : call.done = true)
    (bufs : Buffers) : RelayInv order (s.enter p (site.next bufs)) := by
  have hset : Settled order s p := by
    refine h.settled ?_ ?_
    · rw [hp]
      exact fun _ _ ht => ht
    · rw [hp]
      intro l unsent hu
      rw [hu]
      split
      · exact SendCall.unsent_done order hd
      · rfl
  cases p with
  | device =>
    have hdev := h.device
    rw [hp] at hdev
    cases site with
    | sendIiotPubkey =>
      have hnext : Pc.emulate.Between := trivial
      exact relayInv_enter hset (hnext.starts _) (hnext.ready _) h.fits h.bufs hdev h.gateway
        h.enclave
    | requestOffload =>
      exact relayInv_enter hset (starts_recv _ _ _) (ready_recv _ _ _) h.fits h.bufs hdev h.gateway
        h.enclave
    | _ => exact hdev.elim
  | gateway =>
    have hgate := h.gateway
    rw [hp] at hgate
    cases site with
    | sendEnclaveAttsdoc | relayIiotPubkey | relayOffloadRequest | relayOffloadResponse =>
      exact relayInv_enter hset (starts_recv _ _ _) (ready_recv _ _ _) h.fits h.bufs h.device hgate
        h.enclave
    | _ => exact hgate.2.elim
  | enclave =>
    have henc := h.enclave
    rw [hp] at henc
    cases site with
    | sendAttsdoc | responseOffload =>
      exact relayInv_enter hset (starts_recv _ _ _) (ready_recv _ _ _) h.fits h.bufs h.device
        h.gateway henc
    | _ => exact henc.2.2.elim

/-- A party that has received a message goes on with it. -/
theorem RelayInv.received {s : RelayState} {p : Party} {site : RecvSite} {call : RecvCall}
    (h : RelayInv order s) (hp : s.pc p = .receiving site call) (hd : call.done = true)
    (bufs : Buffers) :
    RelayInv order ((s.deliver site.link call.message).enter p (site.next bufs call.message)) := by
  obtain ⟨hm, hset⟩ := h.delivered hp hd
  have hfit := h.fits _ _ _ hm
  generalize call.message = m at hm hset hfit
  cases p with
  | device =>
    have hdev := h.device
    rw [hp] at hdev
    cases site with
    | recvAttsdoc =>
      have hnext : (Pc.validate m).Between := trivial
      exact relayInv_enter hset (hnext.starts _) (hnext.ready _) h.fits h.bufs (hdev.gotAttsdoc m)
        h.gateway h.enclave
    | requestOffload =>
      have hnext : Pc.emulate.Between := trivial
      exact relayInv_enter hset (hnext.starts _) (hnext.ready _) h.fits h.bufs (hdev.gotResponse m)
        h.gateway h.enclave
    | _ => exact hdev.elim
  | gateway =>
    have hgate := h.gateway
    rw [hp] at hgate
    cases site with
    | recvEnclaveAttsdoc =>
      have hnext : (Pc.acceptDevice m).Between := trivial
      exact relayInv_enter hset (hnext.starts _) (hnext.ready _) h.fits h.bufs h.device
        (hgate.gotAttsdoc m) h.enclave
    | relayIiotPubkey =>
      refine relayInv_enter hset (starts_send rfl m) (ready_send ?_) h.fits h.bufs h.device
        (hgate.passKey m) h.enclave
      show Fits m (route .gatewayEnclave (s.sent .gatewayEnclave).length)
      rw [hgate.1]
      exact hfit
    | relayOffloadRequest =>
      refine relayInv_enter hset (starts_send rfl m) (ready_send ?_) h.fits h.bufs h.device
        (hgate.passRequest m) h.enclave
      show Fits m (route .gatewayEnclave (s.sent .gatewayEnclave).length)
      rw [hgate.1]
      exact hfit
    | relayOffloadResponse =>
      refine relayInv_enter hset (starts_send rfl m) (ready_send ?_) h.fits h.bufs h.device
        (hgate.passResponse m) h.enclave
      show Fits m (route .gatewayDevice (s.sent .gatewayDevice).length)
      rw [← hgate.2.2.1]
      exact hfit
    | _ => exact hgate.2.elim
  | enclave =>
    have henc := h.enclave
    rw [hp] at henc
    cases site with
    | recvIiotPubkey =>
      exact relayInv_enter hset (starts_recv _ _ _) (ready_recv _ _ _) h.fits h.bufs h.device
        h.gateway (henc.gotKey m _)
    | responseOffload =>
      rw [RecvSite.next]
      split
      · -- an empty request ends the program
        exact relayInv_enter hset ⟨fun _ => trivial, trivial⟩ ⟨fun _ _ hpc => (by cases hpc),
          fun _ _ hpc => (by cases hpc)⟩ h.fits h.bufs h.device h.gateway (henc.gotNothing m)
      · have hnext : (Pc.serve m).Between := trivial
        exact relayInv_enter hset (hnext.starts _) (hnext.ready _) h.fits h.bufs h.device h.gateway
          (henc.gotRequest m)
    | _ => exact henc.2.2.elim

/-- The flags for the connections are read by no part of the invariant. -/
theorem RelayInv.connected {s : RelayState} (h : RelayInv order s) (e d : Bool) :
    RelayInv order { s with enclaveConnected := e, deviceConnected := d } :=
  ⟨h.links, h.device, h.gateway, h.enclave, h.fits, h.bufs⟩

theorem RelayInv.settled_at {s : RelayState} {p : Party} (h : RelayInv order s) {pc : Pc}
    (hp : s.pc p = pc) (hpc : pc.Between) : Settled order s p :=
  h.settled (fun _ _ ht => hpc.took.mp (hp ▸ ht)) fun _ _ hu => hpc.unsent.mp (hp ▸ hu)

section Actions
variable {s : RelayState} (h : RelayInv order s)
include h

theorem RelayInv.connectEnclave (hp : s.pc .enclave = .connect) :
    RelayInv order ({ s with enclaveConnected := true }.enter .enclave .getAttsdoc) := by
  have h' := h.connected true s.deviceConnected
  have henc := h.enclave
  rw [hp] at henc
  have hnext : Pc.getAttsdoc.Between := trivial
  exact relayInv_enter (h'.settled_at hp trivial) (hnext.starts _) (hnext.ready _) h'.fits h'.bufs
    h.device h.gateway henc

theorem RelayInv.acceptEnclave (hp : s.pc .gateway = .acceptEnclave) (bufs : Buffers) :
    RelayInv order (s.enter .gateway (recv bufs .recvEnclaveAttsdoc)) := by
  have hgate := h.gateway
  rw [hp] at hgate
  exact relayInv_enter (h.settled_at hp trivial) (starts_recv _ _ _) (ready_recv _ _ _) h.fits
    h.bufs h.device hgate h.enclave

theorem RelayInv.connectDevice (hp : s.pc .device = .connect) (bufs : Buffers) :
    RelayInv order ({ s with deviceConnected := true }.enter .device (recv bufs .recvAttsdoc)) := by
  have h' := h.connected s.enclaveConnected true
  have hdev := h.device
  rw [hp] at hdev
  exact relayInv_enter (h'.settled_at hp trivial) (starts_recv _ _ _) (ready_recv _ _ _) h'.fits
    h'.bufs hdev h.gateway h.enclave

theorem RelayInv.getAttsdoc (hp : s.pc .enclave = .getAttsdoc) {doc : Frame}
    (hfit : Fits doc [.recvEnclaveAttsdoc, .recvAttsdoc]) :
    RelayInv order (s.enter .enclave (send .sendAttsdoc doc)) := by
  have henc := h.enclave
  rw [hp] at henc
  refine relayInv_enter (h.settled_at hp trivial) (starts_send rfl doc) (ready_send ?_) h.fits h.bufs
    h.device h.gateway (henc.getAttsdoc doc)
  show Fits doc (route .enclaveGateway (s.sent .enclaveGateway).length)
  rw [henc.2.2.2]
  exact hfit

/-- The document that the gateway passes on fits the device's buffer: it was sent to go there. -/
theorem RelayInv.acceptDevice {doc : Frame} (hp : s.pc .gateway = .acceptDevice doc) :
    RelayInv order (s.enter .gateway (send .sendEnclaveAttsdoc doc)) := by
  have hgate := h.gateway
  rw [hp] at hgate
  refine relayInv_enter (h.settled_at hp trivial) (starts_send rfl doc) (ready_send ?_) h.fits h.bufs
    h.device hgate.acceptDevice h.enclave
  obtain ⟨-, -, heg, hgd⟩ := hgate
  have hdoc : (s.got .enclaveGateway)[0]? = some doc := by
    rw [heg]
    rfl
  have hfit : Fits doc (route .enclaveGateway 0) := h.fits_got hdoc
  show Fits doc (route .gatewayDevice (s.sent .gatewayDevice).length)
  rw [hgd]
  exact hfit

theorem RelayInv.sendKey {doc : Frame} (hp : s.pc .device = .validate doc) {key : Frame}
    (hfit : Fits key [.relayIiotPubkey, .recvIiotPubkey]) :
    RelayInv order (s.enter .device (send .sendIiotPubkey key)) := by
  have hdev := h.device
  rw [hp] at hdev
  refine relayInv_enter (h.settled_at hp trivial) (starts_send rfl key) (ready_send ?_) h.fits h.bufs
    (hdev.sendKey key) h.gateway h.enclave
  show Fits key (route .deviceGateway (s.sent .deviceGateway).length)
  rw [hdev.1]
  exact hfit

theorem RelayInv.offload (hp : s.pc .device = .emulate) {request : Frame}
    (hfit : Fits request [.relayOffloadRequest, .responseOffload]) :
    RelayInv order (s.enter .device (send .requestOffload request)) := by
  have hdev := h.device
  rw [hp] at hdev
  refine relayInv_enter (h.settled_at hp trivial) (starts_send rfl request) (ready_send ?_) h.fits
    h.bufs (hdev.offload request) h.gateway h.enclave
  show Fits request (route .deviceGateway (s.sent .deviceGateway).length)
  rw [route, if_neg (Nat.pos_iff_ne_zero.mp hdev.1)]
  exact hfit

theorem RelayInv.respond {request : Frame} (hp : s.pc .enclave = .serve request) {response : Frame}
    (hfit : Fits response [.relayOffloadResponse, .requestOffload]) :
    RelayInv order ({ s with served := s.served ++ [(request, response)] }.enter .enclave
      (send .responseOffload response)) := by
  have henc := h.enclave
  rw [hp] at henc
  have hset : Settled order { s with served := s.served ++ [(request, response)] } .enclave :=
    h.settled_at hp trivial
  refine relayInv_enter hset (starts_send rfl response) (ready_send ?_) h.fits h.bufs h.device
    h.gateway (henc.respond response)
  show Fits response (route .enclaveGateway (s.sent .enclaveGateway).length)
  rw [route, if_neg (Nat.pos_iff_ne_zero.mp henc.2.2.1)]
  exact hfit

end Actions

/-- Every step keeps the invariant. -/
theorem relayStep_inv {s s' : RelayState} {a : Action} (h : RelayInv order s)
    (hstep : relayStep order s a = some s') : RelayInv order s' := by
  cases a with
  | connectEnclave =>
    simp only [relayStep, Option.ite_none_right_eq_some, Option.some.injEq] at hstep
    obtain ⟨⟨hp, -⟩, rfl⟩ := hstep
    exact h.connectEnclave hp
  | acceptEnclave bufs =>
    simp only [relayStep, Option.ite_none_right_eq_some, Option.some.injEq] at hstep
    obtain ⟨⟨hp, -⟩, rfl⟩ := hstep
    exact h.acceptEnclave hp bufs
  | getAttsdoc doc =>
    simp only [relayStep, Option.ite_none_right_eq_some, Option.some.injEq] at hstep
    obtain ⟨⟨hp, hfit⟩, rfl⟩ := hstep
    exact h.getAttsdoc hp hfit
  | connectDevice bufs =>
    simp only [relayStep] at hstep
    split at hstep
    · simp only [Option.ite_none_right_eq_some, Option.some.injEq] at hstep
      obtain ⟨hp, rfl⟩ := hstep
      exact h.connectDevice hp bufs
    · cases hstep
  | acceptDevice =>
    simp only [relayStep] at hstep
    split at hstep
    · rename_i doc hp
      simp only [Option.ite_none_right_eq_some, Option.some.injEq] at hstep
      obtain ⟨-, rfl⟩ := hstep
      exact h.acceptDevice hp
    · cases hstep
  | sendKey key =>
    simp only [relayStep] at hstep
    split at hstep
    · rename_i doc hp
      simp only [Option.ite_none_right_eq_some, Option.some.injEq] at hstep
      obtain ⟨hfit, rfl⟩ := hstep
      exact h.sendKey hp hfit
    · cases hstep
  | offload request =>
    simp only [relayStep, Option.ite_none_right_eq_some, Option.some.injEq] at hstep
    obtain ⟨⟨hp, hfit⟩, rfl⟩ := hstep
    exact h.offload hp hfit
  | runLocally =>
    simp only [relayStep, Option.ite_none_right_eq_some, Option.some.injEq] at hstep
    exact hstep.2 ▸ h
  | respond response =>
    simp only [relayStep] at hstep
    split at hstep
    · rename_i request hp
      simp only [Option.ite_none_right_eq_some, Option.some.injEq] at hstep
      obtain ⟨hfit, rfl⟩ := hstep
      exact h.respond hp hfit
    · cases hstep
  | write p chunk =>
    simp only [relayStep] at hstep
    split at hstep
    · rename_i site call hp
      split at hstep
      · rename_i call' bytes hw
        cases hstep
        exact h.write hp hw
      · cases hstep
    · cases hstep
  | wrote p bufs =>
    simp only [relayStep] at hstep
    split at hstep
    · rename_i site call hp
      simp only [Option.ite_none_right_eq_some, Option.some.injEq] at hstep
      obtain ⟨hd, rfl⟩ := hstep
      exact h.wrote hp hd bufs
    · cases hstep
  | read p chunk =>
    simp only [relayStep] at hstep
    split at hstep
    · rename_i site call hp
      split at hstep
      · rename_i call' bytes hr
        cases hstep
        exact h.read hp hr
      · cases hstep
    · cases hstep
  | received p bufs =>
    simp only [relayStep] at hstep
    split at hstep
    · rename_i site call hp
      simp only [Option.ite_none_right_eq_some, Option.some.injEq] at hstep
      obtain ⟨hd, rfl⟩ := hstep
      exact h.received hp hd bufs
    · cases hstep
  | exit p =>
    simp only [relayStep, Option.some.injEq] at hstep
    exact hstep ▸ h.exit p

theorem relay_inv {s : RelayState} (h : (relay order).Reachable s) : RelayInv order s :=
  (relay order).invariant (fun _ hs => hs ▸ relayInit_inv order)
    (fun _ _ hi ⟨_, hstep⟩ => relayStep_inv hi hstep) h

end MutualEdge.Sgx
