import MutualEdge.Sgx.RelaySteps

/-! Relay fidelity: what the device and the enclave get from each other through the gateway, and that
    the three programs never wait for one another in a circle. -/

namespace MutualEdge.Sgx

variable {order : ByteOrder} {s : RelayState} {p : Party}

def Live (s : RelayState) (p : Party) : Prop := s.pc p ≠ .exited

/-- A party waits in a `read`: nothing is on the wire, and the other end of the connection is open. -/
def Blocked (s : RelayState) (p : Party) : Prop :=
  ∃ site call, s.pc p = .receiving site call ∧ call.done = false ∧ s.inflight site.link = [] ∧
    Live s site.link.source

/-- All that was sent to a party that waits for one that waits itself has been delivered. -/
theorem RelayInv.blocked_sync (h : RelayInv order s) {site : RecvSite} {call : RecvCall}
    (hp : s.pc p = .receiving site call) (hd : call.done = false)
    (hempty : s.inflight site.link = []) (hother : Blocked s site.link.source) :
    s.sent site.link = s.got site.link := by
  obtain ⟨taken, unsent, hflow, htook, hunsent⟩ := h.links site.link
  obtain ⟨site', call', hp', -, -, -⟩ := hother
  rw [h.target_eq hp, hp, Pc.Took, if_pos rfl] at htook
  rw [hp'] at hunsent
  obtain rfl : unsent = [] := hunsent
  rw [hempty] at hflow
  exact hflow.waiting htook hd fun m hm => h.size_lt hm

/-- The gateway never waits in a `read` for a party that waits for the gateway. -/
theorem RelayInv.gateway_not_blocked (h : RelayInv order s) (hblocked : ∀ p, Live s p → Blocked s p) :
    ¬ Blocked s .gateway := by
  rintro ⟨site, call, hp, hd, hempty, hlive⟩
  have hother := hblocked _ hlive
  have hsync := h.blocked_sync hp hd hempty hother
  obtain ⟨site', call', hp', hd', hempty', -⟩ := hother
  have hback : Blocked s .gateway := ⟨site, call, hp, hd, hempty, hlive⟩
  have hgate := h.gateway
  rw [hp] at hgate
  -- the other party waits at its own end: both links between the two are in step
  have hsync' : site'.link.source = .gateway → s.sent site'.link = s.got site'.link :=
    fun hs => h.blocked_sync hp' hd' hempty' (hs ▸ hback)
  cases site with
  | recvEnclaveAttsdoc =>
    have henc := h.enclave.2.2
    rw [show s.pc .enclave = .receiving site' call' from hp'] at henc
    obtain ⟨-, -, heg, -⟩ := hgate
    have hsent : s.sent .enclaveGateway = [] := hsync.trans heg
    cases site' with
    | recvIiotPubkey => exact absurd henc.2 (by rw [hsent]; decide)
    | responseOffload => exact absurd henc.1 (by rw [hsent]; decide)
    | _ => exact henc.elim
  | relayIiotPubkey =>
    have hdev := h.device
    rw [show s.pc .device = .receiving site' call' from hp'] at hdev
    obtain ⟨-, hdg, -, hgd⟩ := hgate
    have hsent : s.sent .deviceGateway = [] := hsync.trans hdg
    cases site' with
    | recvAttsdoc =>
      have hgot : s.sent .gatewayDevice = s.got .gatewayDevice := hsync' rfl
      rw [hgot, hdev.2] at hgd
      cases hgd
    | requestOffload =>
      have hlen := hdev.2
      rw [hsent] at hlen
      cases hlen
    | _ => exact hdev.elim
  | relayOffloadRequest =>
    have hdev := h.device
    rw [show s.pc .device = .receiving site' call' from hp'] at hdev
    obtain ⟨-, hpos, -, hlen⟩ := hgate
    have hsent : s.sent .deviceGateway = s.got .deviceGateway := hsync
    cases site' with
    | recvAttsdoc =>
      have hgot : s.sent .gatewayDevice = s.got .gatewayDevice := hsync' rfl
      rw [hgot, hdev.2] at hpos
      cases hpos
    | requestOffload =>
      have hgot : s.sent .gatewayDevice = s.got .gatewayDevice := hsync' rfl
      have hdlen := hdev.2
      rw [hsent, hlen, hgot] at hdlen
      omega
    | _ => exact hdev.elim
  | relayOffloadResponse =>
    have henc := h.enclave.2.2
    rw [show s.pc .enclave = .receiving site' call' from hp'] at henc
    obtain ⟨hpass, hpos, heg, hlen⟩ := hgate
    have hsent : s.sent .enclaveGateway = s.got .enclaveGateway := hsync
    cases site' with
    | recvIiotPubkey =>
      have hgot : s.sent .gatewayEnclave = s.got .gatewayEnclave := hsync' rfl
      have hnone := hgot.trans henc.1
      rw [← hpass, hnone] at hlen
      cases hlen
    | responseOffload =>
      have hgot : s.sent .gatewayEnclave = s.got .gatewayEnclave := hsync' rfl
      have helen := henc.2
      rw [← hgot, hpass, hsent, heg] at helen
      omega
    | _ => exact henc.elim
  | _ => exact hgate.2.elim

/-- There is no deadlock: some live party does not wait in a `read`. -/
theorem RelayInv.not_all_blocked (h : RelayInv order s) :
    ¬ ((∃ p, Live s p) ∧ ∀ p, Live s p → Blocked s p) := by
  rintro ⟨⟨p, hlive⟩, hblocked⟩
  refine h.gateway_not_blocked hblocked ?_
  have hp := hblocked p hlive
  obtain ⟨site, call, hpc, -, -, hsource⟩ := id hp
  have htarget := h.target_eq hpc
  cases p with
  | gateway => exact hp
  | device =>
    have hgate : site.link.source = .gateway := by
      cases site <;> first | rfl | cases htarget
    exact hblocked .gateway (hgate ▸ hsource)
  | enclave =>
    have hgate : site.link.source = .gateway := by
      cases site <;> first | rfl | cases htarget
    exact hblocked .gateway (hgate ▸ hsource)

/-- The enclave has received the key and the requests as the device sent them. -/
theorem RelayInv.toEnclave (h : RelayInv order s) :
    s.got .gatewayEnclave <+: s.sent .deviceGateway :=
  ((h.got_prefix_sent .gatewayEnclave).trans (h.gateway.1 ▸ List.prefix_refl _)).trans
    (h.got_prefix_sent .deviceGateway)

/-- The device has received the document and the responses as the enclave sent them. -/
theorem RelayInv.toDevice (h : RelayInv order s) :
    s.got .gatewayDevice <+: s.sent .enclaveGateway :=
  ((h.got_prefix_sent .gatewayDevice).trans h.gateway.passedOn).trans
    (h.got_prefix_sent .enclaveGateway)

/-- The `k`-th response that reaches the device answers the `k`-th request it has sent, which is the
    `k`-th that the enclave has taken up. -/
theorem RelayInv.response (h : RelayInv order s) {k : ℕ} {response : Frame}
    (hk : (s.got .gatewayDevice)[k + 1]? = some response) :
    ∃ request, s.served[k]? = some (request, response) ∧
      (s.got .gatewayEnclave)[k + 1]? = some request ∧
      (s.sent .deviceGateway)[k + 1]? = some request := by
  obtain ⟨rest, hrest⟩ := h.toDevice
  obtain ⟨hserved, hsent, -⟩ := h.enclave
  obtain ⟨hlt, -⟩ := List.getElem?_eq_some_iff.mp hk
  have hout : (s.sent .enclaveGateway)[k + 1]? = some response := by
    rw [← hrest, List.getElem?_append_left hlt, hk]
  have hpair : (s.served.map Prod.snd)[k]? = some response := by
    rw [← hsent, List.getElem?_tail, hout]
  rw [List.getElem?_map, Option.map_eq_some_iff] at hpair
  obtain ⟨⟨request, answer⟩, hmem, rfl⟩ := hpair
  obtain ⟨later, hlater⟩ := hserved
  have hin : (s.got .gatewayEnclave)[k + 1]? = some request := by
    have hfst : (s.served.map Prod.fst)[k]? = some request := by rw [List.getElem?_map, hmem]; rfl
    obtain ⟨hk', -⟩ := List.getElem?_eq_some_iff.mp hfst
    rw [← List.getElem?_tail, ← hlater, List.getElem?_append_left hk', hfst]
  refine ⟨request, hmem, hin, ?_⟩
  obtain ⟨more, hmore⟩ := h.toEnclave
  obtain ⟨hk', -⟩ := List.getElem?_eq_some_iff.mp hin
  rw [← hmore, List.getElem?_append_left hk', hin]

/-- When the device has its response everything that was sent has arrived. -/
theorem RelayInv.round (h : RelayInv order s) (hp : s.pc .device = .emulate)
    (hround : 2 ≤ (s.got .gatewayDevice).length) :
    s.got .gatewayEnclave = s.sent .deviceGateway ∧
      s.got .gatewayDevice = s.sent .enclaveGateway := by
  have hdev := h.device
  rw [hp] at hdev
  obtain ⟨hserved, hsent, -⟩ := h.enclave
  have hone := h.toEnclave.length_le
  have htwo := h.toDevice.length_le
  have hthree := hserved.length_le
  have hfour := congrArg List.length hsent
  rw [List.length_tail, List.length_map] at hthree
  rw [List.length_tail, List.length_map] at hfour
  have hlen := hdev.2
  exact ⟨h.toEnclave.eq_of_length (by omega), h.toDevice.eq_of_length (by omega)⟩

/-- In every state that the three programs can reach, however their steps interleave, however the reads
    and writes split the streams and after any number of rounds: the enclave has got the key and the
    requests that the device has sent, and the device the document and the responses of the enclave,
    in order and unchanged; the `k`-th response is the one the enclave has made for the `k`-th request;
    on each link the frames on their way are there byte for byte, the gateway has passed on what it got,
    and after a round nothing is missing; and the live parties do not all wait in a `read`. -/
theorem relay_fidelity (h : (relay order).Reachable s) :
    (s.got .gatewayEnclave <+: s.sent .deviceGateway ∧
      s.got .gatewayDevice <+: s.sent .enclaveGateway) ∧
    (∀ k response, (s.got .gatewayDevice)[k + 1]? = some response →
      ∃ request, s.served[k]? = some (request, response) ∧
        (s.got .gatewayEnclave)[k + 1]? = some request ∧
        (s.sent .deviceGateway)[k + 1]? = some request) ∧
    (∀ l, LinkInv order s l) ∧
    (s.sent .gatewayEnclave = s.got .deviceGateway ∧
      s.sent .gatewayDevice <+: s.got .enclaveGateway) ∧
    (s.pc .device = .emulate → 2 ≤ (s.got .gatewayDevice).length →
      s.got .gatewayEnclave = s.sent .deviceGateway ∧
        s.got .gatewayDevice = s.sent .enclaveGateway) ∧
    ¬ ((∃ p, Live s p) ∧ ∀ p, Live s p → Blocked s p) := by
  have hinv := relay_inv h
  exact ⟨⟨hinv.toEnclave, hinv.toDevice⟩, fun k response hk => hinv.response hk, hinv.links,
    ⟨hinv.gateway.1, hinv.gateway.passedOn⟩, fun hp hround => hinv.round hp hround,
    hinv.not_all_blocked⟩

/-! ### A run -/

/-- The system takes one step after another. -/
def relayRun (order : ByteOrder) (s : RelayState) (actions : List Action) : Option RelayState :=
  actions.foldlM (relayStep order) s

theorem relayRun_reachable {actions : List Action} {s s' : RelayState}
    (h : (relay order).Reachable s) (hrun : relayRun order s actions = some s') :
    (relay order).Reachable s' := by
  induction actions generalizing s with
  | nil =>
    obtain rfl := Option.some.inj hrun
    exact h
  | cons a actions ih =>
    obtain ⟨t, hstep, hrest⟩ := Option.bind_eq_some_iff.mp hrun
    exact ih (h.steps (.single ⟨a, hstep⟩)) hrest

/-- Buffers of zeroes. -/
def zeroBuffers : Buffers where
  contents site := List.replicate site.bufSize 0
  size _ := List.length_replicate

/-- A frame goes from one party to another; the length in one piece, the message byte by byte. -/
def passes (p q : Party) (n : ℕ) : List Action :=
  .write p 4 :: .read q 4 :: (List.replicate n [Action.write p 1, .read q 1]).flatten ++
    [.wrote p zeroBuffers, .received q zeroBuffers]

/-- The start-up and one round. -/
def oneRound : List Action :=
  [.connectEnclave, .acceptEnclave zeroBuffers, .getAttsdoc [1]] ++ passes .enclave .gateway 1 ++
    [.connectDevice zeroBuffers, .acceptDevice] ++ passes .gateway .device 1 ++
    [.sendKey [2, 3]] ++ passes .device .gateway 2 ++ passes .gateway .enclave 2 ++
    [.offload [4]] ++ passes .device .gateway 1 ++ passes .gateway .enclave 1 ++
    [.respond [5, 6]] ++ passes .enclave .gateway 2 ++ passes .gateway .device 2

theorem relay_fidelity_oneRound : ∃ s, (relay .little).Reachable s ∧
    s.sent .deviceGateway = [[2, 3], [4]] ∧ s.got .gatewayEnclave = [[2, 3], [4]] ∧
    s.sent .enclaveGateway = [[1], [5, 6]] ∧ s.got .gatewayDevice = [[1], [5, 6]] := by
  have hrun : (relayRun .little relayInit oneRound).map
      (fun s => (s.pc .device, s.sent .deviceGateway, s.got .gatewayDevice)) =
      some (.emulate, [[2, 3], [4]], [[1], [5, 6]]) := by decide +kernel
  obtain ⟨s, hs, heq⟩ := Option.map_eq_some_iff.mp hrun
  simp only [Prod.mk.injEq] at heq
  obtain ⟨hp, hsent, hgot⟩ := heq
  have hreach : (relay .little).Reachable s := relayRun_reachable (.of_init _ rfl) hs
  have hround := (relay_fidelity hreach).2.2.2.2.1 hp (by rw [hgot]; decide)
  exact ⟨s, hreach, hsent, hround.1.trans hsent, hround.2.symm.trans hgot, hgot⟩

end MutualEdge.Sgx
