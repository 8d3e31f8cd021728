import MutualEdge.Sgx.Links

/-! What arrives where: the invariant of the relay.

    A party's place in its program fixes how many frames it has sent and received and which of them it
    has passed on (`DeviceInv`, `GatewayInv`, `EnclaveInv`). Together with `LinkInv` they match requests
    with responses and leave no cycle of parties that wait for one another. -/

namespace MutualEdge.Sgx

variable {order : ByteOrder}

/-! ### Parties -/

/-- How many frames the device has sent and received at each point of its program. -/
def DeviceInv (pc : Pc) (sent got : List Frame) : Prop :=
  match pc with
  | .connect | .receiving .recvAttsdoc _ => sent = [] ∧ got = []
  | .validate _ => sent = [] ∧ got.length = 1
  | .sending .sendIiotPubkey _ | .emulate => 1 ≤ sent.length ∧ got.length = sent.length
  | .sending .requestOffload _ | .receiving .requestOffload _ =>
    1 ≤ got.length ∧ sent.length = got.length + 1
  | .exited => True
  | _ => False

section Device
variable {sent got : List Frame}

theorem DeviceInv.gotAttsdoc {call : RecvCall} (h : DeviceInv (.receiving .recvAttsdoc call) sent got)
    (doc : Frame) : DeviceInv (.validate doc) sent (got ++ [doc]) := by
  obtain ⟨hsent, rfl⟩ := h
  exact ⟨hsent, rfl⟩

theorem DeviceInv.sendKey {doc : Frame} (h : DeviceInv (.validate doc) sent got) (key : Frame) :
    DeviceInv (send .sendIiotPubkey key) (sent ++ [key]) got := by
  obtain ⟨rfl, hgot⟩ := h
  exact ⟨le_rfl, hgot⟩

theorem DeviceInv.offload (h : DeviceInv .emulate sent got) (request : Frame) :
    DeviceInv (send .requestOffload request) (sent ++ [request]) got := by
  obtain ⟨hpos, hlen⟩ := h
  refine ⟨hlen ▸ hpos, ?_⟩
  rw [List.length_append, List.length_singleton, hlen]

theorem DeviceInv.gotResponse {call : RecvCall}
    (h : DeviceInv (.receiving .requestOffload call) sent got) (response : Frame) :
    DeviceInv .emulate sent (got ++ [response]) := by
  obtain ⟨hpos, hlen⟩ := h
  refine ⟨by omega, ?_⟩
  rw [List.length_append, List.length_singleton, hlen]

end Device

/-- The gateway has passed on what it has received, in order; between the two halves of a relay it has
    one frame in hand. -/
def GatewayInv (pc : Pc) (fromDevice toEnclave fromEnclave toDevice : List Frame) : Prop :=
  toEnclave = fromDevice ∧
    match pc with
    | .acceptEnclave | .receiving .recvEnclaveAttsdoc _ =>
      fromDevice = [] ∧ fromEnclave = [] ∧ toDevice = []
    | .acceptDevice doc => fromDevice = [] ∧ fromEnclave = [doc] ∧ toDevice = []
    | .sending .sendEnclaveAttsdoc _ | .receiving .relayIiotPubkey _ =>
      fromDevice = [] ∧ fromEnclave = toDevice ∧ toDevice.length = 1
    | .sending .relayIiotPubkey _ | .receiving .relayOffloadRequest _
    | .sending .relayOffloadResponse _ =>
      1 ≤ toDevice.length ∧ fromEnclave = toDevice ∧ fromDevice.length = toDevice.length
    | .sending .relayOffloadRequest _ | .receiving .relayOffloadResponse _ =>
      1 ≤ toDevice.length ∧ fromEnclave = toDevice ∧ fromDevice.length = toDevice.length + 1
    | .exited => toDevice <+: fromEnclave
    | _ => False

/-- At any point the gateway has passed on what came from the enclave in order, from the start. -/
theorem GatewayInv.passedOn {pc : Pc} {fromDevice toEnclave fromEnclave toDevice : List Frame}
    (h : GatewayInv pc fromDevice toEnclave fromEnclave toDevice) : toDevice <+: fromEnclave := by
  have hnone : toDevice = [] → toDevice <+: fromEnclave := by
    rintro rfl
    exact List.nil_prefix
  have hall : fromEnclave = toDevice → toDevice <+: fromEnclave := by
    rintro rfl
    exact List.prefix_refl _
  obtain ⟨-, h⟩ := h
  split at h
  · exact hnone h.2.2
  · exact hnone h.2.2
  · exact hnone h.2.2
  · exact hall h.2.1
  · exact hall h.2.1
  · exact hall h.2.1
  · exact hall h.2.1
  · exact hall h.2.1
  · exact hall h.2.1
  · exact hall h.2.1
  · exact h
  · exact h.elim

section Gateway
variable {fromDevice toEnclave fromEnclave toDevice : List Frame} {call : RecvCall}

theorem GatewayInv.gotAttsdoc
    (h : GatewayInv (.receiving .recvEnclaveAttsdoc call) fromDevice toEnclave fromEnclave toDevice)
    (doc : Frame) :
    GatewayInv (.acceptDevice doc) fromDevice toEnclave (fromEnclave ++ [doc]) toDevice := by
  obtain ⟨hpass, hfrom, rfl, hto⟩ := h
  exact ⟨hpass, hfrom, rfl, hto⟩

theorem GatewayInv.acceptDevice {doc : Frame}
    (h : GatewayInv (.acceptDevice doc) fromDevice toEnclave fromEnclave toDevice) :
    GatewayInv (send .sendEnclaveAttsdoc doc) fromDevice toEnclave fromEnclave (toDevice ++ [doc]) := by
  obtain ⟨hpass, hfrom, rfl, rfl⟩ := h
  exact ⟨hpass, hfrom, rfl, rfl⟩

theorem GatewayInv.passKey
    (h : GatewayInv (.receiving .relayIiotPubkey call) fromDevice toEnclave fromEnclave toDevice)
    (key : Frame) :
    GatewayInv (send .relayIiotPubkey key) (fromDevice ++ [key]) (toEnclave ++ [key]) fromEnclave
      toDevice := by
  obtain ⟨rfl, rfl, hsame, hlen⟩ := h
  exact ⟨rfl, hlen.ge, hsame, hlen.symm⟩

theorem GatewayInv.passRequest
    (h : GatewayInv (.receiving .relayOffloadRequest call) fromDevice toEnclave fromEnclave toDevice)
    (request : Frame) :
    GatewayInv (send .relayOffloadRequest request) (fromDevice ++ [request]) (toEnclave ++ [request])
      fromEnclave toDevice := by
  obtain ⟨rfl, hpos, hsame, hlen⟩ := h
  refine ⟨rfl, hpos, hsame, ?_⟩
  rw [List.length_append, List.length_singleton, hlen]

theorem GatewayInv.passResponse
    (h : GatewayInv (.receiving .relayOffloadResponse call) fromDevice toEnclave fromEnclave toDevice)
    (response : Frame) :
    GatewayInv (send .relayOffloadResponse response) fromDevice toEnclave (fromEnclave ++ [response])
      (toDevice ++ [response]) := by
  obtain ⟨hpass, hpos, rfl, hlen⟩ := h
  refine ⟨hpass, ?_, rfl, ?_⟩
  · rw [List.length_append]
    exact Nat.le_add_right_of_le hpos
  · rw [List.length_append, List.length_singleton, hlen]

end Gateway

/-- The enclave takes up the requests behind the key in order, and answers each before the next one;
    its responses follow the attestation document. -/
def EnclaveInv (pc : Pc) (got sent : List Frame) (served : List (Frame × Frame)) : Prop :=
  served.map Prod.fst <+: got.tail ∧ sent.tail = served.map Prod.snd ∧
    match pc with
    | .connect | .getAttsdoc => got = [] ∧ sent = []
    | .sending .sendAttsdoc _ | .receiving .recvIiotPubkey _ => got = [] ∧ sent.length = 1
    | .sending .responseOffload _ | .receiving .responseOffload _ =>
      1 ≤ sent.length ∧ got.length = sent.length
    | .serve request => 1 ≤ sent.length ∧ got.tail = served.map Prod.fst ++ [request]
    | .exited => True
    | _ => False

section Enclave
variable {got sent : List Frame} {served : List (Frame × Frame)} {call : RecvCall}

theorem EnclaveInv.getAttsdoc (h : EnclaveInv .getAttsdoc got sent served) (doc : Frame) :
    EnclaveInv (send .sendAttsdoc doc) got (sent ++ [doc]) served := by
  obtain ⟨hserved, hsent, rfl, rfl⟩ := h
  exact ⟨hserved, hsent, rfl, rfl⟩

theorem EnclaveInv.gotKey (h : EnclaveInv (.receiving .recvIiotPubkey call) got sent served)
    (key : Frame) (call' : RecvCall) :
    EnclaveInv (.receiving .responseOffload call') (got ++ [key]) sent served := by
  obtain ⟨hserved, hsent, rfl, hlen⟩ := h
  exact ⟨hserved, hsent, hlen.ge, hlen.symm⟩

/-- Every earlier request has been served, so the one that arrives is the next. -/
theorem EnclaveInv.next (h : EnclaveInv (.receiving .responseOffload call) got sent served)
    (request : Frame) : (got ++ [request]).tail = served.map Prod.fst ++ [request] := by
  obtain ⟨hserved, hsent, hpos, hlen⟩ := h
  have hall : served.map Prod.fst = got.tail := by
    refine hserved.eq_of_length ?_
    have hout := congrArg List.length hsent
    rw [List.length_tail, List.length_map] at hout
    rw [List.length_tail, List.length_map]
    omega
  rw [hall, List.tail_append_of_ne_nil]
  rintro rfl
  rw [List.length_nil] at hlen
  omega

theorem EnclaveInv.gotRequest (h : EnclaveInv (.receiving .responseOffload call) got sent served)
    (request : Frame) : EnclaveInv (.serve request) (got ++ [request]) sent served :=
  ⟨⟨[request], (h.next request).symm⟩, h.2.1, h.2.2.1, h.next request⟩

theorem EnclaveInv.gotNothing (h : EnclaveInv (.receiving .responseOffload call) got sent served)
    (request : Frame) : EnclaveInv .exited (got ++ [request]) sent served :=
  ⟨⟨[request], (h.next request).symm⟩, h.2.1, trivial⟩

theorem EnclaveInv.respond {request : Frame} (h : EnclaveInv (.serve request) got sent served)
    (response : Frame) :
    EnclaveInv (send .responseOffload response) got (sent ++ [response])
      (served ++ [(request, response)]) := by
  obtain ⟨-, hsent, hpos, htail⟩ := h
  have hne : sent ≠ [] := List.length_pos_iff.mp hpos
  have hlen : got.length = sent.length + 1 := by
    have hin := congrArg List.length htail
    have hout := congrArg List.length hsent
    simp only [List.length_tail, List.length_append, List.length_map,
      List.length_singleton] at hin hout
    omega
  refine ⟨?_, ?_, ?_, ?_⟩
  · rw [htail, List.map_append]
    exact List.prefix_refl _
  · rw [List.tail_append_of_ne_nil hne, hsent, List.map_append]
    rfl
  · rw [List.length_append]
    exact Nat.le_add_right_of_le hpos
  · rw [List.length_append, List.length_singleton, hlen]

end Enclave

/-- The buffers that the `i`-th frame of a link is received in, on its way to the other end. -/
def route (l : Link) (i : ℕ) : List RecvSite :=
  match l with
  | .deviceGateway | .gatewayEnclave =>
    if i = 0 then [.relayIiotPubkey, .recvIiotPubkey] else [.relayOffloadRequest, .responseOffload]
  | .enclaveGateway | .gatewayDevice =>
    if i = 0 then [.recvEnclaveAttsdoc, .recvAttsdoc] else [.relayOffloadResponse, .requestOffload]

structure RelayInv (order : ByteOrder) (s : RelayState) : Prop where
  links : ∀ l, LinkInv order s l
  device : DeviceInv (s.pc .device) (s.sent .deviceGateway) (s.got .gatewayDevice)
  gateway : GatewayInv (s.pc .gateway) (s.got .deviceGateway) (s.sent .gatewayEnclave)
    (s.got .enclaveGateway) (s.sent .gatewayDevice)
  enclave : EnclaveInv (s.pc .enclave) (s.got .gatewayEnclave) (s.sent .enclaveGateway) s.served
  fits : ∀ l i m, (s.sent l)[i]? = some m → Fits m (route l i)
  bufs : ∀ p site call, s.pc p = .receiving site call → call.buf.length = site.bufSize

theorem relayInit_inv (order : ByteOrder) : RelayInv order relayInit where
  links l := ⟨[], [], ⟨[], rfl, rfl⟩, by cases l <;> rfl, by cases l <;> rfl⟩
  device := ⟨rfl, rfl⟩
  gateway := ⟨rfl, rfl, rfl, rfl⟩
  enclave := ⟨by simp [relayInit], rfl, rfl, rfl⟩
  fits l i m h := by cases h
  bufs p site call h := by cases p <;> cases h

section Places
variable {s : RelayState} {p : Party}

/-- A call is made at the party's own end of a link. -/
theorem RelayInv.source_eq (h : RelayInv order s) {site : SendSite} {call : SendCall}
    (hp : s.pc p = .sending site call) : site.link.source = p := by
  cases p with
  | device =>
    have hd := h.device
    rw [hp] at hd
    cases site <;> first | rfl | exact hd.elim
  | gateway =>
    have hg := h.gateway.2
    rw [hp] at hg
    cases site <;> first | rfl | exact hg.elim
  | enclave =>
    have he := h.enclave.2.2
    rw [hp] at he
    cases site <;> first | rfl | exact he.elim

theorem RelayInv.target_eq (h : RelayInv order s) {site : RecvSite} {call : RecvCall}
    (hp : s.pc p = .receiving site call) : site.link.target = p := by
  cases p with
  | device =>
    have hd := h.device
    rw [hp] at hd
    cases site <;> first | rfl | exact hd.elim
  | gateway =>
    have hg := h.gateway.2
    rw [hp] at hg
    cases site <;> first | rfl | exact hg.elim
  | enclave =>
    have he := h.enclave.2.2
    rw [hp] at he
    cases site <;> first | rfl | exact he.elim

/-- The frame that a call waits for is to be received in the buffer of that call. -/
theorem RelayInv.site_route (h : RelayInv order s) {site : RecvSite} {call : RecvCall}
    (hp : s.pc p = .receiving site call) : site ∈ route site.link (s.got site.link).length := by
  cases p with
  | device =>
    have hd := h.device
    rw [hp] at hd
    cases site with
    | recvAttsdoc => simp [RecvSite.link, route, hd.2]
    | requestOffload =>
      have hlen := hd.1
      simp [RecvSite.link, route, show (s.got .gatewayDevice).length ≠ 0 by omega]
    | _ => exact hd.elim
  | gateway =>
    have hg := h.gateway.2
    rw [hp] at hg
    cases site with
    | recvEnclaveAttsdoc => simp [RecvSite.link, route, hg.2.1]
    | relayIiotPubkey => simp [RecvSite.link, route, hg.1]
    | relayOffloadRequest =>
      obtain ⟨hpos, -, hlen⟩ := hg
      simp [RecvSite.link, route, show (s.got .deviceGateway).length ≠ 0 by omega]
    | relayOffloadResponse =>
      obtain ⟨hpos, hsame, -⟩ := hg
      rw [← hsame] at hpos
      simp [RecvSite.link, route, show (s.got .enclaveGateway).length ≠ 0 by omega]
    | _ => exact hg.elim
  | enclave =>
    have he := h.enclave.2.2
    rw [hp] at he
    cases site with
    | recvIiotPubkey => simp [RecvSite.link, route, he.1]
    | responseOffload =>
      obtain ⟨hpos, hlen⟩ := he
      simp [RecvSite.link, route, show (s.got .gatewayEnclave).length ≠ 0 by omega]
    | _ => exact he.elim

end Places

/-- Every buffer holds less than two gigabytes. -/
theorem RecvSite.bufSize_lt (site : RecvSite) : site.bufSize < 2 ^ 31 := by
  cases site <;> decide

/-- A frame that was sent has less than two gigabytes. -/
theorem RelayInv.size_lt {s : RelayState} (h : RelayInv order s) {l : Link} {m : Frame}
    (hm : m ∈ s.sent l) : m.length < 2 ^ 31 := by
  obtain ⟨i, hi⟩ := List.mem_iff_getElem?.mp hm
  have hfit := h.fits l i m hi
  obtain ⟨site, hsite⟩ : ∃ site, site ∈ route l i := by
    unfold route
    split <;> split <;> exact ⟨_, List.mem_cons_self⟩
  exact lt_of_le_of_lt (hfit site hsite) site.bufSize_lt

/-- A receiving call that is done has the next frame of its link. -/
theorem RelayInv.delivered {s : RelayState} {p : Party} (h : RelayInv order s) {site : RecvSite}
    {call : RecvCall} (hp : s.pc p = .receiving site call) (hd : call.done = true) :
    (s.sent site.link)[(s.got site.link).length]? = some call.message ∧
      Settled order (s.deliver site.link call.message) p := by
  have htarget := h.target_eq hp
  have hmain : (s.sent site.link)[(s.got site.link).length]? = some call.message ∧
      ∃ unsent, Flow order (s.sent site.link) (s.got site.link ++ [call.message]) []
        (s.inflight site.link) unsent ∧ (s.pc site.link.source).Unsent order site.link unsent := by
    obtain ⟨taken, unsent, hflow, htook, hunsent⟩ := h.links site.link
    rw [htarget, hp, Pc.Took, if_pos rfl] at htook
    have hfit : ∀ m, (s.sent site.link)[(s.got site.link).length]? = some m →
        m.length < 2 ^ 31 ∧ m.length ≤ call.buf.length := by
      intro m hm
      refine ⟨h.size_lt (List.mem_of_getElem? hm), ?_⟩
      rw [h.bufs p site call hp]
      exact h.fits _ _ m hm site (h.site_route hp)
    obtain ⟨hm, hnext⟩ := hflow.receive htook hd hfit
    exact ⟨hm, unsent, hnext, hunsent⟩
  obtain ⟨hm, unsent, hnext, hunsent⟩ := hmain
  refine ⟨hm, fun l => ?_⟩
  by_cases hl : l = site.link
  · subst hl
    refine ⟨[], unsent, ?_, by rw [if_pos htarget], ?_⟩
    · simpa only [RelayState.deliver, Function.update_self] using hnext
    · have hne : site.link.source ≠ p := htarget ▸ site.link.source_ne_target
      rw [if_neg hne]
      exact hunsent
  · obtain ⟨taken, unsent, hflow, htook, hunsent⟩ := h.links l
    refine ⟨taken, unsent, ?_, ?_, ?_⟩
    · simpa only [RelayState.deliver, Function.update_of_ne hl] using hflow
    · split
      · rename_i ht
        rw [ht, hp, Pc.Took, if_neg (Ne.symm hl)] at htook
        exact htook
      · exact htook
    · split
      · rename_i hs
        rw [hs, hp] at hunsent
        exact hunsent
      · exact hunsent

/-- Between two calls the party has nothing in hand. -/
theorem RelayInv.settled {s : RelayState} {p : Party} (h : RelayInv order s)
    (htook : ∀ l taken, (s.pc p).Took order l taken → taken = [])
    (hunsent : ∀ l unsent, (s.pc p).Unsent order l unsent → unsent = []) : Settled order s p := by
  intro l
  obtain ⟨taken, unsent, hflow, ht, hu⟩ := h.links l
  refine ⟨taken, unsent, hflow, ?_, ?_⟩
  · split
    · rename_i hp
      exact htook l taken (hp ▸ ht)
    · exact ht
  · split
    · rename_i hp
      exact hunsent l unsent (hp ▸ hu)
    · exact hu

/-- What has been delivered on a link is what was sent first. -/
theorem RelayInv.got_prefix_sent {s : RelayState} (h : RelayInv order s) (l : Link) :
    s.got l <+: s.sent l := by
  obtain ⟨taken, unsent, ⟨pending, hsent, -⟩, -, -⟩ := h.links l
  exact ⟨pending, hsent.symm⟩

theorem RelayInv.fits_got {s : RelayState} (h : RelayInv order s) {l : Link} {i : ℕ} {m : Frame}
    (hm : (s.got l)[i]? = some m) : Fits m (route l i) := by
  obtain ⟨pending, hsent⟩ := h.got_prefix_sent l
  obtain ⟨hi, -⟩ := List.getElem?_eq_some_iff.mp hm
  refine h.fits l i m ?_
  rw [← hsent, List.getElem?_append_left hi, hm]

end MutualEdge.Sgx
