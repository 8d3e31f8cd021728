import MutualEdge.Lib.Printf
import MutualEdge.Sgx.Attestation
import MutualEdge.Sgx.Effort
import MutualEdge.Sgx.Offload

/-! The relay with what its parties compute: keys, requests and responses.

    A step of the session is a step of `relay` with the bytes that the program at that point hands to
    `send_len_data`; the variables of the two programs come on top. The libraries are a parameter: the
    encryption of `Offload`, the texts of public keys, the attestation of a key and the key that
    `validate_attsdoc` takes from a document. Errors of the libraries are left out, and so is a document
    that passes without a key. -/

namespace MutualEdge.Sgx
open Pkey

/-! ### Texts -/

def bytes (text : List Char) : List UInt8 := text.map fun c => c.toNat.toUInt8

/-- `"task offloading to TEE: %d\n"` -/
def offloadText (n : ℕ) : List UInt8 :=
  bytes ("task offloading to TEE: ".toList ++ (Printf.int n ++ ['\n']))

/-- `"offload response: %d\n"` -/
def responseText (n : ℕ) : List UInt8 :=
  bytes ("offload response: ".toList ++ (Printf.int n ++ ['\n']))

theorem int_natCast (n : ℕ) : Printf.int n = Printf.unsigned n := by
  rw [Printf.int, if_neg (by omega), Int.natAbs_natCast]

theorem zero_notMem_bytes {text : List Char} (h : ∀ c ∈ text, c.toNat.toUInt8 ≠ 0) : 0 ∉ bytes text := by
  intro hmem
  obtain ⟨c, hc, hzero⟩ := List.mem_map.mp hmem
  exact h c hc hzero

theorem toUInt8_ne_zero_of_isDigit {c : Char} (h : c.isDigit = true) : c.toNat.toUInt8 ≠ 0 := by
  simp only [Char.isDigit, Bool.and_eq_true, decide_eq_true_eq] at h
  have hlow : 48 ≤ c.toNat := UInt32.le_iff_toNat_le.mp h.1
  have hhigh : c.toNat ≤ 57 := UInt32.le_iff_toNat_le.mp h.2
  intro hzero
  have hmod : c.toNat % 256 = 0 := congrArg UInt8.toNat hzero
  omega

/-- A text with a number is a C string, and as long as the text with the digits. -/
theorem numbered_text {text : List Char} (h : text.all (fun c => c.toNat.toUInt8 != 0) = true) {n : ℕ}
    (hn : n < 2 ^ 31) :
    0 ∉ bytes (text ++ (Printf.int n ++ ['\n'])) ∧
      (bytes (text ++ (Printf.int n ++ ['\n']))).length ≤ text.length + 11 := by
  constructor
  · refine zero_notMem_bytes fun c hc => ?_
    rcases List.mem_append.mp hc with hc | hc
    · exact bne_iff_ne.mp (List.all_eq_true.mp h c hc)
    · rcases List.mem_append.mp hc with hc | hc
      · rw [int_natCast] at hc
        exact toUInt8_ne_zero_of_isDigit (Printf.isDigit_unsigned hc)
      · obtain rfl := List.mem_singleton.mp hc
        decide
  · have hdigits : (Printf.unsigned n).length ≤ 10 :=
      Printf.length_unsigned (by decide) (hn.trans (by norm_num))
    rw [bytes, List.length_map, List.length_append, List.length_append, int_natCast,
      List.length_singleton]
    omega

theorem offloadText_fits {n : ℕ} (hn : n < 2 ^ 31) : 0 ∉ offloadText n ∧ (offloadText n).length ≤ 35 :=
  numbered_text (by decide) hn

theorem responseText_fits {n : ℕ} (hn : n < 2 ^ 31) :
    0 ∉ responseText n ∧ (responseText n).length ≤ 29 :=
  numbered_text (by decide) hn

/-! ### The programs -/

/-- What the programs get from libraries. -/
structure Platform (Cert Key Seed : Type) where
  scheme : Scheme Key Seed
  /-- `PEM_write_bio_PUBKEY` -/
  writePubkey : Key → List UInt8
  /-- `PEM_read_bio_PUBKEY` -/
  readPubkey : List UInt8 → Option Key
  /-- `aws_attestation_request` -/
  attestationRequest : Key → Seed → List UInt8
  /-- What `validate_attsdoc` uses. -/
  attsdoc : Libraries Cert Key

/-- The relay, and the variables of the device (`pubkey_enclave`, `n_offloads`, the responses printed) and
    of the enclave (`pubkey_iiot`, `n_response`, the requests printed). -/
structure Session (Key : Type) where
  relay : RelayState
  pubkeyEnclave : Option Key := none
  nOffloads : ℕ := 0
  printed : List (List UInt8) := []
  pubkeyIiot : Option Key := none
  nResponse : ℕ := 0
  opened : List (List UInt8) := []

/-- A step of a program: one whose bytes it computes, or any other one of the relay. -/
inductive SessionAction (Seed : Type) where
  | getAttsdoc (seed : Seed)
  | sendKey
  | offload (seed : Seed)
  | respond (seed : Seed)
  | other (a : Action)

section Programs
variable {Cert Key Seed : Type} (L : Platform Cert Key Seed) (mykey keypair : Key)

/-- What `request_offload` hands to `send_len_data`; nothing is encrypted without a key. -/
def sealRequest (pubkeyEnclave : Option Key) (seed : Seed) (dataIn : List UInt8) : List UInt8 :=
  match pubkeyEnclave with
  | none => []
  | some k => (encryptCall L.scheme k seed dataIn { buf := zeros, errors := {} }).output

/-- What `response_offload` hands to `send_len_data`: the answer is encrypted into the buffer that holds
    the request. -/
def sealResponse (pubkeyIiot : Option Key) (seed : Seed) (request msg : List UInt8) : List UInt8 :=
  match pubkeyIiot with
  | none => request
  | some k => (encryptCall L.scheme k seed (cString msg)
      ⟨Bytes.fill zeros (Bytes.storesFrom 0 request), request.length, {}⟩).output

/-- What either program makes of a frame it has received. -/
def openFrame (pkey : Key) (m : List UInt8) : List UInt8 :=
  cString (decryptCall L.scheme pkey m { buf := zeros, errors := {} }).buf

/-- The step of the relay. The counters are `int`s: behind the last one C leaves open what happens. -/
def Session.action (σ : Session Key) : SessionAction Seed → Option Action
  | .getAttsdoc seed => some (.getAttsdoc (L.attestationRequest keypair seed))
  | .sendKey =>
    match σ.relay.pc .device with
    | .validate doc =>
      match validateAttsdoc L.attsdoc doc with
      | .ok _ => some (.sendKey (L.writePubkey mykey))
      | .error _ => some (.exit .device)
    | _ => none
  | .offload seed =>
    if σ.nOffloads < 2 ^ 31 then
      some (.offload (sealRequest L σ.pubkeyEnclave seed (offloadText σ.nOffloads)))
    else none
  | .respond seed =>
    match σ.relay.pc .enclave with
    | .serve request =>
      if σ.nResponse < 2 ^ 31 then
        some (.respond (sealResponse L σ.pubkeyIiot seed request (responseText σ.nResponse)))
      else none
    | _ => none
  | .other (.getAttsdoc _) | .other (.sendKey _) | .other (.offload _) | .other (.respond _) => none
  | .other a => some a

/-- What a step does to the variables. -/
def Session.update (σ : Session Key) (relay : RelayState) : SessionAction Seed → Session Key
  | .getAttsdoc _ => { σ with relay }
  | .sendKey =>
    match σ.relay.pc .device with
    | .validate doc =>
      { σ with relay, pubkeyEnclave := (validateAttsdoc L.attsdoc doc).toOption.join }
    | _ => { σ with relay }
  | .offload _ => { σ with relay, nOffloads := σ.nOffloads + 1 }
  | .respond _ =>
    match σ.relay.pc .enclave with
    | .serve request =>
      { σ with relay, nResponse := σ.nResponse + 1, opened := σ.opened ++ [openFrame L keypair request] }
    | _ => { σ with relay }
  | .other (.received p _) =>
    match σ.relay.pc p with
    | .receiving .requestOffload call =>
      { σ with relay, printed := σ.printed ++ [openFrame L mykey call.message] }
    | .receiving .recvIiotPubkey call => { σ with relay, pubkeyIiot := L.readPubkey call.message }
    | _ => { σ with relay }
  | .other _ => { σ with relay }

def sessionStep (order : ByteOrder) (σ : Session Key) (a : SessionAction Seed) : Option (Session Key) := do
  let act ← σ.action L mykey keypair a
  let relay ← relayStep order σ.relay act
  return σ.update L mykey keypair relay a

/-- The system of the three programs with their keys. -/
def session (order : ByteOrder) : System (Session Key) where
  init σ := σ = { relay := relayInit }
  step σ σ' := ∃ a : SessionAction Seed, sessionStep L mykey keypair order σ a = some σ'

/-- The libraries do what they are for: encryption is undone by decryption and has room for the texts,
    the text of a key is read as that key, and an attestation of the enclave's key is valid and holds
    it. -/
structure SessionKeys (overhead : ℕ) : Prop where
  correct : L.scheme.Correct overhead
  device : 29 + overhead ≤ L.scheme.size mykey ∧ L.scheme.size mykey ≤ 512
  enclave : 35 + overhead ≤ L.scheme.size keypair ∧ L.scheme.size keypair ≤ 512
  pubkey : L.readPubkey (L.writePubkey mykey) = some mykey
  attested : ∀ seed, validateAttsdoc L.attsdoc (L.attestationRequest keypair seed) = .ok (some keypair)

end Programs

section Keys
variable {Cert Key Seed : Type} {L : Platform Cert Key Seed} {mykey keypair : Key} {overhead : ℕ}

/-- A text within the limit of the padding, sealed and opened again. -/
theorem openFrame_eq {k : Key} {m text : List UInt8} (h : L.scheme.decrypt k m = some text)
    (hnul : 0 ∉ text) (hlen : text.length ≤ 512) : openFrame L k m = text := by
  have hbuf := (decryptCall_some h (c := { buf := zeros, errors := {} }) (by simpa using hlen)).1
  rw [openFrame, hbuf, zeros, List.drop_replicate, cString_of_nulFree hnul]

theorem SessionKeys.sealRequest (h : SessionKeys L mykey keypair overhead) (seed : Seed) {n : ℕ}
    (hn : n < 2 ^ 31) :
    L.scheme.decrypt keypair (sealRequest L (some keypair) seed (offloadText n)) =
      some (offloadText n) := by
  have henc := h.enclave
  have hlen := (offloadText_fits hn).2
  exact (encryptCall_within h.correct (by simpa using henc.2) (by omega)).1

theorem SessionKeys.sealResponse (h : SessionKeys L mykey keypair overhead) (seed : Seed)
    (request : List UInt8) {n : ℕ} (hn : n < 2 ^ 31) :
    L.scheme.decrypt mykey (sealResponse L (some mykey) seed request (responseText n)) =
      some (responseText n) := by
  have hdev := h.device
  obtain ⟨hnul, hlen⟩ := responseText_fits hn
  rw [Sgx.sealResponse, cString_self hnul]
  exact (encryptCall_within h.correct (by simpa using hdev.2) (by omega)).1

end Keys

/-! ### What the frames carry -/

/-- The frames of either side carry its texts in order, and its counters and its output agree with the
    frames. -/
structure SessionInv {Cert Key Seed : Type} (L : Platform Cert Key Seed) (mykey keypair : Key)
    (order : ByteOrder) (σ : Session Key) : Prop where
  reachable : (relay order).Reachable σ.relay
  key : ∀ m, (σ.relay.sent .deviceGateway)[0]? = some m → L.readPubkey m = some mykey
  request : ∀ k m, (σ.relay.sent .deviceGateway)[k + 1]? = some m →
    k < 2 ^ 31 ∧ L.scheme.decrypt keypair m = some (offloadText k)
  attsdoc : ∀ m, (σ.relay.sent .enclaveGateway)[0]? = some m →
    validateAttsdoc L.attsdoc m = .ok (some keypair)
  response : ∀ k m, (σ.relay.sent .enclaveGateway)[k + 1]? = some m →
    k < 2 ^ 31 ∧ L.scheme.decrypt mykey m = some (responseText k)
  nOffloads : σ.nOffloads = (σ.relay.sent .deviceGateway).tail.length
  nResponse : σ.nResponse = σ.relay.served.length
  validating : ∀ doc, σ.relay.pc .device = .validate doc →
    validateAttsdoc L.attsdoc doc = .ok (some keypair)
  pubkeyEnclave : σ.relay.sent .deviceGateway ≠ [] → σ.pubkeyEnclave = some keypair
  pubkeyIiot : σ.relay.got .gatewayEnclave ≠ [] → σ.pubkeyIiot = some mykey
  printed : σ.printed = (List.range (σ.relay.got .gatewayDevice).tail.length).map responseText
  opened : σ.opened = (List.range σ.nResponse).map offloadText

section Invariant
variable {Cert Key Seed : Type} {L : Platform Cert Key Seed} {mykey keypair : Key} {overhead : ℕ}
  {order : ByteOrder} {σ : Session Key} {s : RelayState}

/-- What the invariant speaks of, but for the frames that the gateway sends and receives. -/
structure SameSession (s s' : RelayState) : Prop where
  request : s'.sent .deviceGateway = s.sent .deviceGateway
  response : s'.sent .enclaveGateway = s.sent .enclaveGateway
  toEnclave : s'.got .gatewayEnclave = s.got .gatewayEnclave
  toDevice : s'.got .gatewayDevice = s.got .gatewayDevice
  served : s'.served = s.served
  validating : ∀ doc, s'.pc .device = .validate doc → s.pc .device = .validate doc

theorem SessionInv.same (h : SessionInv L mykey keypair order σ) (hr : (relay order).Reachable s)
    (hs : SameSession σ.relay s) : SessionInv L mykey keypair order { σ with relay := s } := by
  obtain ⟨hreq, hres, hin, hout, hserved, hval⟩ := hs
  exact {
    reachable := hr
    key := hreq ▸ h.key
    request := hreq ▸ h.request
    attsdoc := hres ▸ h.attsdoc
    response := hres ▸ h.response
    nOffloads := hreq ▸ h.nOffloads
    nResponse := hserved ▸ h.nResponse
    validating := fun doc hdoc => h.validating doc (hval doc hdoc)
    pubkeyEnclave := hreq ▸ h.pubkeyEnclave
    pubkeyIiot := hin ▸ h.pubkeyIiot
    printed := hout ▸ h.printed
    opened := h.opened }

/-- One more frame behind the first one: the first one is the same, and what is known of the others, by
    their number, is known of it. -/
theorem frames_snoc {l : List (List UInt8)} (hl : l ≠ []) (x : List UInt8) :
    (l ++ [x])[0]? = l[0]? ∧ (l ++ [x]).tail.length = l.tail.length + 1 ∧
      ∀ P : ℕ → List UInt8 → Prop, (∀ k m, l[k + 1]? = some m → P k m) → P l.tail.length x →
        ∀ k m, (l ++ [x])[k + 1]? = some m → P k m := by
  obtain ⟨y, l, rfl⟩ := List.exists_cons_of_ne_nil hl
  refine ⟨rfl, List.length_append, fun P hP hx k m hk => ?_⟩
  have hk : (l ++ [x])[k]? = some m := hk
  rw [List.getElem?_append] at hk
  split at hk
  · exact hP k m hk
  · rw [List.getElem?_singleton] at hk
    split at hk
    · obtain rfl : x = m := Option.some.inj hk
      obtain rfl : k = l.length := by omega
      exact hx
    · cases hk

/-- The first frame of a link. -/
theorem frames_first {l : List (List UInt8)} (hl : l = []) (x : List UInt8) :
    (∀ m, (l ++ [x])[0]? = some m → m = x) ∧ (l ++ [x]).tail.length = 0 ∧
      ∀ (k : ℕ) m, (l ++ [x])[k + 1]? ≠ some m := by
  subst hl
  exact ⟨fun m hm => (Option.some.inj hm).symm, rfl, fun k m hm => by cases hm⟩

theorem SessionInv.offload (hkeys : SessionKeys L mykey keypair overhead)
    (h : SessionInv L mykey keypair order σ) {seed : Seed} (hn : σ.nOffloads < 2 ^ 31)
    (hstep : relayStep order σ.relay (.offload (sealRequest L σ.pubkeyEnclave seed
      (offloadText σ.nOffloads))) = some s) :
    SessionInv L mykey keypair order { σ with relay := s, nOffloads := σ.nOffloads + 1 } := by
  have hr : (relay order).Reachable s := h.reachable.steps (.single ⟨_, hstep⟩)
  obtain ⟨hp, rfl⟩ := relayStep_fired hstep
  have hdev := (relay_inv h.reachable).device
  rw [hp] at hdev
  have hne : σ.relay.sent .deviceGateway ≠ [] := List.length_pos_iff.mp hdev.1
  have hkey := h.pubkeyEnclave hne
  rw [hkey] at hr ⊢
  obtain ⟨hfirst, hcount, hothers⟩ :=
    frames_snoc hne (sealRequest L (some keypair) seed (offloadText σ.nOffloads))
  exact { h with
    reachable := hr
    key := fun m hm => h.key m (hfirst.symm.trans hm)
    request := hothers _ h.request (h.nOffloads ▸ ⟨hn, hkeys.sealRequest seed hn⟩)
    nOffloads := (congrArg (· + 1) h.nOffloads).trans hcount.symm
    validating := fun doc hdoc => by cases hdoc
    pubkeyEnclave := fun _ => rfl }

/-- The enclave takes up the next request that the device has sent, and has the device's key. -/
theorem SessionInv.serving (h : SessionInv L mykey keypair order σ) {request : List UInt8}
    (hp : σ.relay.pc .enclave = .serve request) : σ.pubkeyIiot = some mykey ∧
      (σ.relay.sent .deviceGateway)[σ.nResponse + 1]? = some request := by
  have hinv := relay_inv h.reachable
  have henc := hinv.enclave
  rw [hp] at henc
  obtain ⟨-, -, -, hgot⟩ := henc
  constructor
  · refine h.pubkeyIiot fun hnil => ?_
    rw [hnil] at hgot
    simp at hgot
  · obtain ⟨rest, hrest⟩ := hinv.toEnclave
    have hin : (σ.relay.got .gatewayEnclave)[σ.nResponse + 1]? = some request := by
      rw [← List.getElem?_tail, hgot, h.nResponse, ← List.length_map Prod.fst]
      exact List.getElem?_concat_length
    obtain ⟨hlt, -⟩ := List.getElem?_eq_some_iff.mp hin
    rw [← hrest, List.getElem?_append_left hlt, hin]

theorem SessionInv.respond (hkeys : SessionKeys L mykey keypair overhead)
    (h : SessionInv L mykey keypair order σ) {seed : Seed} {request : List UInt8}
    (hp : σ.relay.pc .enclave = .serve request) (hn : σ.nResponse < 2 ^ 31)
    (hstep : relayStep order σ.relay (.respond (sealResponse L σ.pubkeyIiot seed request
      (responseText σ.nResponse))) = some s) :
    SessionInv L mykey keypair order { σ with
      relay := s, nResponse := σ.nResponse + 1, opened := σ.opened ++ [openFrame L keypair request] } := by
  have hr : (relay order).Reachable s := h.reachable.steps (.single ⟨_, hstep⟩)
  obtain ⟨request', hp', rfl⟩ := relayStep_fired hstep
  obtain rfl : request = request' := Pc.serve.inj (hp.symm.trans hp')
  obtain ⟨hkey, hrequest⟩ := h.serving hp
  have henc := (relay_inv h.reachable).enclave
  rw [hp] at henc
  obtain ⟨-, hsent, hpos, -⟩ := henc
  have hne : σ.relay.sent .enclaveGateway ≠ [] := List.length_pos_iff.mp hpos
  have hnumber : σ.nResponse = (σ.relay.sent .enclaveGateway).tail.length := by
    rw [h.nResponse, hsent, List.length_map]
  obtain ⟨hnul, hlen⟩ := offloadText_fits hn
  have hopen : openFrame L keypair request = offloadText σ.nResponse :=
    openFrame_eq (h.request _ _ hrequest).2 hnul (by omega)
  rw [hkey] at hr ⊢
  obtain ⟨hfirst, -, hothers⟩ :=
    frames_snoc hne (sealResponse L (some mykey) seed request (responseText σ.nResponse))
  exact { h with
    reachable := hr
    attsdoc := fun m hm => h.attsdoc m (hfirst.symm.trans hm)
    response := hothers _ h.response (hnumber ▸ ⟨hn, hkeys.sealResponse seed request hn⟩)
    nResponse := (congrArg (· + 1) h.nResponse).trans
      (@List.length_append _ σ.relay.served [(request, _)]).symm
    validating := fun doc hdoc => h.validating doc hdoc
    pubkeyIiot := fun _ => rfl
    opened := by
      rw [List.range_succ, List.map_append, ← h.opened, hopen]
      rfl }

theorem SessionInv.getAttsdoc (hkeys : SessionKeys L mykey keypair overhead)
    (h : SessionInv L mykey keypair order σ) {seed : Seed}
    (hstep : relayStep order σ.relay (.getAttsdoc (L.attestationRequest keypair seed)) = some s) :
    SessionInv L mykey keypair order { σ with relay := s } := by
  have hr : (relay order).Reachable s := h.reachable.steps (.single ⟨_, hstep⟩)
  obtain ⟨hp, rfl⟩ := relayStep_fired hstep
  have henc := (relay_inv h.reachable).enclave.2.2
  rw [hp] at henc
  obtain ⟨hfirst, -, hnone⟩ := frames_first henc.2 (L.attestationRequest keypair seed)
  exact { h with
    reachable := hr
    attsdoc := fun m hm => hfirst m hm ▸ hkeys.attested seed
    response := fun k m hm => absurd hm (hnone k m)
    validating := fun doc hdoc => h.validating doc hdoc }

theorem SessionInv.sendKey (hkeys : SessionKeys L mykey keypair overhead)
    (h : SessionInv L mykey keypair order σ) {doc : List UInt8}
    (hp : σ.relay.pc .device = .validate doc)
    (hstep : relayStep order σ.relay (.sendKey (L.writePubkey mykey)) = some s) :
    SessionInv L mykey keypair order { σ with
      relay := s, pubkeyEnclave := (validateAttsdoc L.attsdoc doc).toOption.join } := by
  have hr : (relay order).Reachable s := h.reachable.steps (.single ⟨_, hstep⟩)
  obtain ⟨_, -, rfl⟩ := relayStep_fired hstep
  have hdev := (relay_inv h.reachable).device
  rw [hp] at hdev
  obtain ⟨hfirst, hzero, hnone⟩ := frames_first hdev.1 (L.writePubkey mykey)
  exact { h with
    reachable := hr
    key := fun m hm => hfirst m hm ▸ hkeys.pubkey
    request := fun k m hm => absurd hm (hnone k m)
    nOffloads := by
      rw [h.nOffloads, hdev.1]
      exact hzero.symm
    validating := fun doc hdoc => by cases hdoc
    pubkeyEnclave := fun _ => by rw [h.validating doc hp]; rfl }

/-! ### Frames received -/

section Received
variable {call : RecvCall} {bufs : Buffers}

theorem SessionInv.gotAttsdoc (h : SessionInv L mykey keypair order σ)
    (hp : σ.relay.pc .device = .receiving .recvAttsdoc call)
    (hr : (relay order).Reachable ((σ.relay.deliver .gatewayDevice call.message).enter .device
      (.validate call.message))) :
    SessionInv L mykey keypair order { σ with
      relay := (σ.relay.deliver .gatewayDevice call.message).enter .device (.validate call.message) } := by
  have hdev := (relay_inv h.reachable).device
  rw [hp] at hdev
  obtain ⟨-, hzero, -⟩ := frames_first hdev.2 call.message
  -- the document is the first frame of the enclave
  have hdoc : (σ.relay.sent .enclaveGateway)[0]? = some call.message := by
    obtain ⟨rest, hrest⟩ := (relay_inv hr).toDevice
    have hgot : σ.relay.got .gatewayDevice ++ [call.message] ++ rest = σ.relay.sent .enclaveGateway :=
      hrest
    rw [hdev.2, List.nil_append] at hgot
    rw [← hgot]
    rfl
  have hnone := h.printed
  rw [hdev.2] at hnone
  exact { h with
    reachable := hr
    validating := fun doc hpc => by
      obtain rfl : call.message = doc := Pc.validate.inj hpc
      exact h.attsdoc _ hdoc
    printed := hnone.trans (congrArg (fun n => (List.range n).map responseText) hzero).symm }

theorem SessionInv.gotPubkey (h : SessionInv L mykey keypair order σ)
    (hp : σ.relay.pc .enclave = .receiving .recvIiotPubkey call)
    (hr : (relay order).Reachable ((σ.relay.deliver .gatewayEnclave call.message).enter .enclave
      (recv bufs .responseOffload))) :
    SessionInv L mykey keypair order { σ with
      relay := (σ.relay.deliver .gatewayEnclave call.message).enter .enclave (recv bufs .responseOffload),
      pubkeyIiot := L.readPubkey call.message } := by
  have henc := (relay_inv h.reachable).enclave.2.2
  rw [hp] at henc
  -- the key is the first frame of the device
  have hkey : (σ.relay.sent .deviceGateway)[0]? = some call.message := by
    obtain ⟨rest, hrest⟩ := (relay_inv hr).toEnclave
    have hgot : σ.relay.got .gatewayEnclave ++ [call.message] ++ rest = σ.relay.sent .deviceGateway :=
      hrest
    rw [henc.1, List.nil_append] at hgot
    rw [← hgot]
    rfl
  exact { h with
    reachable := hr
    validating := fun doc hdoc => h.validating doc hdoc
    pubkeyIiot := fun _ => h.key _ hkey }

theorem SessionInv.gotResponse (h : SessionInv L mykey keypair order σ)
    (hp : σ.relay.pc .device = .receiving .requestOffload call)
    (hr : (relay order).Reachable ((σ.relay.deliver .gatewayDevice call.message).enter .device
      .emulate)) :
    SessionInv L mykey keypair order { σ with
      relay := (σ.relay.deliver .gatewayDevice call.message).enter .device .emulate,
      printed := σ.printed ++ [openFrame L mykey call.message] } := by
  have hdev := (relay_inv h.reachable).device
  rw [hp] at hdev
  have hpos : 1 ≤ (σ.relay.got .gatewayDevice).length := hdev.1
  obtain ⟨-, hcount, -⟩ := frames_snoc (List.length_pos_iff.mp hpos) call.message
  -- the response is the next frame of the enclave
  have hresponse : (σ.relay.sent .enclaveGateway)[(σ.relay.got .gatewayDevice).tail.length + 1]? =
      some call.message := by
    obtain ⟨rest, hrest⟩ := (relay_inv hr).toDevice
    have hgot : σ.relay.got .gatewayDevice ++ [call.message] ++ rest = σ.relay.sent .enclaveGateway :=
      hrest
    have hlen : (σ.relay.got .gatewayDevice).tail.length + 1 = (σ.relay.got .gatewayDevice).length := by
      rw [List.length_tail]
      omega
    rw [← hgot, hlen, List.append_assoc]
    simp
  obtain ⟨hn, hdec⟩ := h.response _ _ hresponse
  obtain ⟨hnul, hlen⟩ := responseText_fits hn
  have hnext : (List.range ((σ.relay.got .gatewayDevice).tail.length + 1)).map responseText =
      σ.printed ++ [openFrame L mykey call.message] := by
    rw [List.range_succ, List.map_append, ← h.printed, openFrame_eq hdec hnul (by omega)]
    rfl
  exact { h with
    reachable := hr
    validating := fun doc hdoc => by cases hdoc
    printed := hnext.symm.trans (congrArg (fun n => (List.range n).map responseText) hcount).symm }

theorem SessionInv.gotRequest (h : SessionInv L mykey keypair order σ)
    (hp : σ.relay.pc .enclave = .receiving .responseOffload call)
    (hr : (relay order).Reachable ((σ.relay.deliver .gatewayEnclave call.message).enter .enclave
      (RecvSite.next bufs .responseOffload call.message))) :
    SessionInv L mykey keypair order { σ with
      relay := (σ.relay.deliver .gatewayEnclave call.message).enter .enclave
        (RecvSite.next bufs .responseOffload call.message) } := by
  have henc := (relay_inv h.reachable).enclave.2.2
  rw [hp] at henc
  have hne : σ.relay.got .gatewayEnclave ≠ [] := List.length_pos_iff.mp (henc.2 ▸ henc.1)
  have hsent : ((σ.relay.deliver .gatewayEnclave call.message).enter .enclave
      (RecvSite.next bufs .responseOffload call.message)).sent = σ.relay.sent := by
    rcases RecvSite.next_cases order bufs .responseOffload call.message with
      ⟨site', -, hnext⟩ | ⟨-, hsame⟩
    · rw [RecvSite.next] at hnext
      split at hnext <;> cases hnext
    · exact hsame _ _
  exact { h with
    reachable := hr
    key := hsent ▸ h.key
    request := hsent ▸ h.request
    attsdoc := hsent ▸ h.attsdoc
    response := hsent ▸ h.response
    nOffloads := hsent ▸ h.nOffloads
    validating := fun doc hdoc => h.validating doc hdoc
    pubkeyEnclave := hsent ▸ h.pubkeyEnclave
    pubkeyIiot := fun _ => h.pubkeyIiot hne }

/-- The gateway passes frames on, the device takes the key out of the document and opens responses, the
    enclave reads the key of the device and takes up requests. -/
theorem SessionInv.received (h : SessionInv L mykey keypair order σ) {p : Party}
    (hstep : relayStep order σ.relay (.received p bufs) = some s) :
    SessionInv L mykey keypair order
      (σ.update L mykey keypair s (.other (.received p bufs) : SessionAction Seed)) := by
  have hr : (relay order).Reachable s := h.reachable.steps (.single ⟨_, hstep⟩)
  obtain ⟨site, call, hp, hd, rfl⟩ := relayStep_fired hstep
  obtain rfl := (relay_inv h.reachable).target_eq hp
  simp only [Session.update, hp]
  cases site with
  | recvAttsdoc => exact h.gotAttsdoc hp hr
  | recvIiotPubkey => exact h.gotPubkey hp hr
  | requestOffload => exact h.gotResponse hp hr
  | responseOffload => exact h.gotRequest hp hr
  | _ => exact h.same hr ⟨rfl, rfl, rfl, rfl, rfl, fun doc hdoc => hdoc⟩

end Received

/-- A step that hands no frame to the device or the enclave and none of theirs to a connection. -/
def Action.Silent : Action → Prop
  | .getAttsdoc _ | .sendKey _ | .offload _ | .respond _ | .received _ _ => False
  | _ => True

theorem relayStep_same {s s' : RelayState} {a : Action} (hstep : relayStep order s a = some s')
    (ha : a.Silent) : SameSession s s' := by
  cases a with
  | connectEnclave =>
    obtain ⟨-, rfl⟩ := relayStep_fired hstep
    exact ⟨rfl, rfl, rfl, rfl, rfl, fun doc hdoc => hdoc⟩
  | acceptEnclave bufs =>
    obtain ⟨-, -, rfl⟩ := relayStep_fired hstep
    exact ⟨rfl, rfl, rfl, rfl, rfl, fun doc hdoc => hdoc⟩
  | connectDevice bufs =>
    obtain ⟨-, rfl⟩ := relayStep_fired hstep
    exact ⟨rfl, rfl, rfl, rfl, rfl, fun doc hdoc => by cases hdoc⟩
  | acceptDevice =>
    obtain ⟨doc, -, -, rfl⟩ := relayStep_fired hstep
    exact ⟨rfl, rfl, rfl, rfl, rfl, fun doc hdoc => hdoc⟩
  | runLocally =>
    obtain rfl : s' = s := relayStep_fired hstep
    exact ⟨rfl, rfl, rfl, rfl, rfl, fun doc hdoc => hdoc⟩
  | write p chunk =>
    obtain ⟨site, call, call', bytes, hp, -, rfl⟩ := relayStep_fired hstep
    refine ⟨rfl, rfl, rfl, rfl, rfl, fun doc hdoc => ?_⟩
    cases p <;> first | exact hdoc | cases hdoc
  | wrote p bufs =>
    obtain ⟨site, call, hp, rfl⟩ := relayStep_fired hstep
    have hsent := (site.next_cases order bufs).2 s p
    refine ⟨by rw [hsent], by rw [hsent], rfl, rfl, rfl, fun doc hdoc => ?_⟩
    cases p <;> cases site <;> first | exact hdoc | cases hdoc
  | read p chunk =>
    obtain ⟨site, call, call', bytes, hp, -, rfl⟩ := relayStep_fired hstep
    refine ⟨rfl, rfl, rfl, rfl, rfl, fun doc hdoc => ?_⟩
    cases p <;> first | exact hdoc | cases hdoc
  | exit p =>
    obtain rfl : s' = s.enter p .exited := relayStep_fired hstep
    refine ⟨rfl, rfl, rfl, rfl, rfl, fun doc hdoc => ?_⟩
    cases p <;> first | exact hdoc | cases hdoc
  | _ => exact ha.elim

/-- Every step of the session is one of the relay, and keeps what the frames carry. -/
theorem sessionStep_inv (hkeys : SessionKeys L mykey keypair overhead)
    (h : SessionInv L mykey keypair order σ) {a : SessionAction Seed} {σ' : Session Key}
    (hstep : sessionStep L mykey keypair order σ a = some σ') :
    SessionInv L mykey keypair order σ' := by
  obtain ⟨act, hact, hstep⟩ := Option.bind_eq_some_iff.mp hstep
  obtain ⟨s, hrelay, hσ⟩ := Option.bind_eq_some_iff.mp hstep
  obtain rfl := Option.some.inj hσ
  have hr : (relay order).Reachable s := h.reachable.steps (.single ⟨_, hrelay⟩)
  cases a with
  | getAttsdoc seed =>
    obtain rfl := Option.some.inj hact
    exact h.getAttsdoc hkeys hrelay
  | sendKey =>
    simp only [Session.action] at hact
    split at hact
    · rename_i doc hp
      simp only [Session.update, hp]
      rw [h.validating doc hp] at hact
      obtain rfl := Option.some.inj hact
      exact h.sendKey hkeys hp hrelay
    · cases hact
  | offload seed =>
    simp only [Session.action, Option.ite_none_right_eq_some, Option.some.injEq] at hact
    obtain ⟨hn, rfl⟩ := hact
    exact h.offload hkeys hn hrelay
  | respond seed =>
    simp only [Session.action] at hact
    split at hact
    · rename_i request hp
      simp only [Option.ite_none_right_eq_some, Option.some.injEq] at hact
      obtain ⟨hn, rfl⟩ := hact
      simp only [Session.update, hp]
      exact h.respond hkeys hp hn hrelay
    · cases hact
  | other a =>
    cases a with
    | getAttsdoc _ | sendKey _ | offload _ | respond _ => cases hact
    | received p bufs =>
      obtain rfl := Option.some.inj hact
      exact h.received hrelay
    | _ =>
      obtain rfl := Option.some.inj hact
      exact h.same hr (relayStep_same hrelay trivial)

theorem session_inv (hkeys : SessionKeys L mykey keypair overhead)
    (h : (session L mykey keypair order).Reachable σ) : SessionInv L mykey keypair order σ := by
  refine (session L mykey keypair order).invariant ?_
    (fun _ _ hi ⟨_, hstep⟩ => sessionStep_inv hkeys hi hstep) h
  rintro _ rfl
  exact {
    reachable := .of_init _ rfl
    key := fun m hm => by cases hm
    request := fun k m hm => by cases hm
    attsdoc := fun m hm => by cases hm
    response := fun k m hm => by cases hm
    nOffloads := rfl
    nResponse := rfl
    validating := fun doc hdoc => by cases hdoc
    pubkeyEnclave := fun hne => absurd rfl hne
    pubkeyIiot := fun hne => absurd rfl hne
    printed := rfl
    opened := rfl }

/-- No response without its request, and none outstanding at the top of the loop. -/
theorem SessionInv.counts (h : SessionInv L mykey keypair order σ) :
    σ.printed.length = (σ.relay.got .gatewayDevice).tail.length ∧
    σ.printed.length ≤ σ.nResponse ∧ σ.nResponse ≤ σ.nOffloads ∧
    (σ.relay.pc .device = .emulate → σ.printed.length = σ.nOffloads) := by
  have hrelay := relay_inv h.reachable
  have hprinted : σ.printed.length = (σ.relay.got .gatewayDevice).tail.length := by
    rw [h.printed, List.length_map, List.length_range]
  obtain ⟨hserved, hsent, -⟩ := hrelay.enclave
  have hout := hrelay.toDevice.length_le
  have hin := hrelay.toEnclave.length_le
  have hanswers := congrArg List.length hsent
  have hrequests := hserved.length_le
  have hoffloads := h.nOffloads
  have hresponses := h.nResponse
  refine ⟨hprinted, ?_⟩
  rw [List.length_tail] at hprinted hoffloads
  rw [List.length_tail, List.length_map] at hanswers hrequests
  refine ⟨by omega, by omega, fun hp => ?_⟩
  have hdev := hrelay.device
  rw [hp] at hdev
  have hlen := hdev.2
  omega

/-- In every state that the three programs can reach, whatever the order of their steps and the sizes of
    the reads and writes: the relay underneath is in a reachable state, so that what is known of it
    holds; a device that has sent its key holds the enclave's, and an enclave that has received it the
    device's; the enclave has decrypted the texts of the device's tasks and the device those of the
    enclave's responses, each from the first one on, in order and without a gap; no response is there
    before its request, and at the top of its loop the device has the response to every task. -/
theorem session_inOrder (hkeys : SessionKeys L mykey keypair overhead)
    (h : (session L mykey keypair order).Reachable σ) :
    (relay order).Reachable σ.relay ∧
    (σ.relay.sent .deviceGateway ≠ [] → σ.pubkeyEnclave = some keypair) ∧
    (σ.relay.got .gatewayEnclave ≠ [] → σ.pubkeyIiot = some mykey) ∧
    σ.opened = (List.range σ.nResponse).map offloadText ∧
    σ.printed = (List.range σ.printed.length).map responseText ∧
    σ.printed.length ≤ σ.nResponse ∧ σ.nResponse ≤ σ.nOffloads ∧
    (σ.relay.pc .device = .emulate → σ.printed.length = σ.nOffloads) := by
  have hi := session_inv hkeys h
  obtain ⟨hprinted, hcounts⟩ := hi.counts
  refine ⟨hi.reachable, hi.pubkeyEnclave, hi.pubkeyIiot, hi.opened, ?_, hcounts⟩
  rw [hprinted]
  exact hi.printed

end Invariant

/-! ### A run -/

section Run
variable {Cert Key Seed : Type} (L : Platform Cert Key Seed) (mykey keypair : Key) (order : ByteOrder)

def sessionRun (σ : Session Key) (actions : List (SessionAction Seed)) : Option (Session Key) :=
  actions.foldlM (sessionStep L mykey keypair order) σ

variable {L mykey keypair order}

theorem sessionRun_reachable {actions : List (SessionAction Seed)} {σ σ' : Session Key}
    (h : (session L mykey keypair order).Reachable σ)
    (hrun : sessionRun L mykey keypair order σ actions = some σ') :
    (session L mykey keypair order).Reachable σ' := by
  induction actions generalizing σ with
  | nil =>
    obtain rfl := Option.some.inj hrun
    exact h
  | cons a actions ih =>
    obtain ⟨τ, hstep, hrest⟩ := Option.bind_eq_some_iff.mp hrun
    exact ih (h.steps (.single ⟨a, hstep⟩)) hrest

end Run

/-- Keys are numbers, and the document is one that passes with the key `0x42` in it. -/
def blockPlatform : Platform ℕ ℕ Unit where
  scheme :=
    { size := fun k => blockScheme.size (UInt8.ofNat k)
      encrypt := fun k => blockScheme.encrypt (UInt8.ofNat k)
      decrypt := fun k => blockScheme.decrypt (UInt8.ofNat k) }
  writePubkey k := [UInt8.ofNat k]
  readPubkey m := m.head?.map UInt8.toNat
  attestationRequest _ _ := forgedAttsdoc
  attsdoc := forgeryLibraries

theorem blockPlatform_keys : SessionKeys blockPlatform 1 0x42 42 where
  correct :=
    { encrypts := fun k => blockScheme_correct.encrypts _
      limit := fun k => blockScheme_correct.limit _
      block := fun k => blockScheme_correct.block _
      decrypts := fun k => blockScheme_correct.decrypts _
      short := fun k => blockScheme_correct.short _ }
  device := by decide
  enclave := by decide
  pubkey := rfl
  attested := fun _ => by
    have hval : validateAttsdoc forgeryLibraries forgedAttsdoc = .ok (some 0x42) := by decide +kernel
    exact hval

/-- A frame goes from one party to another, its length and its bytes in one piece each. -/
def carries (p q : Party) : List (SessionAction Unit) :=
  [.write p 4, .read q 4, .write p 8192, .read q 8192, .wrote p zeroBuffers,
    .received q zeroBuffers].map .other

/-- The start-up: the document of the enclave and the key of the device. -/
def startUp : List (SessionAction Unit) :=
  [.other .connectEnclave, .other (.acceptEnclave zeroBuffers), .getAttsdoc ()] ++
    carries .enclave .gateway ++ [.other (.connectDevice zeroBuffers), .other .acceptDevice] ++
    carries .gateway .device ++ [.sendKey] ++ carries .device .gateway ++ carries .gateway .enclave

/-- A task: the request, and the response to it. -/
def service : List (SessionAction Unit) :=
  [.offload ()] ++ carries .device .gateway ++ carries .gateway .enclave ++ [.respond ()] ++
    carries .enclave .gateway ++ carries .gateway .device

theorem session_inOrder_service : ∃ σ, (session blockPlatform 1 0x42 .little).Reachable σ ∧
    σ.pubkeyEnclave = some 0x42 ∧ σ.pubkeyIiot = some 1 ∧ σ.opened = [offloadText 0] ∧
    σ.printed = [responseText 0] := by
  have hrun : (sessionRun blockPlatform 1 0x42 .little { relay := relayInit }
      (startUp ++ service)).map (fun σ => (σ.nOffloads, decide (σ.relay.sent .deviceGateway = []),
        decide (σ.relay.got .gatewayEnclave = []), decide (σ.relay.pc .device = .emulate))) =
      some (1, false, false, true) := by decide +kernel
  obtain ⟨σ, hσ, heq⟩ := Option.map_eq_some_iff.mp hrun
  simp only [Prod.mk.injEq, decide_eq_true_eq, decide_eq_false_iff_not] at heq
  obtain ⟨hn, hsent, hgot, hpc⟩ := heq
  have hreach : (session blockPlatform 1 0x42 .little).Reachable σ :=
    sessionRun_reachable (.of_init _ rfl) hσ
  obtain ⟨-, henclave, hdevice, hopened, hprinted, hle, hle', hall⟩ :=
    session_inOrder blockPlatform_keys hreach
  -- at the top of the loop no response is missing
  have hlen : σ.printed.length = 1 := (hall hpc).trans hn
  have hresponses : σ.nResponse = 1 := by omega
  rw [hresponses] at hopened
  rw [hlen] at hprinted
  exact ⟨σ, hreach, henclave hsent, hdevice hgot, hopened, hprinted⟩

end MutualEdge.Sgx
