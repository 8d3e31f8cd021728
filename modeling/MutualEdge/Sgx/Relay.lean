import Mathlib.Logic.Function.Basic
import MutualEdge.Lib.Choice
import MutualEdge.Sgx.Calls
import MutualEdge.Sgx.Capacity

/-! The three programs `iiot_device.c`, `gateway.c` and `enclave.c` over their two connections.

    Each connection is two streams. A step is one system call of one party (a `write` or a `read` of any
    size, an `accept`, a `connect`), the computation between two calls, or the end of a party, which may
    come at any time. What the parties compute (the attestation document, the public key, requests and
    responses) is any list of bytes that fits the buffers on its way. The logs `sent`, `got` and
    `served` are not read by any step. -/

namespace MutualEdge.Sgx

inductive Party where
  | device
  | gateway
  | enclave
  deriving DecidableEq

/-- A direction of a connection. -/
inductive Link where
  | deviceGateway
  | gatewayEnclave
  | enclaveGateway
  | gatewayDevice
  deriving DecidableEq

def Link.source : Link → Party
  | .deviceGateway => .device
  | .gatewayEnclave => .gateway
  | .enclaveGateway => .enclave
  | .gatewayDevice => .gateway

def Link.target : Link → Party
  | .deviceGateway => .gateway
  | .gatewayEnclave => .enclave
  | .enclaveGateway => .gateway
  | .gatewayDevice => .device

/-- The calls of `send_len_data` in the three programs. -/
inductive SendSite where
  | sendAttsdoc
  | sendEnclaveAttsdoc
  | sendIiotPubkey
  | relayIiotPubkey
  | requestOffload
  | relayOffloadRequest
  | responseOffload
  | relayOffloadResponse
  deriving DecidableEq

/-- The descriptor that a call writes to. -/
def SendSite.link : SendSite → Link
  | .sendAttsdoc | .responseOffload => .enclaveGateway
  | .sendEnclaveAttsdoc | .relayOffloadResponse => .gatewayDevice
  | .sendIiotPubkey | .requestOffload => .deviceGateway
  | .relayIiotPubkey | .relayOffloadRequest => .gatewayEnclave

/-- The descriptor that a call reads from. -/
def RecvSite.link : RecvSite → Link
  | .recvEnclaveAttsdoc | .relayOffloadResponse => .enclaveGateway
  | .recvAttsdoc | .requestOffload => .gatewayDevice
  | .relayIiotPubkey | .relayOffloadRequest => .deviceGateway
  | .recvIiotPubkey | .responseOffload => .gatewayEnclave

/-- Where a party is in its program. -/
inductive Pc where
  /-- Before `connect_gateway`. -/
  | connect
  /-- In `accept_enclave`, listening. -/
  | acceptEnclave
  /-- In `accept_iiot_device`, listening, with the document of the enclave. -/
  | acceptDevice (attsdoc : List UInt8)
  /-- In `get_attsdoc`. -/
  | getAttsdoc
  /-- In `validate_attsdoc` and `generate_rsa_keypair`. -/
  | validate (attsdoc : List UInt8)
  /-- At the top of the loop of `run_iiot_emulation`. -/
  | emulate
  /-- In `response_offload`, with a request to decrypt. -/
  | serve (request : List UInt8)
  | sending (site : SendSite) (call : SendCall)
  | receiving (site : RecvSite) (call : RecvCall)
  | exited
  deriving DecidableEq

/-- What the buffers hold when a call of `recv_len_data` starts. -/
structure Buffers where
  contents : RecvSite → List UInt8
  size : ∀ site, (contents site).length = site.bufSize

def send (site : SendSite) (data : List UInt8) : Pc := .sending site { data }

def recv (bufs : Buffers) (site : RecvSite) : Pc := .receiving site { buf := bufs.contents site }

/-- What a party does after `send_len_data`. -/
def SendSite.next (bufs : Buffers) : SendSite → Pc
  | .sendAttsdoc => recv bufs .recvIiotPubkey
  | .sendEnclaveAttsdoc => recv bufs .relayIiotPubkey
  | .sendIiotPubkey => .emulate
  | .relayIiotPubkey => recv bufs .relayOffloadRequest
  | .requestOffload => recv bufs .requestOffload
  | .relayOffloadRequest => recv bufs .relayOffloadResponse
  | .responseOffload => recv bufs .responseOffload
  | .relayOffloadResponse => recv bufs .relayOffloadRequest

/-- What a party does after `recv_len_data`, with what it has received. -/
def RecvSite.next (bufs : Buffers) : RecvSite → List UInt8 → Pc
  | .recvEnclaveAttsdoc, m => .acceptDevice m
  | .relayIiotPubkey, m => send .relayIiotPubkey m
  | .relayOffloadRequest, m => send .relayOffloadRequest m
  | .relayOffloadResponse, m => send .relayOffloadResponse m
  | .recvAttsdoc, m => .validate m
  | .recvIiotPubkey, _ => recv bufs .responseOffload
  | .requestOffload, _ => .emulate
  -- `if (encrypted_len <= 0)`: the enclave exits
  | .responseOffload, m => if m.length = 0 then .exited else .serve m

structure RelayState where
  pc : Party → Pc
  /-- The bytes written and not yet read. -/
  inflight : Link → List UInt8 := fun _ => []
  enclaveConnected : Bool := false
  deviceConnected : Bool := false
  /-- The messages of the calls of `send_len_data`, logged when a call starts. -/
  sent : Link → List (List UInt8) := fun _ => []
  /-- The messages that calls of `recv_len_data` have returned. -/
  got : Link → List (List UInt8) := fun _ => []
  /-- The requests the enclave has taken up, each with its response. -/
  served : List (List UInt8 × List UInt8) := []

namespace RelayState

/-- A party moves to another point of its program; a call that starts there is logged. -/
def enter (s : RelayState) (p : Party) (pc : Pc) : RelayState :=
  { s with
    pc := Function.update s.pc p pc
    sent := match pc with
      | .sending site call => Function.update s.sent site.link (s.sent site.link ++ [call.data])
      | _ => s.sent }

@[simp] theorem enter_pc (s : RelayState) (p : Party) (pc : Pc) :
    (s.enter p pc).pc = Function.update s.pc p pc := rfl

@[simp] theorem enter_sent_send (s : RelayState) (p : Party) (site : SendSite) (m : List UInt8) :
    (s.enter p (send site m)).sent = Function.update s.sent site.link (s.sent site.link ++ [m]) := rfl

@[simp] theorem enter_sent_recv (s : RelayState) (p : Party) (bufs : Buffers) (site : RecvSite) :
    (s.enter p (recv bufs site)).sent = s.sent := rfl

@[simp] theorem enter_inflight (s : RelayState) (p : Party) (pc : Pc) :
    (s.enter p pc).inflight = s.inflight := rfl

@[simp] theorem enter_got (s : RelayState) (p : Party) (pc : Pc) :
    (s.enter p pc).got = s.got := rfl

@[simp] theorem enter_served (s : RelayState) (p : Party) (pc : Pc) :
    (s.enter p pc).served = s.served := rfl

/-- A message is handed to the caller of `recv_len_data`. -/
def deliver (s : RelayState) (l : Link) (m : List UInt8) : RelayState :=
  { s with got := Function.update s.got l (s.got l ++ [m]) }

/-- A party is where it was, with a call one system call further. -/
def advance (s : RelayState) (p : Party) (pc : Pc) (l : Link) (bytes : List UInt8) : RelayState :=
  { s with pc := Function.update s.pc p pc, inflight := Function.update s.inflight l bytes }

@[simp] theorem advance_pc (s : RelayState) (p : Party) (pc : Pc) (l : Link) (bytes : List UInt8) :
    (s.advance p pc l bytes).pc = Function.update s.pc p pc := rfl

@[simp] theorem advance_inflight (s : RelayState) (p : Party) (pc : Pc) (l : Link)
    (bytes : List UInt8) :
    (s.advance p pc l bytes).inflight = Function.update s.inflight l bytes := rfl

end RelayState

/-- A message fits the buffers it is received in. -/
def Fits (m : List UInt8) (sites : List RecvSite) : Prop := ∀ site ∈ sites, m.length ≤ site.bufSize

instance (m : List UInt8) (sites : List RecvSite) : Decidable (Fits m sites) :=
  inferInstanceAs (Decidable (∀ _ ∈ _, _))

inductive Action where
  | connectEnclave
  | acceptEnclave (bufs : Buffers)
  | getAttsdoc (doc : List UInt8)
  | connectDevice (bufs : Buffers)
  | acceptDevice
  | sendKey (key : List UInt8)
  | offload (request : List UInt8)
  | runLocally
  | respond (response : List UInt8)
  | write (p : Party) (chunk : ℕ)
  | wrote (p : Party) (bufs : Buffers)
  | read (p : Party) (chunk : ℕ)
  | received (p : Party) (bufs : Buffers)
  | exit (p : Party)

/-- One step, if the action is possible. -/
def relayStep (order : ByteOrder) (s : RelayState) : Action → Option RelayState
  | .connectEnclave =>
    if s.pc .enclave = .connect ∧ s.pc .gateway = .acceptEnclave then
      some ({ s with enclaveConnected := true }.enter .enclave .getAttsdoc)
    else none
  | .acceptEnclave bufs =>
    if s.pc .gateway = .acceptEnclave ∧ s.enclaveConnected then
      some (s.enter .gateway (recv bufs .recvEnclaveAttsdoc))
    else none
  | .getAttsdoc doc =>
    if s.pc .enclave = .getAttsdoc ∧ Fits doc [.recvEnclaveAttsdoc, .recvAttsdoc] then
      some (s.enter .enclave (send .sendAttsdoc doc))
    else none
  | .connectDevice bufs =>
    match s.pc .gateway with
    | .acceptDevice _ =>
      if s.pc .device = .connect then
        some ({ s with deviceConnected := true }.enter .device (recv bufs .recvAttsdoc))
      else none
    | _ => none
  | .acceptDevice =>
    match s.pc .gateway with
    | .acceptDevice doc =>
      if s.deviceConnected then some (s.enter .gateway (send .sendEnclaveAttsdoc doc)) else none
    | _ => none
  | .sendKey key =>
    match s.pc .device with
    | .validate _ =>
      if Fits key [.relayIiotPubkey, .recvIiotPubkey] then
        some (s.enter .device (send .sendIiotPubkey key))
      else none
    | _ => none
  | .offload request =>
    if s.pc .device = .emulate ∧ Fits request [.relayOffloadRequest, .responseOffload] then
      some (s.enter .device (send .requestOffload request))
    else none
  | .runLocally => if s.pc .device = .emulate then some s else none
  | .respond response =>
    match s.pc .enclave with
    | .serve request =>
      if Fits response [.relayOffloadResponse, .requestOffload] then
        some ({ s with served := s.served ++ [(request, response)] }.enter .enclave
          (send .responseOffload response))
      else none
    | _ => none
  | .write p chunk =>
    match s.pc p with
    | .sending site call =>
      match call.write order (s.inflight site.link) chunk with
      | .ok (call', bytes) => some (s.advance p (.sending site call') site.link bytes)
      | .error _ => none
    | _ => none
  | .wrote p bufs =>
    match s.pc p with
    | .sending site call => if call.done then some (s.enter p (site.next bufs)) else none
    | _ => none
  | .read p chunk =>
    match s.pc p with
    | .receiving site call =>
      match call.read order (s.inflight site.link) chunk with
      | .ok (call', bytes) => some (s.advance p (.receiving site call') site.link bytes)
      | .error _ => none
    | _ => none
  | .received p bufs =>
    match s.pc p with
    | .receiving site call =>
      if call.done then
        some ((s.deliver site.link call.message).enter p (site.next bufs call.message))
      else none
    | _ => none
  | .exit p => some (s.enter p .exited)

/-- The parties before any of them has done anything. -/
def relayInit : RelayState where
  pc
    | .device => .connect
    | .gateway => .acceptEnclave
    | .enclave => .connect

/-- The system of the three parties. -/
def relay (order : ByteOrder) : System RelayState where
  init s := s = relayInit
  step s s' := ∃ a, relayStep order s a = some s'

end MutualEdge.Sgx
