import MutualEdge.Lib.Pkey
import MutualEdge.Sgx.Attsdoc
import MutualEdge.Sgx.Capacity
import MutualEdge.Sgx.Framing

/-! One offload: `request_offload` on the device and `response_offload` in the enclave.

    The encryption is a parameter (RSA with OAEP padding); no result of its calls is looked at. The
    error queue is printed at the start of either function only, so what is printed there are errors of
    earlier exchanges. `request_offload` is cut where it waits for the enclave; the relay passes frames
    on as they are. A side that stops ends the exchange. -/

namespace MutualEdge.Sgx
open Choice Bytes Pkey

/-- `unsigned char encrypted[512] = {0}`, and `decrypted` likewise. -/
def zeros : List UInt8 := List.replicate 512 0

/-- The keys and arguments of the two calls and the errors of the two processes before them. -/
structure Offload (Key Seed : Type) where
  device : Key
  enclave : Key
  seedIn : Seed
  seedOut : Seed
  dataIn : List UInt8
  responseMsg : List UInt8
  errorsDevice : Errors := {}
  errorsEnclave : Errors := {}

/-- What the exchange leaves: the enclave's buffer, the string returned on the device, the errors. -/
structure Exchanged where
  decrypted : List UInt8
  dataOut : List UInt8
  errorsDevice : Errors
  errorsEnclave : Errors
  deriving DecidableEq

/-- `recv_len_data` stores the `int` it has received in a `size_t`. -/
def toSize (size : ℤ) : ℕ := (size % 2 ^ 64).toNat

section Functions
variable {Key Seed : Type} (S : Scheme Key Seed) (order : ByteOrder)

/-- `request_offload` up to the frame it sends: `encrypted`, `encrypted_len` and the bytes written. -/
def requestSend (pubkeyEnclave : Key) (seed : Seed) (dataIn : List UInt8) (errors : Errors) :
    Choice Stopped (Call × List UInt8) := do
  let encrypted := encryptCall S pubkeyEnclave seed dataIn { buf := zeros, errors := errors.print }
  let output ← sendLenData order encrypted.buf encrypted.len []
  return (encrypted, output)

/-- `request_offload` from the frame it receives: `data_out` and the errors. -/
def requestRecv (pkey : Key) (encrypted : Call) (input : List UInt8) :
    Choice Stopped (List UInt8 × Errors) := do
  let r ← recvLenData order 512 input
  let encrypted := { encrypted with buf := fill encrypted.buf r.stores, len := toSize r.size }
  let decrypted := decryptCall S pkey encrypted.output { buf := zeros, errors := encrypted.errors }
  return (cString decrypted.buf, decrypted.errors)

/-- `response_offload`: `decrypted`, the errors and the bytes written. -/
def responseOffload (pkey pubkeyIiot : Key) (seed : Seed) (responseMsg : List UInt8)
    (errors : Errors) (input : List UInt8) :
    Choice Stopped (List UInt8 × Errors × List UInt8) := do
  let r ← recvLenData order 512 input
  let encrypted : Call := ⟨fill zeros r.stores, toSize r.size, errors.print⟩
  if encrypted.len = 0 then throw ⟨.exit 2 "failed to receive offload request", []⟩
  let decrypted := decryptCall S pkey encrypted.output { buf := zeros, errors := encrypted.errors }
  -- the answer is encrypted into the buffer that holds the request
  let encrypted := encryptCall S pubkeyIiot seed (cString responseMsg)
    { encrypted with errors := decrypted.errors }
  let output ← sendLenData order encrypted.buf encrypted.len []
  return (decrypted.buf, encrypted.errors, output)

/-- One exchange. -/
def exchange (x : Offload Key Seed) : Choice Stopped Exchanged := do
  let request ← requestSend S order x.enclave x.seedIn x.dataIn x.errorsDevice
  let response ← responseOffload S order x.enclave x.device x.seedOut x.responseMsg x.errorsEnclave
    request.2
  let data ← requestRecv S order x.device request.1 response.2.2
  return ⟨response.1, data.1, data.2, response.2.1⟩

end Functions

/-! ### What either side comes back with -/

/-- A frame that fits an `int` is received whole. -/
theorem recvLenData_settles (order : ByteOrder) (psize : ℤ) {m : List UInt8}
    (hm : m.length < 2 ^ 31) :
    Settles (recvLenData order psize (frame order m)) (4 + m.length)
      ⟨m.length, storesFrom 0 m, []⟩ := by
  have hlen : (intBytes order (Int32.ofInt m.length)).length = 4 := length_intBytes _ _
  have hann : announced order (frame order m) = m.length := by
    rw [announced, frame, List.take_left' hlen, bytesInt_intBytes, toInt_ofInt_length hm]
  have hdrop : (frame order m).drop 4 = m := by rw [frame, List.drop_left' hlen]
  refine ⟨(recvLenData_ends order psize (frame order m)).mono ?_ fun _ _ => trivial, ?_⟩
  · rintro r ⟨-, -, rfl⟩
    rw [hann, hdrop, Int.toNat_natCast, List.take_length, List.drop_length]
  · have h := recvLenData_yields order psize hm []
    rwa [List.append_nil] at h

/-- The front of a buffer is sent as a frame. -/
theorem sendLenData_settles (order : ByteOrder) (c : Call) (h : c.len ≤ c.buf.length) :
    Settles (sendLenData order c.buf c.len []) (4 + c.output.length) (frame order c.output) := by
  rw [sendLenData_take order h]
  exact ⟨sendLenData_ends order c.output [], sendLenData_yields order c.output []⟩

@[simp] theorem length_zeros : zeros.length = 512 := List.length_replicate

theorem toSize_length {m : List UInt8} (hm : m.length < 2 ^ 31) : toSize m.length = m.length := by
  unfold toSize
  omega

/-- Received into a buffer with room, a frame is the output of the caller's variables. -/
theorem output_received {buf m : List UInt8} (errors : Errors) (hm : m.length ≤ buf.length) :
    (⟨fill buf (storesFrom 0 m), m.length, errors⟩ : Call).output = m := by
  rw [Call.output, fill_eq hm, List.take_left' rfl]

/-! ### The exchange as a function -/

namespace Offload
variable {Key Seed : Type} (S : Scheme Key Seed) (x : Offload Key Seed)

/-- What `request_offload` sends is the output of these variables. -/
def request : Call :=
  encryptCall S x.enclave x.seedIn x.dataIn { buf := zeros, errors := x.errorsDevice.print }

/-- What the enclave makes of it. -/
def opened : Call :=
  decryptCall S x.enclave (x.request S).output { buf := zeros, errors := x.errorsEnclave.print }

/-- What `response_offload` sends. -/
def response : Call :=
  encryptCall S x.device x.seedOut (cString x.responseMsg)
    ⟨fill zeros (storesFrom 0 (x.request S).output), (x.request S).output.length, (x.opened S).errors⟩

/-- What the device makes of it. -/
def returned : Call :=
  decryptCall S x.device (x.response S).output { buf := zeros, errors := (x.request S).errors }

def result : Exchanged :=
  ⟨(x.opened S).buf, cString (x.returned S).buf, (x.returned S).errors, (x.response S).errors⟩

/-- The scheme is correct, and a block under either key has room for a message and fits the buffers. -/
structure Keyed (overhead : ℕ) : Prop where
  correct : S.Correct overhead
  device : overhead < S.size x.device ∧ S.size x.device ≤ 512
  enclave : overhead < S.size x.enclave ∧ S.size x.enclave ≤ 512

variable {S x} {overhead : ℕ} (h : x.Keyed S overhead) (order : ByteOrder)
include h

theorem Keyed.length_request : (x.request S).output.length = S.size x.enclave :=
  length_output_encryptCall h.correct (by simpa using h.enclave.2)

theorem Keyed.length_response : (x.response S).output.length = S.size x.device :=
  length_output_encryptCall h.correct (by simpa using h.device.2)

theorem Keyed.requestSend_settles : ∃ n, Settles
    (requestSend S order x.enclave x.seedIn x.dataIn x.errorsDevice) n
    (x.request S, frame order (x.request S).output) := by
  have hlen : (x.request S).len ≤ (x.request S).buf.length := by
    rw [request, len_encryptCall h.correct, encryptCall, length_buf_twoPhase]
    simpa using h.enclave.2
  exact ⟨_, (sendLenData_settles order _ hlen).bind (.pure _)⟩

theorem Keyed.responseOffload_settles : ∃ n, Settles
    (responseOffload S order x.enclave x.device x.seedOut x.responseMsg x.errorsEnclave
      (frame order (x.request S).output)) n
    ((x.opened S).buf, (x.response S).errors, frame order (x.response S).output) := by
  have hreq := h.length_request
  have henc := h.enclave
  have hsmall : (x.request S).output.length < 2 ^ 31 := by omega
  have hroom : (x.request S).output.length ≤ zeros.length := by
    rw [length_zeros]
    omega
  have hpos : (x.request S).output.length ≠ 0 := by omega
  have hlen : (x.response S).len ≤ (x.response S).buf.length := by
    rw [response, len_encryptCall h.correct, encryptCall, length_buf_twoPhase, length_fill,
      length_zeros]
    exact h.device.2
  refine ⟨_, (recvLenData_settles order 512 hsmall).bind
    (m := 4 + (x.response S).output.length + 0) ?_⟩
  simp only [toSize_length hsmall, if_neg hpos, output_received _ hroom]
  exact (sendLenData_settles order _ hlen).bind (.pure _)

theorem Keyed.requestRecv_settles : ∃ n, Settles
    (requestRecv S order x.device (x.request S) (frame order (x.response S).output)) n
    (cString (x.returned S).buf, (x.returned S).errors) := by
  have hres := h.length_response
  have hdev := h.device
  have hsmall : (x.response S).output.length < 2 ^ 31 := by omega
  have hroom : (x.response S).output.length ≤ (x.request S).buf.length := by
    rw [request, encryptCall, length_buf_twoPhase, length_zeros]
    omega
  refine ⟨_, (recvLenData_settles order 512 hsmall).bind (m := 0) ?_⟩
  simp only [toSize_length hsmall, output_received _ hroom]
  exact .pure _

/-- Every exchange that returns has this result, and there is one that does. -/
theorem Keyed.exchange_settles : ∃ n, Settles (exchange S order x) n (x.result S) := by
  obtain ⟨n, hsend⟩ := h.requestSend_settles order
  obtain ⟨m, hresponse⟩ := h.responseOffload_settles order
  obtain ⟨k, hrecv⟩ := h.requestRecv_settles order
  exact ⟨_, hsend.bind (hresponse.bind (hrecv.bind (.pure _)))⟩

end Offload

/-! ### Round trip or error -/

/-- The string in front of the zeros of a buffer is no longer than what was stored. -/
theorem length_cString_le (m : List UInt8) (n : ℕ) :
    (cString (m ++ List.replicate n 0)).length ≤ m.length := by
  have hzero : (List.replicate n (0 : UInt8)).takeWhile (· ≠ 0) = [] := by
    cases n <;> simp [List.replicate_succ]
  rw [cString, List.takeWhile_append, hzero]
  split
  · simp
  · exact (List.takeWhile_prefix _).length_le

theorem cString_of_nulFree {m : List UInt8} (h : 0 ∉ m) (n : ℕ) :
    cString (m ++ List.replicate n 0) = m := by
  have hne : ∀ b ∈ m, decide (b ≠ 0) = true := fun b hb => by
    rw [decide_eq_true_eq]
    rintro rfl
    exact h hb
  rw [cString, List.takeWhile_append_of_pos hne]
  cases n <;> simp [List.replicate_succ]

theorem cString_self {m : List UInt8} (h : 0 ∉ m) : cString m = m := by
  have hpadded := cString_of_nulFree h 0
  rwa [List.replicate_zero, List.append_nil] at hpadded

namespace Offload
variable {Key Seed : Type} {S : Scheme Key Seed} {x : Offload Key Seed} {overhead : ℕ}

/-- The enclave has the data and the device the answer. -/
structure RoundTrip (x : Offload Key Seed) (r : Exchanged) : Prop where
  request : cString r.decrypted = x.dataIn
  response : r.dataOut = x.responseMsg

/-- A call of this exchange has raised an error. -/
def Failed (x : Offload Key Seed) (r : Exchanged) : Prop :=
  x.errorsDevice.raised < r.errorsDevice.raised ∨ x.errorsEnclave.raised < r.errorsEnclave.raised

/-- More errors are printed than there were before the exchange. -/
def Reported (x : Offload Key Seed) (r : Exchanged) : Prop :=
  x.errorsDevice.raised < r.errorsDevice.printed ∨ x.errorsEnclave.raised < r.errorsEnclave.printed

/-- An exchange in which no side stops has done its work and no call has failed, or it says so. -/
def RoundTripOrError (S : Scheme Key Seed) (order : ByteOrder) (x : Offload Key Seed) : Prop :=
  ∀ r, Returns (exchange S order x) r → (x.RoundTrip r ∧ ¬ x.Failed r) ∨ x.Reported r

/-- No error of an exchange is printed in it. -/
theorem not_reported : ¬ x.Reported (x.result S) := by
  simp [Reported, result, returned, response, opened, request, encryptCall, decryptCall]

variable (h : x.Keyed S overhead)
include h

/-- Nothing longer than the limits comes through. -/
theorem Keyed.limits (htrip : x.RoundTrip (x.result S)) :
    x.dataIn.length + overhead ≤ S.size x.enclave ∧
      x.responseMsg.length + overhead ≤ S.size x.device := by
  have hlimit : ∀ (k : Key) (block : List UInt8) (errors : Errors), overhead < S.size k →
      S.size k ≤ 512 →
      (cString (decryptCall S k block { buf := zeros, errors }).buf).length + overhead ≤ S.size k := by
    intro k block errors hroom hfits
    obtain ⟨out, hout, hbuf⟩ := decryptCall_buf (c := { buf := zeros, errors }) h.correct block
      (by simpa using hfits) hroom.le
    have hle := length_cString_le out (512 - out.length)
    rw [hbuf, zeros, List.drop_replicate]
    omega
  constructor
  · rw [← htrip.request]
    exact hlimit _ _ _ h.enclave.1 h.enclave.2
  · rw [← htrip.response]
    exact hlimit _ _ _ h.device.1 h.device.2

/-- Data within the limit reaches the enclave, and no call raises an error. -/
theorem Keyed.received (hdata : 0 ∉ x.dataIn)
    (hlimit : x.dataIn.length + overhead ≤ S.size x.enclave) :
    cString (x.opened S).buf = x.dataIn ∧ (x.request S).errors = x.errorsDevice.print ∧
      (x.opened S).errors = x.errorsEnclave.print := by
  have henc := h.enclave
  obtain ⟨hreq, hreqErrors⟩ : S.decrypt x.enclave (x.request S).output = some x.dataIn ∧
      (x.request S).errors = x.errorsDevice.print :=
    encryptCall_within h.correct (by simpa using henc.2) hlimit
  obtain ⟨hopened, hopenedErrors⟩ : (x.opened S).buf = x.dataIn ++ zeros.drop x.dataIn.length ∧
      (x.opened S).errors = x.errorsEnclave.print :=
    decryptCall_some hreq (by rw [length_zeros]; omega)
  refine ⟨?_, hreqErrors, hopenedErrors⟩
  rw [hopened, zeros, List.drop_replicate, cString_of_nulFree hdata]

/-- An answer within the limit reaches the device, whatever has become of the data. -/
theorem Keyed.answered (hmsg : 0 ∉ x.responseMsg)
    (hlimit : x.responseMsg.length + overhead ≤ S.size x.device) :
    cString (x.returned S).buf = x.responseMsg ∧ (x.response S).errors = (x.opened S).errors ∧
      (x.returned S).errors = (x.request S).errors := by
  have hdev := h.device
  obtain ⟨hres, hresErrors⟩ : S.decrypt x.device (x.response S).output = some (cString x.responseMsg) ∧
      (x.response S).errors = (x.opened S).errors :=
    encryptCall_within h.correct (by simpa using hdev.2) (by rwa [cString_self hmsg])
  rw [cString_self hmsg] at hres
  obtain ⟨hreturned, hreturnedErrors⟩ :
      (x.returned S).buf = x.responseMsg ++ zeros.drop x.responseMsg.length ∧
      (x.returned S).errors = (x.request S).errors :=
    decryptCall_some hres (by rw [length_zeros]; omega)
  refine ⟨?_, hresErrors, hreturnedErrors⟩
  rw [hreturned, zeros, List.drop_replicate, cString_of_nulFree hmsg]

/-- Within the limits all four steps succeed. -/
theorem Keyed.roundTrip (hdata : 0 ∉ x.dataIn) (hmsg : 0 ∉ x.responseMsg)
    (hdataLimit : x.dataIn.length + overhead ≤ S.size x.enclave)
    (hmsgLimit : x.responseMsg.length + overhead ≤ S.size x.device) :
    x.RoundTrip (x.result S) ∧ ¬ x.Failed (x.result S) := by
  obtain ⟨hreceived, hreqErrors, hopenedErrors⟩ := h.received hdata hdataLimit
  obtain ⟨hanswered, hresErrors, hreturnedErrors⟩ := h.answered hmsg hmsgLimit
  refine ⟨⟨hreceived, hanswered⟩, ?_⟩
  simp only [Failed, result, hreturnedErrors, hreqErrors, hresErrors, hopenedErrors,
    Errors.raised_print]
  omega

/-- The exchange is a round trip or reports an error if and only if both messages are within the limits
    of the padding. -/
theorem roundTripOrError_iff (order : ByteOrder) (hdata : 0 ∉ x.dataIn) (hmsg : 0 ∉ x.responseMsg) :
    x.RoundTripOrError S order ↔ x.dataIn.length + overhead ≤ S.size x.enclave ∧
      x.responseMsg.length + overhead ≤ S.size x.device := by
  obtain ⟨n, hsettles⟩ := h.exchange_settles order
  constructor
  · intro hall
    rcases hall _ (hsettles.returns_iff.mpr rfl) with ⟨htrip, -⟩ | hreported
    · exact h.limits htrip
    · exact absurd hreported not_reported
  · rintro ⟨hdataLimit, hmsgLimit⟩ r hr
    obtain rfl := hsettles.returns_iff.mp hr
    exact .inl (h.roundTrip hdata hmsg hdataLimit hmsgLimit)

end Offload

/-! ### Keys of 2048 bits -/

/-- A block: the key, the message and a mark, filled up with zeros. -/
def pad (k : UInt8) (m : List UInt8) : List UInt8 := k :: (m ++ 1 :: List.replicate (254 - m.length) 0)

def unpad (block : List UInt8) : List UInt8 :=
  ((block.tail.reverse.dropWhile (· = 0)).drop 1).reverse

theorem unpad_pad (k : UInt8) (m : List UInt8) : unpad (pad k m) = m := by
  have hzeros : ∀ b ∈ List.replicate (254 - m.length) (0 : UInt8), decide (b = 0) = true :=
    fun b hb => decide_eq_true (List.eq_of_mem_replicate hb)
  rw [unpad, pad, List.tail_cons, List.reverse_append, List.reverse_cons, List.reverse_replicate,
    List.append_assoc, List.dropWhile_append_of_pos hzeros]
  simp

/-- A stand-in with the sizes of RSA-2048 and OAEP: a block opens under its own key only. -/
def blockScheme : Scheme UInt8 Unit where
  size _ := 256
  encrypt k _ m := if m.length + 42 ≤ 256 then some (pad k m) else none
  decrypt k block :=
    if (unpad block).length + 42 ≤ 256 ∧ pad k (unpad block) = block then some (unpad block) else none

theorem blockScheme_correct : blockScheme.Correct 42 where
  encrypts k r m hm := ⟨pad k m, if_pos hm⟩
  limit k r m c henc := by
    simp only [blockScheme, Option.ite_none_right_eq_some] at henc
    exact henc.1
  block k r m c henc := by
    simp only [blockScheme, Option.ite_none_right_eq_some, Option.some.injEq] at henc
    obtain ⟨hm, rfl⟩ := henc
    simp only [blockScheme, pad, List.length_cons, List.length_append, List.length_replicate]
    omega
  decrypts k r m c henc := by
    simp only [blockScheme, Option.ite_none_right_eq_some, Option.some.injEq] at henc
    obtain ⟨hm, rfl⟩ := henc
    simp only [blockScheme, unpad_pad, and_true, if_pos hm]
  short k c m hdec := by
    simp only [blockScheme, Option.ite_none_right_eq_some, Option.some.injEq] at hdec
    obtain ⟨⟨hm, -⟩, rfl⟩ := hdec
    exact hm

/-- Data and an answer under the keys `1` of the device and `2` of the enclave. -/
def blockOffload (dataIn responseMsg : List UInt8) : Offload UInt8 Unit :=
  ⟨1, 2, (), (), dataIn, responseMsg, {}, {}⟩

theorem blockOffload_keyed (dataIn responseMsg : List UInt8) :
    (blockOffload dataIn responseMsg).Keyed blockScheme 42 := by
  have hsize : 42 < 256 ∧ 256 ≤ 512 := by decide
  exact ⟨blockScheme_correct, hsize, hsize⟩

theorem Offload.roundTripOrError_hello :
    (blockOffload [104, 105] [111, 107]).RoundTripOrError blockScheme .little :=
  (Offload.roundTripOrError_iff (blockOffload_keyed [104, 105] [111, 107]) .little (by decide)
    (by decide)).mpr (by decide)

/-- One byte too many: the device sends a block of zeros, the enclave cannot decrypt it, and the device
    returns the answer all the same. -/
theorem Offload.roundTripOrError_fails :
    Returns (exchange blockScheme .little (blockOffload (List.replicate 215 65) [111, 107]))
      ⟨zeros, [111, 107], ⟨1, 0⟩, ⟨1, 0⟩⟩ ∧
    ¬ ∀ (order : ByteOrder) (x : Offload UInt8 Unit), x.Keyed blockScheme 42 → 0 ∉ x.dataIn →
      0 ∉ x.responseMsg → x.RoundTripOrError blockScheme order := by
  have hkeyed := blockOffload_keyed (List.replicate 215 65) [111, 107]
  obtain ⟨hanswered, hresErrors, hreturnedErrors⟩ := hkeyed.answered (by decide) (by decide)
  have hrequest : (blockOffload (List.replicate 215 65) [111, 107]).request blockScheme =
      ⟨zeros, 256, ⟨1, 0⟩⟩ := by decide +kernel
  have hopened : (blockOffload (List.replicate 215 65) [111, 107]).opened blockScheme =
      ⟨zeros, 256, ⟨1, 0⟩⟩ := by decide +kernel
  have hresult : (blockOffload (List.replicate 215 65) [111, 107]).result blockScheme =
      ⟨zeros, [111, 107], ⟨1, 0⟩, ⟨1, 0⟩⟩ := by
    rw [Offload.result, hanswered, hreturnedErrors, hresErrors, hopened, hrequest]
    rfl
  obtain ⟨n, hsettles⟩ := hkeyed.exchange_settles .little
  have hreturns := hsettles.returns_iff.mpr rfl
  refine ⟨hresult ▸ hreturns, ?_⟩
  intro hall
  rcases hall .little _ hkeyed (by decide +kernel) (by decide) _ hreturns with ⟨htrip, -⟩ | hreported
  · exact absurd (hkeyed.limits htrip).1 (by decide +kernel)
  · exact Offload.not_reported hreported

end MutualEdge.Sgx
