import Mathlib.Algebra.Order.Ring.Int
import MutualEdge.Lib.Bytes
import MutualEdge.Lib.Outcome

/-! `transmit.c`: frames of a 4-byte length and that many bytes over a byte stream.

    Each call of `write` and `read` is one choice of the environment: the number of bytes it moves, cut
    to what was asked for and, reading, to what is there; no byte moved is the error or the end of
    stream on which the program exits. The stream is in order and loses nothing: a party's output is
    what it has written so far, its input what it has not read yet. -/

namespace MutualEdge.Sgx
open Choice Bytes

/-- The byte order of the machine. -/
inductive ByteOrder where | little | big
  deriving DecidableEq

/-- The bytes of an `int`, as `(char *)&len` addresses them. -/
def intBytes : ByteOrder → Int32 → List UInt8
  | .little, len => leBytes 4 len.toUInt32.toNat
  | .big, len => (leBytes 4 len.toUInt32.toNat).reverse

/-- The `int` that bytes stand for. -/
def bytesInt : ByteOrder → List UInt8 → Int32
  | .little, bytes => (UInt32.ofNat (leValue bytes)).toInt32
  | .big, bytes => (UInt32.ofNat (leValue bytes.reverse)).toInt32

/-- Why a call does not come back: the process exits after a message, or it waits. -/
inductive Stop where
  | exit (code : ℕ) (message : String)
  | waiting
  deriving DecidableEq

/-- A call that does not come back, with the stores it has made into its caller's buffer. -/
structure Stopped where
  stop : Stop
  stores : List (ℕ × UInt8) := []
  deriving DecidableEq

/-! ### Sending -/

structure Sending where
  totalSent : ℕ := 0
  output : List UInt8

/-- `sent = write(fd, data + total_sent, size - total_sent)` and what the loops do with it. -/
def writeSome (message : String) (data : List UInt8) (size : ℤ) (s : Sending) (chunk : ℕ) :
    Except Stopped Sending :=
  let sent := min chunk (size - s.totalSent).toNat
  if sent = 0 then .error ⟨.exit 3 message, []⟩
  else .ok ⟨s.totalSent + sent, s.output ++ (data.drop s.totalSent).take sent⟩

/-- `while (total_sent < size)` -/
def writeAll (message : String) (data : List UInt8) (size : ℤ) (output : List UInt8) :
    Choice Stopped (List UInt8) := do
  let s ← whileLoop (fun _ => ⟨.waiting, []⟩) (fun s => (s.totalSent : ℤ) < size)
    (writeSome message data size) { output := output }
  return s.output

def sendLenData (order : ByteOrder) (data : List UInt8) (size : ℤ) (output : List UInt8) :
    Choice Stopped (List UInt8) := do
  let len := Int32.ofInt size
  let output ← writeAll "send_len_data: failed to send length" (intBytes order len) 4 output
  writeAll "send_len_data: failed to send data" data size output

/-! ### Receiving -/

structure Receiving where
  totalRecvd : ℕ := 0
  stores : List (ℕ × UInt8) := []
  input : List UInt8

/-- `recvd = read(fd, data + total_recvd, size - total_recvd)` and what the loops do with it. The
    function `fault` builds the failure from the stores made. -/
def readSome (fault : Stop → List (ℕ × UInt8) → Stopped) (message : String) (size : ℤ)
    (s : Receiving) (chunk : ℕ) : Except Stopped Receiving :=
  let recvd := min (min chunk (size - s.totalRecvd).toNat) s.input.length
  if recvd = 0 then .error (fault (.exit 3 message) s.stores)
  else .ok ⟨s.totalRecvd + recvd, s.stores ++ storesFrom s.totalRecvd (s.input.take recvd),
    s.input.drop recvd⟩

/-- `while (total_recvd < size)` -/
def readAll (fault : Stop → List (ℕ × UInt8) → Stopped) (message : String) (size : ℤ)
    (input : List UInt8) : Choice Stopped Receiving :=
  whileLoop (fun s => fault .waiting s.stores) (fun s => (s.totalRecvd : ℤ) < size)
    (readSome fault message size) { input := input }

/-- What a call of `recv_len_data` leaves: `*psize`, the stores through `data` and the unread input. -/
structure Received where
  size : ℤ
  stores : List (ℕ × UInt8)
  input : List UInt8
  deriving DecidableEq

/-- The stores of the first loop go to the local `len`. The size passed in is not read. -/
def recvLenData (order : ByteOrder) (_psize : ℤ) (input : List UInt8) : Choice Stopped Received := do
  let header ← readAll (fun stop _ => ⟨stop, []⟩) "recv_len_data: failed to receive length" 4 input
  let len := bytesInt order (fill (intBytes order 0) header.stores)
  let body ← readAll (fun stop stores => ⟨stop, stores⟩) "recv_len_data: failed to receive data"
    len.toInt header.input
  return ⟨len.toInt, body.stores, body.input⟩

/-! ### Lengths -/

@[simp] theorem length_intBytes (order : ByteOrder) (len : Int32) :
    (intBytes order len).length = 4 := by
  cases order <;> simp [intBytes]

/-- Both ends read the same `int` from the same bytes. -/
theorem bytesInt_intBytes (order : ByteOrder) (len : Int32) :
    bytesInt order (intBytes order len) = len := by
  have hlt : len.toUInt32.toNat < 256 ^ 4 := len.toUInt32.toNat_lt
  cases order with
  | little => simp [bytesInt, intBytes, leValue_leBytes hlt]
  | big => simp [bytesInt, intBytes, leValue_leBytes hlt]

/-- The length of a message of less than two gigabytes survives the conversion to `int`. -/
theorem toInt_ofInt_length {m : List UInt8} (h : m.length < 2 ^ 31) :
    (Int32.ofInt m.length).toInt = m.length :=
  Int32.toInt_ofInt_of_le (by omega) (by exact_mod_cast h)

/-! ### The loops -/

/-- Enough accepted bytes are all the bytes. -/
theorem writeAll_yields (message : String) (data output : List UInt8) :
    Yields (writeAll message data data.length output) data.length
      (fun o => o = output ++ data) := by
  have hloop : Yields (whileLoop (fun _ => (⟨.waiting, []⟩ : Stopped))
      (fun s : Sending => (s.totalSent : ℤ) < (data.length : ℤ))
      (writeSome message data data.length) { output := output }) (data.length - 0)
      (fun s : Sending => (s.totalSent ≤ data.length ∧ s.output = output ++ data.take s.totalSent) ∧
        decide ((s.totalSent : ℤ) < (data.length : ℤ)) = false) := by
    refine Yields.whileLoop (μ := fun s : Sending => data.length - s.totalSent)
      (I := fun s : Sending => s.totalSent ≤ data.length ∧ s.output = output ++ data.take s.totalSent)
      ?_ ⟨by simp, by simp⟩
    rintro s d ⟨hle, hout⟩ hc hd
    have hlt : s.totalSent < data.length := by simpa using hc
    have hsent : min d ((data.length : ℤ) - s.totalSent).toNat = min d (data.length - s.totalSent) := by
      congr 1
      omega
    have hpos : min d (data.length - s.totalSent) ≠ 0 := by omega
    refine ⟨_, by rw [writeSome, hsent, if_neg hpos], ⟨by simp only; omega, ?_⟩,
      by simp only; omega⟩
    rw [hout, List.append_assoc, ← List.take_add]
  refine Yields.bind (m := 0) hloop ?_
  rintro s ⟨⟨hle, hout⟩, hc⟩
  refine Yields.pure ?_
  have hall : data.length ≤ s.totalSent := by simpa using hc
  rw [hout, List.take_of_length_le hall]

/-- However the writes go, the loop ends with all the bytes written. -/
theorem writeAll_ends (message : String) (data output : List UInt8) :
    Ends (writeAll message data data.length output) (fun o => o = output ++ data)
      (fun _ => True) := by
  have hloop : Ends (whileLoop (fun _ => (⟨.waiting, []⟩ : Stopped))
      (fun s : Sending => (s.totalSent : ℤ) < (data.length : ℤ))
      (writeSome message data data.length) { output := output })
      (fun s : Sending => s.output = output ++ data.take s.totalSent ∧
        decide ((s.totalSent : ℤ) < (data.length : ℤ)) = false) (fun _ => True) := by
    refine Ends.whileLoop (I := fun s : Sending => s.output = output ++ data.take s.totalSent)
      ?_ (fun _ _ _ _ _ _ => trivial) (fun _ _ _ => trivial) (by simp)
    rintro s d s' hout hc hbody
    rw [writeSome] at hbody
    split at hbody
    · cases hbody
    · obtain rfl := Except.ok.inj hbody
      rw [hout, List.append_assoc, ← List.take_add]
  refine hloop.bind ?_
  rintro s ⟨hout, hc⟩
  have hall : data.length ≤ s.totalSent := by simpa using hc
  exact Ends.pure (by rw [hout, List.take_of_length_le hall])

/-- Of the data only the first `size` bytes are read. -/
theorem writeSome_take (message : String) (data : List UInt8) (size : ℕ) :
    writeSome message data size = writeSome message (data.take size) size := by
  funext s chunk
  have htake : ∀ sent : ℕ, sent ≤ ((size : ℤ) - s.totalSent).toNat →
      (data.drop s.totalSent).take sent = ((data.take size).drop s.totalSent).take sent := by
    intro sent hsent
    rw [List.drop_take, List.take_take, Nat.min_eq_left (by omega)]
  simp only [writeSome]
  rw [htake _ (Nat.min_le_right _ _)]

/-- How far a loop that reads `n` bytes has come after `k` of them. -/
def readAfter (input : List UInt8) (k : ℕ) : Receiving :=
  ⟨k, storesFrom 0 (input.take k), input.drop k⟩

/-- A read moves on by at most what is left to read, if it moves a byte. -/
theorem readSome_after {fault : Stop → List (ℕ × UInt8) → Stopped} {message : String} {size : ℤ}
    {input : List UInt8} {k d : ℕ} (hk : k ≤ input.length) :
    let recvd := min (min d (size - k).toNat) (input.length - k)
    readSome fault message size (readAfter input k) d =
      if recvd = 0 then .error (fault (.exit 3 message) (storesFrom 0 (input.take k)))
      else .ok (readAfter input (k + recvd)) := by
  have htake : (input.take k).length = k := by rw [List.length_take]; omega
  simp only [readSome, readAfter, List.length_drop, List.drop_drop]
  split
  · rfl
  · rw [List.take_add, storesFrom_append, htake, Nat.zero_add]

/-- With `n` bytes at hand, reads of any size come to an end with those bytes stored in order. -/
theorem readAll_yields (fault : Stop → List (ℕ × UInt8) → Stopped) (message : String) {n : ℕ}
    {input : List UInt8} (h : n ≤ input.length) :
    Yields (readAll fault message n input) n (fun s => s = readAfter input n) := by
  refine Yields.mono (P := fun s => (∃ k ≤ n, s = readAfter input k) ∧
    decide ((s.totalRecvd : ℤ) < (n : ℤ)) = false) ?_ ?_
  · refine Yields.whileLoop (μ := fun s => n - s.totalRecvd)
      (I := fun s => ∃ k ≤ n, s = readAfter input k) ?_ ⟨0, by omega, rfl⟩
    rintro s d ⟨k, hk, rfl⟩ hc hd
    have hlt : k < n := by simpa [readAfter] using hc
    have hrecvd : min (min d ((n : ℤ) - k).toNat) (input.length - k) ≠ 0 := by omega
    refine ⟨_, by rw [readSome_after (by omega), if_neg hrecvd], ⟨_, by omega, rfl⟩, ?_⟩
    simp only [readAfter]
    omega
  · rintro s ⟨⟨k, hk, rfl⟩, hc⟩
    have hge : n ≤ k := by simpa [readAfter] using hc
    obtain rfl : k = n := by omega
    rfl

/-- However the reads go, the loop ends with as many bytes as the size says, or it stops after storing
    no more than that and no more than there are. -/
theorem readAll_ends (fault : Stop → List (ℕ × UInt8) → Stopped) (message : String) (size : ℤ)
    (input : List UInt8) :
    Ends (readAll fault message size input)
      (fun s => size.toNat ≤ input.length ∧ s = readAfter input size.toNat)
      (fun e => ∃ stop, ∃ k ≤ min size.toNat input.length,
        e = fault stop (storesFrom 0 (input.take k))) := by
  have hloop : Ends (readAll fault message size input)
      (fun s => (∃ k ≤ min size.toNat input.length, s = readAfter input k) ∧
        decide ((s.totalRecvd : ℤ) < size) = false)
      (fun e => ∃ stop, ∃ k ≤ min size.toNat input.length,
        e = fault stop (storesFrom 0 (input.take k))) := by
    refine Ends.whileLoop ?_ ?_ ?_ ⟨0, by omega, rfl⟩
    · rintro s d s' ⟨k, hk, rfl⟩ hc hbody
      rw [readSome_after (by omega)] at hbody
      split at hbody
      · simp at hbody
      · exact ⟨_, by omega, (Except.ok.inj hbody).symm⟩
    · rintro s d e ⟨k, hk, rfl⟩ hc hbody
      rw [readSome_after (by omega)] at hbody
      split at hbody
      · exact ⟨_, k, hk, (Except.error.inj hbody).symm⟩
      · simp at hbody
    · rintro s ⟨k, hk, rfl⟩ hc
      exact ⟨_, k, hk, rfl⟩
  refine hloop.mono ?_ fun _ he => he
  rintro s ⟨⟨k, hk, rfl⟩, hc⟩
  have hge : size ≤ k := not_lt.mp (of_decide_eq_false hc)
  obtain rfl : k = size.toNat := by omega
  exact ⟨by omega, rfl⟩

end MutualEdge.Sgx
