import Mathlib.Algebra.BigOperators.Group.List.Basic
import MutualEdge.Sgx.Transmit

/-! Sequences of frames from `send_len_data` to `recv_len_data`.

    One side sends a list of messages, the other calls `recv_len_data` once for each with a buffer that
    is large enough. Whatever the sizes of the single writes and reads, every call gets its message and
    leaves the input at the start of the next frame. -/

namespace MutualEdge.Sgx
open Choice Bytes

/-- A message on the wire. -/
def frame (order : ByteOrder) (m : List UInt8) : List UInt8 :=
  intBytes order (Int32.ofInt m.length) ++ m

def wire (order : ByteOrder) (msgs : List (List UInt8)) : List UInt8 := msgs.flatMap (frame order)

/-- The bytes of all frames: no more calls of `write` or `read` are needed. -/
def transfers (msgs : List (List UInt8)) : ℕ := (msgs.map fun m => 4 + m.length).sum

/-- Successive calls of `send_len_data`. -/
def sendAll (order : ByteOrder) : List (List UInt8) → List UInt8 → Choice Stopped (List UInt8)
  | [], output => pure output
  | m :: msgs, output => do
    let output ← sendLenData order m m.length output
    sendAll order msgs output

/-- What a receiver holds after a call: the size, its buffer, and the input that is left. -/
structure Delivery where
  size : ℤ
  data : List UInt8
  input : List UInt8
  deriving DecidableEq

/-- Successive calls of `recv_len_data`, one for each buffer. -/
def recvAll (order : ByteOrder) : List (List UInt8) → List UInt8 → Choice Stopped (List Delivery)
  | [], _ => pure []
  | buf :: bufs, input => do
    let r ← recvLenData order buf.length input
    let ds ← recvAll order bufs r.input
    return ⟨r.size, fill buf r.stores, r.input⟩ :: ds

/-- The messages, each in front of its buffer, with the later frames and the rest still to be read. -/
def deliveries (order : ByteOrder) (rest : List UInt8) :
    List (List UInt8) → List (List UInt8) → List Delivery
  | m :: msgs, buf :: bufs =>
    ⟨m.length, m ++ buf.drop m.length, wire order msgs ++ rest⟩ :: deliveries order rest msgs bufs
  | _, _ => []

theorem sendLenData_yields (order : ByteOrder) (m output : List UInt8) :
    Yields (sendLenData order m m.length output) (4 + m.length)
      (fun o => o = output ++ frame order m) := by
  have hheader := writeAll_yields "send_len_data: failed to send length"
    (intBytes order (Int32.ofInt m.length)) output
  rw [length_intBytes] at hheader
  refine Yields.bind hheader ?_
  rintro _ rfl
  refine (writeAll_yields _ m _).mono ?_
  rintro _ rfl
  rw [frame, List.append_assoc]

/-- Sending the front of a buffer is sending that front. -/
theorem sendLenData_take (order : ByteOrder) {data : List UInt8} {size : ℕ}
    (h : size ≤ data.length) (output : List UInt8) :
    sendLenData order data size output =
      sendLenData order (data.take size) (data.take size).length output := by
  have hlen : (data.take size).length = size := by rw [List.length_take]; omega
  simp only [hlen, sendLenData, writeAll, writeSome_take _ data size]

/-- A call that returns has written the frame. -/
theorem sendLenData_ends (order : ByteOrder) (m output : List UInt8) :
    Ends (sendLenData order m m.length output) (fun o => o = output ++ frame order m)
      (fun _ => True) := by
  have hheader := writeAll_ends "send_len_data: failed to send length"
    (intBytes order (Int32.ofInt m.length)) output
  rw [length_intBytes] at hheader
  refine hheader.bind ?_
  rintro _ rfl
  refine (writeAll_ends _ m _).mono ?_ fun _ he => he
  rintro _ rfl
  rw [frame, List.append_assoc]

/-- The sender puts exactly the frames on the wire. -/
theorem sendAll_yields (order : ByteOrder) (msgs : List (List UInt8)) (output : List UInt8) :
    Yields (sendAll order msgs output) (transfers msgs) (fun o => o = output ++ wire order msgs) := by
  induction msgs generalizing output with
  | nil => exact Yields.pure (by simp [wire])
  | cons m msgs ih =>
    refine Yields.bind (sendLenData_yields order m output) ?_
    rintro _ rfl
    refine (ih _).mono ?_
    rintro _ rfl
    rw [wire, wire, List.flatMap_cons, List.append_assoc]

/-- Of an input that starts with a frame, a call takes the frame. -/
theorem recvLenData_yields (order : ByteOrder) (psize : ℤ) {m : List UInt8}
    (hm : m.length < 2 ^ 31) (rest : List UInt8) :
    Yields (recvLenData order psize (frame order m ++ rest)) (4 + m.length)
      (fun r => r = ⟨m.length, storesFrom 0 m, rest⟩) := by
  have hlen : (intBytes order (Int32.ofInt m.length)).length = 4 := length_intBytes _ _
  have hinput : frame order m ++ rest = intBytes order (Int32.ofInt m.length) ++ (m ++ rest) := by
    rw [frame, List.append_assoc]
  rw [hinput]
  refine Yields.bind (readAll_yields _ _ (n := 4) (by rw [List.length_append, hlen]; omega)) ?_
  rintro _ rfl
  -- the four bytes of the header overwrite all of `len`
  have hheader : readAfter (intBytes order (Int32.ofInt m.length) ++ (m ++ rest)) 4 =
      ⟨4, storesFrom 0 (intBytes order (Int32.ofInt m.length)), m ++ rest⟩ := by
    rw [readAfter, List.take_left' hlen, List.drop_left' hlen]
  have hfill : fill (intBytes order 0) (storesFrom 0 (intBytes order (Int32.ofInt m.length))) =
      intBytes order (Int32.ofInt m.length) := by
    rw [fill_eq (by simp), hlen, List.drop_of_length_le (by simp), List.append_nil]
  rw [hheader]
  simp only [hfill, bytesInt_intBytes, toInt_ofInt_length hm]
  refine Yields.bind (m := 0) (readAll_yields _ _ (n := m.length)
    (by rw [List.length_append]; omega)) ?_
  rintro _ rfl
  refine Yields.pure ?_
  rw [readAfter, List.take_left' rfl, List.drop_left' rfl]

theorem recvAll_yields (order : ByteOrder) (rest : List UInt8) :
    ∀ {msgs bufs : List (List UInt8)}, (∀ m ∈ msgs, m.length < 2 ^ 31) →
    List.Forall₂ (fun m buf => m.length ≤ buf.length) msgs bufs →
    Yields (recvAll order bufs (wire order msgs ++ rest)) (transfers msgs)
      (fun ds => ds = deliveries order rest msgs bufs)
  | _, _, _, .nil => Yields.pure rfl
  | m :: msgs, buf :: bufs, hsize, .cons hbuf hbufs => by
    have hwire : wire order (m :: msgs) ++ rest = frame order m ++ (wire order msgs ++ rest) := by
      rw [wire, wire, List.flatMap_cons, List.append_assoc]
    rw [hwire]
    refine Yields.bind (recvLenData_yields order _ (hsize m List.mem_cons_self) _) ?_
    rintro _ rfl
    refine Yields.bind (m := 0) (recvAll_yields order rest
      (fun m' hm' => hsize m' (List.mem_cons_of_mem _ hm')) hbufs) ?_
    rintro _ rfl
    refine Yields.pure ?_
    rw [deliveries, fill_eq hbuf]

/-- However the writes and reads split the bytes, both sides return and every receiving call has
    exactly the message and the size of the sending call of its number, the later frames (and what
    follows them) being still unread. -/
theorem framing_roundtrip (order : ByteOrder) {msgs bufs : List (List UInt8)}
    (hsize : ∀ m ∈ msgs, m.length < 2 ^ 31)
    (hbufs : List.Forall₂ (fun m buf => m.length ≤ buf.length) msgs bufs) (rest : List UInt8)
    {writes reads : List ℕ} (hwrites : ∀ c ∈ writes, 0 < c) (hreads : ∀ c ∈ reads, 0 < c)
    (hwl : transfers msgs ≤ writes.length) (hrl : transfers msgs ≤ reads.length) :
    ∃ output writes' reads', sendAll order msgs [] writes = .ok (output, writes') ∧
      recvAll order bufs (output ++ rest) reads = .ok (deliveries order rest msgs bufs, reads') := by
  obtain ⟨output, writes', hsend, rfl, _⟩ := sendAll_yields order msgs [] writes hwrites hwl
  obtain ⟨ds, reads', hrecv, rfl, _⟩ := recvAll_yields order rest hsize hbufs reads hreads hrl
  exact ⟨_, writes', reads', hsend, hrecv⟩

theorem framing_roundtrip_two : ∃ output writes' reads',
    sendAll .little [[], [1, 2, 3]] [] (List.replicate 11 2) = .ok (output, writes') ∧
      recvAll .little [[0], [0, 0, 0, 0]] (output ++ [9]) (List.replicate 11 3) =
        .ok ([⟨0, [0], [3, 0, 0, 0, 1, 2, 3, 9]⟩, ⟨3, [1, 2, 3, 0], [9]⟩], reads') :=
  framing_roundtrip .little (by decide) (by decide) [9] (by decide) (by decide) (by decide) (by decide)

end MutualEdge.Sgx
