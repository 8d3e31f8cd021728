import MutualEdge.Lib.Checks
import MutualEdge.Sgx.Framing

/-! Calls of `send_len_data` and `recv_len_data` that are under way.

    A call is taken one `write` or `read` at a time, so that the calls of several processes can be
    interleaved; run to its end alone it is the function of `Transmit`. On the way a sending call is
    known by the bytes it has not written yet, a receiving call by the bytes it has taken. -/

namespace MutualEdge.Sgx
open Choice Bytes Checks

/-! ### Sending -/

/-- `send_len_data(fd, data, size)` between two calls of `write`. -/
structure SendCall where
  data : List UInt8
  /-- The first loop is done. -/
  lenSent : Bool := false
  totalSent : ℕ := 0
  deriving DecidableEq

namespace SendCall

/-- One `write`, and what the loops do with its result. -/
def write (order : ByteOrder) (c : SendCall) (output : List UInt8) (chunk : ℕ) :
    Except Stopped (SendCall × List UInt8) :=
  if c.lenSent then do
    let s ← writeSome "send_len_data: failed to send data" c.data c.data.length
      ⟨c.totalSent, output⟩ chunk
    return ({ c with totalSent := s.totalSent }, s.output)
  else do
    let s ← writeSome "send_len_data: failed to send length"
      (intBytes order (Int32.ofInt c.data.length)) 4 ⟨c.totalSent, output⟩ chunk
    if s.totalSent < 4 then return ({ c with totalSent := s.totalSent }, s.output)
    else return ({ c with lenSent := true, totalSent := 0 }, s.output)

/-- Both loops are done. -/
def done (c : SendCall) : Bool := c.lenSent && decide (c.data.length ≤ c.totalSent)

/-- The bytes that are still to be written. -/
def unsent (order : ByteOrder) (c : SendCall) : List UInt8 :=
  if c.lenSent then c.data.drop c.totalSent
  else (intBytes order (Int32.ofInt c.data.length)).drop c.totalSent ++ c.data

theorem unsent_fresh (order : ByteOrder) (m : List UInt8) :
    ({ data := m } : SendCall).unsent order = frame order m := rfl

theorem unsent_done (order : ByteOrder) {c : SendCall} (h : c.done = true) :
    c.unsent order = [] := by
  simp only [done, Bool.and_eq_true, decide_eq_true_eq] at h
  rw [unsent, if_pos h.1, List.drop_of_length_le h.2]

end SendCall

/-- What a `write` that moves bytes does. -/
theorem writeSome_ok {message : String} {data : List UInt8} {size : ℤ} {s s' : Sending} {chunk : ℕ}
    (h : writeSome message data size s chunk = .ok s') : ∃ sent : ℕ, 0 < sent ∧
      (sent : ℤ) ≤ size - s.totalSent ∧ s'.totalSent = s.totalSent + sent ∧
      s'.output = s.output ++ (data.drop s.totalSent).take sent := by
  simp only [writeSome] at h
  split at h
  · cases h
  · rename_i hsent
    cases h
    exact ⟨_, Nat.pos_of_ne_zero hsent, by omega, rfl, rfl⟩

/-- A `write` moves some of the bytes that are still to be written onto the wire. -/
theorem SendCall.write_ok {order : ByteOrder} {c c' : SendCall} {output output' : List UInt8}
    {chunk : ℕ} (h : c.write order output chunk = .ok (c', output')) :
    ∃ bytes, output' = output ++ bytes ∧ c.unsent order = bytes ++ c'.unsent order := by
  unfold write at h
  by_cases hlen : c.lenSent = true
  · rw [if_pos hlen] at h
    obtain ⟨s, hs, hok⟩ := bind_ok.mp h
    obtain ⟨rfl, rfl⟩ := Prod.mk.inj (pure_ok.mp hok)
    obtain ⟨sent, -, -, htotal, hout⟩ := writeSome_ok hs
    refine ⟨_, hout, ?_⟩
    rw [unsent, if_pos hlen, unsent, if_pos hlen]
    simp only [htotal]
    rw [← List.drop_drop, List.take_append_drop]
  · rw [if_neg hlen] at h
    obtain ⟨s, hs, hok⟩ := bind_ok.mp h
    obtain ⟨sent, -, hle, htotal, hout⟩ := writeSome_ok hs
    simp only at hle htotal hout
    have hsplit := List.take_append_drop sent
      ((intBytes order (Int32.ofInt c.data.length)).drop c.totalSent)
    rw [List.drop_drop] at hsplit
    split at hok
    · obtain ⟨rfl, rfl⟩ := Prod.mk.inj (pure_ok.mp hok)
      refine ⟨_, hout, ?_⟩
      rw [unsent, if_neg hlen, unsent, if_neg hlen]
      simp only [htotal]
      rw [← List.append_assoc, hsplit]
    · rename_i hfour
      obtain ⟨rfl, rfl⟩ := Prod.mk.inj (pure_ok.mp hok)
      refine ⟨_, hout, ?_⟩
      rw [unsent, if_neg hlen, unsent, if_pos rfl]
      -- the length has been written whole: nothing of it is left behind these bytes
      have hrest : (intBytes order (Int32.ofInt c.data.length)).drop (c.totalSent + sent) = [] :=
        List.drop_of_length_le (by rw [length_intBytes]; omega)
      rw [hrest, List.append_nil] at hsplit
      rw [hsplit, List.drop_zero]

/-! ### Receiving -/

/-- `recv_len_data(fd, data, psize)` between two calls of `read`. -/
structure RecvCall where
  /-- What the buffer held before the call. -/
  buf : List UInt8
  /-- `len`, once the first loop is done. -/
  len : Option ℤ := none
  totalRecvd : ℕ := 0
  stores : List (ℕ × UInt8) := []
  deriving DecidableEq

namespace RecvCall

/-- One `read`, and what the loops do with its result. -/
def read (order : ByteOrder) (c : RecvCall) (input : List UInt8) (chunk : ℕ) :
    Except Stopped (RecvCall × List UInt8) :=
  match c.len with
  | none => do
    let r ← readSome (fun stop _ => ⟨stop, []⟩) "recv_len_data: failed to receive length" 4
      ⟨c.totalRecvd, c.stores, input⟩ chunk
    if r.totalRecvd < 4 then
      return ({ c with totalRecvd := r.totalRecvd, stores := r.stores }, r.input)
    else
      let len := bytesInt order (fill (intBytes order 0) r.stores)
      return ({ buf := c.buf, len := some len.toInt }, r.input)
  | some len => do
    let r ← readSome (fun stop stores => ⟨stop, stores⟩) "recv_len_data: failed to receive data" len
      ⟨c.totalRecvd, c.stores, input⟩ chunk
    return ({ c with totalRecvd := r.totalRecvd, stores := r.stores }, r.input)

/-- Both loops are done. -/
def done (c : RecvCall) : Bool :=
  match c.len with
  | none => false
  | some len => decide (len ≤ c.totalRecvd)

/-- What the caller finds in its buffer, as long as `*psize` says. -/
def message (c : RecvCall) : List UInt8 :=
  match c.len with
  | none => []
  | some len => (fill c.buf c.stores).take len.toNat

/-- The call has taken these bytes off the wire, and no more than it was to. -/
def Took (order : ByteOrder) (c : RecvCall) (taken : List UInt8) : Prop :=
  match c.len with
  | none => taken.length < 4 ∧ c.totalRecvd = taken.length ∧ c.stores = storesFrom 0 taken
  | some len => 4 ≤ taken.length ∧ len = (bytesInt order (taken.take 4)).toInt ∧
    c.totalRecvd = taken.length - 4 ∧ c.stores = storesFrom 0 (taken.drop 4) ∧
    (c.totalRecvd = 0 ∨ (c.totalRecvd : ℤ) ≤ len)

theorem took_fresh (order : ByteOrder) (buf : List UInt8) : ({ buf } : RecvCall).Took order [] :=
  ⟨by decide, rfl, rfl⟩

end RecvCall

/-- What a `read` that moves bytes does. -/
theorem readSome_ok {fault : Stop → List (ℕ × UInt8) → Stopped} {message : String} {size : ℤ}
    {s s' : Receiving} {chunk : ℕ} (h : readSome fault message size s chunk = .ok s') :
    ∃ bytes, s.input = bytes ++ s'.input ∧ 0 < bytes.length ∧
      (bytes.length : ℤ) ≤ size - s.totalRecvd ∧ s'.totalRecvd = s.totalRecvd + bytes.length ∧
      s'.stores = s.stores ++ storesFrom s.totalRecvd bytes := by
  simp only [readSome] at h
  split at h
  · cases h
  · rename_i hrecvd
    cases h
    have hlen : (s.input.take (min (min chunk (size - s.totalRecvd).toNat) s.input.length)).length =
        min (min chunk (size - s.totalRecvd).toNat) s.input.length := by
      rw [List.length_take]
      omega
    refine ⟨_, (List.take_append_drop _ s.input).symm, ?_, ?_, ?_, rfl⟩ <;> rw [hlen] <;> omega

/-- A `read` takes bytes off the wire, none behind the end of the frame. -/
theorem RecvCall.read_ok {order : ByteOrder} {c c' : RecvCall} {input input' taken : List UInt8}
    {chunk : ℕ} (h : c.read order input chunk = .ok (c', input')) (ht : c.Took order taken) :
    ∃ bytes, input = bytes ++ input' ∧ c'.Took order (taken ++ bytes) ∧ c'.buf = c.buf := by
  unfold read at h
  unfold Took at ht
  cases hlen : c.len with
  | none =>
    simp only [hlen] at h ht
    obtain ⟨hshort, htotal, hstores⟩ := ht
    obtain ⟨r, hr, hok⟩ := bind_ok.mp h
    obtain ⟨bytes, hin, hpos, hle, htot, hst⟩ := readSome_ok hr
    simp only at hin hle htot hst
    have hst : r.stores = storesFrom 0 (taken ++ bytes) := by
      rw [hst, hstores, htotal, storesFrom_append, Nat.zero_add]
    split at hok
    · obtain ⟨rfl, rfl⟩ := Prod.mk.inj (pure_ok.mp hok)
      refine ⟨bytes, hin, ?_, rfl⟩
      simp only [Took, List.length_append]
      exact ⟨by omega, by omega, hst⟩
    · obtain ⟨rfl, rfl⟩ := Prod.mk.inj (pure_ok.mp hok)
      refine ⟨bytes, hin, ?_, rfl⟩
      have hfour : (taken ++ bytes).length = 4 := by
        rw [List.length_append]
        omega
      simp only [Took, hfour]
      refine ⟨by decide, ?_, trivial, ?_, Or.inl trivial⟩
      · rw [hst, fill_eq (by rw [hfour]; simp), hfour, List.drop_of_length_le (by simp),
          List.append_nil, List.take_of_length_le hfour.le]
      · rw [List.drop_of_length_le hfour.le]
        rfl
  | some len =>
    simp only [hlen] at h ht
    obtain ⟨hfour, hval, htotal, hstores, hbound⟩ := ht
    obtain ⟨r, hr, hok⟩ := bind_ok.mp h
    obtain ⟨bytes, hin, hpos, hle, htot, hst⟩ := readSome_ok hr
    obtain ⟨rfl, rfl⟩ := Prod.mk.inj (pure_ok.mp hok)
    simp only at hin hle htot hst
    refine ⟨bytes, hin, ?_, rfl⟩
    simp only [Took]
    refine ⟨?_, ?_, ?_, ?_, ?_⟩
    · rw [List.length_append]
      omega
    · rw [hval, List.take_append_of_le_length hfour]
    · rw [List.length_append]
      omega
    · have hdrop : (taken.drop 4).length = c.totalRecvd := by
        rw [List.length_drop]
        omega
      rw [hst, hstores, List.drop_append_of_le_length hfour, storesFrom_append, hdrop, Nat.zero_add]
    · right
      omega

/-- Four bytes of a frame announce the length of its message. -/
theorem announced_frame {order : ByteOrder} {m taken rest rest' : List UInt8}
    (hm : m.length < 2 ^ 31) (heq : taken ++ rest = frame order m ++ rest')
    (hfour : 4 ≤ taken.length) : (bytesInt order (taken.take 4)).toInt = m.length := by
  have hlen : (intBytes order (Int32.ofInt m.length)).length = 4 := length_intBytes _ _
  have htake := congrArg (List.take 4) heq
  rw [List.take_append_of_le_length hfour, frame, List.append_assoc, List.take_left' hlen] at htake
  rw [htake, bytesInt_intBytes, toInt_ofInt_length hm]

theorem length_frame (order : ByteOrder) (m : List UInt8) :
    (frame order m).length = 4 + m.length := by
  rw [frame, List.length_append, length_intBytes]

/-- A call that is done has taken exactly one frame, and its caller has the message. -/
theorem RecvCall.took_done {order : ByteOrder} {c : RecvCall} {m taken rest rest' : List UInt8}
    (ht : c.Took order taken) (hd : c.done = true) (heq : taken ++ rest = frame order m ++ rest')
    (hm : m.length < 2 ^ 31) :
    taken = frame order m ∧ rest = rest' ∧ (m.length ≤ c.buf.length → c.message = m) := by
  unfold Took at ht
  unfold done at hd
  cases hlen : c.len with
  | none => simp [hlen] at hd
  | some len =>
    simp only [hlen, decide_eq_true_eq] at ht hd
    obtain ⟨hfour, hval, htotal, hstores, hbound⟩ := ht
    rw [announced_frame hm heq hfour] at hval
    have hsize : taken.length = (frame order m).length := by
      rw [length_frame]
      omega
    obtain ⟨htaken, hrest⟩ := List.append_inj heq hsize
    refine ⟨htaken, hrest, fun hfit => ?_⟩
    have hbody : taken.drop 4 = m := by
      rw [htaken, frame, List.drop_left' (length_intBytes _ _)]
    rw [message, hlen]
    simp only [hstores, hbody, hval, fill_eq hfit, Int.toNat_natCast, List.take_left']

/-- A call that waits although everything sent has arrived is at the start of a frame that has not
    been sent. -/
theorem RecvCall.took_waiting {order : ByteOrder} {c : RecvCall} {taken : List UInt8}
    {pending : List (List UInt8)} (ht : c.Took order taken) (hd : c.done = false)
    (heq : wire order pending = taken) (hsize : ∀ m ∈ pending, m.length < 2 ^ 31) :
    pending = [] := by
  cases pending with
  | nil => rfl
  | cons m pending =>
    exfalso
    have hwire : taken ++ [] = frame order m ++ wire order pending := by
      rw [List.append_nil, ← heq, wire, wire, List.flatMap_cons]
    have hlong : 4 + m.length ≤ taken.length := by
      have hlen := congrArg List.length hwire
      rw [List.append_nil, List.length_append, length_frame] at hlen
      omega
    have hval := announced_frame (hsize m List.mem_cons_self) hwire (by omega)
    unfold Took at ht
    unfold done at hd
    cases hlen : c.len with
    | none =>
      simp only [hlen] at ht
      omega
    | some len =>
      simp only [hlen, decide_eq_false_iff_not] at ht hd
      obtain ⟨-, hlen', htotal, -, -⟩ := ht
      rw [hval] at hlen'
      omega

/-! ### Calls run alone -/

/-- Write until the call is done. -/
def SendCall.run (order : ByteOrder) (c : SendCall) (output : List UInt8) :
    Choice Stopped (SendCall × List UInt8) :=
  whileLoop (fun _ => ⟨.waiting, []⟩) (fun s => !s.1.done) (fun s => s.1.write order s.2) (c, output)

/-- The first loop of a sending call. -/
theorem SendCall.run_length (order : ByteOrder) (m output : List UInt8) :
    SendCall.run order { data := m } output =
      (whileLoop (fun _ => (⟨.waiting, []⟩ : Stopped)) (fun s : Sending => (s.totalSent : ℤ) < 4)
        (writeSome "send_len_data: failed to send length" (intBytes order (Int32.ofInt m.length)) 4)
        { output } >>= fun s => SendCall.run order ⟨m, true, 0⟩ s.output) := by
  funext ds
  refine whileLoop_phases (f := fun s : Sending => ((⟨m, false, s.totalSent⟩ : SendCall), s.output))
    (g := fun s : Sending => ((⟨m, true, 0⟩ : SendCall), s.output)) ?_ ?_ ?_ ds { output } rfl
  · intro s hc
    rfl
  · intro s hc
    rfl
  · intro s d hc
    rw [write, if_neg Bool.false_ne_true]
    cases writeSome "send_len_data: failed to send length" (intBytes order (Int32.ofInt m.length)) 4
      ⟨s.totalSent, s.output⟩ d with
    | error e => rfl
    | ok s' =>
      by_cases hs : s'.totalSent < 4
      · have hs' : (s'.totalSent : ℤ) < 4 := by omega
        simp [bind, Except.bind, hs, pure, Except.pure]
      · have hs' : ¬ (s'.totalSent : ℤ) < 4 := by omega
        simp [bind, Except.bind, hs, pure, Except.pure]

/-- The second loop. -/
theorem SendCall.run_data (order : ByteOrder) (m output : List UInt8) :
    SendCall.run order ⟨m, true, 0⟩ output =
      (whileLoop (fun _ => (⟨.waiting, []⟩ : Stopped))
        (fun s : Sending => (s.totalSent : ℤ) < (m.length : ℤ))
        (writeSome "send_len_data: failed to send data" m m.length) { output } >>=
          fun s => pure (⟨m, true, s.totalSent⟩, s.output)) := by
  funext ds
  refine whileLoop_map (f := fun s : Sending => ((⟨m, true, s.totalSent⟩ : SendCall), s.output))
    ?_ ?_ ?_ ds { output }
  · intro s
    rw [Bool.eq_iff_iff]
    simp [done]
  · intro s hc
    rfl
  · intro s d hc
    rw [write, if_pos rfl]
    cases writeSome "send_len_data: failed to send data" m m.length ⟨s.totalSent, s.output⟩ d <;> rfl

/-- A sending call run alone is `send_len_data`. -/
theorem SendCall.run_eq (order : ByteOrder) (m output : List UInt8) :
    (SendCall.run order { data := m } output >>= fun s => pure s.2) =
      sendLenData order m m.length output := by
  rw [run_length, sendLenData]
  simp only [run_data, writeAll, bind_assoc, pure_bind]

/-- Read until the call is done. -/
def RecvCall.run (order : ByteOrder) (c : RecvCall) (input : List UInt8) :
    Choice Stopped (RecvCall × List UInt8) :=
  whileLoop (fun s => ⟨.waiting, if s.1.len = none then [] else s.1.stores⟩) (fun s => !s.1.done)
    (fun s => s.1.read order s.2) (c, input)

/-- What a receiving call that is done has given to its caller. -/
def RecvCall.received (c : RecvCall) (input : List UInt8) : Received :=
  ⟨c.len.getD 0, c.stores, input⟩

/-- The first loop of a receiving call. -/
theorem RecvCall.run_length (order : ByteOrder) (buf input : List UInt8) :
    RecvCall.run order { buf } input =
      (whileLoop (fun _ => (⟨.waiting, []⟩ : Stopped)) (fun s : Receiving => (s.totalRecvd : ℤ) < 4)
        (readSome (fun stop _ => ⟨stop, []⟩) "recv_len_data: failed to receive length" 4)
        { input } >>= fun s => RecvCall.run order
          ⟨buf, some (bytesInt order (fill (intBytes order 0) s.stores)).toInt, 0, []⟩ s.input) := by
  funext ds
  refine whileLoop_phases
    (f := fun s : Receiving => ((⟨buf, none, s.totalRecvd, s.stores⟩ : RecvCall), s.input))
    (g := fun s : Receiving => ((⟨buf, some (bytesInt order (fill (intBytes order 0)
      s.stores)).toInt, 0, []⟩ : RecvCall), s.input)) ?_ ?_ ?_ ds { input } rfl
  · intro s hc
    rfl
  · intro s hc
    rfl
  · intro s d hc
    simp only [read]
    cases readSome (fun stop _ => (⟨stop, []⟩ : Stopped)) "recv_len_data: failed to receive length" 4
      ⟨s.totalRecvd, s.stores, s.input⟩ d with
    | error e => rfl
    | ok s' =>
      by_cases hs : s'.totalRecvd < 4
      · have hs' : (s'.totalRecvd : ℤ) < 4 := by omega
        simp [bind, Except.bind, hs, pure, Except.pure]
      · have hs' : ¬ (s'.totalRecvd : ℤ) < 4 := by omega
        simp [bind, Except.bind, hs, pure, Except.pure]

/-- The second loop. -/
theorem RecvCall.run_data (order : ByteOrder) (buf : List UInt8) (len : ℤ) (input : List UInt8) :
    RecvCall.run order ⟨buf, some len, 0, []⟩ input =
      (whileLoop (fun s => (⟨.waiting, s.stores⟩ : Stopped))
        (fun s : Receiving => (s.totalRecvd : ℤ) < len)
        (readSome (fun stop stores => ⟨stop, stores⟩) "recv_len_data: failed to receive data" len)
        { input } >>= fun s => pure (⟨buf, some len, s.totalRecvd, s.stores⟩, s.input)) := by
  funext ds
  refine whileLoop_map
    (f := fun s : Receiving => ((⟨buf, some len, s.totalRecvd, s.stores⟩ : RecvCall), s.input))
    ?_ ?_ ?_ ds { input }
  · intro s
    rw [Bool.eq_iff_iff]
    simp [done, not_le]
  · intro s hc
    rfl
  · intro s d hc
    simp only [read]
    cases readSome (fun stop stores => (⟨stop, stores⟩ : Stopped))
      "recv_len_data: failed to receive data" len ⟨s.totalRecvd, s.stores, s.input⟩ d <;> rfl

/-- A receiving call run alone is `recv_len_data`. -/
theorem RecvCall.run_eq (order : ByteOrder) (psize : ℤ) (buf input : List UInt8) :
    (RecvCall.run order { buf } input >>= fun s => pure (s.1.received s.2)) =
      recvLenData order psize input := by
  rw [run_length, recvLenData]
  simp only [run_data, readAll, bind_assoc, pure_bind, received, Option.getD_some]

/-- The calls of the relay, which write or read some bytes at a time, come to what the two functions of
    `transmit.c` do: to the same bytes or the same error, whatever the sizes. -/
theorem transmit_calls (order : ByteOrder) (m output : List UInt8) (psize : ℤ) (buf input : List UInt8) :
    (SendCall.run order { data := m } output >>= fun s => pure s.2) =
      sendLenData order m m.length output ∧
    (RecvCall.run order { buf } input >>= fun s => pure (s.1.received s.2)) =
      recvLenData order psize input :=
  ⟨SendCall.run_eq order m output, RecvCall.run_eq order psize buf input⟩

end MutualEdge.Sgx
