import MutualEdge.Sgx.Transmit

/-! The buffers `recv_len_data` is called with.

    Every caller passes the size of its buffer in `*psize`; the function overwrites it with the length
    that the peer announces and stores as many bytes. `recvLenData_ends` is what any run does;
    `staysWithin_iff` says for which inputs every run keeps to the buffer. -/

namespace MutualEdge.Sgx
open Choice Bytes

/-- The calls of `recv_len_data` in the gateway, the enclave and the device. -/
inductive RecvSite where
  | recvEnclaveAttsdoc
  | relayIiotPubkey
  | relayOffloadRequest
  | relayOffloadResponse
  | recvAttsdoc
  | recvIiotPubkey
  | requestOffload
  | responseOffload
  deriving DecidableEq

/-- `sizeof` of the buffer at the call. -/
def RecvSite.bufSize : RecvSite → ℕ
  | .recvEnclaveAttsdoc => 8192
  | .relayIiotPubkey => 1024
  | .relayOffloadRequest => 1024
  | .relayOffloadResponse => 1024
  | .recvAttsdoc => 8192
  | .recvIiotPubkey => 4096
  | .requestOffload => 512
  | .responseOffload => 512

/-- The length that the first four bytes announce. -/
def announced (order : ByteOrder) (input : List UInt8) : ℤ := (bytesInt order (input.take 4)).toInt

/-- The stores a call has made, whether it came back or not. -/
def storesOf : Except Stopped (Received × List ℕ) → List (ℕ × UInt8)
  | .ok r => r.1.stores
  | .error e => e.stores

/-- A run of a call keeps to a buffer of `cap` bytes: no store behind it, a size in range, and of a
    frame that does not fit nothing is stored. -/
structure StaysWithin (order : ByteOrder) (cap : ℕ) (input : List UInt8)
    (run : Except Stopped (Received × List ℕ)) : Prop where
  offsets : ∀ s ∈ storesOf run, s.1 < cap
  size : ∀ r ds, run = .ok (r, ds) → 0 ≤ r.size ∧ r.size ≤ cap
  rejected : 4 ≤ input.length → ¬ (0 ≤ announced order input ∧ announced order input ≤ cap) →
    storesOf run = []

/-- The header overwrites all four bytes of `len`. -/
theorem header_len (order : ByteOrder) {input : List UInt8} (h : 4 ≤ input.length) :
    (bytesInt order (fill (intBytes order 0) (readAfter input 4).stores)).toInt =
      announced order input := by
  have hlen : (input.take 4).length = 4 := by rw [List.length_take]; omega
  rw [readAfter, fill_eq (by simp), hlen, List.drop_of_length_le (by simp), List.append_nil,
    announced]

/-- What any run does: it stores bytes behind the header in order, as many as the announced length and
    all of them if it comes back. -/
theorem recvLenData_ends (order : ByteOrder) (psize : ℤ) (input : List UInt8) :
    Ends (recvLenData order psize input)
      (fun r => 4 ≤ input.length ∧ (announced order input).toNat ≤ input.length - 4 ∧
        r = ⟨announced order input,
          storesFrom 0 ((input.drop 4).take (announced order input).toNat),
          (input.drop 4).drop (announced order input).toNat⟩)
      (fun e => e.stores = [] ∨ (4 ≤ input.length ∧
        ∃ k ≤ min (announced order input).toNat (input.length - 4),
          e.stores = storesFrom 0 ((input.drop 4).take k))) := by
  refine Ends.bind ((readAll_ends _ _ 4 input).mono (fun _ hs => hs) ?_) ?_
  · rintro _ ⟨stop, k, _, rfl⟩
    exact .inl rfl
  · rintro _ ⟨hlen, rfl⟩
    have hlen : 4 ≤ input.length := hlen
    have hann := header_len order hlen
    rw [show (4 : ℤ).toNat = 4 from rfl]
    simp only [hann]
    refine Ends.bind ((readAll_ends _ _ (announced order input) (input.drop 4)).mono
      (fun _ hs => hs) ?_) ?_
    · rintro _ ⟨stop, k, hk, rfl⟩
      rw [List.length_drop] at hk
      exact .inr ⟨hlen, k, hk, rfl⟩
    · rintro _ ⟨hbody, rfl⟩
      rw [List.length_drop] at hbody
      exact Ends.pure ⟨hlen, hbody, rfl⟩

/-- The stores of any run are those of a prefix of the body, no longer than the announced length. -/
theorem recvLenData_storesOf (order : ByteOrder) (psize : ℤ) (input : List UInt8) (ds : List ℕ) :
    storesOf (recvLenData order psize input ds) = [] ∨
      (4 ≤ input.length ∧ ∃ k ≤ min (announced order input).toNat (input.length - 4),
        storesOf (recvLenData order psize input ds) = storesFrom 0 ((input.drop 4).take k)) := by
  obtain ⟨hok, herr⟩ := recvLenData_ends order psize input ds
  cases hrun : recvLenData order psize input ds with
  | ok r =>
    obtain ⟨hlen, hbody, hr⟩ := hok r.1 r.2 hrun
    exact .inr ⟨hlen, (announced order input).toNat, by omega, by rw [storesOf, hr]⟩
  | error e => exact herr e hrun

/-- Read at once, the header leaves the body loop with the rest of the input. -/
theorem recvLenData_header (order : ByteOrder) (psize : ℤ) {input : List UInt8}
    (h : 4 ≤ input.length) (ds : List ℕ) :
    recvLenData order psize input (4 :: ds) =
      match readAll (fun stop stores => ⟨stop, stores⟩) "recv_len_data: failed to receive data"
        (announced order input) (input.drop 4) ds with
      | .ok (body, ds') => .ok (⟨announced order input, body.stores, body.input⟩, ds')
      | .error e => .error e := by
  have hstep : ∀ fault : Stop → List (ℕ × UInt8) → Stopped, ∀ message : String,
      readAll fault message 4 input (4 :: ds) = .ok (readAfter input 4, ds) := by
    intro fault message
    have hbody : readSome fault message 4 (readAfter input 0) 4 = .ok (readAfter input 4) := by
      rw [readSome_after (by omega)]
      have hmin : min (min 4 ((4 : ℤ) - (0 : ℕ)).toNat) (input.length - 0) = 4 := by omega
      rw [hmin, if_neg (by omega)]
    rw [readAll]
    exact (whileLoop_ok (s := readAfter input 0) (by simp [readAfter]) hbody ds).trans
      (whileLoop_done (by simp [readAfter]) ds)
  have hann := header_len order h
  have hrest : (readAfter input 4).input = input.drop 4 := rfl
  simp only [recvLenData, Bind.bind, StateT.bind, Except.bind, hstep, hann, hrest]
  cases readAll (fun stop stores => (⟨stop, stores⟩ : Stopped))
    "recv_len_data: failed to receive data" (announced order input) (input.drop 4) ds <;> rfl

/-- A negative length comes back as it is. -/
theorem recvLenData_negative (order : ByteOrder) (psize : ℤ) {input : List UInt8}
    (h : 4 ≤ input.length) (hneg : announced order input < 0) :
    recvLenData order psize input [4] = .ok (⟨announced order input, [], input.drop 4⟩, []) := by
  have hbody : readAll (fun stop stores => (⟨stop, stores⟩ : Stopped))
      "recv_len_data: failed to receive data" (announced order input) (input.drop 4) [] =
      .ok (⟨0, [], input.drop 4⟩, []) := by
    rw [readAll]
    refine whileLoop_done ?_ []
    simp only [decide_eq_true_eq, Nat.cast_zero, not_lt]
    omega
  rw [recvLenData_header order psize h, hbody]

/-- The first byte behind the header is stored, whatever the announced length. -/
theorem recvLenData_stores (order : ByteOrder) (psize : ℤ) {input : List UInt8}
    (h : 5 ≤ input.length) (hpos : 0 < announced order input) :
    storesOf (recvLenData order psize input [4, 1]) = storesFrom 0 ((input.drop 4).take 1) := by
  have hread : readSome (fun stop stores => (⟨stop, stores⟩ : Stopped))
      "recv_len_data: failed to receive data" (announced order input)
      (readAfter (input.drop 4) 0) 1 = .ok (readAfter (input.drop 4) 1) := by
    rw [readSome_after (by omega)]
    have hmin : min (min 1 (announced order input - (0 : ℕ)).toNat)
        ((input.drop 4).length - 0) = 1 := by
      rw [List.length_drop]
      omega
    rw [hmin, if_neg (by omega)]
  have hround : readAll (fun stop stores => (⟨stop, stores⟩ : Stopped))
      "recv_len_data: failed to receive data" (announced order input) (input.drop 4) [1] =
      whileLoop (fun s => ⟨.waiting, s.stores⟩)
        (fun s : Receiving => (s.totalRecvd : ℤ) < announced order input)
        (readSome (fun stop stores => ⟨stop, stores⟩) "recv_len_data: failed to receive data"
          (announced order input)) (readAfter (input.drop 4) 1) [] :=
    whileLoop_ok (by simpa [readAfter] using hpos) hread []
  rw [recvLenData_header order psize (by omega), hround]
  by_cases hc : ((1 : ℕ) : ℤ) < announced order input
  · rw [whileLoop_nil (by simpa [readAfter] using hc)]
    rfl
  · rw [whileLoop_done (by simpa [readAfter] using hc)]
    rfl

/-- At every call site: all runs on an input keep to the buffer if and only if fewer than four bytes
    arrive, or the announced length fits, or it does not fit and no byte of the body arrives. -/
theorem staysWithin_iff (order : ByteOrder) (site : RecvSite) (input : List UInt8) :
    (∀ ds, StaysWithin order site.bufSize input
      (recvLenData order site.bufSize input ds)) ↔
      input.length < 4 ∨
        (0 ≤ announced order input ∧ announced order input ≤ site.bufSize) ∨
        ((site.bufSize : ℤ) < announced order input ∧ input.length = 4) := by
  constructor
  · intro h
    by_contra hne
    simp only [not_or, not_and, not_lt, not_le] at hne
    obtain ⟨hlen, hfit, hbody⟩ := hne
    rcases lt_or_ge (announced order input) 0 with hneg | hnn
    · have hrun := recvLenData_negative order site.bufSize hlen hneg
      have hsize := ((h [4]).size _ _ hrun).1
      exact absurd hsize (not_le.mpr hneg)
    · -- a frame that is too long: its first byte is stored all the same
      have hover := hfit hnn
      have hfive : 5 ≤ input.length := by
        have hne := hbody hover
        omega
      have hrej := (h [4, 1]).rejected hlen (by omega)
      rw [recvLenData_stores order _ hfive (by omega)] at hrej
      have hone : ((input.drop 4).take 1).length = 1 := by
        rw [List.length_take, List.length_drop]
        omega
      obtain ⟨b, hb⟩ := List.length_eq_one_iff.mp hone
      rw [hb] at hrej
      exact absurd hrej (by simp [storesFrom])
  · intro h ds
    have hstores := recvLenData_storesOf order site.bufSize input ds
    refine ⟨?_, ?_, ?_⟩
    · intro s hs
      rcases hstores with hnil | ⟨hlen, k, hk, hstores⟩
      · simp [hnil] at hs
      · rw [hstores] at hs
        have hoff := storesFrom_offset hs
        rw [List.length_take, List.length_drop] at hoff
        omega
    · intro r ds' hrun
      obtain ⟨hlen, hbody, rfl⟩ := (recvLenData_ends order site.bufSize input ds).1 r ds' hrun
      simp only
      omega
    · intro hlen hfit
      rcases hstores with hnil | ⟨_, k, hk, hstores⟩
      · exact hnil
      · obtain rfl : k = 0 := by omega
        rw [hstores, List.take_zero, storesFrom]

/-- Five hundred and thirteen bytes for the enclave's buffer of 512: the last one is stored behind it;
    and a negative length is returned as the size. -/
theorem staysWithin_fails :
    (∃ s ∈ storesOf (recvLenData .little 512 ([1, 2, 0, 0] ++ List.replicate 513 7) [4, 513]),
      ¬ s.1 < RecvSite.responseOffload.bufSize) ∧
    (∃ r ds, recvLenData .little 512 [255, 255, 255, 255] [4] = .ok (r, ds) ∧ r.size = -1) ∧
    ¬ ∀ input ds, StaysWithin .little RecvSite.responseOffload.bufSize input
      (recvLenData .little RecvSite.responseOffload.bufSize input ds) := by
  have hstore : ∃ s ∈ storesOf (recvLenData .little 512 ([1, 2, 0, 0] ++ List.replicate 513 7)
      [4, 513]), ¬ s.1 < RecvSite.responseOffload.bufSize := by decide +kernel
  refine ⟨hstore, ⟨⟨-1, [], []⟩, [], by decide +kernel, rfl⟩, ?_⟩
  intro h
  obtain ⟨s, hs, hlt⟩ := hstore
  exact hlt ((h _ _).offsets s hs)

end MutualEdge.Sgx
