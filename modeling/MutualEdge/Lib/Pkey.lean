import MutualEdge.Lib.Bytes

/-! Public-key encryption through a library that is called twice.

    A call without an output buffer stores the size of a block in the caller's length variable; the call
    that follows writes at most that many bytes. A call that fails puts an error into a queue and leaves
    the buffer and the length as they are, so after a failure the length is that of the size query. -/

namespace Pkey
open Bytes

/-- Randomised encryption; `none` is the failure of a call. -/
structure Scheme (Key Seed : Type) where
  /-- The size of a block under the key. -/
  size : Key → ℕ
  encrypt : Key → Seed → List UInt8 → Option (List UInt8)
  decrypt : Key → List UInt8 → Option (List UInt8)

variable {Key Seed : Type}

/-- The padding takes `overhead` bytes of a block: longer messages are refused, all others come back. -/
structure Scheme.Correct (S : Scheme Key Seed) (overhead : ℕ) : Prop where
  encrypts : ∀ k r m, m.length + overhead ≤ S.size k → ∃ c, S.encrypt k r m = some c
  limit : ∀ k r m c, S.encrypt k r m = some c → m.length + overhead ≤ S.size k
  block : ∀ k r m c, S.encrypt k r m = some c → c.length = S.size k
  decrypts : ∀ k r m c, S.encrypt k r m = some c → S.decrypt k c = some m
  short : ∀ k c m, S.decrypt k c = some m → m.length + overhead ≤ S.size k

/-! ### The error queue -/

/-- The errors of a process: those in the queue and those that it has printed. -/
structure Errors where
  queued : ℕ := 0
  printed : ℕ := 0
  deriving DecidableEq

namespace Errors

/-- All errors there have been. -/
def raised (e : Errors) : ℕ := e.queued + e.printed

def raise (e : Errors) : Errors := { e with queued := e.queued + 1 }

/-- Print the queue and clear it. -/
def print (e : Errors) : Errors := ⟨0, e.printed + e.queued⟩

@[simp] theorem printed_raise (e : Errors) : e.raise.printed = e.printed := rfl

@[simp] theorem raised_print (e : Errors) : e.print.raised = e.raised := by
  simp only [raised, print]
  omega

@[simp] theorem printed_print (e : Errors) : e.print.printed = e.raised := Nat.add_comm _ _

end Errors

/-! ### Calls -/

/-- What a call can change: the caller's buffer, its length variable and the errors. -/
structure Call where
  buf : List UInt8
  len : ℕ := 0
  errors : Errors
  deriving DecidableEq

/-- The call without a buffer, then the call with one, whose outcome is `result`. -/
def twoPhase (size : ℕ) (result : Option (List UInt8)) (c : Call) : Call :=
  match result with
  | some out => ⟨fill c.buf (storesFrom 0 out), out.length, c.errors⟩
  | none => ⟨c.buf, size, c.errors.raise⟩

def encryptCall (S : Scheme Key Seed) (k : Key) (r : Seed) (m : List UInt8) (c : Call) : Call :=
  twoPhase (S.size k) (S.encrypt k r m) c

def decryptCall (S : Scheme Key Seed) (k : Key) (block : List UInt8) (c : Call) : Call :=
  twoPhase (S.size k) (S.decrypt k block) c

/-- What the caller takes for the output. -/
def Call.output (c : Call) : List UInt8 := c.buf.take c.len

section Calls
variable {S : Scheme Key Seed} {overhead : ℕ} {k : Key} {r : Seed} {m : List UInt8} {c : Call}

@[simp] theorem length_fill (buf : List UInt8) (stores : List (ℕ × UInt8)) :
    (fill buf stores).length = buf.length := by
  induction stores generalizing buf with
  | nil => rfl
  | cons s stores ih => exact (ih _).trans List.length_set

@[simp] theorem length_buf_twoPhase (size : ℕ) (result : Option (List UInt8)) (c : Call) :
    (twoPhase size result c).buf.length = c.buf.length := by
  cases result <;> simp [twoPhase]

/-- No call prints. -/
@[simp] theorem printed_twoPhase (size : ℕ) (result : Option (List UInt8)) (c : Call) :
    (twoPhase size result c).errors.printed = c.errors.printed := by
  cases result <;> simp [twoPhase]

/-- A failed encryption, too, leaves the size of a block. -/
theorem len_encryptCall (hS : S.Correct overhead) : (encryptCall S k r m c).len = S.size k := by
  unfold encryptCall
  cases henc : S.encrypt k r m with
  | some out => exact hS.block k r m out henc
  | none => rfl

/-- The block that is sent, whether the encryption has failed or not. -/
theorem length_output_encryptCall (hS : S.Correct overhead) (hbuf : S.size k ≤ c.buf.length) :
    (encryptCall S k r m c).output.length = S.size k := by
  have hlen : (encryptCall S k r m c).buf.length = c.buf.length := length_buf_twoPhase _ _ _
  rw [Call.output, List.length_take, len_encryptCall hS, hlen]
  omega

/-- A message within the limit is in the block, and there is no error. -/
theorem encryptCall_within (hS : S.Correct overhead) (hbuf : S.size k ≤ c.buf.length)
    (hm : m.length + overhead ≤ S.size k) :
    S.decrypt k (encryptCall S k r m c).output = some m ∧
      (encryptCall S k r m c).errors = c.errors := by
  obtain ⟨out, henc⟩ := hS.encrypts k r m hm
  have hsize : out.length ≤ c.buf.length := (hS.block k r m out henc).trans_le hbuf
  have houtput : (encryptCall S k r m c).output = out := by
    rw [Call.output, encryptCall, henc, twoPhase, fill_eq hsize, List.take_left' rfl]
  refine ⟨houtput ▸ hS.decrypts k r m out henc, ?_⟩
  rw [encryptCall, henc, twoPhase]

/-- A successful decryption leaves the message in front of what was in the buffer. -/
theorem decryptCall_some {block : List UInt8} (h : S.decrypt k block = some m)
    (hbuf : m.length ≤ c.buf.length) :
    (decryptCall S k block c).buf = m ++ c.buf.drop m.length ∧
      (decryptCall S k block c).errors = c.errors := by
  rw [decryptCall, h, twoPhase]
  exact ⟨fill_eq hbuf, rfl⟩

/-- Whatever block is decrypted, the buffer gets a message within the limit or keeps what it has. -/
theorem decryptCall_buf (hS : S.Correct overhead) (block : List UInt8)
    (hbuf : S.size k ≤ c.buf.length) (hroom : overhead ≤ S.size k) :
    ∃ out : List UInt8, out.length + overhead ≤ S.size k ∧
      (decryptCall S k block c).buf = out ++ c.buf.drop out.length := by
  cases hdec : S.decrypt k block with
  | some out =>
    have hshort := hS.short k block out hdec
    exact ⟨out, hshort, (decryptCall_some hdec (by omega)).1⟩
  | none => exact ⟨[], by simpa using hroom, by simp [decryptCall, hdec, twoPhase]⟩

end Calls

end Pkey
