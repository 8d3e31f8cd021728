import Mathlib.Algebra.Order.Ring.Nat
import Mathlib.Tactic.Common

/-! Numbers as bytes, least significant byte first, and stores into a buffer. -/

namespace Bytes

/-- The `n` low bytes of a number. -/
def leBytes : ℕ → ℕ → List UInt8
  | 0, _ => []
  | n + 1, v => UInt8.ofNat v :: leBytes n (v / 256)

/-- The number a list of bytes stands for. -/
def leValue : List UInt8 → ℕ
  | [] => 0
  | b :: bs => b.toNat + 256 * leValue bs

@[simp] theorem length_leBytes (n v : ℕ) : (leBytes n v).length = n := by
  induction n generalizing v with
  | zero => rfl
  | succ n ih => exact congrArg (· + 1) (ih (v / 256))

/-- A number that fits comes back. -/
theorem leValue_leBytes {n v : ℕ} (h : v < 256 ^ n) : leValue (leBytes n v) = v := by
  induction n generalizing v with
  | zero =>
    rw [Nat.pow_zero] at h
    show 0 = v
    omega
  | succ n ih =>
    have hdiv : v / 256 < 256 ^ n := Nat.div_lt_of_lt_mul (by rw [← Nat.pow_succ']; exact h)
    rw [leBytes, leValue, ih hdiv, UInt8.toNat_ofNat']
    exact Nat.mod_add_div v 256

/-! ### Stores -/

/-- Write each byte at its offset; an offset behind the end writes nothing. -/
def fill (buf : List UInt8) (stores : List (ℕ × UInt8)) : List UInt8 :=
  stores.foldl (fun b s => b.set s.1 s.2) buf

/-- The stores of the bytes `bs` from offset `k` on. -/
def storesFrom : ℕ → List UInt8 → List (ℕ × UInt8)
  | _, [] => []
  | k, b :: bs => (k, b) :: storesFrom (k + 1) bs

theorem storesFrom_append (k : ℕ) (bs cs : List UInt8) :
    storesFrom k (bs ++ cs) = storesFrom k bs ++ storesFrom (k + bs.length) cs := by
  induction bs generalizing k with
  | nil => rfl
  | cons b bs ih =>
    rw [List.cons_append, storesFrom, ih (k + 1), storesFrom, List.cons_append, List.length_cons]
    congr 3
    omega

/-- The offsets written run from `k` up. -/
theorem storesFrom_offset {k : ℕ} {bs : List UInt8} {s : ℕ × UInt8} (h : s ∈ storesFrom k bs) :
    s.1 < k + bs.length := by
  induction bs generalizing k with
  | nil => cases h
  | cons b bs ih =>
    rw [List.length_cons]
    rcases List.mem_cons.mp h with rfl | h
    · show k < k + (bs.length + 1)
      omega
    · have hlt := ih h
      omega

/-- Stores at the end of what is already there extend it. -/
theorem fill_storesFrom : ∀ (bs front back : List UInt8), bs.length ≤ back.length →
    fill (front ++ back) (storesFrom front.length bs) = front ++ bs ++ back.drop bs.length
  | [], front, back, _ => by simp [fill, storesFrom]
  | b :: bs, front, c :: back, h => by
    rw [List.length_cons, List.length_cons] at h
    have hset : (front ++ c :: back).set front.length b = (front ++ [b]) ++ back := by simp
    have hlen : (front ++ [b]).length = front.length + 1 := by simp
    have ih := fill_storesFrom bs (front ++ [b]) back (by omega)
    rw [hlen] at ih
    unfold fill at ih ⊢
    rw [storesFrom, List.foldl_cons, hset, ih]
    simp

/-- A buffer with room holds the bytes in front and keeps the rest. -/
theorem fill_eq {bs buf : List UInt8} (h : bs.length ≤ buf.length) :
    fill buf (storesFrom 0 bs) = bs ++ buf.drop bs.length := fill_storesFrom bs [] buf h

end Bytes
