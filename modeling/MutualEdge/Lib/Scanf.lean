import Mathlib.Algebra.Order.Field.Rat

/-! `sscanf` with the conversions `%s`, `%u` and `%lf`, on the C string in a buffer.

    How a floating-point number is read is left open (`double`): what it returns is the value the rest
    of a program computes with. `decimal` reads the plain decimal form exactly. -/

namespace Scanf

/-- A conversion of a format; the blanks between conversions skip blanks, as each of these does. -/
inductive Conv where
  | s
  | u
  | lf
  deriving DecidableEq

/-- What a conversion stores. -/
inductive Value where
  | s (text : String)
  | u (n : ℕ)
  | lf (x : ℚ)
  deriving DecidableEq

/-- The C string in a buffer: what stands before the first NUL. -/
def cstr (buf : List Char) : List Char := buf.takeWhile (· ≠ '\x00')

/-- `isspace` -/
def isSpace (c : Char) : Bool := c = ' ' || ('\t' ≤ c && c ≤ '\r')

def digitsValue (ds : List Char) : ℕ := ds.foldl (fun n d => 10 * n + (d.toNat - '0'.toNat)) 0

/-- An optional sign: whether it is a minus, and what follows. -/
def sign : List Char → Bool × List Char
  | '-' :: cs => (true, cs)
  | '+' :: cs => (false, cs)
  | cs => (false, cs)

/-- `%u`: `strtoul` on a 64-bit `unsigned long`, cut to the 32 bits of an `unsigned`. -/
def unsigned (cs : List Char) : Option (ℕ × List Char) :=
  let (neg, cs) := sign cs
  let ds := cs.takeWhile Char.isDigit
  if ds = [] then none
  else
    let n := digitsValue ds
    let v := if 2 ^ 64 ≤ n then 2 ^ 64 - 1 else if neg then 2 ^ 64 - n else n
    some (v % 2 ^ 32, cs.dropWhile Char.isDigit)

/-- A number written as digits with an optional point. -/
def decimal (cs : List Char) : Option (ℚ × List Char) :=
  let (neg, cs) := sign cs
  let whole := cs.takeWhile Char.isDigit
  let (frac, rest) := match cs.dropWhile Char.isDigit with
    | '.' :: cs => (cs.takeWhile Char.isDigit, cs.dropWhile Char.isDigit)
    | cs => ([], cs)
  if whole = [] ∧ frac = [] then none
  else
    let x := mkRat (digitsValue (whole ++ frac)) (10 ^ frac.length)
    some (if neg then -x else x, rest)

/-- One conversion, on text without leading blanks. -/
def Conv.read (double : List Char → Option (ℚ × List Char)) : Conv → List Char →
    Option (Value × List Char)
  | .s, cs =>
    let word := cs.takeWhile (!isSpace ·)
    if word = [] then none else some (.s (String.ofList word), cs.dropWhile (!isSpace ·))
  | .u, cs => (unsigned cs).map fun (n, cs) => (.u n, cs)
  | .lf, cs => (double cs).map fun (x, cs) => (.lf x, cs)

/-- The values that `sscanf(buf, fmt, ...)` assigns, as many as it returns. -/
def sscanf (double : List Char → Option (ℚ × List Char)) : List Conv → List Char → List Value
  | [], _ => []
  | c :: fmt, cs =>
    match c.read double (cs.dropWhile isSpace) with
    | none => []
    | some (v, cs) => v :: sscanf double fmt cs

example : sscanf decimal [.s, .u, .lf] "lpddr 1000 0.25 x\n".toList =
    [.s "lpddr", .u 1000, .lf (1 / 4)] := by decide +kernel

/-- What `%u` stores fits in 32 bits. -/
theorem u_lt_of_mem_sscanf {double : List Char → Option (ℚ × List Char)} {fmt : List Conv}
    {cs : List Char} {n : ℕ} (h : .u n ∈ sscanf double fmt cs) : n < 2 ^ 32 := by
  induction fmt generalizing cs with
  | nil => cases h
  | cons c fmt ih =>
    unfold sscanf at h
    cases hread : c.read double (cs.dropWhile isSpace) with
    | none =>
      rw [hread] at h
      cases h
    | some r =>
      obtain ⟨v, rest⟩ := r
      rw [hread] at h
      rcases List.mem_cons.mp h with rfl | h
      · cases c with
        | s =>
          rw [Conv.read] at hread
          split at hread <;> cases hread
        | lf =>
          obtain ⟨_, _, hread⟩ := Option.map_eq_some_iff.mp hread
          cases hread
        | u =>
          obtain ⟨⟨m, _⟩, hm, hread⟩ := Option.map_eq_some_iff.mp hread
          obtain ⟨hmn, _⟩ := Prod.mk.inj hread
          obtain rfl := Value.u.inj hmn
          unfold unsigned at hm
          dsimp only at hm
          split at hm
          · cases hm
          · rw [← (Prod.mk.inj (Option.some.inj hm)).1]
            exact Nat.mod_lt _ (by decide)
      · exact ih h

end Scanf
