import Mathlib.Algebra.Order.Floor.Ring
import Mathlib.Data.Rat.Floor
import Mathlib.Tactic.Linarith
import Mathlib.Tactic.Positivity
import Mathlib.Tactic.Ring
import MutualEdge.Lib.Scanf

/-! `printf` with the conversions `%u`, `%d` and `%lf`, and what `sscanf` reads back of them.

    `%lf` writes six decimals of the nearest multiple of `10 ^ -6`, of two equally near ones the even
    one. A number is read back exactly as it was written when the text goes on with something that is
    not part of a number. -/

namespace Printf
open Scanf

/-- `%u` -/
def unsigned (n : ℕ) : List Char := Nat.toDigits 10 n

/-- `%d` -/
def int (n : ℤ) : List Char := if n < 0 then '-' :: unsigned n.natAbs else unsigned n.natAbs

/-- The last `k` decimal digits of `n`. -/
def lastDigits : ℕ → ℕ → List Char
  | 0, _ => []
  | k + 1, n => lastDigits k (n / 10) ++ [Nat.digitChar (n % 10)]

/-- The nearest natural number to `x ≥ 0`. -/
def roundEven (x : ℚ) : ℕ :=
  let n := ⌊x⌋₊
  if x - n < 1 / 2 then n
  else if 1 / 2 < x - n then n + 1
  else if n % 2 = 0 then n else n + 1

/-- `%lf` -/
def double (x : ℚ) : List Char :=
  let n := roundEven (|x| * 10 ^ 6)
  (if x < 0 then ['-'] else []) ++ (unsigned (n / 10 ^ 6) ++ '.' :: lastDigits 6 n)

/-! ### Digits -/

theorem isDigit_unsigned {n : ℕ} {c : Char} (hc : c ∈ unsigned n) : c.isDigit = true :=
  Nat.isDigit_of_mem_toDigits (by decide) (by decide) hc

theorem unsigned_ne_nil (n : ℕ) : unsigned n ≠ [] := Nat.toDigits_ne_nil

theorem digitsValue_unsigned (n : ℕ) : digitsValue (unsigned n) = n :=
  Nat.ofDigitChars_toDigits (by decide) (by decide)

theorem digitChar_mod_ten (n : ℕ) :
    (Nat.digitChar (n % 10)).isDigit = true ∧ (Nat.digitChar (n % 10)).toNat - '0'.toNat = n % 10 := by
  have h : ∀ d < 10, (Nat.digitChar d).isDigit = true ∧ (Nat.digitChar d).toNat - '0'.toNat = d := by
    decide
  exact h _ (Nat.mod_lt n (by decide))

theorem isDigit_lastDigits {k n : ℕ} {c : Char} (hc : c ∈ lastDigits k n) : c.isDigit = true := by
  induction k generalizing n with
  | zero => cases hc
  | succ k ih =>
    rcases List.mem_append.mp hc with hc | hc
    · exact ih hc
    · obtain rfl := List.mem_singleton.mp hc
      exact (digitChar_mod_ten n).1

@[simp] theorem length_lastDigits (k n : ℕ) : (lastDigits k n).length = k := by
  induction k generalizing n with
  | zero => rfl
  | succ k ih => rw [lastDigits, List.length_append, ih, List.length_singleton]

theorem digitsValue_append_lastDigits (l : List Char) (k n : ℕ) :
    digitsValue (l ++ lastDigits k n) = digitsValue l * 10 ^ k + n % 10 ^ k := by
  induction k generalizing n with
  | zero => simp [lastDigits, Nat.mod_one]
  | succ k ih =>
    have hlast : digitsValue (l ++ lastDigits k (n / 10) ++ [Nat.digitChar (n % 10)]) =
        10 * digitsValue (l ++ lastDigits k (n / 10)) + n % 10 := by
      rw [digitsValue, List.foldl_append, List.foldl_cons, List.foldl_nil, (digitChar_mod_ten n).2]
      rfl
    have hmod : n % 10 ^ (k + 1) = n % 10 + 10 * (n / 10 % 10 ^ k) := by
      rw [pow_succ', Nat.mod_mul]
    rw [lastDigits, ← List.append_assoc, hlast, ih, hmod, pow_succ']
    ring

/-- The text goes on with something that is not a digit. -/
def NoDigit (rest : List Char) : Prop := rest.takeWhile Char.isDigit = []

theorem NoDigit.dropWhile {rest : List Char} (h : NoDigit rest) : rest.dropWhile Char.isDigit = rest := by
  have := List.takeWhile_append_dropWhile (p := Char.isDigit) (l := rest)
  rwa [show rest.takeWhile Char.isDigit = [] from h, List.nil_append] at this

theorem span_digits (ds : List Char) {rest : List Char} (hds : ∀ c ∈ ds, c.isDigit = true) (hrest : NoDigit rest) :
    (ds ++ rest).takeWhile Char.isDigit = ds ∧ (ds ++ rest).dropWhile Char.isDigit = rest := by
  rw [List.takeWhile_append_of_pos hds, List.dropWhile_append_of_pos hds, hrest.dropWhile,
    show rest.takeWhile Char.isDigit = [] from hrest, List.append_nil]
  exact ⟨rfl, rfl⟩

/-- A text that starts with a digit has no sign. -/
theorem sign_digits {ds : List Char} (rest : List Char) (hne : ds ≠ []) (hds : ∀ c ∈ ds, c.isDigit = true) :
    sign (ds ++ rest) = (false, ds ++ rest) := by
  obtain ⟨c, ds, rfl⟩ := List.exists_cons_of_ne_nil hne
  have hc := hds c List.mem_cons_self
  have hminus : c ≠ '-' := by
    rintro rfl
    exact absurd hc (by decide)
  have hplus : c ≠ '+' := by
    rintro rfl
    exact absurd hc (by decide)
  rw [List.cons_append, sign]
  · intro cs h
    exact hminus (List.cons.inj h).1
  · intro cs h
    exact hplus (List.cons.inj h).1

/-! ### Reading back -/

/-- `%u` reads what `%u` wrote. -/
theorem read_unsigned {n : ℕ} {rest : List Char} (hn : n < 2 ^ 32) (hrest : NoDigit rest) :
    Scanf.unsigned (unsigned n ++ rest) = some (n, rest) := by
  obtain ⟨htake, hdrop⟩ := span_digits (unsigned n) (fun _ => isDigit_unsigned) hrest
  have hlt : n < 2 ^ 64 := lt_trans hn (by norm_num)
  rw [Scanf.unsigned, sign_digits rest (unsigned_ne_nil n) fun _ => isDigit_unsigned]
  simp only [htake, hdrop, if_neg (unsigned_ne_nil n), digitsValue_unsigned, if_neg (not_le.mpr hlt),
    Bool.false_eq_true, if_false, Nat.mod_eq_of_lt hn]

theorem roundEven_near {x : ℚ} (hx : 0 ≤ x) : |(roundEven x : ℚ) - x| ≤ 1 / 2 := by
  have hle := Nat.floor_le hx
  have hlt := Nat.lt_floor_add_one x
  rw [abs_le]
  unfold roundEven
  dsimp only
  split
  · constructor <;> linarith
  · split
    · push_cast
      constructor <;> linarith
    · split
      · constructor <;> linarith
      · push_cast
        constructor <;> linarith

/-- What `%lf` writes stands for the nearest multiple of `10 ^ -6`. -/
def printed (x : ℚ) : ℚ :=
  let y := (roundEven (|x| * 10 ^ 6) : ℚ) / 10 ^ 6
  if x < 0 then -y else y

theorem printed_near (x : ℚ) : |printed x - x| ≤ 1 / 2 / 10 ^ 6 := by
  have hround := roundEven_near (show 0 ≤ |x| * 10 ^ 6 by positivity)
  have hscale : (roundEven (|x| * 10 ^ 6) : ℚ) - |x| * 10 ^ 6 =
      ((roundEven (|x| * 10 ^ 6) : ℚ) / 10 ^ 6 - |x|) * 10 ^ 6 := by ring
  rw [hscale, abs_mul, abs_of_pos (by positivity : (0 : ℚ) < 10 ^ 6), ← le_div_iff₀ (by positivity)]
    at hround
  unfold printed
  dsimp only
  generalize (roundEven (|x| * 10 ^ 6) : ℚ) / 10 ^ 6 = y at hround
  by_cases hx : x < 0
  · rw [abs_of_neg hx] at hround
    rw [if_pos hx, show -y - x = -(y - -x) by ring, abs_neg]
    exact hround
  · rw [abs_of_nonneg (not_lt.mp hx)] at hround
    rwa [if_neg hx]

/-- A multiple of `10 ^ -6` is printed as it is. -/
theorem printed_exact {x : ℚ} {n : ℕ} (h : x * 10 ^ 6 = n) : printed x = x := by
  have hx : 0 ≤ x := by
    have : (0 : ℚ) ≤ x * 10 ^ 6 := h ▸ n.cast_nonneg
    exact nonneg_of_mul_nonneg_left this (by norm_num)
  have hround : roundEven (|x| * 10 ^ 6) = n := by
    rw [abs_of_nonneg hx, h]
    simp [roundEven]
  rw [printed, hround, if_neg (not_lt.mpr hx), ← h]
  exact mul_div_cancel_right₀ x (by norm_num)

/-- Reading digits, a point and digits. -/
theorem decimal_of_digits {cs whole frac rest : List Char} {neg : Bool}
    (hcs : sign cs = (neg, whole ++ '.' :: (frac ++ rest))) (hne : whole ≠ [])
    (hw : ∀ c ∈ whole, c.isDigit = true) (hf : ∀ c ∈ frac, c.isDigit = true) (hrest : NoDigit rest) :
    decimal cs = some (if neg then -mkRat (digitsValue (whole ++ frac)) (10 ^ frac.length)
      else mkRat (digitsValue (whole ++ frac)) (10 ^ frac.length), rest) := by
  have hpoint : NoDigit ('.' :: (frac ++ rest)) := rfl
  obtain ⟨hwtake, hwdrop⟩ := span_digits whole hw hpoint
  obtain ⟨hftake, hfdrop⟩ := span_digits frac hf hrest
  rw [decimal, hcs]
  simp only [hwtake, hwdrop, hftake, hfdrop, hne, false_and, if_false]

/-- `%lf` reads what `%lf` wrote, up to the rounding. -/
theorem read_double (x : ℚ) {rest : List Char} (hrest : NoDigit rest) :
    decimal (double x ++ rest) = some (printed x, rest) := by
  unfold double printed
  dsimp only
  generalize roundEven (|x| * 10 ^ 6) = n
  have hvalue : mkRat (digitsValue (unsigned (n / 10 ^ 6) ++ lastDigits 6 n))
      (10 ^ (lastDigits 6 n).length) = (n : ℚ) / 10 ^ 6 := by
    rw [digitsValue_append_lastDigits, digitsValue_unsigned, Nat.div_add_mod', length_lastDigits,
      Rat.mkRat_eq_div]
    push_cast
    rfl
  have hne := unsigned_ne_nil (n / 10 ^ 6)
  have hpos := sign_digits ('.' :: (lastDigits 6 n ++ rest)) hne fun _ => isDigit_unsigned
  by_cases hx : x < 0
  · have hsign : sign (['-'] ++ (unsigned (n / 10 ^ 6) ++ '.' :: lastDigits 6 n) ++ rest) =
        (true, unsigned (n / 10 ^ 6) ++ '.' :: (lastDigits 6 n ++ rest)) := by simp [sign]
    rw [if_pos hx, if_pos hx, ← hvalue]
    exact decimal_of_digits hsign hne (fun _ => isDigit_unsigned) (fun _ => isDigit_lastDigits) hrest
  · have hsign : sign ([] ++ (unsigned (n / 10 ^ 6) ++ '.' :: lastDigits 6 n) ++ rest) =
        (false, unsigned (n / 10 ^ 6) ++ '.' :: (lastDigits 6 n ++ rest)) := by simpa using hpos
    rw [if_neg hx, if_neg hx, ← hvalue]
    exact decimal_of_digits hsign hne (fun _ => isDigit_unsigned) (fun _ => isDigit_lastDigits) hrest

/-! ### Reading a line back -/

theorem isSpace_of_isDigit {c : Char} (h : c.isDigit = true) : isSpace c = false := by
  have hlow : (48 : UInt32) ≤ c.val := by
    simp only [Char.isDigit, Bool.and_eq_true, decide_eq_true_eq] at h
    exact h.1
  have hlow : 48 ≤ c.toNat := UInt32.le_iff_toNat_le.mp hlow
  have hspace : c ≠ ' ' := by
    rintro rfl
    exact absurd hlow (by decide)
  have hcr : ¬ c ≤ '\r' := by
    intro hle
    have hle : c.toNat ≤ 13 := UInt32.le_iff_toNat_le.mp hle
    omega
  simp [isSpace, hspace, hcr]

theorem dropWhile_isSpace {c : Char} (h : isSpace c = false) (cs : List Char) :
    (c :: cs).dropWhile isSpace = c :: cs := by
  rw [List.dropWhile_cons, if_neg (by simp [h])]

/-- The blank that a format prints between two numbers is skipped. -/
theorem sscanf_blank (read : List Char → Option (ℚ × List Char)) (c : Conv) (fmt : List Conv)
    (cs : List Char) : sscanf read (c :: fmt) (' ' :: cs) = sscanf read (c :: fmt) cs := by
  rw [sscanf, sscanf, List.dropWhile_cons, if_pos (by decide)]

theorem sscanf_unsigned (read : List Char → Option (ℚ × List Char)) (fmt : List Conv) {n : ℕ}
    {rest : List Char} (hn : n < 2 ^ 32) (hrest : NoDigit rest) :
    sscanf read (.u :: fmt) (unsigned n ++ rest) = .u n :: sscanf read fmt rest := by
  obtain ⟨c, cs, hcs⟩ := List.exists_cons_of_ne_nil (unsigned_ne_nil n)
  have hc := isSpace_of_isDigit (isDigit_unsigned (n := n) (hcs ▸ List.mem_cons_self))
  have hdrop : (unsigned n ++ rest).dropWhile isSpace = unsigned n ++ rest := by
    rw [hcs, List.cons_append, dropWhile_isSpace hc]
  rw [sscanf, hdrop, Conv.read, read_unsigned hn hrest]
  rfl

theorem sscanf_double (fmt : List Conv) (x : ℚ) {rest : List Char} (hrest : NoDigit rest) :
    sscanf decimal (.lf :: fmt) (double x ++ rest) = .lf (printed x) :: sscanf decimal fmt rest := by
  have hdrop : (double x ++ rest).dropWhile isSpace = double x ++ rest := by
    obtain ⟨c, cs, hcs⟩ := List.exists_cons_of_ne_nil
      (unsigned_ne_nil (roundEven (|x| * 10 ^ 6) / 10 ^ 6))
    have hc := isSpace_of_isDigit (isDigit_unsigned (hcs ▸ List.mem_cons_self))
    unfold double
    dsimp only
    split
    · exact dropWhile_isSpace (by decide) _
    · rw [hcs]
      exact dropWhile_isSpace hc _
  rw [sscanf, hdrop, Conv.read, read_double x hrest]
  rfl

/-! ### What is printed -/

theorem mem_double {x : ℚ} {c : Char} (hc : c ∈ double x) : c.isDigit = true ∨ c = '-' ∨ c = '.' := by
  unfold double at hc
  dsimp only at hc
  rcases List.mem_append.mp hc with hc | hc
  · split at hc
    · exact .inr (.inl (List.mem_singleton.mp hc))
    · cases hc
  · rcases List.mem_append.mp hc with hc | hc
    · exact .inl (isDigit_unsigned hc)
    · rcases List.mem_cons.mp hc with hc | hc
      · exact .inr (.inr hc)
      · exact .inl (isDigit_lastDigits hc)

theorem length_unsigned {n k : ℕ} (hk : 0 < k) (hn : n < 10 ^ k) : (unsigned n).length ≤ k :=
  (Nat.length_toDigits_le_iff (by decide) hk).mpr hn

theorem length_double {x : ℚ} {k : ℕ} (hk : 0 < k)
    (hx : roundEven (|x| * 10 ^ 6) < 10 ^ k * 10 ^ 6) : (double x).length ≤ k + 8 := by
  have hwhole := length_unsigned hk (Nat.div_lt_of_lt_mul (by rwa [Nat.mul_comm]))
  unfold double
  dsimp only
  rw [List.length_append, List.length_append, List.length_cons, length_lastDigits]
  split
  · rw [List.length_singleton]
    omega
  · rw [List.length_nil]
    omega

end Printf
