import MutualEdge.Generators

/-! The rows of networks and commanders that gasgen writes, and that gastask reads them back. -/

namespace MutualEdge.Gasgen
open Checks Choice LineReader Scanf

/-! ### One row -/

section Row
variable {first second : ℕ}

/-- The row without its newline. -/
theorem rowText_eq (first second : ℕ) :
    rowText first second = (Printf.unsigned first ++ ' ' :: Printf.unsigned second) ++ ['\n'] := by
  simp [rowText]

theorem inNumbers_row {ch : Char} (h : ch ∈ Printf.unsigned first ++ ' ' :: Printf.unsigned second) :
    InNumbers ch := by
  rcases List.mem_append.mp h with h | h
  · exact .inl (Printf.isDigit_unsigned h)
  · rcases List.mem_cons.mp h with rfl | h
    · exact .inr (.inl rfl)
    · exact .inl (Printf.isDigit_unsigned h)

theorem dataLine_rowText (h1 : first < 2 ^ 32) (h2 : second < 2 ^ 32) :
    DataLine (rowText first second) := by
  have hlength : (rowText first second).length < bufSize := by
    have hfirst : (Printf.unsigned first).length ≤ 10 :=
      Printf.length_unsigned (by decide) (h1.trans (by norm_num))
    have hsecond : (Printf.unsigned second).length ≤ 10 :=
      Printf.length_unsigned (by decide) (h2.trans (by norm_num))
    simp only [rowText, List.length_append, List.length_cons, List.length_nil, bufSize]
    omega
  have hkind : lineKind (rowText first second) = .data := lineKind_unsigned _ _
  rw [rowText_eq] at hlength hkind ⊢
  exact dataLine_row (fun ch hch => inNumbers_row hch) hlength hkind

/-- `sscanf` with `%u %u` finds the two values again. -/
theorem sscanf_rowText (double : List Char → Option (ℚ × List Char)) (h1 : first < 2 ^ 32)
    (h2 : second < 2 ^ 32) :
    sscanf double [.u, .u] (cstr (rowText first second)) = [.u first, .u second] := by
  have hcstr : cstr (rowText first second) = rowText first second := by
    rw [rowText_eq]
    exact cstr_row fun ch hch => inNumbers_row hch
  rw [hcstr, rowText, Printf.sscanf_unsigned _ _ h1 (show Printf.NoDigit (' ' :: _) from rfl),
    Printf.sscanf_blank, Printf.sscanf_unsigned _ _ h2 (show Printf.NoDigit ['\n'] from rfl)]
  rfl

end Row

/-! ### The files -/

theorem below_genRows {α : Type} {doGen : Rand α} {P : α → Prop} (h : Below randBound doGen P) (n : ℕ) :
    Below randBound (genRows doGen n) fun rows => rows.length = n ∧ ∀ r ∈ rows, P r := by
  induction n with
  | zero => exact Below.pure ⟨rfl, by simp⟩
  | succ n ih =>
    refine h.bind fun a ha => ih.bind fun rows hrows => Below.pure ⟨by rw [List.length_cons, hrows.1], ?_⟩
    intro r hr
    rcases List.mem_cons.mp hr with rfl | hr
    · exact ha
    · exact hrows.2 r hr

end MutualEdge.Gasgen
