import MutualEdge.GenTask

/-! Lines of numbers as gasgen writes them: they are data lines to the section readers. -/

namespace MutualEdge.Gasgen
open Checks Choice LineReader Scanf

/-- What stands in the lines: digits, blanks, minus signs and points. -/
def InNumbers (ch : Char) : Prop := ch.isDigit = true ∨ ch = ' ' ∨ ch = '-' ∨ ch = '.'

theorem not_inNumbers {ch : Char} (h : ch = '\n' ∨ ch = '\x00') : ¬ InNumbers ch := by
  rcases h with rfl | rfl
  · unfold InNumbers
    decide
  · unfold InNumbers
    decide

/-- `fgets` hands the line over in one piece, wherever it stands, and it is neither a header nor a
    comment. -/
structure DataLine (text : List Char) : Prop where
  line : ∀ rest, lines (text ++ rest) = text :: lines rest
  fits : Fits bufSize [text]
  data : lineKind text = .data

/-- A line that begins with a number is a data line. -/
theorem lineKind_unsigned (n : ℕ) (rest : List Char) :
    lineKind (Printf.unsigned n ++ rest) = .data := by
  obtain ⟨ch, cs, hcs⟩ := List.exists_cons_of_ne_nil (Printf.unsigned_ne_nil n)
  have hdigit : ch.isDigit = true := Printf.isDigit_unsigned (hcs ▸ List.mem_cons_self)
  rw [hcs, List.cons_append, lineKind]
  all_goals
    rintro _ he
    obtain ⟨rfl, _⟩ := List.cons.inj he
    exact absurd hdigit (by decide)

section Words
variable {words : List Char}

theorem nul_not_mem_row (h : ∀ ch ∈ words, InNumbers ch) : '\x00' ∉ words ++ ['\n'] := by
  intro hmem
  rcases List.mem_append.mp hmem with hmem | hmem
  · exact not_inNumbers (.inr rfl) (h _ hmem)
  · exact absurd hmem (by decide)

/-- `sscanf` sees the whole line. -/
theorem cstr_row (h : ∀ ch ∈ words, InNumbers ch) : cstr (words ++ ['\n']) = words ++ ['\n'] := by
  rw [cstr, List.takeWhile_eq_self_iff]
  intro ch hch
  refine decide_eq_true ?_
  rintro rfl
  exact nul_not_mem_row h hch

theorem dataLine_row (h : ∀ ch ∈ words, InNumbers ch) (hlen : (words ++ ['\n']).length < bufSize)
    (hkind : lineKind (words ++ ['\n']) = .data) : DataLine (words ++ ['\n']) where
  line rest := by
    have hnewline : '\n' ∉ words := fun hmem => not_inNumbers (.inl rfl) (h _ hmem)
    rw [List.append_assoc, List.singleton_append, lines_append hnewline]
  fits l hl := by
    obtain rfl := List.mem_singleton.mp hl
    exact ⟨hlen, nul_not_mem_row h⟩
  data := hkind

end Words

end MutualEdge.Gasgen
