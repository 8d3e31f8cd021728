import Mathlib.Data.List.TakeWhile
import Mathlib.Tactic.Common

/-! Files read line by line through a buffer of a fixed size.

    `fgets` hands out the next line of a stream and `back` gives a line back, to be read again. On a
    file whose lines fit the buffer and hold no NUL the stream is the list of its lines: `fgets_cons`
    takes the first one off, and the seek by `strlen` puts it back. -/

namespace LineReader

/-! ### Streams -/

/-- A file open for reading: its bytes and the position of the stream. -/
structure File where
  content : List Char
  pos : ℕ := 0
  deriving DecidableEq

namespace File

/-- What has not been read yet. -/
def rest (f : File) : List Char := f.content.drop f.pos

/-- `fseek(fp, n, SEEK_CUR)` -/
def advance (f : File) (n : ℕ) : File := { f with pos := f.pos + n }

/-- `fseek(fp, -n, SEEK_CUR)` -/
def back (f : File) (n : ℕ) : File := { f with pos := f.pos - n }

@[simp] theorem rest_advance (f : File) (n : ℕ) : (f.advance n).rest = f.rest.drop n := by
  rw [rest, rest, List.drop_drop, advance]

@[simp] theorem back_advance (f : File) (n : ℕ) : (f.advance n).back n = f := by
  rw [back, advance, Nat.add_sub_cancel]

end File

/-- At most `n` characters, through the first newline. -/
def firstLine : ℕ → List Char → List Char
  | 0, _ => []
  | _ + 1, [] => []
  | n + 1, c :: cs => if c = '\n' then [c] else c :: firstLine n cs

/-- `fgets(buf, size, fp)`; `none` at the end of the file. -/
def fgets (size : ℕ) (f : File) : Option (List Char × File) :=
  if f.rest = [] then none
  else some (firstLine (size - 1) f.rest, f.advance (firstLine (size - 1) f.rest).length)

/-- `strlen(buf)` -/
def strlen (buf : List Char) : ℕ := (buf.takeWhile (· ≠ '\x00')).length

theorem strlen_le (buf : List Char) : strlen buf ≤ buf.length :=
  (List.takeWhile_sublist _).length_le

theorem strlen_eq {buf : List Char} (h : '\x00' ∉ buf) : strlen buf = buf.length := by
  rw [strlen, List.takeWhile_eq_self_iff.mpr]
  intro c hc
  exact decide_eq_true fun he => h (he ▸ hc)

theorem firstLine_length_pos {n : ℕ} (hn : 0 < n) {cs : List Char} (h : cs ≠ []) :
    0 < (firstLine n cs).length := by
  obtain ⟨n, rfl⟩ := Nat.exists_eq_succ_of_ne_zero hn.ne'
  obtain ⟨c, cs, rfl⟩ := List.exists_cons_of_ne_nil h
  rw [firstLine]
  split <;> simp

theorem firstLine_length_le : ∀ (n : ℕ) (cs : List Char), (firstLine n cs).length ≤ cs.length
  | 0, cs => Nat.zero_le _
  | n + 1, [] => le_rfl
  | n + 1, c :: cs => by
    rw [firstLine]
    split
    · simp
    · simpa using firstLine_length_le n cs

/-- What a line that was read leaves behind: it moves the stream on, and giving it back does not move
    it further back than it was. -/
theorem fgets_some {size : ℕ} (hsize : 2 ≤ size) {f f' : File} {buf : List Char}
    (h : fgets size f = some (buf, f')) :
    f'.rest.length < f.rest.length ∧ (f'.back (strlen buf)).rest.length ≤ f.rest.length := by
  unfold fgets at h
  split at h
  · cases h
  · rename_i hne
    obtain ⟨rfl, rfl⟩ := Prod.mk.inj (Option.some.inj h)
    have hpos := firstLine_length_pos (n := size - 1) (by omega) hne
    have hle := strlen_le (firstLine (size - 1) f.rest)
    have hlen := firstLine_length_le (size - 1) f.rest
    refine ⟨?_, ?_⟩
    · rw [File.rest_advance, List.length_drop]
      omega
    · simp only [File.rest, File.back, File.advance, List.length_drop] at hlen hle ⊢
      omega

/-! ### Lines -/

/-- The lines of a text, each with its newline; the last one may have none. -/
def lines : List Char → List (List Char)
  | [] => []
  | c :: cs =>
    if c = '\n' then [c] :: lines cs
    else match lines cs with
      | [] => [[c]]
      | l :: ls => (c :: l) :: ls

theorem lines_eq_nil {cs : List Char} (h : lines cs = []) : cs = [] := by
  cases cs with
  | nil => rfl
  | cons c cs =>
    unfold lines at h
    split at h
    · cases h
    · split at h <;> cases h

theorem lines_flatten (cs : List Char) : (lines cs).flatten = cs := by
  induction cs with
  | nil => rfl
  | cons c cs ih =>
    unfold lines
    split
    · simp [ih]
    · cases hls : lines cs with
      | nil => simp [lines_eq_nil hls]
      | cons l ls =>
        rw [hls] at ih
        simpa using ih

/-- Behind a newline a text goes on with its other lines. -/
theorem lines_append_lines {l : List Char} (h : l = [] ∨ l.getLast? = some '\n') (rest : List Char) :
    lines (l ++ rest) = lines l ++ lines rest := by
  induction l with
  | nil => rfl
  | cons c l ih =>
    rw [List.cons_append, lines, lines]
    rcases List.eq_nil_or_concat l with rfl | ⟨l', x, hl⟩
    · obtain rfl : c = '\n' := by simpa using h
      rfl
    · have hne : l ≠ [] := by simp [hl]
      have hlast : l.getLast? = some '\n' := by
        rw [List.getLast?_cons_of_ne_nil hne] at h
        exact h.resolve_left (List.cons_ne_nil c l)
      rw [ih (.inr hlast)]
      split
      · rfl
      · cases hls : lines l with
        | nil => exact absurd (lines_eq_nil hls) hne
        | cons l₁ ls => rfl

/-- A line of its own in front of a text. -/
theorem lines_append {l : List Char} (h : '\n' ∉ l) (cs : List Char) :
    lines (l ++ '\n' :: cs) = (l ++ ['\n']) :: lines cs := by
  induction l with
  | nil => simp [lines]
  | cons c l ih =>
    have hc : c ≠ '\n' := fun he => h (he ▸ List.mem_cons_self)
    rw [List.cons_append, lines, if_neg hc, ih fun hm => h (List.mem_cons_of_mem _ hm)]
    rfl

/-- A buffer with room for the first line gets that line, and the others are left. -/
theorem lines_cons : ∀ {cs l : List Char} {ls : List (List Char)} {n : ℕ}, lines cs = l :: ls →
    l.length ≤ n → firstLine n cs = l ∧ lines (cs.drop l.length) = ls
  | [], l, ls, n, h, _ => by cases h
  | c :: cs, l, ls, 0, h, hn => by
    have hl : l = [] := List.length_eq_zero_iff.mp (by omega)
    subst hl
    unfold lines at h
    split at h
    · cases h
    · split at h <;> cases h
  | c :: cs, l, ls, n + 1, h, hn => by
    unfold lines at h
    rw [firstLine]
    split at h
    · rename_i hc
      obtain ⟨rfl, rfl⟩ := List.cons.inj h
      rw [if_pos hc]
      exact ⟨rfl, rfl⟩
    · rename_i hc
      rw [if_neg hc]
      cases hls : lines cs with
      | nil =>
        rw [hls] at h
        obtain ⟨rfl, rfl⟩ := List.cons.inj h
        obtain rfl := lines_eq_nil hls
        cases n <;> exact ⟨rfl, rfl⟩
      | cons l' ls' =>
        rw [hls] at h
        obtain ⟨rfl, rfl⟩ := List.cons.inj h
        obtain ⟨hfirst, hrest⟩ := lines_cons hls (n := n) (by simpa using hn)
        exact ⟨by rw [hfirst], by simpa using hrest⟩

/-- A line has at most one newline, at its end. -/
theorem length_le_of_mem_lines {cs l : List Char} (h : l ∈ lines cs) :
    l.length ≤ (l.takeWhile (· ≠ '\n')).length + 1 := by
  induction cs generalizing l with
  | nil => cases h
  | cons c cs ih =>
    unfold lines at h
    split at h
    · rename_i hc
      rcases List.mem_cons.mp h with rfl | h
      · simp
      · exact ih h
    · rename_i hc
      cases hls : lines cs with
      | nil =>
        rw [hls] at h
        rw [List.mem_singleton.mp h]
        simp
      | cons l' ls' =>
        rw [hls] at h ih
        rcases List.mem_cons.mp h with rfl | h
        · simpa [hc] using ih List.mem_cons_self
        · exact ih (List.mem_cons_of_mem _ h)

/-- Every line fits the buffer and is free of NUL, which would cut `strlen` short. -/
def Fits (size : ℕ) (ls : List (List Char)) : Prop := ∀ l ∈ ls, l.length < size ∧ '\x00' ∉ l

theorem fgets_nil {size : ℕ} {f : File} (h : lines f.rest = []) : fgets size f = none :=
  if_pos (lines_eq_nil h)

/-- Reading a line that fits: the others remain, and the seek that gives it back undoes the step. -/
theorem fgets_cons {size : ℕ} {f : File} {l : List Char} {ls : List (List Char)}
    (h : lines f.rest = l :: ls) (hfit : Fits size (l :: ls)) :
    fgets size f = some (l, f.advance l.length) ∧ lines (f.advance l.length).rest = ls ∧
      (f.advance l.length).back (strlen l) = f := by
  obtain ⟨hlen, hnul⟩ := hfit l (List.mem_cons_self ..)
  obtain ⟨hfirst, hrest⟩ := lines_cons h (n := size - 1) (by omega)
  have hne : f.rest ≠ [] := by
    intro he
    rw [he] at h
    cases h
  refine ⟨?_, ?_, ?_⟩
  · rw [fgets, if_neg hne, hfirst]
  · rw [File.rest_advance]
    exact hrest
  · rw [strlen_eq hnul, File.back_advance]

end LineReader
