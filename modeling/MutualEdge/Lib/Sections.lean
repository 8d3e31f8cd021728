import MutualEdge.Lib.Fold
import MutualEdge.Lib.LineReader

/-! Files in sections: a section starts with a header and ends before the next blank line, the next
    header or the end of the file.

    Two loops share one stream. `readSection` reads the lines of a section and gives the line that ends
    it back; `readSections` reads that line again and enters the section it heads. `events` says what
    the loops hand to a reader's actions, whatever these do with it, so that a reader's run is a fold
    over the events (`readSections_eq`); on a file whose lines fit the buffer the events are those of
    its list of lines (`events_lines`). -/

namespace LineReader
open Checks

variable {ε σ : Type}

/-- What a line is to a reader. -/
inductive Kind where
  | comment
  | blank
  | header
  | data
  deriving DecidableEq

/-- The loop of a section reader. -/
def readSection (kind : List Char → Kind) (size : ℕ) (data : σ → List Char → Except ε σ) :
    ℕ → File → σ → Option (Except ε (File × σ))
  | 0, _, _ => none
  | fuel + 1, f, s =>
    match fgets size f with
    | none => some (.ok (f, s))
    | some (buf, f') =>
      match kind buf with
      | .comment => readSection kind size data fuel f' s
      | .blank | .header => some (.ok (f'.back (strlen buf), s))
      | .data =>
        match data s buf with
        | .error e => some (.error e)
        | .ok s' => readSection kind size data fuel f' s'

/-- The loop over the sections: any line that is no comment and not blank is taken for a header. -/
def readSections (kind : List Char → Kind) (size : ℕ)
    (enter : List Char → ℕ → File → σ → Option (Except ε (File × σ))) :
    ℕ → File → σ → Option (Except ε σ)
  | 0, _, _ => none
  | fuel + 1, f, s =>
    match fgets size f with
    | none => some (.ok s)
    | some (buf, f') =>
      match kind buf with
      | .comment | .blank => readSections kind size enter fuel f' s
      | .header | .data =>
        match enter buf fuel f' s with
        | none => none
        | some (.error e) => some (.error e)
        | some (.ok (f'', s')) => readSections kind size enter fuel f'' s'

/-- What every data line keeps, a section keeps. -/
theorem readSection_invariant {I : σ → Prop} {kind : List Char → Kind} {size : ℕ}
    {data : σ → List Char → Except ε σ} (hdata : ∀ s buf s', I s → data s buf = .ok s' → I s')
    {fuel : ℕ} {f f' : File} {s s' : σ} (hs : I s)
    (h : readSection kind size data fuel f s = some (.ok (f', s'))) : I s' := by
  induction fuel generalizing f s with
  | zero => cases h
  | succ fuel ih =>
    unfold readSection at h
    split at h
    · cases h
      exact hs
    · rename_i buf g hread
      split at h
      · exact ih hs h
      · cases h
        exact hs
      · cases h
        exact hs
      · split at h
        · cases h
        · rename_i t ht
          exact ih (hdata s buf t hs ht) h

/-- What every section keeps, a file keeps. -/
theorem readSections_invariant {I : σ → Prop} {kind : List Char → Kind} {size : ℕ}
    {enter : List Char → ℕ → File → σ → Option (Except ε (File × σ))}
    (henter : ∀ buf fuel f s f' s', I s → enter buf fuel f s = some (.ok (f', s')) → I s')
    {fuel : ℕ} {f : File} {s s' : σ} (hs : I s)
    (h : readSections kind size enter fuel f s = some (.ok s')) : I s' := by
  induction fuel generalizing f s with
  | zero => cases h
  | succ fuel ih =>
    unfold readSections at h
    split at h
    · cases h
      exact hs
    · rename_i buf g hread
      split at h
      · exact ih hs h
      · exact ih hs h
      all_goals
        split at h
        · cases h
        · cases h
        · rename_i f'' t ht
          exact ih (henter buf fuel g s f'' t hs ht) h

/-! ### What a reader is given -/

/-- A header that is entered, or a data line of the section with the given header. -/
inductive Event where
  | header (line : List Char)
  | data (header line : List Char)
  deriving DecidableEq

def Event.line : Event → List Char
  | .header l => l
  | .data _ l => l

/-- What a reader does at a header, before the section is read, and at a data line of a section. -/
structure Actions (ε σ : Type) where
  header : σ → List Char → Except ε σ
  data : List Char → σ → List Char → Except ε σ

def Actions.step (a : Actions ε σ) (s : σ) : Event → Except ε σ
  | .header l => a.header s l
  | .data h l => a.data h s l

/-- The section with the given header. -/
def Actions.enter (a : Actions ε σ) (kind : List Char → Kind) (size : ℕ) (header : List Char)
    (fuel : ℕ) (f : File) (s : σ) : Option (Except ε (File × σ)) :=
  match a.header s header with
  | .error e => some (.error e)
  | .ok s' => readSection kind size (a.data header) fuel f s'

/-- The data lines that a section reader finds, and the stream it leaves. -/
def sectionLines (kind : List Char → Kind) (size : ℕ) : ℕ → File → Option (List (List Char) × File)
  | 0, _ => none
  | fuel + 1, f =>
    match fgets size f with
    | none => some ([], f)
    | some (buf, f') =>
      match kind buf with
      | .comment => sectionLines kind size fuel f'
      | .blank | .header => some ([], f'.back (strlen buf))
      | .data =>
        match sectionLines kind size fuel f' with
        | none => none
        | some (ls, f'') => some (buf :: ls, f'')

/-- All that a file gives to a reader. -/
def events (kind : List Char → Kind) (size : ℕ) : ℕ → File → Option (List Event)
  | 0, _ => none
  | fuel + 1, f =>
    match fgets size f with
    | none => some []
    | some (buf, f') =>
      match kind buf with
      | .comment | .blank => events kind size fuel f'
      | .header | .data =>
        match sectionLines kind size fuel f' with
        | none => none
        | some (ls, f'') =>
          match events kind size fuel f'' with
          | none => none
          | some es => some (.header buf :: ls.map (.data buf) ++ es)

section Fold
variable {kind : List Char → Kind} {size : ℕ}

/-- A section reader processes the lines of its section, one after the other. -/
theorem readSection_eq {data : σ → List Char → Except ε σ} {fuel : ℕ} {f f' : File} {s : σ}
    {ls : List (List Char)} (h : sectionLines kind size fuel f = some (ls, f')) :
    readSection kind size data fuel f s = some (ls.foldlM data s >>= fun s' => .ok (f', s')) := by
  induction fuel generalizing f s ls with
  | zero => cases h
  | succ fuel ih =>
    unfold sectionLines at h
    unfold readSection
    cases hread : fgets size f with
    | none =>
      rw [hread] at h
      obtain ⟨rfl, rfl⟩ := Prod.mk.inj (Option.some.inj h)
      rfl
    | some next =>
      obtain ⟨buf, g⟩ := next
      simp only [hread] at h ⊢
      cases hkind : kind buf with
      | comment =>
        simp only [hkind] at h ⊢
        exact ih h
      | blank =>
        simp only [hkind] at h ⊢
        obtain ⟨rfl, rfl⟩ := Prod.mk.inj (Option.some.inj h)
        rfl
      | header =>
        simp only [hkind] at h ⊢
        obtain ⟨rfl, rfl⟩ := Prod.mk.inj (Option.some.inj h)
        rfl
      | data =>
        simp only [hkind] at h ⊢
        cases hrest : sectionLines kind size fuel g with
        | none =>
          rw [hrest] at h
          cases h
        | some found =>
          rw [hrest] at h
          obtain ⟨rfl, rfl⟩ := Prod.mk.inj (Option.some.inj h)
          rw [List.foldlM_cons]
          cases hdata : data s buf with
          | error e => rfl
          | ok s' => exact ih hrest

/-- Entering a section is the fold over its header and its data lines. -/
theorem enter_eq {a : Actions ε σ} {fuel : ℕ} {header : List Char} {f f' : File} {s : σ}
    {ls : List (List Char)} (h : sectionLines kind size fuel f = some (ls, f')) :
    a.enter kind size header fuel f s =
      some ((Event.header header :: ls.map (.data header)).foldlM a.step s >>=
        fun s' => .ok (f', s')) := by
  rw [Actions.enter, List.foldlM_cons, Actions.step]
  cases a.header s header with
  | error e => rfl
  | ok s' =>
    simp only [readSection_eq h]
    rw [show (Except.ok s' >>= fun t => (ls.map (Event.data header)).foldlM a.step t) =
      (ls.map (Event.data header)).foldlM a.step s' from rfl, List.foldlM_map]
    rfl

/-- A run of the loops is the fold of the reader's actions over the events. -/
theorem readSections_eq {a : Actions ε σ} {fuel : ℕ} {f : File} {s : σ} {es : List Event}
    (h : events kind size fuel f = some es) :
    readSections kind size (a.enter kind size) fuel f s = some (es.foldlM a.step s) := by
  induction fuel generalizing f s es with
  | zero => cases h
  | succ fuel ih =>
    unfold events at h
    unfold readSections
    cases hread : fgets size f with
    | none =>
      rw [hread] at h
      obtain rfl := Option.some.inj h
      rfl
    | some next =>
      obtain ⟨buf, g⟩ := next
      simp only [hread] at h ⊢
      -- a line that enters a section: its events come first, those behind the section after
      have henter : (match sectionLines kind size fuel g with
            | none => none
            | some (ls, g') => match events kind size fuel g' with
              | none => none
              | some es' => some (Event.header buf :: ls.map (.data buf) ++ es')) = some es →
          (match a.enter kind size buf fuel g s with
            | none => none
            | some (.error e) => some (.error e)
            | some (.ok (g', s')) => readSections kind size (a.enter kind size) fuel g' s') =
          some (es.foldlM a.step s) := by
        intro h
        cases hls : sectionLines kind size fuel g with
        | none => simp [hls] at h
        | some found =>
          obtain ⟨ls, g'⟩ := found
          cases hes : events kind size fuel g' with
          | none => simp [hls, hes] at h
          | some es' =>
            simp only [hls, hes, Option.some.injEq] at h
            subst h
            rw [enter_eq hls, List.foldlM_append]
            cases (Event.header buf :: ls.map (.data buf)).foldlM a.step s with
            | error e => rfl
            | ok t => exact ih hes
      cases hkind : kind buf with
      | comment =>
        simp only [hkind] at h ⊢
        exact ih h
      | blank =>
        simp only [hkind] at h ⊢
        exact ih h
      | header =>
        simp only [hkind] at h ⊢
        exact henter h
      | data =>
        simp only [hkind] at h ⊢
        exact henter h

/-- The events are those of a list of sections, each a header with its data lines. -/
theorem events_sections {fuel : ℕ} {f : File} {es : List Event}
    (h : events kind size fuel f = some es) : ∃ sections : List (List Char × List (List Char)),
      es = sections.flatMap fun s => .header s.1 :: s.2.map (.data s.1) := by
  induction fuel generalizing f es with
  | zero => cases h
  | succ fuel ih =>
    unfold events at h
    split at h
    · exact ⟨[], by simpa using h.symm⟩
    · rename_i buf g hread
      split at h
      · exact ih h
      · exact ih h
      all_goals
        split at h
        · cases h
        · rename_i ls g' hls
          split at h
          · cases h
          · rename_i es' hes
            obtain ⟨sections, rfl⟩ := ih hes
            exact ⟨(buf, ls) :: sections, by simpa using h.symm⟩

end Fold

/-! ### Reading ends -/

section Ends
variable (kind : List Char → Kind) {size : ℕ}

/-- A section is read to its end, and no further back than where it started. -/
theorem sectionLines_ends (hsize : 2 ≤ size) {fuel : ℕ} {f : File} (h : f.rest.length < fuel) :
    ∃ ls f', sectionLines kind size fuel f = some (ls, f') ∧ f'.rest.length ≤ f.rest.length := by
  induction fuel generalizing f with
  | zero => omega
  | succ fuel ih =>
    unfold sectionLines
    cases hread : fgets size f with
    | none => exact ⟨[], f, rfl, le_rfl⟩
    | some next =>
      obtain ⟨buf, g⟩ := next
      obtain ⟨hlt, hback⟩ := fgets_some hsize hread
      obtain ⟨ls, g', hls, hle⟩ := ih (by omega : g.rest.length < fuel)
      cases hkind : kind buf with
      | comment => exact ⟨ls, g', by simpa only [hkind] using hls, by omega⟩
      | blank => exact ⟨[], g.back (strlen buf), by simp only [hkind], hback⟩
      | header => exact ⟨[], g.back (strlen buf), by simp only [hkind], hback⟩
      | data => exact ⟨buf :: ls, g', by simp only [hkind, hls], by omega⟩

/-- Every file is read to its end, whatever its lines are. -/
theorem events_ends (hsize : 2 ≤ size) {fuel : ℕ} {f : File} (h : f.rest.length < fuel) :
    ∃ es, events kind size fuel f = some es := by
  induction fuel generalizing f with
  | zero => omega
  | succ fuel ih =>
    unfold events
    cases hread : fgets size f with
    | none => exact ⟨[], rfl⟩
    | some next =>
      obtain ⟨buf, g⟩ := next
      have hlt := (fgets_some hsize hread).1
      obtain ⟨ls, g', hls, hle⟩ :=
        sectionLines_ends kind hsize (by omega : g.rest.length < fuel)
      obtain ⟨es, hes⟩ := ih (by omega : g.rest.length < fuel)
      obtain ⟨es', hes'⟩ := ih (by omega : g'.rest.length < fuel)
      cases hkind : kind buf with
      | comment => exact ⟨es, by simpa only [hkind] using hes⟩
      | blank => exact ⟨es, by simpa only [hkind] using hes⟩
      | header => exact ⟨.header buf :: ls.map (.data buf) ++ es', by simp only [hkind, hls, hes']⟩
      | data => exact ⟨.header buf :: ls.map (.data buf) ++ es', by simp only [hkind, hls, hes']⟩

end Ends

/-! ### The events of a list of lines -/

/-- Line by line: the section a line belongs to is that of the last header, unless a blank line came
    after it. -/
def lineEvents (kind : List Char → Kind) : Option (List Char) → List (List Char) → List Event
  | _, [] => []
  | current, l :: ls =>
    match kind l, current with
    | .comment, _ => lineEvents kind current ls
    | .blank, _ => lineEvents kind none ls
    | .data, some header => .data header l :: lineEvents kind current ls
    | .data, none => .header l :: lineEvents kind (some l) ls
    | .header, _ => .header l :: lineEvents kind (some l) ls

/-- A line that does not end a section. -/
def Inside (kind : List Char → Kind) (l : List Char) : Bool :=
  kind l = .comment || kind l = .data

def IsData (kind : List Char → Kind) (l : List Char) : Bool := kind l = .data

section Lines
variable {kind : List Char → Kind} {size : ℕ}

/-- In a section, the data lines up to the next blank line or header are given to it; what is left
    does not depend on it. -/
theorem lineEvents_some (header : List Char) (ls : List (List Char)) :
    lineEvents kind (some header) ls =
      ((ls.takeWhile (Inside kind)).filter (IsData kind)).map (.data header) ++
        lineEvents kind none (ls.dropWhile (Inside kind)) := by
  induction ls with
  | nil => rfl
  | cons l ls ih =>
    cases hkind : kind l with
    | comment => simpa [lineEvents, hkind, Inside, IsData] using ih
    | blank => simp [lineEvents, hkind, Inside]
    | header => simp [lineEvents, hkind, Inside]
    | data => simpa [lineEvents, hkind, Inside, IsData] using ih

/-- A comment line has no effect, wherever it stands. -/
theorem lineEvents_comments (current : Option (List Char)) (ls : List (List Char)) :
    lineEvents kind current (ls.filter (kind · ≠ .comment)) = lineEvents kind current ls := by
  induction ls generalizing current with
  | nil => rfl
  | cons l ls ih =>
    cases hkind : kind l with
    | comment => simpa [lineEvents, hkind] using ih current
    | blank => simpa [lineEvents, hkind] using ih none
    | header => simpa [lineEvents, hkind] using ih (some l)
    | data =>
      cases current with
      | none => simpa [lineEvents, hkind] using ih (some l)
      | some h => simpa [lineEvents, hkind] using ih (some h)

/-- Every line that is no comment and not blank is handed on exactly once, in the order of the file. -/
theorem lineEvents_line (current : Option (List Char)) (ls : List (List Char)) :
    (lineEvents kind current ls).map Event.line =
      ls.filter fun l => kind l = .header ∨ kind l = .data := by
  induction ls generalizing current with
  | nil => rfl
  | cons l ls ih =>
    cases hkind : kind l with
    | comment => simpa [lineEvents, hkind] using ih current
    | blank => simpa [lineEvents, hkind] using ih none
    | header => simpa [lineEvents, hkind, Event.line] using ih (some l)
    | data =>
      cases current with
      | none => simpa [lineEvents, hkind, Event.line] using ih (some l)
      | some h => simpa [lineEvents, hkind, Event.line] using ih (some h)

/-- A list of lines that starts no section of its own: it is empty, or its first line ends the section
    before it. -/
def EndsSection (kind : List Char → Kind) : List (List Char) → Prop
  | [] => True
  | l :: _ => kind l = .blank ∨ kind l = .header

/-- At the end of a section the events start afresh. -/
theorem lineEvents_append {rest : List (List Char)} (hrest : EndsSection kind rest)
    (current : Option (List Char)) (ls : List (List Char)) :
    lineEvents kind current (ls ++ rest) =
      lineEvents kind current ls ++ lineEvents kind none rest := by
  induction ls generalizing current with
  | nil =>
    cases rest with
    | nil => rfl
    | cons l rest => rcases hrest with hkind | hkind <;> simp [lineEvents, hkind]
  | cons l ls ih =>
    cases hkind : kind l with
    | comment => simpa [lineEvents, hkind] using ih current
    | blank => simpa [lineEvents, hkind] using ih none
    | header => simpa [lineEvents, hkind] using ih (some l)
    | data =>
      cases current with
      | none => simpa [lineEvents, hkind] using ih (some l)
      | some h => simpa [lineEvents, hkind] using ih (some h)

/-- The extent of a section: the data lines from a header to the line that ends its section are given
    to that header's section, and to no other. -/
theorem lineEvents_extent {before body rest : List (List Char)} {header : List Char}
    (hheader : kind header = .header) (hbody : ∀ l ∈ body, Inside kind l = true)
    (hrest : EndsSection kind rest) :
    lineEvents kind none (before ++ header :: (body ++ rest)) =
      lineEvents kind none before ++
        .header header :: (body.filter (IsData kind)).map (.data header) ++
        lineEvents kind none rest := by
  have hwhole : lineEvents kind none (header :: body) =
      .header header :: (body.filter (IsData kind)).map (.data header) := by
    have htake : body.takeWhile (Inside kind) = body := List.takeWhile_eq_self_iff.mpr hbody
    have hdrop : body.dropWhile (Inside kind) = [] := List.dropWhile_eq_nil_iff.mpr hbody
    simp [lineEvents, hheader, lineEvents_some, htake, hdrop]
  have hstart : EndsSection kind (header :: (body ++ rest)) := Or.inr hheader
  rw [lineEvents_append hstart, ← List.cons_append, lineEvents_append hrest, hwhole,
    List.append_assoc]

/-- On lines that fit, a section reader finds the data lines of the section and leaves the others. -/
theorem sectionLines_lines (kind : List Char → Kind) {fuel : ℕ} {f : File}
    (hfit : Fits size (lines f.rest)) (h : (lines f.rest).length < fuel) :
    ∃ f', sectionLines kind size fuel f =
      some (((lines f.rest).takeWhile (Inside kind)).filter (IsData kind), f') ∧
      lines f'.rest = (lines f.rest).dropWhile (Inside kind) := by
  induction fuel generalizing f with
  | zero => omega
  | succ fuel ih =>
    unfold sectionLines
    cases hls : lines f.rest with
    | nil =>
      rw [fgets_nil hls]
      exact ⟨f, rfl, hls⟩
    | cons l ls =>
      rw [hls] at hfit h
      obtain ⟨hread, hrest, hback⟩ := fgets_cons hls hfit
      rw [hread]
      have hfits : Fits size (lines (f.advance l.length).rest) := by
        rw [hrest]
        exact fun l' hl' => hfit l' (List.mem_cons_of_mem l hl')
      have hlen : (lines (f.advance l.length).rest).length < fuel := by
        rw [hrest]
        simpa using h
      obtain ⟨f', hsec, hafter⟩ := ih hfits hlen
      rw [hrest] at hsec hafter
      cases hkind : kind l with
      | comment => exact ⟨f', by simpa [hkind, Inside, IsData] using hsec, by simpa [hkind, Inside]⟩
      | blank => exact ⟨f, by simp [hkind, Inside, hback], by simp [hkind, Inside, hls]⟩
      | header => exact ⟨f, by simp [hkind, Inside, hback], by simp [hkind, Inside, hls]⟩
      | data => exact ⟨f', by simp [hkind, Inside, IsData, hsec], by simpa [hkind, Inside]⟩

/-- On lines that fit, the loops hand on what the lines say: the line that a section reader gives back
    is read once more, by the outer loop, and no other line is. -/
theorem events_lines {fuel : ℕ} {f : File} (hfit : Fits size (lines f.rest))
    (h : (lines f.rest).length < fuel) :
    events kind size fuel f = some (lineEvents kind none (lines f.rest)) := by
  induction fuel generalizing f with
  | zero => omega
  | succ fuel ih =>
    unfold events
    cases hls : lines f.rest with
    | nil =>
      rw [fgets_nil hls]
      rfl
    | cons l ls =>
      rw [hls] at hfit h
      obtain ⟨hread, hrest, -⟩ := fgets_cons hls hfit
      rw [hread]
      have hfits : Fits size (lines (f.advance l.length).rest) := by
        rw [hrest]
        exact fun l' hl' => hfit l' (List.mem_cons_of_mem l hl')
      have hlen : (lines (f.advance l.length).rest).length < fuel := by
        rw [hrest]
        simpa using h
      have hskip := ih hfits hlen
      obtain ⟨f', hsec, hafter⟩ := sectionLines_lines kind hfits hlen
      rw [hrest] at hsec hafter hskip hfits hlen
      have hsub : (ls.dropWhile (Inside kind)).Sublist ls := List.dropWhile_sublist _
      have hnext : events kind size fuel f' =
          some (lineEvents kind none (ls.dropWhile (Inside kind))) := by
        rw [← hafter]
        refine ih ?_ ?_
        · rw [hafter]
          exact fun l' hl' => hfits l' (hsub.subset hl')
        · rw [hafter]
          exact lt_of_le_of_lt hsub.length_le hlen
      cases hkind : kind l with
      | comment => simpa [hkind, lineEvents] using hskip
      | blank => simpa [hkind, lineEvents] using hskip
      | header => simp [hkind, lineEvents, lineEvents_some, hsec, hnext]
      | data => simp [hkind, lineEvents, lineEvents_some, hsec, hnext]

end Lines

/-! ### Sections from events -/

/-- From the end of the file: data lines wait for their header. -/
def collect : Event → List (List Char) × List (List Char × List (List Char)) →
    List (List Char) × List (List Char × List (List Char))
  | .header h, (ls, sections) => ([], (h, ls) :: sections)
  | .data _ l, (ls, sections) => (l :: ls, sections)

/-- The sections that events belong to, each a header with its data lines. -/
def eventSections (es : List Event) : List (List Char × List (List Char)) :=
  (es.foldr collect ([], [])).2

theorem foldr_collect (h : List Char) (ls : List (List Char))
    (sections : List (List Char × List (List Char))) :
    (ls.map (Event.data h)).foldr collect ([], sections) = (ls, sections) := by
  induction ls with
  | nil => rfl
  | cons l ls ih =>
    rw [List.map_cons, List.foldr_cons, ih]
    rfl

theorem eventSections_flatMap (sections : List (List Char × List (List Char))) :
    eventSections (sections.flatMap fun s => .header s.1 :: s.2.map (.data s.1)) = sections := by
  have hfold : (sections.flatMap fun s => Event.header s.1 :: s.2.map (.data s.1)).foldr collect
      ([], []) = ([], sections) := by
    induction sections with
    | nil => rfl
    | cons s sections ih =>
      rw [List.flatMap_cons, List.foldr_append, ih, List.foldr_cons, foldr_collect]
      rfl
  rw [eventSections, hfold]

/-- The first line of a list outside of any section starts one of its own. -/
theorem collect_lineEvents (kind : List Char → Kind) (ls : List (List Char)) :
    ((lineEvents kind none ls).foldr collect ([], [])).1 = [] := by
  induction ls with
  | nil => rfl
  | cons l ls ih =>
    cases hkind : kind l with
    | comment => simpa [lineEvents, hkind] using ih
    | blank => simpa [lineEvents, hkind] using ih
    | header => simp [lineEvents, hkind, collect]
    | data => simp [lineEvents, hkind, collect]

theorem collect_append (es : List Event) (sections : List (List Char × List (List Char))) :
    es.foldr collect ([], sections) =
      ((es.foldr collect ([], [])).1, (es.foldr collect ([], [])).2 ++ sections) := by
  induction es with
  | nil => rfl
  | cons e es ih =>
    rw [List.foldr_cons, List.foldr_cons, ih]
    cases e <;> rfl

/-! ### A reader's log -/

/-- The reader that writes down what it is given. -/
def Actions.logged (a : Actions ε σ) : Actions ε (σ × List Event) where
  header s l := a.header s.1 l >>= fun s' => .ok (s', s.2 ++ [.header l])
  data h s l := a.data h s.1 l >>= fun s' => .ok (s', s.2 ++ [.data h l])

theorem Actions.logged_step (a : Actions ε σ) (s : σ) (log : List Event) (e : Event) :
    a.logged.step (s, log) e = a.step s e >>= fun s' => .ok (s', log ++ [e]) := by
  cases e <;> rfl

/-- The log of a run over events that are all accepted is the list of the events. -/
theorem foldlM_logged (a : Actions ε σ) (es : List Event) (s : σ) (log : List Event) :
    es.foldlM a.logged.step (s, log) = es.foldlM a.step s >>= fun s' => .ok (s', log ++ es) := by
  induction es generalizing s log with
  | nil =>
    rw [List.append_nil]
    rfl
  | cons e es ih =>
    rw [List.foldlM_cons, List.foldlM_cons, Actions.logged_step]
    cases a.step s e with
    | error e' => rfl
    | ok s' =>
      show es.foldlM a.logged.step (s', log ++ [e]) = _
      rw [ih s' (log ++ [e]), List.append_assoc]
      rfl

end LineReader
