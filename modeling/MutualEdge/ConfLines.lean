import MutualEdge.Gasgen

/-! The lines of a configuration file, as gastask and gasgen read them.

    Both programs run the loops of `Lib.Sections`, with actions of their own. On a file whose lines fit
    the buffer both therefore fold their actions over the same events, those of the list of its lines;
    a log kept along the way holds them. -/

namespace MutualEdge
open LineReader

/-- Lines of at most 1022 bytes before the newline, and no NUL. -/
structure PlainFile (content : List Char) : Prop where
  short : ∀ l ∈ lines content, (l.takeWhile (· ≠ '\n')).length ≤ 1022
  noNul : '\x00' ∉ content

theorem PlainFile.fits {content : List Char} (h : PlainFile content) :
    Fits bufSize (lines content) := by
  intro l hl
  refine ⟨?_, fun hnul => h.noNul ?_⟩
  · have hshort := h.short l hl
    have hlen := length_le_of_mem_lines hl
    show l.length < 1024
    omega
  · rw [← lines_flatten content]
    exact List.mem_flatten.mpr ⟨l, hl, hnul⟩

/-- What a file gives to the readers, line by line. -/
def fileEvents (content : List Char) : List Event := lineEvents lineKind none (lines content)

/-- A file has at most as many lines as bytes. -/
theorem length_lines_le (cs : List Char) : (lines cs).length ≤ cs.length := by
  induction cs with
  | nil => exact le_rfl
  | cons c cs ih =>
    unfold lines
    split
    · simpa using ih
    · cases hls : lines cs with
      | nil => simp
      | cons l ls =>
        rw [hls] at ih
        simp only [List.length_cons] at ih ⊢
        omega

theorem events_fileEvents {content : List Char} (h : PlainFile content) {fuel : ℕ}
    (hfuel : content.length < fuel) :
    events lineKind bufSize fuel { content } = some (fileEvents content) := by
  have hlen := length_lines_le content
  exact events_lines (f := { content }) h.fits (by simp only [File.rest, List.drop_zero]; omega)

section
variable (double : List Char → Option (ℚ × List Char))

/-- gastask with a log of the headers it enters and the data lines it gives to their sections. -/
def Gastask.loggedConf (fuel : ℕ) (fp : File) : Option (Except Halt (Config × List Event)) :=
  readSections lineKind bufSize ((Gastask.actions double).logged.enter lineKind bufSize) fuel fp
    ({}, [])

/-- gasgen with the same log. -/
def Gasgen.loggedConf (fuel : ℕ) (fp : File) : Option (Except Halt (Gasgen.Conf × List Event)) :=
  readSections lineKind bufSize ((Gasgen.actions double).logged.enter lineKind bufSize) fuel fp
    ({}, [])

theorem Gastask.parseConf_eq {fuel : ℕ} {fp : File} {es : List Event}
    (h : events lineKind bufSize fuel fp = some es) :
    Gastask.parseConf double fuel fp = some (es.foldlM (Gastask.actions double).step {}) ∧
      Gastask.loggedConf double fuel fp =
        some (es.foldlM (Gastask.actions double).step {} >>= fun cfg => .ok (cfg, es)) := by
  rw [Gastask.parseConf, Gastask.switch_eq, readSections_eq h, Gastask.loggedConf,
    readSections_eq h, foldlM_logged]
  exact ⟨rfl, rfl⟩

theorem Gasgen.parseConf_eq {fuel : ℕ} {fp : File} {es : List Event}
    (h : events lineKind bufSize fuel fp = some es) :
    Gasgen.parseConf double fuel fp = some (es.foldlM (Gasgen.actions double).step {}) ∧
      Gasgen.loggedConf double fuel fp =
        some (es.foldlM (Gasgen.actions double).step {} >>= fun g => .ok (g, es)) := by
  rw [Gasgen.parseConf, Gasgen.switch_eq, readSections_eq h, Gasgen.loggedConf,
    readSections_eq h, foldlM_logged]
  exact ⟨rfl, rfl⟩

variable {double}

/-- The readers of both programs consume every line of a plain file once and in order. Reading ends,
    as the fold of the program's actions over the events of the file's lines; these hand on every line
    that is no comment and not blank, comments have no effect on them, and a header is given the data
    lines up to the end of its section. A program that accepts the file has seen these events, so that
    both see the same headers and the same sections. -/
theorem readers_agree {content : List Char} (h : PlainFile content) {fuel : ℕ}
    (hfuel : content.length < fuel) :
    (Gastask.parseConf double fuel { content } =
        some ((fileEvents content).foldlM (Gastask.actions double).step {}) ∧
      Gasgen.parseConf double fuel { content } =
        some ((fileEvents content).foldlM (Gasgen.actions double).step {})) ∧
    ((lines content).flatten = content ∧
      (fileEvents content).map Event.line =
        (lines content).filter fun l => lineKind l = .header ∨ lineKind l = .data) ∧
    fileEvents content =
      lineEvents lineKind none ((lines content).filter (lineKind · ≠ .comment)) ∧
    (∀ before header body rest, lines content = before ++ header :: (body ++ rest) →
      lineKind header = .header → (∀ l ∈ body, lineKind l = .comment ∨ lineKind l = .data) →
      EndsSection lineKind rest → fileEvents content =
        lineEvents lineKind none before ++
          .header header :: (body.filter (lineKind · = .data)).map (.data header) ++
          lineEvents lineKind none rest) ∧
    (∀ cfg, Gastask.parseConf double fuel { content } = some (.ok cfg) →
      Gastask.loggedConf double fuel { content } = some (.ok (cfg, fileEvents content))) ∧
    (∀ g, Gasgen.parseConf double fuel { content } = some (.ok g) →
      Gasgen.loggedConf double fuel { content } = some (.ok (g, fileEvents content))) := by
  have hevents := events_fileEvents h hfuel
  obtain ⟨htask, htasklog⟩ := Gastask.parseConf_eq double hevents
  obtain ⟨hgen, hgenlog⟩ := Gasgen.parseConf_eq double hevents
  refine ⟨⟨htask, hgen⟩, ⟨lines_flatten content, lineEvents_line none _⟩,
    (lineEvents_comments none _).symm, ?_, ?_, ?_⟩
  · intro before header body rest hlines hheader hbody hrest
    rw [fileEvents, hlines]
    exact lineEvents_extent hheader (fun l hl => by simpa [Inside] using hbody l hl) hrest
  · intro cfg hcfg
    rw [htask, Option.some.injEq] at hcfg
    rw [htasklog, hcfg]
    rfl
  · intro g hg
    rw [hgen, Option.some.injEq] at hg
    rw [hgenlog, hg]
    rfl

/-- A file with a section that both programs read, one that gasgen skips and one that gastask skips;
    the comment inside the first one and the missing newline at the end do not matter. -/
def sampleFile : List Char :=
  "*mem\nlpddr 4000 1 0.2 0.1\n# slower\nnvram 8000 0.5 0.1 0\n*genetic\n10 4 1.5 2\n\n*gentask\n".toList ++
    "100 200 1000 0.5 0.75 20 1 2 3 4 5 6".toList

theorem readers_agree_sampleFile :
    ∃ cfg g, Gastask.parseConf Scanf.decimal 200 { content := sampleFile } = some (.ok cfg) ∧
      Gasgen.parseConf Scanf.decimal 200 { content := sampleFile } = some (.ok g) ∧
      Gastask.loggedConf Scanf.decimal 200 { content := sampleFile } =
        some (.ok (cfg, fileEvents sampleFile)) ∧
      Gasgen.loggedConf Scanf.decimal 200 { content := sampleFile } =
        some (.ok (g, fileEvents sampleFile)) := by
  obtain ⟨-, -, -, -, htask, hgen⟩ := @readers_agree Scanf.decimal sampleFile
    ⟨by decide +kernel, by decide +kernel⟩ 200 (by decide +kernel)
  have hcfg : Gastask.parseConf Scanf.decimal 200 { content := sampleFile } = some (.ok
      { maxGen := 10, nPops := 4, cutoff := 3 / 2, penalty := 2,
        mems := [⟨"lpddr", 4000, 1, 1 / 5, 1 / 10⟩, ⟨"nvram", 8000, 1 / 2, 1 / 10, 0⟩] }) := by
    decide +kernel
  have hg : Gasgen.parseConf Scanf.decimal 200 { content := sampleFile } = some (.ok
      { tables := { mems := [⟨"lpddr", 4000, 1, 1 / 5, 1 / 10⟩, ⟨"nvram", 8000, 1 / 2, 1 / 10, 0⟩] },
        gentask := ⟨100, 200, 1000, 1 / 2, 3 / 4, 20, 1, 2, 3, 4, 5, 6⟩ }) := by
    decide +kernel
  exact ⟨_, _, hcfg, hg, htask _ hcfg, hgen _ hg⟩

end

end MutualEdge
