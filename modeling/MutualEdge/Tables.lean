import MutualEdge.ConfLines

/-! How full the tables get while gastask loads a file of any kind.

    `add_cpufreq`, `add_mem`, `add_cloud` and `add_offloadingratio` stop the program when their table is
    full; `add_task`, `add_network` and `add_net_commander` write behind the end of theirs. A table that
    is not checked has one entry for each data line of its sections. -/

namespace MutualEdge
open Checks LineReader

/-- The tables whose `add_*` function checks that there is room. -/
structure Config.Checked (cfg : Config) : Prop where
  cpufreqs : cfg.cpufreqs.length ≤ maxCpuFreqs
  mems : cfg.mems.length ≤ maxMems
  clouds : cfg.clouds.length ≤ maxClouds
  offloadingratios : cfg.offloadingratios.length ≤ maxOffloadingRatios

/-- No table holds more entries than its array. -/
structure Config.Within (cfg : Config) : Prop extends cfg.Checked where
  tasks : cfg.tasks.length ≤ maxTasks
  networks : cfg.networks.length ≤ maxNetworks
  netCommanders : cfg.netCommanders.length ≤ maxNetcommanders

/-! ### What one line adds -/

/-- What a line of a section does to the lengths of the tables. -/
structure Grown (sect : SectionT) (cfg cfg' : Config) : Prop where
  checked : cfg.Checked → cfg'.Checked
  tasks : cfg'.tasks.length = cfg.tasks.length + if sect = .task then 1 else 0
  networks : cfg'.networks.length = cfg.networks.length + if sect = .network then 1 else 0
  netCommanders :
    cfg'.netCommanders.length = cfg.netCommanders.length + if sect = .netCommander then 1 else 0

/-- A section reader that accepts a line has added what `sscanf` found in it. -/
theorem parseLines_single {α : Type} {badFormat : String}
    {add : Config → String → α → Except Halt Config} {cfg cfg' : Config} {line : Line α}
    (h : parseLines badFormat add cfg [line] = .ok cfg') :
    ∃ v, add cfg line.text v = .ok cfg' := by
  rw [parseLines, List.foldlM_cons] at h
  obtain ⟨c, hc, hnil⟩ := bind_ok.mp h
  obtain rfl := pure_ok.mp hnil
  cases hf : line.fields with
  | none => simp [hf, invalid] at hc
  | some v =>
    simp only [hf] at hc
    exact ⟨v, hc⟩

theorem addCpufreq_grown {cfg cfg' : Config} {f : Cpufreq} (h : addCpufreq cfg f = .ok cfg') :
    Grown .cpufreq cfg cfg' := by
  unfold addCpufreq at h
  split at h
  · cases h
  · rename_i hlen
    split at h
    · cases h
    · cases h
      exact ⟨fun hc => { hc with cpufreqs := length_snoc_le hlen }, rfl, rfl, rfl⟩

theorem addMem_grown {cfg cfg' : Config} {m : Mem} (h : addMem cfg m = .ok cfg') :
    Grown .mem cfg cfg' := by
  unfold addMem at h
  split at h
  · cases h
  · rename_i hlen
    cases h
    exact ⟨fun hc => { hc with mems := length_snoc_le hlen }, rfl, rfl, rfl⟩

theorem addCloud_grown {cfg cfg' : Config} {c : Cloud} (h : addCloud cfg c = .ok cfg') :
    Grown .cloud cfg cfg' := by
  unfold addCloud at h
  split at h
  · cases h
  · rename_i hlen
    cases h
    exact ⟨fun hc => { hc with clouds := length_snoc_le hlen }, rfl, rfl, rfl⟩

theorem addOffloadingratio_grown {cfg cfg' : Config} {r : ℚ}
    (h : addOffloadingratio cfg r = .ok cfg') : Grown .offloadingratio cfg cfg' := by
  unfold addOffloadingratio at h
  split at h
  · cases h
  · rename_i hlen
    split at h
    · cases h
    · cases h
      exact ⟨fun hc => { hc with offloadingratios := length_snoc_le hlen }, rfl, rfl, rfl⟩

theorem addTask_grown {cfg cfg' : Config} {t : Task} (h : addTask cfg t = .ok cfg') :
    Grown .task cfg cfg' := by
  cases h
  exact ⟨fun hc => { hc with }, List.length_append, rfl, rfl⟩

theorem addNetwork_grown {cfg cfg' : Config} {n : Network} (h : addNetwork cfg n = .ok cfg') :
    Grown .network cfg cfg' := by
  cases h
  exact ⟨fun hc => { hc with }, rfl, List.length_append, rfl⟩

theorem addNetCommander_grown {cfg cfg' : Config} {n : NetCommander}
    (h : addNetCommander cfg n = .ok cfg') : Grown .netCommander cfg cfg' := by
  cases h
  exact ⟨fun hc => { hc with }, rfl, rfl, List.length_append⟩

variable {double : List Char → Option (ℚ × List Char)}

theorem parseGenetic_grown {cfg cfg' : Config} {line : Line Genetic}
    (h : parseGenetic cfg [line] = .ok cfg') : Grown .genetic cfg cfg' := by
  obtain ⟨v, hadd⟩ := parseLines_single h
  cases hadd
  exact ⟨fun hc => { hc with }, rfl, rfl, rfl⟩

theorem parseCpufreq_grown {cfg cfg' : Config} {line : Line Cpufreq}
    (h : parseCpufreq cfg [line] = .ok cfg') : Grown .cpufreq cfg cfg' := by
  obtain ⟨v, hadd⟩ := parseLines_single h
  split at hadd
  · cases hadd
  · split at hadd
    · cases hadd
    · exact addCpufreq_grown hadd

theorem parseMem_grown {cfg cfg' : Config} {line : Line Mem}
    (h : parseMem cfg [line] = .ok cfg') : Grown .mem cfg cfg' := by
  obtain ⟨v, hadd⟩ := parseLines_single h
  split at hadd
  · cases hadd
  · split at hadd
    · cases hadd
    · split at hadd
      · cases hadd
      · exact addMem_grown hadd

theorem parseTask_grown {cfg cfg' : Config} {line : Line Task}
    (h : parseTask cfg [line] = .ok cfg') : Grown .task cfg cfg' := by
  obtain ⟨v, hadd⟩ := parseLines_single h
  split at hadd
  · cases hadd
  · exact addTask_grown hadd

theorem parseOffloadingratio_grown {cfg cfg' : Config} {line : Line ℚ}
    (h : parseOffloadingratio cfg [line] = .ok cfg') : Grown .offloadingratio cfg cfg' := by
  obtain ⟨v, hadd⟩ := parseLines_single h
  split at hadd
  · cases hadd
  · split at hadd
    · cases hadd
    · exact addOffloadingratio_grown hadd

theorem parseCloud_grown {cfg cfg' : Config} {line : Line Cloud}
    (h : parseCloud cfg [line] = .ok cfg') : Grown .cloud cfg cfg' := by
  obtain ⟨v, hadd⟩ := parseLines_single h
  split at hadd
  · cases hadd
  · split at hadd
    · cases hadd
    · split at hadd
      · cases hadd
      · exact addCloud_grown hadd

theorem parseNetwork_grown {cfg cfg' : Config} {line : Line Network}
    (h : parseNetwork cfg [line] = .ok cfg') : Grown .network cfg cfg' := by
  obtain ⟨v, hadd⟩ := parseLines_single h
  exact addNetwork_grown hadd

theorem parseNetCommander_grown {cfg cfg' : Config} {line : Line NetCommander}
    (h : parseNetCommander cfg [line] = .ok cfg') : Grown .netCommander cfg cfg' := by
  obtain ⟨v, hadd⟩ := parseLines_single h
  exact addNetCommander_grown hadd

/-- A data line that is accepted adds one entry to the table of its section. -/
theorem data_grown {sect : SectionT} {cfg cfg' : Config} {buf : List Char}
    (h : Gastask.data double sect cfg buf = .ok cfg') : Grown sect cfg cfg' := by
  have hskip : ∀ {sect : SectionT}, sect ≠ .task → sect ≠ .network → sect ≠ .netCommander →
      (.ok cfg : Except Halt Config) = .ok cfg' → Grown sect cfg cfg' := by
    intro sect htask hnetwork hcommander hok
    cases hok
    exact ⟨id, by simp [htask], by simp [hnetwork], by simp [hcommander]⟩
  cases sect with
  | genetic => exact parseGenetic_grown h
  | cpufreq => exact parseCpufreq_grown h
  | mem => exact parseMem_grown h
  | task => exact parseTask_grown h
  | offloadingratio => exact parseOffloadingratio_grown h
  | cloud => exact parseCloud_grown h
  | network => exact parseNetwork_grown h
  | netCommander => exact parseNetCommander_grown h
  | _ => exact hskip (by decide) (by decide) (by decide) h

/-! ### Whole runs -/

/-- A data line of a section of the given kind. -/
def GivenTo (sect : SectionT) : Event → Bool
  | .header _ => false
  | .data hd _ => checkSection hd = sect

/-- How many data lines sections of the given kind have. -/
def dataLines (sect : SectionT) (es : List Event) : ℕ := es.countP (GivenTo sect)

/-- What a run does to the lengths of the tables: those that are not checked have gained one entry for
    each data line of their sections. -/
structure Loaded (es : List Event) (cfg cfg' : Config) : Prop where
  checked : cfg.Checked → cfg'.Checked
  tasks : cfg'.tasks.length = cfg.tasks.length + dataLines .task es
  networks : cfg'.networks.length = cfg.networks.length + dataLines .network es
  netCommanders :
    cfg'.netCommanders.length = cfg.netCommanders.length + dataLines .netCommander es

theorem step_loaded {cfg cfg' : Config} {e : Event}
    (h : (Gastask.actions double).step cfg e = .ok cfg') : Loaded [e] cfg cfg' := by
  cases e with
  | header l =>
    obtain rfl := Gastask.header_ok h
    exact ⟨id, rfl, rfl, rfl⟩
  | data hd l =>
    obtain ⟨hchecked, htasks, hnetworks, hcommanders⟩ := data_grown h
    refine ⟨hchecked, htasks.trans ?_, hnetworks.trans ?_, hcommanders.trans ?_⟩ <;>
      simp [dataLines, GivenTo, List.countP_cons]

theorem Loaded.trans {es es' : List Event} {a b c : Config} (h : Loaded es a b)
    (h' : Loaded es' b c) : Loaded (es ++ es') a c := by
  refine ⟨h'.checked ∘ h.checked, ?_, ?_, ?_⟩
  · rw [h'.tasks, h.tasks, dataLines, dataLines, dataLines, List.countP_append, Nat.add_assoc]
  · rw [h'.networks, h.networks, dataLines, dataLines, dataLines, List.countP_append, Nat.add_assoc]
  · rw [h'.netCommanders, h.netCommanders, dataLines, dataLines, dataLines, List.countP_append,
      Nat.add_assoc]

theorem foldlM_loaded {es : List Event} {cfg cfg' : Config}
    (h : es.foldlM (Gastask.actions double).step cfg = .ok cfg') : Loaded es cfg cfg' := by
  induction es generalizing cfg with
  | nil =>
    obtain rfl := pure_ok.mp h
    exact ⟨id, rfl, rfl, rfl⟩
  | cons e es ih =>
    obtain ⟨t, hstep, hrest⟩ := bind_ok.mp h
    exact (step_loaded hstep).trans (ih hrest)

/-- On its way through a file, a program has processed the events `done` and is in state `s`. -/
def Loading {σ : Type} (a : Actions Halt σ) (init : σ) (content : List Char) (done : List Event)
    (s : σ) : Prop :=
  ∃ es, events lineKind bufSize (content.length + 1) { content } = some es ∧ done <+: es ∧
    done.foldlM a.step init = .ok s

/-- gasgen fills the table of memory types, which is checked, and no other. -/
theorem gasgen_within {es : List Event} {g g' : Gasgen.Conf} (hw : g.tables.Within)
    (h : es.foldlM (Gasgen.actions double).step g = .ok g') : g'.tables.Within := by
  refine foldlM_invariant (I := fun g : Gasgen.Conf => g.tables.Within) ?_ hw h
  intro s e s' hs hstep
  cases e with
  | header l =>
    obtain rfl := Gasgen.header_ok hstep
    exact hs
  | data hd l =>
    rcases Gasgen.data_tables hstep with heq | ⟨-, hmem⟩
    · rw [heq]
      exact hs
    · obtain ⟨hchecked, htasks, hnetworks, hcommanders⟩ := parseMem_grown hmem
      exact { hchecked hs.toChecked with
        tasks := htasks.le.trans hs.tasks
        networks := hnetworks.le.trans hs.networks
        netCommanders := hcommanders.le.trans hs.netCommanders }

theorem within_init : ({} : Config).Within := by
  constructor
  · constructor <;> exact Nat.zero_le _
  all_goals exact Nat.zero_le _

section
variable (double)

/-- No table is overfull at any time while gastask loads the file. -/
def TablesWithin (content : List Char) : Prop :=
  ∀ done cfg, Loading (Gastask.actions double) {} content done cfg → cfg.Within

/-- As far as the file is accepted, its task, network and network commander sections have no more data
    lines than there is room for. -/
def FewRows (content : List Char) : Prop :=
  ∀ done, (∃ cfg, Loading (Gastask.actions double) {} content done cfg) →
    dataLines .task done ≤ maxTasks ∧ dataLines .network done ≤ maxNetworks ∧
      dataLines .netCommander done ≤ maxNetcommanders

/-- Loading any file is the fold of the program's actions over the file's events. On the way gastask
    keeps every table within its array exactly when the sections whose `add_*` function checks no
    bound have few enough lines; gasgen always does. -/
theorem tablesWithin_iff (content : List Char) :
    (∃ es, events lineKind bufSize (content.length + 1) { content } = some es ∧
      Gastask.parseConf double (content.length + 1) { content } =
        some (es.foldlM (Gastask.actions double).step {}) ∧
      Gasgen.parseConf double (content.length + 1) { content } =
        some (es.foldlM (Gasgen.actions double).step {})) ∧
    (TablesWithin double content ↔ FewRows double content) ∧
    ∀ done g, Loading (Gasgen.actions double) {} content done g → g.tables.Within := by
  refine ⟨?_, ⟨?_, ?_⟩, ?_⟩
  · have hsize : 2 ≤ bufSize := by decide
    have hlen : ({ content } : File).rest.length < content.length + 1 := by simp [File.rest]
    obtain ⟨es, hes⟩ := events_ends lineKind hsize hlen
    exact ⟨es, hes, (Gastask.parseConf_eq double hes).1, (Gasgen.parseConf_eq double hes).1⟩
  · rintro h done ⟨cfg, hload⟩
    obtain ⟨-, -, -, hfold⟩ := id hload
    have hl := foldlM_loaded hfold
    have hw := h done cfg hload
    refine ⟨?_, ?_, ?_⟩
    · simpa [hl.tasks] using hw.tasks
    · simpa [hl.networks] using hw.networks
    · simpa [hl.netCommanders] using hw.netCommanders
  · rintro h done cfg hload
    obtain ⟨-, -, -, hfold⟩ := id hload
    obtain ⟨htasks, hnetworks, hcommanders⟩ := h done ⟨cfg, hload⟩
    have hl := foldlM_loaded hfold
    exact { hl.checked within_init.toChecked with
      tasks := by simpa [hl.tasks] using htasks
      networks := by simpa [hl.networks] using hnetworks
      netCommanders := by simpa [hl.netCommanders] using hcommanders }
  · rintro done g ⟨-, -, -, hfold⟩
    exact gasgen_within within_init hfold

end

/-- One task line more than there is room for. -/
def overfullFile : List Char :=
  "*cpufreq\n1 100 1\n*task\n".toList ++
    (List.replicate 201 "1 2 1 1 1 1 1 0\n".toList).flatten

theorem tablesWithin_fails : ¬ TablesWithin Scanf.decimal overfullFile := by
  intro h
  have hplain : PlainFile overfullFile := ⟨by decide +kernel, by decide +kernel⟩
  have hevents := events_fileEvents hplain (Nat.lt_add_one overfullFile.length)
  have hfold : ((fileEvents overfullFile).foldlM (Gastask.actions Scanf.decimal).step {}).toOption.map
      (fun cfg => cfg.tasks.length) = some 201 := by
    decide +kernel
  cases hres : (fileEvents overfullFile).foldlM (Gastask.actions Scanf.decimal).step {} with
  | error e => simp [hres, Except.toOption] at hfold
  | ok cfg =>
    have hlen : cfg.tasks.length = 201 := by simpa [hres, Except.toOption] using hfold
    have hwithin := (h _ cfg ⟨_, hevents, List.prefix_refl _, hres⟩).tasks
    rw [hlen] at hwithin
    exact absurd hwithin (by decide)

end MutualEdge
