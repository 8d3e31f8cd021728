import MutualEdge.Loading
import MutualEdge.Rows

/-! From gasgen to gastask: the file that `run.sh` and `run_extend.sh` put together.

    The script hands a configuration to gasgen, appends the three files that gasgen leaves behind, the
    last two under headers of their own, and hands the result to gastask. The configuration ends with
    the header of the network section, so that the networks come to stand in it. -/

namespace MutualEdge
open Checks Choice Doubles LineReader Scanf Tabulate

/-! ### The script -/

namespace Gasgen

/-- What gasgen draws. -/
structure Drawn where
  tasks : List Task
  networks : List Network
  netCommanders : List NetCommander

/-- `main` of gasgen, behind `parse_args`, `srand` and `load_conf`. -/
def gasgen (fl : ℚ → ℚ) (M : Machine) (c : Conf) : Rand Drawn := do
  let tasks ← genTask fl M c
  let networks ← genNetwork c
  let netCommanders ← genNetCommander c
  return { tasks, networks, netCommanders }

end Gasgen

open Gasgen

/-- `echo "$COMMON_CONF"`, of whose text the lines before the last one are given. -/
def commonConf (base : List Char) : List Char := base ++ "*network\n".toList

/-- The file that the script has put together for gastask. -/
def gastaskConf (base : List Char) (d : Drawn) : List Char :=
  commonConf base ++ (networkGenerated d.networks ++
    ("\n# intercept_out intercept_in\n*netcommander\n".toList ++
      (networkCommanderGenerated d.netCommanders ++
        ("\n# wcet period memreq mem_active_ratio input_data_size output_data_size\n*task\n".toList ++
          taskGenerated d.tasks))))

/-- The configuration with what was drawn behind its tables, numbered on. -/
def Config.extend (cfg : Config) (d : Drawn) : Config :=
  { cfg with
    tasks := cfg.tasks ++ d.tasks.mapIdx fun i t => { t with no := cfg.tasks.length + i + 1 }
    networks := cfg.networks ++ d.networks.mapIdx fun i n => { n with no := cfg.networks.length + i + 1 }
    netCommanders := cfg.netCommanders ++
      d.netCommanders.mapIdx fun i n => { n with no := cfg.netCommanders.length + i + 1 } }

/-! ### What is drawn and printed -/

/-- As much is drawn as the configuration asks for, and such that gastask reads it back. -/
structure ReadBack (c : Conf) (d : Drawn) : Prop where
  nTasks : d.tasks.length = c.gentask.nTasksTarget
  nNetworks : d.networks.length = c.gennetwork.nNetworksTarget
  nNetCommanders : d.netCommanders.length = c.gennetcommander.nNetCommanderTarget
  task : ∀ t ∈ d.tasks, DataLine (taskText t) ∧ (taskLine decimal (taskText t)).fields = some t
  network : ∀ n ∈ d.networks, n.uplink < 2 ^ 32 ∧ n.downlink < 2 ^ 32 ∧ n.no = 0
  netCommander : ∀ n ∈ d.netCommanders, n.interceptOut < 2 ^ 32 ∧ n.interceptIn < 2 ^ 32 ∧ n.no = 0

theorem below_gasgen (fl : ℚ → ℚ) (M : Machine) (c : Conf) : Below randBound (gasgen fl M c) (ReadBack c) := by
  refine below_genTask.bind fun tasks htasks => ?_
  refine (below_genRows (P := fun n : Network => n.uplink < 2 ^ 32 ∧ n.downlink < 2 ^ 32 ∧ n.no = 0)
    ?_ _).bind fun networks hnetworks => ?_
  · refine (below_drawBetween _ _).bind fun v hv => (below_drawBetween _ _).bind fun w hw => ?_
    exact Below.pure ⟨hv.lt, hw.lt, rfl⟩
  refine (below_genRows
    (P := fun n : NetCommander => n.interceptOut < 2 ^ 32 ∧ n.interceptIn < 2 ^ 32 ∧ n.no = 0)
    ?_ _).bind fun netCommanders hcommanders => ?_
  · refine (below_drawBetween _ _).bind fun v hv => (below_drawBetween _ _).bind fun w hw => ?_
    exact Below.pure ⟨hv.lt, hw.lt, rfl⟩
  refine Below.pure ⟨htasks.1, hnetworks.1, hcommanders.1,
    fun t ht => ⟨(htasks.2 t ht).dataLine, ?_⟩, hnetworks.2, hcommanders.2⟩
  obtain ⟨n, hn, -⟩ := (htasks.2 t ht).memActiveRatio
  rw [(htasks.2 t ht).fields, Printf.printed_exact hn]

section Read
variable {c : Conf} {d : Drawn}

theorem ReadBack.networkFields (h : ReadBack c d) {n : Network} (hn : n ∈ d.networks) :
    (networkLine decimal (rowText n.uplink n.downlink)).fields = some n := by
  obtain ⟨hup, hdown, hno⟩ := h.network n hn
  rw [networkLine, scanLine, sscanf_rowText decimal hup hdown]
  obtain ⟨uplink, downlink, no⟩ := n
  obtain rfl : no = 0 := hno
  rfl

theorem ReadBack.netCommanderFields (h : ReadBack c d) {n : NetCommander} (hn : n ∈ d.netCommanders) :
    (netCommanderLine decimal (rowText n.interceptOut n.interceptIn)).fields = some n := by
  obtain ⟨hout, hin, hno⟩ := h.netCommander n hn
  rw [netCommanderLine, scanLine, sscanf_rowText decimal hout hin]
  obtain ⟨interceptOut, interceptIn, no⟩ := n
  obtain rfl : no = 0 := hno
  rfl

end Read

/-! ### The sections of the file -/

/-- The sections of a list of lines. -/
def lineSections (ls : List (List Char)) : List Section :=
  (eventSections (lineEvents lineKind none ls)).map fun s => Gastask.toSection decimal s.1 s.2

section Lines
variable {α : Type} {text : α → List Char} {rows : List α}

theorem lines_rows (h : ∀ row ∈ rows, DataLine (text row)) (rest : List Char) :
    lines (rows.flatMap text ++ rest) = rows.map text ++ lines rest := by
  induction rows with
  | nil => rfl
  | cons row rows ih =>
    rw [List.flatMap_cons, List.append_assoc, (h row List.mem_cons_self).line, List.map_cons,
      ih fun row' hrow => h row' (List.mem_cons_of_mem _ hrow)]
    rfl

/-- A section of rows, up to a blank line or the end of the file. -/
theorem lineSections_rows (h : ∀ row ∈ rows, DataLine (text row)) {header : List Char}
    (hheader : lineKind header = .header) (before : List (List Char)) {rest : List (List Char)}
    (hrest : EndsSection lineKind rest) :
    lineSections (before ++ header :: (rows.map text ++ rest)) = lineSections before ++
      Gastask.toSection decimal header (rows.map text) :: lineSections rest := by
  have hkind : ∀ l ∈ rows.map text, lineKind l = .data := by
    intro l hl
    obtain ⟨row, hrow, rfl⟩ := List.mem_map.mp hl
    exact (h row hrow).data
  have hdata : (rows.map text).filter (IsData lineKind) = rows.map text := by
    rw [List.filter_eq_self]
    intro l hl
    simp [IsData, hkind l hl]
  have hrestfst := collect_lineEvents lineKind rest
  rw [lineSections, lineEvents_extent hheader (fun l hl => by simp [Inside, hkind l hl]) hrest, hdata]
  have hfold : ((Event.header header :: (rows.map text).map (Event.data header)) ++
      lineEvents lineKind none rest).foldr collect ([], []) =
      ([], (header, rows.map text) :: eventSections (lineEvents lineKind none rest)) := by
    rw [List.foldr_append, ← Prod.eta ((lineEvents lineKind none rest).foldr collect ([], [])),
      hrestfst, List.foldr_cons, foldr_collect]
    rfl
  rw [eventSections, List.append_assoc, List.foldr_append, hfold, collect_append]
  simp [lineSections, eventSections]

end Lines

section File
variable {base : List Char} {c : Conf} {d : Drawn}

theorem lines_commonConf (h : base = [] ∨ base.getLast? = some '\n') :
    lines (commonConf base) = lines base ++ ["*network\n".toList] := by
  rw [commonConf, lines_append_lines h]
  rfl

theorem lines_gastaskConf (h : base = [] ∨ base.getLast? = some '\n') (hd : ReadBack c d) :
    lines (gastaskConf base d) = lines base ++ "*network\n".toList ::
      (d.networks.map (fun n => rowText n.uplink n.downlink) ++ (["\n".toList,
        "# intercept_out intercept_in\n".toList] ++ "*netcommander\n".toList ::
      (d.netCommanders.map (fun n => rowText n.interceptOut n.interceptIn) ++ (["\n".toList,
        "# wcet period memreq mem_active_ratio input_data_size output_data_size\n".toList] ++
        "*task\n".toList :: (d.tasks.map taskText ++ []))))) := by
  have hnetworks : ∀ n ∈ d.networks, DataLine (rowText n.uplink n.downlink) := fun n hn =>
    dataLine_rowText (hd.network n hn).1 (hd.network n hn).2.1
  have hcommanders : ∀ n ∈ d.netCommanders, DataLine (rowText n.interceptOut n.interceptIn) :=
    fun n hn => dataLine_rowText (hd.netCommander n hn).1 (hd.netCommander n hn).2.1
  have htasks := lines_rows (fun t ht => (hd.task t ht).1) []
  rw [gastaskConf, commonConf, List.append_assoc, lines_append_lines h, networkGenerated,
    networkCommanderGenerated, taskGenerated]
  rw [lines_append_lines (l := "*network\n".toList) (.inr (by decide)), lines_rows hnetworks,
    lines_append_lines (l := "\n# intercept_out intercept_in\n*netcommander\n".toList)
      (.inr (by decide)), lines_rows hcommanders, lines_append_lines (.inr (by decide))]
  rw [List.append_nil, lines] at htasks
  rw [htasks]
  rfl

theorem fileSections_commonConf (h : base = [] ∨ base.getLast? = some '\n') :
    fileSections decimal (commonConf base) = lineSections (lines base) ++ [.network []] := by
  have hnone : ∀ n ∈ ([] : List Network), DataLine (rowText n.uplink n.downlink) := by simp
  have hrows := lineSections_rows hnone (show lineKind "*network\n".toList = .header by decide)
    (lines base) (show EndsSection lineKind [] from trivial)
  rw [fileSections, fileEvents, lines_commonConf h]
  exact hrows

theorem fileSections_gastaskConf (h : base = [] ∨ base.getLast? = some '\n') (hd : ReadBack c d) :
    fileSections decimal (gastaskConf base d) = lineSections (lines base) ++
      [.network (d.networks.map fun n => networkLine decimal (rowText n.uplink n.downlink)),
       .netCommander (d.netCommanders.map fun n =>
         netCommanderLine decimal (rowText n.interceptOut n.interceptIn)),
       .task (d.tasks.map fun t => taskLine decimal (taskText t))] := by
  have hnetworks : ∀ n ∈ d.networks, DataLine (rowText n.uplink n.downlink) := fun n hn =>
    dataLine_rowText (hd.network n hn).1 (hd.network n hn).2.1
  have hcommanders : ∀ n ∈ d.netCommanders, DataLine (rowText n.interceptOut n.interceptIn) :=
    fun n hn => dataLine_rowText (hd.netCommander n hn).1 (hd.netCommander n hn).2.1
  have hblank : ∀ l ls, EndsSection lineKind (["\n".toList, l] ++ ls) := fun _ _ => .inl rfl
  rw [fileSections, fileEvents, ← lineSections, lines_gastaskConf h hd,
    lineSections_rows hnetworks (by decide) (lines base) (hblank _ _),
    lineSections_rows hcommanders (by decide) _ (hblank _ _),
    lineSections_rows (fun t ht => (hd.task t ht).1) (by decide) _ (show EndsSection _ [] from trivial)]
  have hnetwork : checkSection "*network\n".toList = .network := by decide
  have hcommander : checkSection "*netcommander\n".toList = .netCommander := by decide
  have htask : checkSection "*task\n".toList = .task := by decide
  simp only [Gastask.toSection, hnetwork, hcommander, htask, List.map_map]
  rfl

theorem fits_gastaskConf (h : base = [] ∨ base.getLast? = some '\n')
    (hbase : Fits bufSize (lines (commonConf base))) (hd : ReadBack c d) :
    Fits bufSize (lines (gastaskConf base d)) := by
  have hrows : ∀ {α : Type} {text : α → List Char} {rows : List α},
      (∀ row ∈ rows, DataLine (text row)) → Fits bufSize (rows.map text) := by
    intro α text rows hrows l hl
    obtain ⟨row, hrow, rfl⟩ := List.mem_map.mp hl
    exact (hrows row hrow).fits _ (List.mem_singleton_self _)
  have hnetworks := hrows fun n hn =>
    dataLine_rowText (hd.network n hn).1 (hd.network n hn).2.1
  have hcommanders := hrows fun n hn =>
    dataLine_rowText (hd.netCommander n hn).1 (hd.netCommander n hn).2.1
  have htasks := hrows fun t ht => (hd.task t ht).1
  rw [lines_commonConf h] at hbase
  rw [lines_gastaskConf h hd]
  simp only [Fits, List.forall_mem_append, List.forall_mem_cons] at hbase hnetworks hcommanders htasks ⊢
  exact ⟨hbase.1, hbase.2.1, hnetworks, ⟨by decide, by decide, by simp⟩, by decide, hcommanders,
    ⟨by decide, by decide, by simp⟩, by decide, htasks, by simp⟩

end File

/-! ### What gastask makes of it -/

section Entries
variable {α : Type} {inRange : α → Bool} {number : ℕ → α → α} {Ok : List α → Prop}
  {line : α → Line α} {rows : List α}

/-- Lines that are read back say their rows, numbered on. -/
theorem entries_map (h : ∀ v ∈ rows, (line v).fields = some v) {n : ℕ} {l : List α} :
    entries (rowEntry inRange number) n (rows.map line) = some l ↔
      (∀ v ∈ rows, inRange v = true) ∧ l = rows.mapIdx fun i v => number (n + i) v := by
  induction rows generalizing n l with
  | nil =>
    constructor
    · intro hl
      exact ⟨by simp, (Option.some.inj hl).symm⟩
    · rintro ⟨-, rfl⟩
      rfl
  | cons v rows ih =>
    have hshift : (fun i => number (n + (i + 1))) = fun i => number (n + 1 + i) := by
      funext i
      rw [Nat.add_right_comm, Nat.add_assoc]
    have hrest : ∀ l', entries (rowEntry inRange number) (n + 1) (rows.map line) = some l' ↔ _ :=
      fun l' => ih (fun v hv => h v (List.mem_cons_of_mem _ hv))
    rw [List.map_cons, entries_cons, List.mapIdx_cons, hshift, Nat.add_zero, List.forall_mem_cons]
    constructor
    · rintro ⟨w, ws, hw, hws, rfl⟩
      obtain ⟨u, hu, hv, rfl⟩ := rowEntry_eq_some.mp hw
      obtain rfl : v = u := Option.some.inj ((h v List.mem_cons_self).symm.trans hu)
      obtain ⟨hrows, rfl⟩ := (hrest ws).mp hws
      exact ⟨⟨hv, hrows⟩, rfl⟩
    · rintro ⟨⟨hv, hrows⟩, rfl⟩
      exact ⟨_, _, rowEntry_eq_some.mpr ⟨v, h v List.mem_cons_self, hv, rfl⟩,
        (hrest _).mpr ⟨hrows, rfl⟩, rfl⟩

/-- A table of any size goes on with the rows. -/
theorem filled_map {before : List (Line α)} {l l' : List α}
    (hl : Filled (rowEntry inRange number) (fun _ => True) before l)
    (h : ∀ v ∈ rows, (line v).fields = some v) :
    Filled (rowEntry inRange number) (fun _ => True) (before ++ rows.map line) l' ↔
      (∀ v ∈ rows, inRange v = true) ∧ l' = l ++ rows.mapIdx fun i v => number (l.length + i) v := by
  constructor
  · intro hl'
    obtain ⟨vs, vs', hvs, hvs', rfl⟩ := entries_append.mp hl'.holds
    obtain rfl : l = vs := Option.some.inj (hl.holds.symm.trans hvs)
    rw [Nat.zero_add] at hvs'
    obtain ⟨hrows, rfl⟩ := (entries_map h).mp hvs'
    exact ⟨hrows, rfl⟩
  · rintro ⟨hrows, rfl⟩
    refine ⟨entries_append.mpr ⟨l, _, hl.holds, ?_, rfl⟩, trivial⟩
    rw [Nat.zero_add]
    exact (entries_map h).mpr ⟨hrows, rfl⟩

end Entries

/-- Behind sections that are accepted, the three sections of what was drawn are accepted if there is a
    frequency and every task is to be done within its period. -/
theorem parseConf_extend {ss : List Section} {cfg cfg' : Config} {d : Drawn}
    {network : Network → Line Network} {netCommander : NetCommander → Line NetCommander}
    {task : Task → Line Task} (hss : parseConf ss = .ok cfg)
    (hnetwork : ∀ n ∈ d.networks, (network n).fields = some n)
    (hcommander : ∀ n ∈ d.netCommanders, (netCommander n).fields = some n)
    (htask : ∀ t ∈ d.tasks, (task t).fields = some t) :
    parseConf (ss ++ [.network (d.networks.map network), .netCommander (d.netCommanders.map netCommander),
        .task (d.tasks.map task)]) = .ok cfg' ↔
      cfg.nCpufreqs ≠ 0 ∧ (∀ t ∈ d.tasks, t.wcet < t.period) ∧ cfg' = cfg.extend d := by
  have hrows := (parseConf_ok_iff.mp hss).rows
  have hfold : parseConf (ss ++ [.network (d.networks.map network),
      .netCommander (d.netCommanders.map netCommander), .task (d.tasks.map task)]) = .ok cfg' ↔
      ∃ c₁ c₂, parseNetwork cfg (d.networks.map network) = .ok c₁ ∧
        parseNetCommander c₁ (d.netCommanders.map netCommander) = .ok c₂ ∧
        parseSection c₂ (.task (d.tasks.map task)) = .ok cfg' := by
    rw [parseConf, List.foldlM_append, ← parseConf, hss]
    simp only [List.foldlM_cons, List.foldlM_nil, bind_pure, bind_ok]
    constructor
    · rintro ⟨_, ⟨⟩, c₁, h₁, c₂, h₂, h₃⟩
      exact ⟨c₁, c₂, h₁, h₂, h₃⟩
    · rintro ⟨c₁, c₂, h₁, h₂, h₃⟩
      exact ⟨cfg, rfl, c₁, h₁, c₂, h₂, h₃⟩
  have hnet : ∀ c, parseNetwork cfg (d.networks.map network) = .ok c ↔
      c = { cfg with networks := (cfg.extend d).networks } := by
    intro c
    rw [parseNetwork_iff hrows.networks, networkEntry, filled_map hrows.networks hnetwork]
    constructor
    · rintro ⟨⟨-, hnetworks⟩, heq⟩
      rw [heq, hnetworks]
      rfl
    · rintro rfl
      exact ⟨⟨fun _ _ => rfl, rfl⟩, rfl⟩
  obtain ⟨c₁, hc₁⟩ : ∃ c₁, c₁ = { cfg with networks := (cfg.extend d).networks } := ⟨_, rfl⟩
  have hcmd : ∀ c, parseNetCommander c₁ (d.netCommanders.map netCommander) = .ok c ↔
      c = { c₁ with netCommanders := (cfg.extend d).netCommanders } := by
    intro c
    have hfill : Filled netCommanderEntry (fun _ => True) (fileRows ss).netCommanders
        c₁.netCommanders := hc₁ ▸ hrows.netCommanders
    rw [parseNetCommander_iff hfill, netCommanderEntry, filled_map hfill hcommander, hc₁]
    constructor
    · rintro ⟨⟨-, hcommanders⟩, heq⟩
      rw [heq, hcommanders]
      rfl
    · rintro rfl
      exact ⟨⟨fun _ _ => rfl, rfl⟩, rfl⟩
  obtain ⟨c₂, hc₂⟩ : ∃ c₂, c₂ = { c₁ with netCommanders := (cfg.extend d).netCommanders } := ⟨_, rfl⟩
  have htsk : parseTask c₂ (d.tasks.map task) = .ok cfg' ↔
      (∀ t ∈ d.tasks, t.wcet < t.period) ∧ cfg' = cfg.extend d := by
    have hfill : Filled taskEntry (fun _ => True) (fileRows ss).tasks c₂.tasks := by
      rw [hc₂, hc₁]
      exact hrows.tasks
    rw [parseTask_iff hfill, taskEntry, filled_map hfill htask, hc₂, hc₁]
    simp only [decide_eq_true_eq]
    constructor
    · rintro ⟨⟨hlt, htasks⟩, heq⟩
      rw [heq, htasks]
      exact ⟨hlt, rfl⟩
    · rintro ⟨hlt, rfl⟩
      exact ⟨⟨hlt, rfl⟩, rfl⟩
  have hcpu : c₂.nCpufreqs = cfg.nCpufreqs := by
    rw [hc₂, hc₁]
    rfl
  rw [hfold]
  constructor
  · rintro ⟨a, b, ha, hb, hs⟩
    obtain rfl : a = c₁ := ((hnet a).mp ha).trans hc₁.symm
    obtain rfl : b = c₂ := ((hcmd b).mp hb).trans hc₂.symm
    obtain ⟨hne, hs⟩ := ite_error_ok.mp hs
    exact ⟨hcpu ▸ hne, htsk.mp hs⟩
  · rintro ⟨hne, hok⟩
    exact ⟨c₁, c₂, (hnet c₁).mpr hc₁, (hcmd c₂).mpr hc₂,
      ite_error_ok.mpr ⟨hcpu.symm ▸ hne, htsk.mpr hok⟩⟩

/-! ### The memory types -/

section Mems
variable {double : List Char → Option (ℚ × List Char)}

theorem parseLines_fields {α : Type} {badFormat : String}
    {add : Config → String → α → Except Halt Config} {cfg cfg' : Config} {l : Line α}
    (h : parseLines badFormat add cfg [l] = .ok cfg') :
    ∃ v, l.fields = some v ∧ add cfg l.text v = .ok cfg' := by
  rw [parseLines, List.foldlM_cons] at h
  obtain ⟨c, hc, hnil⟩ := bind_ok.mp h
  obtain rfl := pure_ok.mp hnil
  cases hf : l.fields with
  | none => simp [hf, invalid] at hc
  | some v =>
    simp only [hf] at hc
    exact ⟨v, rfl, hc⟩

/-- A line of a memory section adds the memory type it names, whatever else is loaded. -/
theorem parseMem_mems {cfg cfg' : Config} {l : Line Mem} (h : parseMem cfg [l] = .ok cfg') :
    ∃ m, l.fields = some m ∧ cfg'.mems = cfg.mems ++ [m] := by
  obtain ⟨m, hm, hadd⟩ := parseLines_fields h
  simp only [invalid, ite_error_ok, addMem, Except.ok.injEq] at hadd
  obtain ⟨-, -, -, -, rfl⟩ := hadd
  exact ⟨m, hm, rfl⟩

theorem data_mems {sect : SectionT} {cfg cfg' : Config} {buf : List Char} (hsect : sect ≠ .mem)
    (h : Gastask.data double sect cfg buf = .ok cfg') : cfg'.mems = cfg.mems := by
  cases sect with
  | mem => exact absurd rfl hsect
  | genetic =>
    obtain ⟨v, -, hadd⟩ := parseLines_fields (show parseGenetic cfg [_] = .ok cfg' from h)
    cases hadd
    rfl
  | cpufreq =>
    obtain ⟨v, -, hadd⟩ := parseLines_fields (show parseCpufreq cfg [_] = .ok cfg' from h)
    simp only [invalid, ite_error_ok, addCpufreq, Except.ok.injEq] at hadd
    obtain ⟨-, -, -, -, rfl⟩ := hadd
    rfl
  | task =>
    obtain ⟨v, -, hadd⟩ := parseLines_fields (show parseTask cfg [_] = .ok cfg' from h)
    simp only [invalid, ite_error_ok, addTask, Except.ok.injEq] at hadd
    obtain ⟨-, rfl⟩ := hadd
    rfl
  | offloadingratio =>
    obtain ⟨v, -, hadd⟩ := parseLines_fields (show parseOffloadingratio cfg [_] = .ok cfg' from h)
    simp only [invalid, ite_error_ok, addOffloadingratio, Except.ok.injEq] at hadd
    obtain ⟨-, -, -, -, rfl⟩ := hadd
    rfl
  | cloud =>
    obtain ⟨v, -, hadd⟩ := parseLines_fields (show parseCloud cfg [_] = .ok cfg' from h)
    simp only [invalid, ite_error_ok, addCloud, Except.ok.injEq] at hadd
    obtain ⟨-, -, -, -, rfl⟩ := hadd
    rfl
  | network =>
    obtain ⟨v, -, hadd⟩ := parseLines_fields (show parseNetwork cfg [_] = .ok cfg' from h)
    cases hadd
    rfl
  | netCommander =>
    obtain ⟨v, -, hadd⟩ := parseLines_fields (show parseNetCommander cfg [_] = .ok cfg' from h)
    cases hadd
    rfl
  | _ =>
    cases h
    rfl

/-- Both programs load the same memory types. -/
theorem mems_eq {es : List Event} {cfg cfg' : Config} {g g' : Conf}
    (hcfg : es.foldlM (Gastask.actions double).step cfg = .ok cfg')
    (hg : es.foldlM (Gasgen.actions double).step g = .ok g') (h : g.tables.mems = cfg.mems) :
    g'.tables.mems = cfg'.mems := by
  induction es generalizing cfg g with
  | nil =>
    obtain rfl := pure_ok.mp hcfg
    obtain rfl := pure_ok.mp hg
    exact h
  | cons e es ih =>
    rw [List.foldlM_cons] at hcfg hg
    obtain ⟨c, hc, hcfg⟩ := bind_ok.mp hcfg
    obtain ⟨k, hk, hg⟩ := bind_ok.mp hg
    refine ih hcfg hg ?_
    cases e with
    | header l =>
      obtain rfl := Gastask.header_ok hc
      obtain rfl := Gasgen.header_ok hk
      exact h
    | data hd l =>
      by_cases hsect : checkSection hd = .mem
      · simp only [Actions.step, Gastask.actions, Gasgen.actions, hsect] at hc hk
        obtain ⟨tables, hmem, hok⟩ := bind_ok.mp hk
        obtain rfl := pure_ok.mp hok
        obtain ⟨m, hm, hcm⟩ := parseMem_mems hc
        obtain ⟨m', hm', hkm⟩ := parseMem_mems hmem
        obtain rfl : m = m' := Option.some.inj (hm.symm.trans hm')
        rw [hcm, hkm, h]
      · rw [data_mems hsect hc, ← h]
        rcases Gasgen.data_tables hk with hk | ⟨hmem, -⟩
        · rw [hk]
        · exact absurd hmem hsect

end Mems

/-! ### The whole way -/

/-- The file that the script puts together is accepted by gastask, whatever gasgen draws, if and only
    if there is a frequency and every task is to be done within its period; what is loaded is the
    configuration of the script, the same memory types that gasgen has read in it, with exactly the
    tasks, networks and commanders drawn, as many as it asks for and numbered on. -/
theorem pipeline_loads (fl : ℚ → ℚ) (M : Machine) {base : List Char} (hbase : base = [] ∨ base.getLast? = some '\n')
    (hplain : PlainFile (commonConf base)) {fuel : ℕ} (hfuel : (commonConf base).length < fuel)
    {cfg : Config} (hcfg : Gastask.parseConf decimal fuel { content := commonConf base } = some (.ok cfg))
    {g : Conf} (hg : Gasgen.parseConf decimal fuel { content := commonConf base } = some (.ok g)) :
    g.tables.mems = cfg.mems ∧ Below randBound (gasgen fl M g) fun d =>
      d.tasks.length = g.gentask.nTasksTarget ∧ d.networks.length = g.gennetwork.nNetworksTarget ∧
      d.netCommanders.length = g.gennetcommander.nNetCommanderTarget ∧
      ∀ fuel', (gastaskConf base d).length < fuel' → ∀ cfg',
        Gastask.parseConf decimal fuel' { content := gastaskConf base d } = some (.ok cfg') ↔
          cfg.nCpufreqs ≠ 0 ∧ (∀ t ∈ d.tasks, t.wcet < t.period) ∧ cfg' = cfg.extend d := by
  have hevents := events_fileEvents hplain hfuel
  constructor
  · rw [(Gastask.parseConf_eq decimal hevents).1, Option.some.injEq] at hcfg
    rw [(Gasgen.parseConf_eq decimal hevents).1, Option.some.injEq] at hg
    exact mems_eq hcfg hg rfl
  · refine (below_gasgen fl M g).mono fun d hd => ⟨hd.nTasks, hd.nNetworks, hd.nNetCommanders, ?_⟩
    intro fuel' hfuel' cfg'
    rw [parseConf_fits hplain.fits hfuel, Option.some.injEq, fileSections_commonConf hbase] at hcfg
    rw [parseConf_fits (fits_gastaskConf hbase hplain.fits hd) hfuel', Option.some.injEq,
      fileSections_gastaskConf hbase hd]
    refine parseConf_extend ?_ (fun n => hd.networkFields) (fun n => hd.netCommanderFields)
      fun t ht => (hd.task t ht).2
    rw [parseConf, List.foldlM_append] at hcfg
    obtain ⟨c, hc, hnil⟩ := bind_ok.mp hcfg
    obtain rfl : c = cfg := Except.ok.inj hnil
    exact hc

/-- One task, one network and one commander for a device with a single frequency. -/
def pipelineBase : List Char :=
  ("*cpufreq\n1 100 1\n\n*mem\ndram 1000 1 0.01 0.001\n\n*gentask\n10 10 1000 0.6 0.6 1 1 1 1 1 1 1\n\n" ++
    "*gennetwork\n30 30 120 120 1\n\n*gennetcommander\n1 1 5 5 1\n\n").toList

theorem pipeline_loads_pipelineBase : ∃ (cfg : Config) (g : Conf), cfg.nCpufreqs = 1 ∧ g.tables.mems = cfg.mems ∧
    Below randBound (gasgen Binary64.nearest (worstMachine 1) g) fun d =>
      d.tasks.length = 1 ∧ d.networks.length = 1 ∧ d.netCommanders.length = 1 ∧
      ∀ fuel', (gastaskConf pipelineBase d).length < fuel' → ∀ cfg',
        Gastask.parseConf decimal fuel' { content := gastaskConf pipelineBase d } = some (.ok cfg') ↔
          cfg.nCpufreqs ≠ 0 ∧ (∀ t ∈ d.tasks, t.wcet < t.period) ∧ cfg' = cfg.extend d := by
  have hplain : PlainFile (commonConf pipelineBase) := ⟨by decide +kernel, by decide +kernel⟩
  have hcfg : Gastask.parseConf decimal 200 { content := commonConf pipelineBase } = some (.ok
      { cpufreqs := [⟨1, 100, 1⟩], mems := [⟨"dram", 1000, 1, 1 / 100, 1 / 1000⟩] }) := by
    decide +kernel
  have hg : Gasgen.parseConf decimal 200 { content := commonConf pipelineBase } = some (.ok
      { tables := { mems := [⟨"dram", 1000, 1, 1 / 100, 1 / 1000⟩] }
        gentask := ⟨10, 10, 1000, 3 / 5, 3 / 5, 1, 1, 1, 1, 1, 1, 1⟩
        gennetwork := ⟨30, 30, 120, 120, 1⟩
        gennetcommander := ⟨1, 1, 5, 5, 1⟩ }) := by
    decide +kernel
  exact ⟨_, _, rfl, pipeline_loads Binary64.nearest (worstMachine 1) (.inr (by decide +kernel)) hplain
    (by decide +kernel) hcfg hg⟩

end MutualEdge
