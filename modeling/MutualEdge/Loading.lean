import Mathlib.Data.List.GetD
import MutualEdge.ConfLines
import MutualEdge.Lib.Tabulate

/-! Which configuration files are accepted, and what is loaded from them.

    `Loads` describes a file without its reader: every line of every section says an entry, each table
    holds the entries of all its sections in the order of the file, within its size and in its order,
    and a task section stands behind some frequency. `parseConf` accepts exactly such files and loads
    exactly these tables. -/

namespace MutualEdge
open Checks Tabulate

/-! ### Sections and rows -/

/-- The rows of a file, table by table. -/
@[ext] structure FileRows where
  genetic : List (Line Genetic) := []
  cpufreqs : List (Line Cpufreq) := []
  mems : List (Line Mem) := []
  tasks : List (Line Task) := []
  offloadingratios : List (Line ℚ) := []
  clouds : List (Line Cloud) := []
  networks : List (Line Network) := []
  netCommanders : List (Line NetCommander) := []

def FileRows.add (r : FileRows) : Section → FileRows
  | .genetic lines => { r with genetic := r.genetic ++ lines }
  | .cpufreq lines => { r with cpufreqs := r.cpufreqs ++ lines }
  | .mem lines => { r with mems := r.mems ++ lines }
  | .task lines => { r with tasks := r.tasks ++ lines }
  | .offloadingratio lines => { r with offloadingratios := r.offloadingratios ++ lines }
  | .cloud lines => { r with clouds := r.clouds ++ lines }
  | .network lines => { r with networks := r.networks ++ lines }
  | .netCommander lines => { r with netCommanders := r.netCommanders ++ lines }
  | .skipped | .unknown _ => r

def fileRows (sections : List Section) : FileRows := sections.foldl FileRows.add {}

/-- The entry of a row with all its fields, if these are in range, numbered by its place. -/
def rowEntry {α : Type} (inRange : α → Bool) (number : ℕ → α → α) (n : ℕ) (l : Line α) : Option α :=
  (l.fields.filter inRange).map (number n)

def cpufreqEntry : ℕ → Line Cpufreq → Option Cpufreq :=
  rowEntry (fun f => 0 ≤ f.wcetScale ∧ f.wcetScale ≤ 1 ∧ 0 ≤ f.powerActive ∧ 0 ≤ f.powerIdle)
    fun _ f => f

def memEntry : ℕ → Line Mem → Option Mem :=
  rowEntry (fun m => m.maxCapacity ≠ 0 ∧ 0 ≤ m.wcetScale ∧ m.wcetScale ≤ 1 ∧ 0 ≤ m.powerActive ∧
    0 ≤ m.powerIdle) fun _ m => m

def taskEntry : ℕ → Line Task → Option Task :=
  rowEntry (fun t => t.wcet < t.period) fun n t => { t with no := n + 1 }

def offloadingratioEntry : ℕ → Line ℚ → Option ℚ := rowEntry (fun r => 0 ≤ r ∧ r ≤ 1) fun _ r => r

def cloudEntry : ℕ → Line Cloud → Option Cloud :=
  rowEntry (fun c => c.maxCapacity ≠ 0 ∧ 0 ≤ c.powerActive ∧ 0 ≤ c.powerIdle ∧ c.offloadingLimit ≤ 1)
    fun _ c => c

def networkEntry : ℕ → Line Network → Option Network :=
  rowEntry (fun _ => true) fun n v => { v with no := n + 1 }

def netCommanderEntry : ℕ → Line NetCommander → Option NetCommander :=
  rowEntry (fun _ => true) fun n v => { v with no := n + 1 }

/-- The values of the last genetic row, or those the globals start with. -/
def geneticOf (rows : List Genetic) : Genetic := rows.getLast?.getD ⟨100000, 100, 0, 0⟩

/-- The globals of a genetic section. -/
def Config.genetic (cfg : Config) : Genetic := ⟨cfg.maxGen, cfg.nPops, cfg.cutoff, cfg.penalty⟩

def Config.setGenetic (cfg : Config) (g : Genetic) : Config :=
  { cfg with maxGen := g.maxGen, nPops := g.nPops, cutoff := g.cutoff, penalty := g.penalty }

/-- The configuration that rows describe. -/
structure FileRows.Describe (r : FileRows) (cfg : Config) : Prop where
  genetic : ∃ rows : List Genetic, r.genetic.map Line.fields = rows.map some ∧
    cfg.genetic = geneticOf rows
  cpufreqs : Filled cpufreqEntry (Within maxCpuFreqs fun f g => g.wcetScale ≤ f.wcetScale) r.cpufreqs
    cfg.cpufreqs
  mems : Filled memEntry (Within maxMems fun _ _ => True) r.mems cfg.mems
  tasks : Filled taskEntry (fun _ => True) r.tasks cfg.tasks
  offloadingratios : Filled offloadingratioEntry (Within maxOffloadingRatios (· ≤ ·))
    r.offloadingratios cfg.offloadingratios
  clouds : Filled cloudEntry (Within maxClouds fun _ _ => True) r.clouds cfg.clouds
  networks : Filled networkEntry (fun _ => True) r.networks cfg.networks
  netCommanders : Filled netCommanderEntry (fun _ => True) r.netCommanders cfg.netCommanders

/-- Every task section stands behind some frequency. -/
def TasksBehind (sections : List Section) : Prop :=
  ∀ before lines after, sections = before ++ .task lines :: after → (fileRows before).cpufreqs ≠ []

/-- The configuration that a file of the given sections describes. -/
structure Loads (sections : List Section) (cfg : Config) : Prop where
  known : ∀ text, Section.unknown text ∉ sections
  behind : TasksBehind sections
  rows : (fileRows sections).Describe cfg

/-! ### The readers of the sections -/

section Readers
variable {α : Type} {inRange : α → Bool} {number : ℕ → α → α}

theorem rowEntry_eq_some {n : ℕ} {l : Line α} {v : α} : rowEntry inRange number n l = some v ↔
    ∃ w, l.fields = some w ∧ inRange w = true ∧ number n w = v := by
  simp only [rowEntry, Option.map_eq_some_iff, Option.filter_eq_some_iff, and_assoc]

/-- A section reader appends what its rows say, if that is what it does with a row in range. -/
theorem parseLines_filled {badFormat : String} {add : Config → String → α → Except Halt Config}
    (table : Config → List α) (put : Config → List α → Config) {Ok : List α → Prop}
    (table_put : ∀ s l, table (put s l) = l) (put_put : ∀ s l l', put (put s l) l' = put s l')
    (put_table : ∀ s, put s (table s) = s) (shorter : ∀ l l', Ok (l ++ l') → Ok l)
    (hadd : ∀ cfg text v cfg', Ok (table cfg) → (add cfg text v = .ok cfg' ↔ inRange v = true ∧
      Ok (table cfg ++ [number (table cfg).length v]) ∧
      cfg' = put cfg (table cfg ++ [number (table cfg).length v]))) {cfg cfg' : Config}
    {before lines : List (Line α)} (h : Filled (rowEntry inRange number) Ok before (table cfg)) :
    parseLines badFormat add cfg lines = .ok cfg' ↔
      Filled (rowEntry inRange number) Ok (before ++ lines) (table cfg') ∧
        cfg' = put cfg (table cfg') := by
  unfold parseLines
  refine Appends.foldlM_filled ⟨table_put, put_put, put_table, shorter, fun cfg line cfg' hok => ?_⟩ h
  cases hf : line.fields with
  | none => simp [invalid, rowEntry_eq_some, hf]
  | some v =>
    simp only [rowEntry_eq_some, hf, Option.some.injEq]
    rw [hadd cfg line.text v cfg' hok]
    constructor
    · rintro ⟨hrange, hok', rfl⟩
      exact ⟨_, ⟨v, rfl, hrange, rfl⟩, hok', rfl⟩
    · rintro ⟨_, ⟨_, rfl, hrange, rfl⟩, hok', rfl⟩
      exact ⟨hrange, hok', rfl⟩

/-- Room for one more entry, and that entry in order. -/
theorem within_snoc {size : ℕ} {R : α → α → Prop} [IsTrans α R] {l : List α} {x : α} (d : α)
    (h : Within size R l) : Within size R (l ++ [x]) ↔
      ¬ size ≤ l.length ∧ (0 < l.length → R (l.getD (l.length - 1) d) x) := by
  constructor
  · intro h'
    have hlen := h'.length_le
    rw [List.length_append, List.length_singleton] at hlen
    refine ⟨by omega, fun hpos => ?_⟩
    rw [List.getD_eq_getElem _ _ (by omega)]
    exact (List.pairwise_append.mp h'.ordered).2.2 _ (List.getElem_mem _) x (List.mem_singleton_self x)
  · rintro ⟨hlen, hlast⟩
    exact ⟨length_snoc_le hlen, pairwise_snoc h.ordered hlast⟩

theorem parseCpufreq_iff {cfg cfg' : Config} {before lines : List (Line Cpufreq)}
    (h : Filled cpufreqEntry (Within maxCpuFreqs fun f g => g.wcetScale ≤ f.wcetScale) before
      cfg.cpufreqs) : parseCpufreq cfg lines = .ok cfg' ↔
      Filled cpufreqEntry (Within maxCpuFreqs fun f g => g.wcetScale ≤ f.wcetScale) (before ++ lines)
        cfg'.cpufreqs ∧ cfg' = { cfg with cpufreqs := cfg'.cpufreqs } := by
  have htrans : IsTrans Cpufreq fun f g => g.wcetScale ≤ f.wcetScale :=
    ⟨fun _ _ _ hab hbc => hbc.trans hab⟩
  refine parseLines_filled Config.cpufreqs (fun cfg l => { cfg with cpufreqs := l }) (fun _ _ => rfl)
    (fun _ _ _ => rfl) (fun _ => rfl) (fun _ _ => Within.of_append) (fun cfg text f cfg' hok => ?_) h
  rw [within_snoc {} hok, decide_eq_true_eq]
  simp only [invalid, ite_error_ok, addCpufreq, Config.nCpufreqs, Config.cpufreq]
  grind

theorem parseMem_iff {cfg cfg' : Config} {before lines : List (Line Mem)}
    (h : Filled memEntry (Within maxMems fun _ _ => True) before cfg.mems) :
    parseMem cfg lines = .ok cfg' ↔
      Filled memEntry (Within maxMems fun _ _ => True) (before ++ lines) cfg'.mems ∧
        cfg' = { cfg with mems := cfg'.mems } := by
  have htrans : IsTrans Mem fun _ _ => True := ⟨fun _ _ _ _ _ => trivial⟩
  refine parseLines_filled Config.mems (fun cfg l => { cfg with mems := l }) (fun _ _ => rfl)
    (fun _ _ _ => rfl) (fun _ => rfl) (fun _ _ => Within.of_append) (fun cfg text m cfg' hok => ?_) h
  rw [within_snoc {} hok, decide_eq_true_eq]
  simp only [invalid, ite_error_ok, addMem, Config.nMems]
  grind

theorem parseTask_iff {cfg cfg' : Config} {before lines : List (Line Task)}
    (h : Filled taskEntry (fun _ => True) before cfg.tasks) : parseTask cfg lines = .ok cfg' ↔
      Filled taskEntry (fun _ => True) (before ++ lines) cfg'.tasks ∧
        cfg' = { cfg with tasks := cfg'.tasks } := by
  refine parseLines_filled Config.tasks (fun cfg l => { cfg with tasks := l }) (fun _ _ => rfl)
    (fun _ _ _ => rfl) (fun _ => rfl) (fun _ _ _ => trivial) (fun cfg text t cfg' _ => ?_) h
  rw [decide_eq_true_eq]
  simp only [invalid, ite_error_ok, addTask, Config.nTasks, Except.ok.injEq]
  grind

theorem parseOffloadingratio_iff {cfg cfg' : Config} {before lines : List (Line ℚ)}
    (h : Filled offloadingratioEntry (Within maxOffloadingRatios (· ≤ ·)) before
      cfg.offloadingratios) : parseOffloadingratio cfg lines = .ok cfg' ↔
      Filled offloadingratioEntry (Within maxOffloadingRatios (· ≤ ·)) (before ++ lines)
        cfg'.offloadingratios ∧ cfg' = { cfg with offloadingratios := cfg'.offloadingratios } := by
  refine parseLines_filled Config.offloadingratios (fun cfg l => { cfg with offloadingratios := l })
    (fun _ _ => rfl) (fun _ _ _ => rfl) (fun _ => rfl) (fun _ _ => Within.of_append)
    (fun cfg text r cfg' hok => ?_) h
  rw [within_snoc 0 hok, decide_eq_true_eq]
  simp only [invalid, ite_error_ok, addOffloadingratio, Config.nOffloadingratios,
    Config.offloadingratio]
  grind

theorem parseCloud_iff {cfg cfg' : Config} {before lines : List (Line Cloud)}
    (h : Filled cloudEntry (Within maxClouds fun _ _ => True) before cfg.clouds) :
    parseCloud cfg lines = .ok cfg' ↔
      Filled cloudEntry (Within maxClouds fun _ _ => True) (before ++ lines) cfg'.clouds ∧
        cfg' = { cfg with clouds := cfg'.clouds } := by
  have htrans : IsTrans Cloud fun _ _ => True := ⟨fun _ _ _ _ _ => trivial⟩
  refine parseLines_filled Config.clouds (fun cfg l => { cfg with clouds := l }) (fun _ _ => rfl)
    (fun _ _ _ => rfl) (fun _ => rfl) (fun _ _ => Within.of_append) (fun cfg text c cfg' hok => ?_) h
  rw [within_snoc {} hok, decide_eq_true_eq]
  simp only [invalid, ite_error_ok, addCloud, Config.nClouds]
  grind

theorem parseNetwork_iff {cfg cfg' : Config} {before lines : List (Line Network)}
    (h : Filled networkEntry (fun _ => True) before cfg.networks) :
    parseNetwork cfg lines = .ok cfg' ↔
      Filled networkEntry (fun _ => True) (before ++ lines) cfg'.networks ∧
        cfg' = { cfg with networks := cfg'.networks } := by
  refine parseLines_filled Config.networks (fun cfg l => { cfg with networks := l }) (fun _ _ => rfl)
    (fun _ _ _ => rfl) (fun _ => rfl) (fun _ _ _ => trivial) (fun cfg text n cfg' _ => ?_) h
  simp only [addNetwork, Except.ok.injEq]
  grind

theorem parseNetCommander_iff {cfg cfg' : Config} {before lines : List (Line NetCommander)}
    (h : Filled netCommanderEntry (fun _ => True) before cfg.netCommanders) :
    parseNetCommander cfg lines = .ok cfg' ↔
      Filled netCommanderEntry (fun _ => True) (before ++ lines) cfg'.netCommanders ∧
        cfg' = { cfg with netCommanders := cfg'.netCommanders } := by
  refine parseLines_filled Config.netCommanders (fun cfg l => { cfg with netCommanders := l })
    (fun _ _ => rfl) (fun _ _ _ => rfl) (fun _ => rfl) (fun _ _ _ => trivial)
    (fun cfg text n cfg' _ => ?_) h
  simp only [addNetCommander, Except.ok.injEq]
  grind

/-- A genetic row replaces what the last one has set. -/
theorem parseGenetic_iff {cfg cfg' : Config} {lines : List (Line Genetic)} :
    parseGenetic cfg lines = .ok cfg' ↔ ∃ rows : List Genetic,
      lines.map Line.fields = rows.map some ∧ cfg' = rows.getLast?.elim cfg cfg.setGenetic := by
  induction lines generalizing cfg with
  | nil =>
    constructor
    · intro h
      obtain rfl := pure_ok.mp h
      exact ⟨[], rfl, rfl⟩
    · rintro ⟨rows, hrows, rfl⟩
      obtain rfl : rows = [] := List.map_eq_nil_iff.mp hrows.symm
      rfl
  | cons line lines ih =>
    rw [parseGenetic, parseLines, List.foldlM_cons, bind_ok]
    cases hf : line.fields with
    | none =>
      constructor
      · rintro ⟨c, hc, -⟩
        cases hc
      · rintro ⟨rows, hrows, -⟩
        cases rows <;> simp [hf] at hrows
    | some g =>
      have hstep : ∀ rows : List Genetic, (g :: rows).getLast?.elim cfg cfg.setGenetic =
          rows.getLast?.elim (cfg.setGenetic g) (cfg.setGenetic g).setGenetic := by
        intro rows
        cases rows with
        | nil => rfl
        | cons r rows =>
          rw [List.getLast?_cons_cons, List.getLast?_eq_some_getLast (List.cons_ne_nil r rows)]
          rfl
      constructor
      · rintro ⟨c, hc, hfold⟩
        obtain rfl : cfg.setGenetic g = c := Except.ok.inj hc
        obtain ⟨rows, hrows, rfl⟩ := ih.mp hfold
        exact ⟨g :: rows, by rw [List.map_cons, List.map_cons, hf, hrows], (hstep rows).symm⟩
      · rintro ⟨rows, hrows, rfl⟩
        cases rows with
        | nil => cases hrows
        | cons r rows =>
          rw [List.map_cons, List.map_cons, hf, List.cons.injEq, Option.some.injEq] at hrows
          obtain ⟨rfl, hrows⟩ := hrows
          exact ⟨cfg.setGenetic g, rfl, ih.mpr ⟨rows, hrows, hstep rows⟩⟩

end Readers

/-! ### Section by section -/

section Sections
variable {ss : List Section} {s : Section} {cfg cfg' : Config}

theorem fileRows_snoc (ss : List Section) (s : Section) : fileRows (ss ++ [s]) = (fileRows ss).add s := by
  rw [fileRows, List.foldl_append]
  rfl

theorem tasksBehind_snoc : TasksBehind (ss ++ [s]) ↔
    TasksBehind ss ∧ ∀ lines, s = .task lines → (fileRows ss).cpufreqs ≠ [] := by
  constructor
  · intro h
    refine ⟨fun before lines after heq => ?_, ?_⟩
    · exact h before lines (after ++ [s]) (by rw [heq, List.append_assoc, List.cons_append])
    · rintro lines rfl
      exact h ss lines [] rfl
  · rintro ⟨hss, hs⟩ before lines after heq
    rcases List.eq_nil_or_concat after with rfl | ⟨after', x, rfl⟩
    · obtain ⟨rfl, hlast⟩ := List.append_inj' heq rfl
      exact hs lines (List.singleton_inj.mp hlast)
    · rw [List.concat_eq_append, ← List.cons_append, ← List.append_assoc] at heq
      exact hss before lines after' (List.append_inj' heq rfl).1

/-- With rows that describe a table, it is empty exactly when there are none. -/
theorem nCpufreqs_eq_zero {r : FileRows} (h : r.Describe cfg) :
    cfg.nCpufreqs = 0 ↔ r.cpufreqs = [] := by
  rw [Config.nCpufreqs, length_entries h.cpufreqs.holds, List.length_eq_zero_iff]

/-- The last row counts. -/
theorem geneticOf_append (rows rows' : List Genetic) :
    geneticOf (rows ++ rows') = rows'.getLast?.elim (geneticOf rows) id := by
  rw [geneticOf, List.getLast?_append]
  cases rows'.getLast? <;> rfl

theorem genetic_elim (rows : List Genetic) (cfg : Config) :
    rows.getLast?.elim cfg cfg.setGenetic =
      cfg.setGenetic (rows.getLast?.elim cfg.genetic id) := by
  cases rows.getLast? <;> rfl

/-- The rows of one more section describe what its reader makes of the configuration before. -/
theorem describe_add {r : FileRows} (h : r.Describe cfg) (hs : parseSection cfg s = .ok cfg') :
    (r.add s).Describe cfg' := by
  cases s with
  | genetic lines =>
    obtain ⟨rows, hrows, hlast⟩ := h.genetic
    obtain ⟨rows', hrows', heq⟩ := parseGenetic_iff.mp hs
    rw [heq, genetic_elim]
    refine { h with genetic := ⟨rows ++ rows', ?_, ?_⟩ }
    · rw [FileRows.add, List.map_append, List.map_append, hrows, hrows']
    · rw [geneticOf_append, ← hlast]
      rfl
  | cpufreq lines =>
    obtain ⟨hfill, heq⟩ := (parseCpufreq_iff h.cpufreqs).mp hs
    rw [heq]
    exact { h with cpufreqs := hfill }
  | mem lines =>
    obtain ⟨hfill, heq⟩ := (parseMem_iff h.mems).mp hs
    rw [heq]
    exact { h with mems := hfill }
  | task lines =>
    obtain ⟨-, hs⟩ := ite_error_ok.mp hs
    obtain ⟨hfill, heq⟩ := (parseTask_iff h.tasks).mp hs
    rw [heq]
    exact { h with tasks := hfill }
  | offloadingratio lines =>
    obtain ⟨hfill, heq⟩ := (parseOffloadingratio_iff h.offloadingratios).mp hs
    rw [heq]
    exact { h with offloadingratios := hfill }
  | cloud lines =>
    obtain ⟨hfill, heq⟩ := (parseCloud_iff h.clouds).mp hs
    rw [heq]
    exact { h with clouds := hfill }
  | network lines =>
    obtain ⟨hfill, heq⟩ := (parseNetwork_iff h.networks).mp hs
    rw [heq]
    exact { h with networks := hfill }
  | netCommander lines =>
    obtain ⟨hfill, heq⟩ := (parseNetCommander_iff h.netCommanders).mp hs
    rw [heq]
    exact { h with netCommanders := hfill }
  | skipped =>
    obtain rfl := Except.ok.inj hs
    exact h
  | unknown text => cases hs

/-- What the rows of one more section describe, its reader makes of the configuration that the rows
    before it describe. -/
theorem exists_describe {r : FileRows} (h : (r.add s).Describe cfg') (hknown : ∀ text, s ≠ .unknown text)
    (hbehind : ∀ lines, s = .task lines → r.cpufreqs ≠ []) :
    ∃ cfg, r.Describe cfg ∧ parseSection cfg s = .ok cfg' := by
  cases s with
  | genetic lines =>
    obtain ⟨all, hall, hlast⟩ := h.genetic
    rw [FileRows.add, List.map_append] at hall
    obtain ⟨rows, rows', rfl, hrows, hrows'⟩ := List.append_eq_map_iff.mp hall
    refine ⟨cfg'.setGenetic (geneticOf rows), { h with genetic := ⟨rows, hrows.symm, rfl⟩ },
      parseGenetic_iff.mpr ⟨rows', hrows'.symm, ?_⟩⟩
    rw [genetic_elim]
    exact (congrArg cfg'.setGenetic (hlast.trans (geneticOf_append rows rows')) :)
  | cpufreq lines =>
    obtain ⟨l, hl⟩ := h.cpufreqs.of_append fun _ _ => Within.of_append
    exact ⟨{ cfg' with cpufreqs := l }, { h with cpufreqs := hl },
      (parseCpufreq_iff hl).mpr ⟨h.cpufreqs, rfl⟩⟩
  | mem lines =>
    obtain ⟨l, hl⟩ := h.mems.of_append fun _ _ => Within.of_append
    exact ⟨{ cfg' with mems := l }, { h with mems := hl }, (parseMem_iff hl).mpr ⟨h.mems, rfl⟩⟩
  | task lines =>
    obtain ⟨l, hl⟩ := h.tasks.of_append fun _ _ _ => trivial
    have hr : r.Describe { cfg' with tasks := l } := { h with tasks := hl }
    have hcpu := (nCpufreqs_eq_zero hr).not.mpr (hbehind lines rfl)
    exact ⟨_, hr, ite_error_ok.mpr ⟨hcpu, (parseTask_iff hl).mpr ⟨h.tasks, rfl⟩⟩⟩
  | offloadingratio lines =>
    obtain ⟨l, hl⟩ := h.offloadingratios.of_append fun _ _ => Within.of_append
    exact ⟨{ cfg' with offloadingratios := l }, { h with offloadingratios := hl },
      (parseOffloadingratio_iff hl).mpr ⟨h.offloadingratios, rfl⟩⟩
  | cloud lines =>
    obtain ⟨l, hl⟩ := h.clouds.of_append fun _ _ => Within.of_append
    exact ⟨{ cfg' with clouds := l }, { h with clouds := hl }, (parseCloud_iff hl).mpr ⟨h.clouds, rfl⟩⟩
  | network lines =>
    obtain ⟨l, hl⟩ := h.networks.of_append fun _ _ _ => trivial
    exact ⟨{ cfg' with networks := l }, { h with networks := hl },
      (parseNetwork_iff hl).mpr ⟨h.networks, rfl⟩⟩
  | netCommander lines =>
    obtain ⟨l, hl⟩ := h.netCommanders.of_append fun _ _ _ => trivial
    exact ⟨{ cfg' with netCommanders := l }, { h with netCommanders := hl },
      (parseNetCommander_iff hl).mpr ⟨h.netCommanders, rfl⟩⟩
  | skipped => exact ⟨cfg', h, rfl⟩
  | unknown text => exact absurd rfl (hknown text)

/-- Without rows everything has its initial value. -/
theorem FileRows.Describe.eq_init (h : ({} : FileRows).Describe cfg) : cfg = {} := by
  obtain ⟨rows, hrows, hgenetic⟩ := h.genetic
  obtain rfl : rows = [] := List.map_eq_nil_iff.mp hrows.symm
  have hempty : ∀ {α β : Type} {entry : ℕ → α → Option β} {Ok : List β → Prop} {l : List β},
      Filled entry Ok [] l → l = [] := fun h => (Option.some.inj h.holds).symm
  cases cfg
  obtain rfl := hempty h.cpufreqs
  obtain rfl := hempty h.mems
  obtain rfl := hempty h.tasks
  obtain rfl := hempty h.offloadingratios
  obtain rfl := hempty h.clouds
  obtain rfl := hempty h.networks
  obtain rfl := hempty h.netCommanders
  obtain ⟨rfl, rfl, rfl, rfl⟩ := Genetic.mk.inj hgenetic
  rfl

/-- Sections are loaded exactly as they are described. -/
theorem parseConf_ok_iff : parseConf ss = .ok cfg ↔ Loads ss cfg := by
  induction ss using List.reverseRecOn generalizing cfg with
  | nil =>
    constructor
    · intro h
      obtain rfl := pure_ok.mp h
      refine ⟨by simp, ?_, ?_⟩
      · intro before lines after heq
        simp at heq
      · exact ⟨⟨[], rfl, rfl⟩, ⟨rfl, within_nil _ _⟩, ⟨rfl, within_nil _ _⟩, ⟨rfl, trivial⟩,
          ⟨rfl, within_nil _ _⟩, ⟨rfl, within_nil _ _⟩, ⟨rfl, trivial⟩, ⟨rfl, trivial⟩⟩
    · rintro ⟨-, -, h⟩
      rw [h.eq_init]
      rfl
  | append_singleton ss s ih =>
    rw [parseConf, List.foldlM_append, ← parseConf, bind_ok]
    simp only [List.foldlM_cons, List.foldlM_nil, bind_pure, ih]
    constructor
    · rintro ⟨c, hc, hs⟩
      refine ⟨?_, tasksBehind_snoc.mpr ⟨hc.behind, ?_⟩, ?_⟩
      · intro text hmem
        rcases List.mem_append.mp hmem with hmem | hmem
        · exact hc.known text hmem
        · obtain rfl := List.mem_singleton.mp hmem
          cases hs
      · rintro lines rfl
        exact (nCpufreqs_eq_zero hc.rows).not.mp (ite_error_ok.mp hs).1
      · rw [fileRows_snoc]
        exact describe_add hc.rows hs
    · rintro ⟨hknown, hbehind, hrows⟩
      obtain ⟨hbehind, hlast⟩ := tasksBehind_snoc.mp hbehind
      rw [fileRows_snoc] at hrows
      obtain ⟨c, hc, hs⟩ := exists_describe hrows
        (fun text heq => hknown text (by rw [heq]; simp)) hlast
      exact ⟨c, ⟨fun text hmem => hknown text (List.mem_append_left _ hmem), hbehind, hc⟩, hs⟩

end Sections


/-! ### Files -/

section Files
open LineReader

/-- The sections of a file. -/
def fileSections (double : List Char → Option (ℚ × List Char)) (content : List Char) : List Section :=
  (eventSections (fileEvents content)).map fun s => Gastask.toSection double s.1 s.2

theorem parseConf_fits {double : List Char → Option (ℚ × List Char)} {content : List Char}
    (h : Fits bufSize (lines content)) {fuel : ℕ} (hfuel : content.length < fuel) :
    Gastask.parseConf double fuel { content } = some (parseConf (fileSections double content)) := by
  have hlen := length_lines_le content
  have hevents : events lineKind bufSize fuel { content } = some (fileEvents content) :=
    events_lines (f := { content }) h (by simp only [File.rest, List.drop_zero]; omega)
  obtain ⟨sections, hsections⟩ := events_sections hevents
  rw [(Gastask.parseConf_eq double hevents).1, fileSections, hsections, eventSections_flatMap,
    MutualEdge.parseConf, List.foldlM_map, foldlM_flatMap]
  simp only [Gastask.foldlM_section]

/-- A file of lines that fit the buffer is accepted exactly when it describes a configuration, and then
    that is the configuration loaded: the tables hold what the rows of their sections say, all of them
    and in the order of the file. -/
theorem load_iff {double : List Char → Option (ℚ × List Char)} {content : List Char}
    (h : PlainFile content) {fuel : ℕ} (hfuel : content.length < fuel) {cfg : Config} :
    Gastask.parseConf double fuel { content } = some (.ok cfg) ↔
      Loads (fileSections double content) cfg := by
  rw [parseConf_fits h.fits hfuel, Option.some.injEq]
  exact parseConf_ok_iff

theorem load_iff_sampleFile : ∃ cfg, Accepted cfg ∧ Loads (fileSections Scanf.decimal sampleFile) cfg ∧
    cfg.maxGen = 10 ∧ cfg.mems.length = 2 := by
  have hcfg : Gastask.parseConf Scanf.decimal 200 { content := sampleFile } = some (.ok
      { maxGen := 10, nPops := 4, cutoff := 3 / 2, penalty := 2,
        mems := [⟨"lpddr", 4000, 1, 1 / 5, 1 / 10⟩, ⟨"nvram", 8000, 1 / 2, 1 / 10, 0⟩] }) := by
    decide +kernel
  have hplain : PlainFile sampleFile := ⟨by decide +kernel, by decide +kernel⟩
  have hfuel : sampleFile.length < 200 := by decide +kernel
  exact ⟨_, Gastask.parseConf_accepted hfuel hcfg, (load_iff hplain hfuel).mp hcfg, rfl, rfl⟩

end Files

end MutualEdge
