import Mathlib.Algebra.Order.Field.Rat
import MutualEdge.Common
import MutualEdge.Lib.Fold

/-! The configuration: the tables of `gastask.h`, filled by the section readers of `conf_gastask.c`
    and `conf.c` through the `add_*` functions.

    A section is the list of its data lines. A line carries its trimmed text, which the messages
    print, and what `sscanf` converted (`none` when not all fields are there). Tables are lists: entry
    `i` of the C array is entry `i` of the list, and the entries behind the end are the zeroes of
    static storage. -/

namespace MutualEdge

abbrev maxTasks : ℕ := 200
abbrev maxNetworks : ℕ := 200
abbrev maxCpuFreqs : ℕ := 5
abbrev maxMems : ℕ := 5
abbrev maxNetcommanders : ℕ := 200
abbrev maxOffloadingRatios : ℕ := 5
abbrev maxClouds : ℕ := 5
abbrev maxAttrtypes : ℕ := 5

structure Task where
  no : ℕ := 0
  wcet : ℕ := 0
  period : ℕ := 0
  memreq : ℕ := 0
  memActiveRatio : ℚ := 0
  taskSize : ℕ := 0
  inputSize : ℕ := 0
  outputSize : ℕ := 0
  offloadingBool : ℕ := 0
  deriving DecidableEq

structure Cpufreq where
  wcetScale : ℚ := 0
  powerActive : ℚ := 0
  powerIdle : ℚ := 0
  deriving DecidableEq

structure Mem where
  typestr : String := ""
  maxCapacity : ℕ := 0
  wcetScale : ℚ := 0
  powerActive : ℚ := 0
  powerIdle : ℚ := 0
  deriving DecidableEq

structure Cloud where
  typestr : String := ""
  computationPower : ℚ := 0
  powerActive : ℚ := 0
  powerIdle : ℚ := 0
  maxCapacity : ℕ := 0
  offloadingLimit : ℚ := 0
  deriving DecidableEq

structure Network where
  uplink : ℕ := 0
  downlink : ℕ := 0
  no : ℕ := 0
  deriving DecidableEq

structure NetCommander where
  interceptOut : ℕ := 0
  interceptIn : ℕ := 0
  no : ℕ := 0
  deriving DecidableEq

/-- The globals a configuration file sets, with their initial values. -/
structure Config where
  maxGen : ℕ := 100000
  nPops : ℕ := 100
  cutoff : ℚ := 0
  penalty : ℚ := 0
  cpufreqs : List Cpufreq := []
  mems : List Mem := []
  tasks : List Task := []
  offloadingratios : List ℚ := []
  clouds : List Cloud := []
  networks : List Network := []
  netCommanders : List NetCommander := []
  deriving DecidableEq

namespace Config

def nTasks (cfg : Config) : ℕ := cfg.tasks.length
def nMems (cfg : Config) : ℕ := cfg.mems.length
def nCpufreqs (cfg : Config) : ℕ := cfg.cpufreqs.length
def nOffloadingratios (cfg : Config) : ℕ := cfg.offloadingratios.length
def nClouds (cfg : Config) : ℕ := cfg.clouds.length

def task (cfg : Config) (i : ℕ) : Task := cfg.tasks.getD i {}
def mem (cfg : Config) (i : ℕ) : Mem := cfg.mems.getD i {}
def cpufreq (cfg : Config) (i : ℕ) : Cpufreq := cfg.cpufreqs.getD i {}
def offloadingratio (cfg : Config) (i : ℕ) : ℚ := cfg.offloadingratios.getD i 0
def cloud (cfg : Config) (i : ℕ) : Cloud := cfg.clouds.getD i {}
def network (cfg : Config) (i : ℕ) : Network := cfg.networks.getD i {}
def netCommander (cfg : Config) (i : ℕ) : NetCommander := cfg.netCommanders.getD i {}

end Config

/-! ### The `add_*` functions -/

def addCpufreq (cfg : Config) (f : Cpufreq) : Except Halt Config :=
  if maxCpuFreqs ≤ cfg.nCpufreqs then .error (.fatal 2 "too many cpu frequencies" [])
  else if 0 < cfg.nCpufreqs ∧ (cfg.cpufreq (cfg.nCpufreqs - 1)).wcetScale < f.wcetScale then
    .error (.fatal 2 "cpu frequency should be defined in decreasing order" [])
  else .ok { cfg with cpufreqs := cfg.cpufreqs ++ [f] }

def addMem (cfg : Config) (m : Mem) : Except Halt Config :=
  if maxMems ≤ cfg.nMems then .error (.fatal 2 "too many memory types" [])
  else .ok { cfg with mems := cfg.mems ++ [m] }

/-- No bound is checked: the table is the list, however long. -/
def addTask (cfg : Config) (t : Task) : Except Halt Config :=
  .ok { cfg with tasks := cfg.tasks ++ [{ t with no := cfg.nTasks + 1 }] }

def addOffloadingratio (cfg : Config) (r : ℚ) : Except Halt Config :=
  if maxOffloadingRatios ≤ cfg.nOffloadingratios then .error (.fatal 2 "too many cloud ratios" [])
  else if 0 < cfg.nOffloadingratios ∧ r < cfg.offloadingratio (cfg.nOffloadingratios - 1) then
    .error (.fatal 2 "offloading ratio should be defined in increasing order" [])
  else .ok { cfg with offloadingratios := cfg.offloadingratios ++ [r] }

def addCloud (cfg : Config) (c : Cloud) : Except Halt Config :=
  if maxClouds ≤ cfg.nClouds then .error (.fatal 2 "too many cloud types" [])
  else .ok { cfg with clouds := cfg.clouds ++ [c] }

def addNetwork (cfg : Config) (n : Network) : Except Halt Config :=
  .ok { cfg with networks := cfg.networks ++ [{ n with no := cfg.networks.length + 1 }] }

def addNetCommander (cfg : Config) (n : NetCommander) : Except Halt Config :=
  .ok { cfg with
    netCommanders := cfg.netCommanders ++ [{ n with no := cfg.netCommanders.length + 1 }] }

/-! ### The section readers -/

/-- A data line: its trimmed text and the fields `sscanf` found in it. -/
structure Line (α : Type) where
  text : String
  fields : Option α

/-- `FATAL(2, fmt, trim(buf))` -/
def invalid {α : Type} (fmt text : String) : Except Halt α := .error (.fatal 2 fmt [.text text])

/-- The loop the section readers share: every line is scanned, checked and added. -/
def parseLines {α : Type} (badFormat : String) (add : Config → String → α → Except Halt Config)
    (cfg : Config) (lines : List (Line α)) : Except Halt Config :=
  lines.foldlM (fun cfg line =>
    match line.fields with
    | none => invalid badFormat line.text
    | some v => add cfg line.text v) cfg

structure Genetic where
  maxGen : ℕ
  nPops : ℕ
  cutoff : ℚ
  penalty : ℚ

def parseGenetic : Config → List (Line Genetic) → Except Halt Config :=
  parseLines "cannot load configuration: invalid genetic parameters: %s" fun cfg _ g =>
    .ok { cfg with maxGen := g.maxGen, nPops := g.nPops, cutoff := g.cutoff, penalty := g.penalty }

def parseCpufreq : Config → List (Line Cpufreq) → Except Halt Config :=
  parseLines "cannot load configuration: invalid CPU frequency format: %s" fun cfg text f =>
    if f.wcetScale < 0 ∨ 1 < f.wcetScale then invalid "invalid cpu frequency wcet scale: %s" text
    else if f.powerActive < 0 ∨ f.powerIdle < 0 then invalid "invalid cpu frequency power: %s" text
    else addCpufreq cfg f

def parseMem : Config → List (Line Mem) → Except Halt Config :=
  parseLines "cannot load configuration: invalid memory spec: %s" fun cfg text m =>
    if m.maxCapacity = 0 then invalid "invalid max memory capacity: %s" text
    else if m.wcetScale < 0 ∨ 1 < m.wcetScale then invalid "invalid memory wcet scale: %s" text
    else if m.powerActive < 0 ∨ m.powerIdle < 0 then invalid "invalid memory power: %s" text
    else addMem cfg m

def parseTask : Config → List (Line Task) → Except Halt Config :=
  parseLines "cannot load configuration: invalid task format: %s" fun cfg text t =>
    if t.period ≤ t.wcet then invalid "wcet is larger or equal than period: %s" text
    else addTask cfg t

def parseNetwork : Config → List (Line Network) → Except Halt Config :=
  parseLines "cannot load configuration: invalid network format: %s" fun cfg _ n => addNetwork cfg n

def parseNetCommander : Config → List (Line NetCommander) → Except Halt Config :=
  parseLines "cannot load configuration: invalid network commander format: %s" fun cfg _ n =>
    addNetCommander cfg n

def parseCloud : Config → List (Line Cloud) → Except Halt Config :=
  parseLines "cannot load configuration: invalid cloud format: %s" fun cfg text c =>
    if c.maxCapacity = 0 then invalid "invalid max memory capacity: %s" text
    else if c.powerActive < 0 ∨ c.powerIdle < 0 then invalid "invalid memory power: %s" text
    else if 1 < c.offloadingLimit then
      invalid "offloading limit is smaller or equal to one: %s" text
    else addCloud cfg c

def parseOffloadingratio : Config → List (Line ℚ) → Except Halt Config :=
  parseLines "cannot load configuration: invalid ratio format: %s" fun cfg text r =>
    if r < 0 then invalid "ratio should not be a negative value: %s" text
    else if 1 < r then invalid "ratio is smaller or equal to one: %s" text
    else addOffloadingratio cfg r

/-- A section of the file: what `check_section` makes of its header, with its data lines. -/
inductive Section where
  | genetic (lines : List (Line Genetic))
  | cpufreq (lines : List (Line Cpufreq))
  | mem (lines : List (Line Mem))
  | task (lines : List (Line Task))
  | offloadingratio (lines : List (Line ℚ))
  | cloud (lines : List (Line Cloud))
  | network (lines : List (Line Network))
  | netCommander (lines : List (Line NetCommander))
  /-- `*gentask`, `*gennetwork` and `*gennetcommander`, which `skip_section` passes over. -/
  | skipped
  | unknown (text : String)

def parseSection (cfg : Config) : Section → Except Halt Config
  | .genetic lines => parseGenetic cfg lines
  | .cpufreq lines => parseCpufreq cfg lines
  | .mem lines => parseMem cfg lines
  | .task lines =>
    if cfg.nCpufreqs = 0 then
      .error (.fatal 2 "cpu frequency section should be defined ahead of task section" [])
    else parseTask cfg lines
  | .offloadingratio lines => parseOffloadingratio cfg lines
  | .cloud lines => parseCloud cfg lines
  | .network lines => parseNetwork cfg lines
  | .netCommander lines => parseNetCommander cfg lines
  | .skipped => .ok cfg
  | .unknown _ => .error (.fatal 2 "cannot load configuration" [])

def parseConf (sections : List Section) : Except Halt Config := sections.foldlM parseSection {}

/-- The configurations that loading a file can end with. -/
def Accepted (cfg : Config) : Prop := ∃ sections, parseConf sections = .ok cfg

/-! ### What the checks establish -/

/-- What the readers check, table by table. -/
structure Config.WellFormed (cfg : Config) : Prop where
  cpufreqs_length : cfg.cpufreqs.length ≤ maxCpuFreqs
  cpufreqs_decreasing : cfg.cpufreqs.Pairwise fun f g => g.wcetScale ≤ f.wcetScale
  cpufreqs_range : ∀ f ∈ cfg.cpufreqs,
    0 ≤ f.wcetScale ∧ f.wcetScale ≤ 1 ∧ 0 ≤ f.powerActive ∧ 0 ≤ f.powerIdle
  mems_length : cfg.mems.length ≤ maxMems
  mems_range : ∀ m ∈ cfg.mems, 0 < m.maxCapacity ∧
    0 ≤ m.wcetScale ∧ m.wcetScale ≤ 1 ∧ 0 ≤ m.powerActive ∧ 0 ≤ m.powerIdle
  tasks_period : ∀ t ∈ cfg.tasks, t.wcet < t.period
  tasks_cpufreqs : cfg.tasks ≠ [] → cfg.cpufreqs ≠ []
  ratios_length : cfg.offloadingratios.length ≤ maxOffloadingRatios
  ratios_increasing : cfg.offloadingratios.Pairwise (· ≤ ·)
  ratios_range : ∀ r ∈ cfg.offloadingratios, 0 ≤ r ∧ r ≤ 1
  clouds_length : cfg.clouds.length ≤ maxClouds

theorem Config.WellFormed.wcet_lt {cfg : Config} (h : cfg.WellFormed) {i : ℕ} (hi : i < cfg.nTasks) :
    (cfg.task i).wcet < (cfg.task i).period := by
  rw [Config.task, List.getD_eq_getElem?_getD, List.getElem?_eq_getElem hi, Option.getD_some]
  exact h.tasks_period _ (List.getElem_mem hi)

theorem wellFormed_init : ({} : Config).WellFormed := by
  constructor <;> simp

/-- A table that is not full has room for one more entry. -/
theorem length_snoc_le {α : Type} {l : List α} {x : α} {n : ℕ} (h : ¬ n ≤ l.length) :
    (l ++ [x]).length ≤ n := by
  rw [List.length_append, List.length_singleton]
  omega

/-- A list that is ordered up to its last entry stays ordered when an entry in order is appended. -/
theorem pairwise_snoc {α : Type} {R : α → α → Prop} [IsTrans α R] {l : List α} {d x : α}
    (h : l.Pairwise R) (hx : 0 < l.length → R (l.getD (l.length - 1) d) x) :
    (l ++ [x]).Pairwise R := by
  refine List.pairwise_append.mpr ⟨h, List.pairwise_singleton _ _, ?_⟩
  intro a ha b hb
  obtain rfl := List.mem_singleton.mp hb
  obtain ⟨t, c, rfl⟩ := (List.eq_nil_or_concat l).resolve_left (List.ne_nil_of_mem ha)
  rw [List.concat_eq_append] at h ha hx
  have hcb : R c b := by simpa using hx
  rcases List.mem_append.mp ha with ha | ha
  · exact trans_of R ((List.pairwise_append.mp h).2.2 a ha c (by simp)) hcb
  · rw [List.mem_singleton.mp ha]
    exact hcb

theorem addCpufreq_wellFormed {cfg cfg' : Config} {f : Cpufreq} (h : cfg.WellFormed)
    (hf : 0 ≤ f.wcetScale ∧ f.wcetScale ≤ 1 ∧ 0 ≤ f.powerActive ∧ 0 ≤ f.powerIdle)
    (ha : addCpufreq cfg f = .ok cfg') : cfg'.WellFormed := by
  unfold addCpufreq at ha
  split at ha
  · simp at ha
  · split at ha
    · simp at ha
    · rename_i hlen hdec
      simp only [Except.ok.injEq] at ha
      subst ha
      refine { h with
        cpufreqs_length := length_snoc_le hlen
        cpufreqs_decreasing := ?_
        cpufreqs_range := ?_
        tasks_cpufreqs := fun _ => by simp }
      · have htrans : IsTrans Cpufreq fun f g => g.wcetScale ≤ f.wcetScale :=
          ⟨fun _ _ _ hab hbc => hbc.trans hab⟩
        refine pairwise_snoc (d := {}) h.cpufreqs_decreasing ?_
        intro hpos
        exact not_lt.mp fun hlt => hdec ⟨hpos, hlt⟩
      · intro g hg
        rcases List.mem_append.mp hg with hg | hg
        · exact h.cpufreqs_range g hg
        · rw [List.mem_singleton.mp hg]
          exact hf

theorem addMem_wellFormed {cfg cfg' : Config} {m : Mem} (h : cfg.WellFormed)
    (hm : 0 < m.maxCapacity ∧ 0 ≤ m.wcetScale ∧ m.wcetScale ≤ 1 ∧ 0 ≤ m.powerActive ∧
      0 ≤ m.powerIdle) (ha : addMem cfg m = .ok cfg') : cfg'.WellFormed := by
  unfold addMem at ha
  split at ha
  · simp at ha
  · rename_i hlen
    simp only [Except.ok.injEq] at ha
    subst ha
    refine { h with
      mems_length := length_snoc_le hlen
      mems_range := ?_ }
    intro g hg
    rcases List.mem_append.mp hg with hg | hg
    · exact h.mems_range g hg
    · rw [List.mem_singleton.mp hg]
      exact hm

theorem addTask_wellFormed {cfg cfg' : Config} {t : Task} (h : cfg.WellFormed)
    (hc : cfg.cpufreqs ≠ []) (ht : t.wcet < t.period) (ha : addTask cfg t = .ok cfg') :
    cfg'.WellFormed := by
  simp only [addTask, Except.ok.injEq] at ha
  subst ha
  refine { h with tasks_period := ?_, tasks_cpufreqs := fun _ => hc }
  intro g hg
  rcases List.mem_append.mp hg with hg | hg
  · exact h.tasks_period g hg
  · rw [List.mem_singleton.mp hg]
    exact ht

theorem addOffloadingratio_wellFormed {cfg cfg' : Config} {r : ℚ} (h : cfg.WellFormed)
    (hr : 0 ≤ r ∧ r ≤ 1) (ha : addOffloadingratio cfg r = .ok cfg') : cfg'.WellFormed := by
  unfold addOffloadingratio at ha
  split at ha
  · simp at ha
  · split at ha
    · simp at ha
    · rename_i hlen hinc
      simp only [Except.ok.injEq] at ha
      subst ha
      refine { h with
        ratios_length := length_snoc_le hlen
        ratios_increasing := ?_
        ratios_range := ?_ }
      · refine pairwise_snoc (d := 0) h.ratios_increasing ?_
        intro hpos
        exact not_lt.mp fun hlt => hinc ⟨hpos, hlt⟩
      · intro q hq
        rcases List.mem_append.mp hq with hq | hq
        · exact h.ratios_range q hq
        · rw [List.mem_singleton.mp hq]
          exact hr

theorem addCloud_wellFormed {cfg cfg' : Config} {c : Cloud} (h : cfg.WellFormed)
    (ha : addCloud cfg c = .ok cfg') : cfg'.WellFormed := by
  unfold addCloud at ha
  split at ha
  · simp at ha
  · rename_i hlen
    simp only [Except.ok.injEq] at ha
    subst ha
    exact { h with clouds_length := length_snoc_le hlen }

/-- A section reader keeps what each of its lines keeps. -/
theorem parseLines_invariant {α : Type} {I : Config → Prop} {badFormat : String}
    {add : Config → String → α → Except Halt Config}
    (hadd : ∀ cfg text v cfg', I cfg → add cfg text v = .ok cfg' → I cfg') {cfg cfg' : Config}
    {lines : List (Line α)} (h : I cfg) (hp : parseLines badFormat add cfg lines = .ok cfg') :
    I cfg' := by
  refine foldlM_invariant ?_ h hp
  intro c line c' hc hline
  cases hf : line.fields with
  | none => simp [hf, invalid] at hline
  | some v =>
    simp only [hf] at hline
    exact hadd c line.text v c' hc hline

theorem parseGenetic_wellFormed {cfg cfg' : Config} {lines : List (Line Genetic)}
    (h : cfg.WellFormed) (hp : parseGenetic cfg lines = .ok cfg') : cfg'.WellFormed := by
  refine parseLines_invariant ?_ h hp
  intro c _ g c' hc hadd
  simp only [Except.ok.injEq] at hadd
  subst hadd
  exact { hc with }

theorem parseCpufreq_wellFormed {cfg cfg' : Config} {lines : List (Line Cpufreq)}
    (h : cfg.WellFormed) (hp : parseCpufreq cfg lines = .ok cfg') : cfg'.WellFormed := by
  refine parseLines_invariant ?_ h hp
  intro c text f c' hc hadd
  split at hadd
  · simp [invalid] at hadd
  · split at hadd
    · simp [invalid] at hadd
    · rename_i hws hpow
      simp only [not_or, not_lt] at hws hpow
      exact addCpufreq_wellFormed hc ⟨hws.1, hws.2, hpow.1, hpow.2⟩ hadd

theorem parseMem_wellFormed {cfg cfg' : Config} {lines : List (Line Mem)}
    (h : cfg.WellFormed) (hp : parseMem cfg lines = .ok cfg') : cfg'.WellFormed := by
  refine parseLines_invariant ?_ h hp
  intro c text m c' hc hadd
  split at hadd
  · simp [invalid] at hadd
  · split at hadd
    · simp [invalid] at hadd
    · split at hadd
      · simp [invalid] at hadd
      · rename_i hcap hws hpow
        simp only [not_or, not_lt] at hws hpow
        exact addMem_wellFormed hc ⟨Nat.pos_of_ne_zero hcap, hws.1, hws.2, hpow.1, hpow.2⟩ hadd

theorem parseTask_wellFormed {cfg cfg' : Config} {lines : List (Line Task)}
    (h : cfg.WellFormed) (hc : cfg.cpufreqs ≠ []) (hp : parseTask cfg lines = .ok cfg') :
    cfg'.WellFormed := by
  have hinv : cfg'.WellFormed ∧ cfg'.cpufreqs ≠ [] := by
    refine parseLines_invariant (I := fun c => c.WellFormed ∧ c.cpufreqs ≠ []) ?_ ⟨h, hc⟩ hp
    rintro c text t c' ⟨hwf, hcn⟩ hadd
    split at hadd
    · simp [invalid] at hadd
    · rename_i hper
      refine ⟨addTask_wellFormed hwf hcn (not_le.mp hper) hadd, ?_⟩
      simp only [addTask, Except.ok.injEq] at hadd
      rw [← hadd]
      exact hcn
  exact hinv.1

theorem parseOffloadingratio_wellFormed {cfg cfg' : Config} {lines : List (Line ℚ)}
    (h : cfg.WellFormed) (hp : parseOffloadingratio cfg lines = .ok cfg') : cfg'.WellFormed := by
  refine parseLines_invariant ?_ h hp
  intro c text r c' hc hadd
  split at hadd
  · simp [invalid] at hadd
  · split at hadd
    · simp [invalid] at hadd
    · rename_i hlo hhi
      exact addOffloadingratio_wellFormed hc ⟨not_lt.mp hlo, not_lt.mp hhi⟩ hadd

theorem parseCloud_wellFormed {cfg cfg' : Config} {lines : List (Line Cloud)}
    (h : cfg.WellFormed) (hp : parseCloud cfg lines = .ok cfg') : cfg'.WellFormed := by
  refine parseLines_invariant ?_ h hp
  intro c text v c' hc hadd
  split at hadd
  · simp [invalid] at hadd
  · split at hadd
    · simp [invalid] at hadd
    · split at hadd
      · simp [invalid] at hadd
      · exact addCloud_wellFormed hc hadd

theorem parseNetwork_wellFormed {cfg cfg' : Config} {lines : List (Line Network)}
    (h : cfg.WellFormed) (hp : parseNetwork cfg lines = .ok cfg') : cfg'.WellFormed := by
  refine parseLines_invariant ?_ h hp
  intro c _ n c' hc hadd
  simp only [addNetwork, Except.ok.injEq] at hadd
  subst hadd
  exact { hc with }

theorem parseNetCommander_wellFormed {cfg cfg' : Config} {lines : List (Line NetCommander)}
    (h : cfg.WellFormed) (hp : parseNetCommander cfg lines = .ok cfg') : cfg'.WellFormed := by
  refine parseLines_invariant ?_ h hp
  intro c _ n c' hc hadd
  simp only [addNetCommander, Except.ok.injEq] at hadd
  subst hadd
  exact { hc with }

theorem parseSection_wellFormed {cfg cfg' : Config} (h : cfg.WellFormed) {s : Section}
    (hs : parseSection cfg s = .ok cfg') : cfg'.WellFormed := by
  cases s with
  | genetic lines => exact parseGenetic_wellFormed h hs
  | cpufreq lines => exact parseCpufreq_wellFormed h hs
  | mem lines => exact parseMem_wellFormed h hs
  | task lines =>
    simp only [parseSection] at hs
    split at hs
    · simp at hs
    · rename_i hcpu
      exact parseTask_wellFormed h (fun he => hcpu (by simp [Config.nCpufreqs, he])) hs
  | offloadingratio lines => exact parseOffloadingratio_wellFormed h hs
  | cloud lines => exact parseCloud_wellFormed h hs
  | network lines => exact parseNetwork_wellFormed h hs
  | netCommander lines => exact parseNetCommander_wellFormed h hs
  | skipped =>
    simp only [parseSection, Except.ok.injEq] at hs
    exact hs ▸ h
  | unknown text => simp [parseSection] at hs

/-- Every accepted configuration passes every check. -/
theorem Accepted.wellFormed {cfg : Config} (h : Accepted cfg) : cfg.WellFormed := by
  obtain ⟨sections, hs⟩ := h
  exact foldlM_invariant (fun _ _ _ hc hp => parseSection_wellFormed hc hp) wellFormed_init hs

end MutualEdge
