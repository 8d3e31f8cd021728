import MutualEdge.Conf
import MutualEdge.Lib.Scanf
import MutualEdge.Lib.Sections

/-! The configuration file: `conf.c` and the readers of `conf_gastask.c` on a stream.

    A file is its bytes, each byte a character. `fuel` bounds the calls of `fgets`; a file is read to
    its end when there is more of it than there are bytes left. `double` is how `sscanf` reads `%lf`.
    A loaded file is a list of sections as `Conf` has them, so what holds of the accepted
    configurations holds of those that are loaded from a file. -/

namespace MutualEdge
open Checks LineReader Scanf

/-- `section_t` -/
inductive SectionT where
  | unknown
  | genetic
  | gentask
  | cpufreq
  | mem
  | task
  | gennetwork
  | gennetcommander
  | cloud
  | offloadingratio
  | network
  | netCommander
  deriving DecidableEq

/-- `strncmp(s, prefix, strlen(prefix)) == 0` -/
def startsWith (name : String) (s : List Char) : Bool := name.toList.isPrefixOf s

def checkSection : List Char → SectionT
  | '*' :: name =>
    if startsWith "genetic" name then .genetic
    else if startsWith "gentask" name then .gentask
    else if startsWith "cpufreq" name then .cpufreq
    else if startsWith "mem" name then .mem
    else if startsWith "task" name then .task
    else if startsWith "gennetwork" name then .gennetwork
    else if startsWith "gennetcommander" name then .gennetcommander
    else if startsWith "cloud" name then .cloud
    else if startsWith "offloadingratio" name then .offloadingratio
    else if startsWith "network" name then .network
    else if startsWith "netcommander" name then .netCommander
    else .unknown
  | _ => .unknown

/-- What every loop looks at: `buf[0]`. -/
def lineKind : List Char → Kind
  | '#' :: _ => .comment
  | '\n' :: _ => .blank
  | '*' :: _ => .header
  | _ => .data

def isBlank (c : Char) : Bool := c = ' ' || c = '\t' || c = '\r' || c = '\n'

def trim (str : List Char) : List Char :=
  ((str.dropWhile isBlank).reverse.dropWhile isBlank).reverse

/-- `char buf[1024]` -/
abbrev bufSize : ℕ := 1024

def skipSection {σ : Type} (fuel : ℕ) (fp : File) (s : σ) : Option (Except Halt (File × σ)) :=
  readSection lineKind bufSize (fun s _ => .ok s) fuel fp s

section Gastask
variable (double : List Char → Option (ℚ × List Char))

/-- A data line as a section reader sees it. -/
def scanLine {α : Type} (fmt : List Conv) (store : List Value → Option α) (buf : List Char) : Line α :=
  ⟨String.ofList (trim (cstr buf)), store (sscanf double fmt (cstr buf))⟩

def geneticLine : List Char → Line Genetic :=
  scanLine double [.u, .u, .lf, .lf] fun
    | [.u maxGen, .u nPops, .lf cutoff, .lf penalty] => some ⟨maxGen, nPops, cutoff, penalty⟩
    | _ => none

def cpufreqLine : List Char → Line Cpufreq :=
  scanLine double [.lf, .lf, .lf] fun
    | [.lf wcetScale, .lf powerActive, .lf powerIdle] => some ⟨wcetScale, powerActive, powerIdle⟩
    | _ => none

def memLine : List Char → Line Mem :=
  scanLine double [.s, .u, .lf, .lf, .lf] fun
    | [.s type, .u maxCapacity, .lf wcetScale, .lf powerActive, .lf powerIdle] =>
      some ⟨type, maxCapacity, wcetScale, powerActive, powerIdle⟩
    | _ => none

def taskLine : List Char → Line Task :=
  scanLine double [.u, .u, .u, .lf, .u, .u, .u, .u] fun
    | [.u wcet, .u period, .u memreq, .lf memActiveRatio, .u taskSize, .u inputSize, .u outputSize,
        .u offloadingBool] =>
      some { wcet, period, memreq, memActiveRatio, taskSize, inputSize, outputSize, offloadingBool }
    | _ => none

def networkLine : List Char → Line Network :=
  scanLine double [.u, .u] fun
    | [.u uplink, .u downlink] => some { uplink, downlink }
    | _ => none

def netCommanderLine : List Char → Line NetCommander :=
  scanLine double [.u, .u] fun
    | [.u interceptOut, .u interceptIn] => some { interceptOut, interceptIn }
    | _ => none

def cloudLine : List Char → Line Cloud :=
  scanLine double [.s, .lf, .lf, .lf, .u, .lf] fun
    | [.s type, .lf computationPower, .lf powerActive, .lf powerIdle, .u maxCapacity,
        .lf offloadingLimit] =>
      some ⟨type, computationPower, powerActive, powerIdle, maxCapacity, offloadingLimit⟩
    | _ => none

def offloadingratioLine : List Char → Line ℚ :=
  scanLine double [.lf] fun
    | [.lf r] => some r
    | _ => none

namespace Gastask

/-- The loop of a section reader of gastask. -/
def readLines {α : Type} (parse : Config → List (Line α) → Except Halt Config)
    (line : List Char → Line α) (fuel : ℕ) (fp : File) (cfg : Config) :
    Option (Except Halt (File × Config)) :=
  readSection lineKind bufSize (fun cfg buf => parse cfg [line buf]) fuel fp cfg

def parseGenetic := readLines MutualEdge.parseGenetic (geneticLine double)
def parseCpufreq := readLines MutualEdge.parseCpufreq (cpufreqLine double)
def parseMem := readLines MutualEdge.parseMem (memLine double)
def parseTask := readLines MutualEdge.parseTask (taskLine double)
def parseNetwork := readLines MutualEdge.parseNetwork (networkLine double)
def parseNetCommander := readLines MutualEdge.parseNetCommander (netCommanderLine double)
def parseCloud := readLines MutualEdge.parseCloud (cloudLine double)
def parseOffloadingratio := readLines MutualEdge.parseOffloadingratio (offloadingratioLine double)

/-- `switch (check_section(buf))` -/
def switch (buf : List Char) (fuel : ℕ) (fp : File) (cfg : Config) :
    Option (Except Halt (File × Config)) :=
  match checkSection buf with
  | .genetic => parseGenetic double fuel fp cfg
  | .gentask | .gennetwork | .gennetcommander => skipSection fuel fp cfg
  | .cpufreq => parseCpufreq double fuel fp cfg
  | .mem => parseMem double fuel fp cfg
  | .task =>
    if cfg.nCpufreqs = 0 then
      some (.error (.fatal 2 "cpu frequency section should be defined ahead of task section" []))
    else parseTask double fuel fp cfg
  | .offloadingratio => parseOffloadingratio double fuel fp cfg
  | .cloud => parseCloud double fuel fp cfg
  | .network => parseNetwork double fuel fp cfg
  | .netCommander => parseNetCommander double fuel fp cfg
  | .unknown => some (.error (.fatal 2 "cannot load configuration" []))

def parseConf (fuel : ℕ) (fp : File) : Option (Except Halt Config) :=
  readSections lineKind bufSize (switch double) fuel fp {}

/-! ### What gastask does at a header and at a data line -/

/-- What a data line does in its section. -/
def data : SectionT → Config → List Char → Except Halt Config
  | .genetic => fun cfg buf => MutualEdge.parseGenetic cfg [geneticLine double buf]
  | .cpufreq => fun cfg buf => MutualEdge.parseCpufreq cfg [cpufreqLine double buf]
  | .mem => fun cfg buf => MutualEdge.parseMem cfg [memLine double buf]
  | .task => fun cfg buf => MutualEdge.parseTask cfg [taskLine double buf]
  | .offloadingratio => fun cfg buf =>
    MutualEdge.parseOffloadingratio cfg [offloadingratioLine double buf]
  | .cloud => fun cfg buf => MutualEdge.parseCloud cfg [cloudLine double buf]
  | .network => fun cfg buf => MutualEdge.parseNetwork cfg [networkLine double buf]
  | .netCommander => fun cfg buf => MutualEdge.parseNetCommander cfg [netCommanderLine double buf]
  | .gentask | .gennetwork | .gennetcommander | .unknown => fun cfg _ => .ok cfg

/-- What a header checks. -/
def header (cfg : Config) (buf : List Char) : Except Halt Config :=
  match checkSection buf with
  | .task =>
    if cfg.nCpufreqs = 0 then
      .error (.fatal 2 "cpu frequency section should be defined ahead of task section" [])
    else .ok cfg
  | .unknown => .error (.fatal 2 "cannot load configuration" [])
  | _ => .ok cfg

def actions : Actions Halt Config where
  header := header
  data hd := data double (checkSection hd)

/-- A header that is accepted changes nothing. -/
theorem header_ok {cfg cfg' : Config} {buf : List Char} (h : header cfg buf = .ok cfg') :
    cfg' = cfg := by
  unfold header at h
  split at h
  · split at h <;> cases h
    rfl
  · cases h
  · cases h
    rfl

/-- Every branch of the switch runs the loop all section readers share, each with its own lines. -/
theorem switch_eq : switch double = (actions double).enter lineKind bufSize := by
  funext buf fuel fp cfg
  rw [switch, Actions.enter]
  simp only [actions, header]
  cases checkSection buf with
  | task =>
    by_cases hcpu : cfg.nCpufreqs = 0
    · simp only [if_pos hcpu]
    · simp only [if_neg hcpu]
      rfl
  | _ => rfl

/-! ### The sections of a file -/

/-- A section as `Conf` has it, from its header and its data lines. -/
def toSection (hd : List Char) (lines : List (List Char)) : Section :=
  match checkSection hd with
  | .genetic => .genetic (lines.map (geneticLine double))
  | .cpufreq => .cpufreq (lines.map (cpufreqLine double))
  | .mem => .mem (lines.map (memLine double))
  | .task => .task (lines.map (taskLine double))
  | .offloadingratio => .offloadingratio (lines.map (offloadingratioLine double))
  | .cloud => .cloud (lines.map (cloudLine double))
  | .network => .network (lines.map (networkLine double))
  | .netCommander => .netCommander (lines.map (netCommanderLine double))
  | .gentask | .gennetwork | .gennetcommander => .skipped
  | .unknown => .unknown (String.ofList (trim (cstr hd)))

variable {double : List Char → Option (ℚ × List Char)}

/-- Reading line by line is reading the list of the lines. -/
theorem foldlM_lines {α : Type} {badFormat : String}
    {add : Config → String → α → Except Halt Config}
    (parse : Config → List (Line α) → Except Halt Config) (hparse : parse = parseLines badFormat add)
    (line : List Char → Line α) (lines : List (List Char)) (cfg : Config) :
    lines.foldlM (fun cfg buf => parse cfg [line buf]) cfg = parse cfg (lines.map line) := by
  induction lines generalizing cfg with
  | nil =>
    rw [hparse]
    rfl
  | cons buf lines ih =>
    rw [List.foldlM_cons]
    simp only [ih]
    simp only [hparse, parseLines, List.map_cons, List.foldlM_cons, List.foldlM_nil, bind_pure]

/-- Lines that a section passes over change nothing. -/
theorem foldlM_skip (cfg : Config) (lines : List (List Char)) :
    lines.foldlM (fun cfg _ => (.ok cfg : Except Halt Config)) cfg = .ok cfg := by
  induction lines with
  | nil => rfl
  | cons _ lines ih => exact ih

/-- The events of a section do what `Conf` says of the section. -/
theorem foldlM_section (cfg : Config) (hd : List Char) (lines : List (List Char)) :
    (Event.header hd :: lines.map (.data hd)).foldlM (actions double).step cfg =
      parseSection cfg (toSection double hd lines) := by
  rw [List.foldlM_cons]
  simp only [List.foldlM_map, Actions.step, actions, header, toSection]
  cases checkSection hd with
  | task =>
    simp only [parseSection]
    by_cases hcpu : cfg.nCpufreqs = 0
    · simp only [if_pos hcpu]
      rfl
    · simp only [if_neg hcpu]
      exact foldlM_lines MutualEdge.parseTask rfl (taskLine double) lines cfg
  | unknown => rfl
  | gentask => exact foldlM_skip cfg lines
  | gennetwork => exact foldlM_skip cfg lines
  | gennetcommander => exact foldlM_skip cfg lines
  | genetic => exact foldlM_lines MutualEdge.parseGenetic rfl (geneticLine double) lines cfg
  | cpufreq => exact foldlM_lines MutualEdge.parseCpufreq rfl (cpufreqLine double) lines cfg
  | mem => exact foldlM_lines MutualEdge.parseMem rfl (memLine double) lines cfg
  | cloud => exact foldlM_lines MutualEdge.parseCloud rfl (cloudLine double) lines cfg
  | offloadingratio =>
    exact foldlM_lines MutualEdge.parseOffloadingratio rfl (offloadingratioLine double) lines cfg
  | network => exact foldlM_lines MutualEdge.parseNetwork rfl (networkLine double) lines cfg
  | netCommander =>
    exact foldlM_lines MutualEdge.parseNetCommander rfl (netCommanderLine double) lines cfg

/-- Loading a file is loading its list of sections. -/
theorem parseConf_sections (double : List Char → Option (ℚ × List Char)) {content : List Char}
    {fuel : ℕ} (hfuel : content.length < fuel) :
    ∃ sections, parseConf double fuel { content } = some (MutualEdge.parseConf sections) := by
  have hsize : 2 ≤ bufSize := by decide
  have hlen : ({ content } : File).rest.length < fuel := by simpa [File.rest] using hfuel
  obtain ⟨es, hes⟩ := events_ends lineKind hsize hlen
  obtain ⟨sections, rfl⟩ := events_sections hes
  refine ⟨sections.map fun s => toSection double s.1 s.2, ?_⟩
  rw [parseConf, switch_eq, readSections_eq hes, MutualEdge.parseConf, List.foldlM_map,
    foldlM_flatMap]
  simp only [foldlM_section]

/-- What is loaded from a file is an accepted configuration. -/
theorem parseConf_accepted {content : List Char} {fuel : ℕ} (hfuel : content.length < fuel)
    {cfg : Config} (h : parseConf double fuel { content } = some (.ok cfg)) : Accepted cfg := by
  obtain ⟨sections, hs⟩ := parseConf_sections double hfuel
  rw [hs, Option.some.injEq] at h
  exact ⟨sections, h⟩

end Gastask
end Gastask

end MutualEdge
