import MutualEdge.ConfFile

/-! `conf_gasgen.c`: the configuration file as the task generator reads it.

    It parses the sections that gastask skips and skips the ones that gastask parses; the memory types
    are read by both. Of the tables of `Config` only that one is filled. -/

namespace MutualEdge.Gasgen
open Checks LineReader Scanf

structure Gentask where
  wcetMin : ℕ := 0
  wcetMax : ℕ := 0
  memTotal : ℕ := 0
  utilCpu : ℚ := 0
  utilTarget : ℚ := 0
  nTasksTarget : ℕ := 0
  taskSizeMin : ℕ := 0
  taskSizeMax : ℕ := 0
  inputSizeMin : ℕ := 0
  inputSizeMax : ℕ := 0
  outputSizeMin : ℕ := 0
  outputSizeMax : ℕ := 0
  deriving DecidableEq

structure Gennetwork where
  uplinkMin : ℕ := 0
  uplinkMax : ℕ := 0
  downlinkMin : ℕ := 0
  downlinkMax : ℕ := 0
  nNetworksTarget : ℕ := 0
  deriving DecidableEq

structure Gennetcommander where
  interceptOutMin : ℕ := 0
  interceptOutMax : ℕ := 0
  interceptInMin : ℕ := 0
  interceptInMax : ℕ := 0
  nNetCommanderTarget : ℕ := 0
  deriving DecidableEq

/-- The globals that gasgen's `parse_conf` sets, with their initial values. -/
structure Conf where
  tables : Config := {}
  gentask : Gentask := {}
  gennetwork : Gennetwork := {}
  gennetcommander : Gennetcommander := {}
  deriving DecidableEq

variable (double : List Char → Option (ℚ × List Char))

def gentaskLine : List Char → Line Gentask :=
  scanLine double [.u, .u, .u, .lf, .lf, .u, .u, .u, .u, .u, .u, .u] fun
    | [.u wcetMin, .u wcetMax, .u memTotal, .lf utilCpu, .lf utilTarget, .u nTasksTarget,
        .u taskSizeMin, .u taskSizeMax, .u inputSizeMin, .u inputSizeMax, .u outputSizeMin,
        .u outputSizeMax] =>
      some ⟨wcetMin, wcetMax, memTotal, utilCpu, utilTarget, nTasksTarget, taskSizeMin, taskSizeMax,
        inputSizeMin, inputSizeMax, outputSizeMin, outputSizeMax⟩
    | _ => none

def gennetworkLine : List Char → Line Gennetwork :=
  scanLine double [.u, .u, .u, .u, .u] fun
    | [.u uplinkMin, .u uplinkMax, .u downlinkMin, .u downlinkMax, .u nNetworksTarget] =>
      some ⟨uplinkMin, uplinkMax, downlinkMin, downlinkMax, nNetworksTarget⟩
    | _ => none

def gennetcommanderLine : List Char → Line Gennetcommander :=
  scanLine double [.u, .u, .u, .u, .u] fun
    | [.u interceptOutMin, .u interceptOutMax, .u interceptInMin, .u interceptInMax,
        .u nNetCommanderTarget] =>
      some ⟨interceptOutMin, interceptOutMax, interceptInMin, interceptInMax, nNetCommanderTarget⟩
    | _ => none

def gentaskData (g : Conf) (buf : List Char) : Except Halt Conf :=
  match (gentaskLine double buf).fields with
  | none => invalid "cannot load configuration: invalid gentask parameters: %s"
      (gentaskLine double buf).text
  | some v =>
    if v.utilTarget < v.utilCpu then
      .error (.fatal 2 "target utilization cannot be smaller than full utilzation" [])
    else .ok { g with gentask := v }

def gennetworkData (g : Conf) (buf : List Char) : Except Halt Conf :=
  match (gennetworkLine double buf).fields with
  | none => invalid "cannot load configuration: invalid gennetwork parameters: %s"
      (gennetworkLine double buf).text
  | some v => .ok { g with gennetwork := v }

def gennetcommanderData (g : Conf) (buf : List Char) : Except Halt Conf :=
  match (gennetcommanderLine double buf).fields with
  | none => invalid "cannot load configuration: invalid gencommander parameters: %s"
      (gennetcommanderLine double buf).text
  | some v => .ok { g with gennetcommander := v }

def memData (g : Conf) (buf : List Char) : Except Halt Conf := do
  let tables ← MutualEdge.parseMem g.tables [memLine double buf]
  return { g with tables }

def parseGentask := readSection lineKind bufSize (gentaskData double)
def parseGennetwork := readSection lineKind bufSize (gennetworkData double)
def parseGennetcommander := readSection lineKind bufSize (gennetcommanderData double)
def parseMem := readSection lineKind bufSize (memData double)

/-- `switch (check_section(buf))` -/
def switch (buf : List Char) (fuel : ℕ) (fp : File) (g : Conf) :
    Option (Except Halt (File × Conf)) :=
  match checkSection buf with
  | .genetic | .cpufreq | .task | .offloadingratio | .cloud | .network | .netCommander =>
    skipSection fuel fp g
  | .mem => parseMem double fuel fp g
  | .gentask => parseGentask double fuel fp g
  | .gennetwork => parseGennetwork double fuel fp g
  | .gennetcommander => parseGennetcommander double fuel fp g
  | .unknown => some (.error (.fatal 2 "cannot load configuration" []))

def parseConf (fuel : ℕ) (fp : File) : Option (Except Halt Conf) :=
  readSections lineKind bufSize (switch double) fuel fp {}

/-! ### What gasgen does at a header and at a data line -/

def data : SectionT → Conf → List Char → Except Halt Conf
  | .mem => memData double
  | .gentask => gentaskData double
  | .gennetwork => gennetworkData double
  | .gennetcommander => gennetcommanderData double
  | .genetic | .cpufreq | .task | .offloadingratio | .cloud | .network | .netCommander
  | .unknown => fun g _ => .ok g

def header (g : Conf) (buf : List Char) : Except Halt Conf :=
  match checkSection buf with
  | .unknown => .error (.fatal 2 "cannot load configuration" [])
  | _ => .ok g

def actions : Actions Halt Conf where
  header := header
  data hd := data double (checkSection hd)

theorem switch_eq : switch double = (actions double).enter lineKind bufSize := by
  funext buf fuel fp g
  rw [switch, Actions.enter]
  simp only [actions, header]
  cases checkSection buf <;> rfl

variable {double}

/-- A header that is accepted changes nothing. -/
theorem header_ok {g g' : Conf} {buf : List Char} (h : header g buf = .ok g') : g' = g := by
  unfold header at h
  split at h <;> cases h
  rfl

/-- The tables are left alone but for a line of a memory section, which is parsed as gastask does. -/
theorem data_tables {sect : SectionT} {g g' : Conf} {buf : List Char}
    (h : data double sect g buf = .ok g') : g'.tables = g.tables ∨
      sect = .mem ∧ MutualEdge.parseMem g.tables [memLine double buf] = .ok g'.tables := by
  cases sect with
  | mem =>
    obtain ⟨tables, hmem, hok⟩ := bind_ok.mp h
    obtain rfl := pure_ok.mp hok
    exact Or.inr ⟨rfl, hmem⟩
  | gentask =>
    change gentaskData double g buf = .ok g' at h
    unfold gentaskData at h
    split at h
    · cases h
    · split at h <;> cases h
      exact Or.inl rfl
  | gennetwork =>
    change gennetworkData double g buf = .ok g' at h
    unfold gennetworkData at h
    split at h <;> cases h
    exact Or.inl rfl
  | gennetcommander =>
    change gennetcommanderData double g buf = .ok g' at h
    unfold gennetcommanderData at h
    split at h <;> cases h
    exact Or.inl rfl
  | _ =>
    cases h
    exact Or.inl rfl

end MutualEdge.Gasgen
