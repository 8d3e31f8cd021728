import MutualEdge.Conf
import MutualEdge.Lib.Doubles

/-! Genes: the attribute arrays of `taskattrs_t`, their histogram and the repair steps on them.

    Of an array `attrs[MAX_TASKS]` the list holds the first `n_tasks` bytes, the ones the program
    reads. The counters of `n_tasks_per_type` are `unsigned`. -/

namespace MutualEdge
open Choice Doubles

structure Taskattrs where
  attrs : List ℕ := []
  nTasksPerType : List ℕ := List.replicate maxAttrtypes 0
  maxType : ℕ := 0
  deriving DecidableEq

namespace Taskattrs

def attr (t : Taskattrs) (i : ℕ) : ℕ := t.attrs.getD i 0
def count (t : Taskattrs) (type : ℕ) : ℕ := t.nTasksPerType.getD type 0

end Taskattrs

/-- The fields of `gene_t` that `check_utilpower` writes.

    With `util`, `total_cost` and `score` goes what they are when they are no numbers. Scores that are
    none are kept as `0`: the comparisons of the program tell them apart no more than equal ones. In a
    run all scores are numbers or, where a period is shorter than a second, none is. -/
structure Cached where
  util : ℚ := 0
  utilKind : Kind := .number
  power : ℚ := 0
  totalCost : ℚ := 0
  costKind : Kind := .number
  score : ℚ := 0
  scoreKind : Kind := .number
  memPower : ℚ := 0
  cpuPower : ℚ := 0
  powerNetcom : ℚ := 0
  costCpuMemory : ℚ := 0
  costNetwork : ℚ := 0
  costBase : ℚ := 0
  costHw : ℚ := 0
  costRent : ℚ := 0
  constraintPenalty : ℚ := 0
  fitness : ℚ := 0
  periodViolation : ℕ := 0
  deriving DecidableEq

namespace Cached

def costDouble (c : Cached) : Double := ⟨c.costKind, c.totalCost⟩
def scoreDouble (c : Cached) : Double := ⟨c.scoreKind, c.score⟩

theorem scoreDouble_le_iff {c c' : Cached} (h : c.scoreKind = .number) (h' : c'.scoreKind = .number) :
    c.scoreDouble ≤ c'.scoreDouble ↔ c.score ≤ c'.score := Double.le_iff_of_number h h'

end Cached

/-- `gene_t` less its list links, which the population keeps. -/
structure Gene extends Cached where
  taskattrsMem : Taskattrs := {}
  taskattrsCloud : Taskattrs := {}
  taskattrsCpufreq : Taskattrs := {}
  taskattrsOffloadingratio : Taskattrs := {}
  deriving DecidableEq

/-! ### Building attributes -/

/-- The loop body of `setup_taskattrs` for one attribute. -/
def countAttr (t : Taskattrs) (attrtype : ℕ) : Taskattrs :=
  let t := { t with nTasksPerType := t.nTasksPerType.modify attrtype fun n => u32 (n + 1) }
  if t.count t.maxType < t.count attrtype then { t with maxType := attrtype } else t

def setupTaskattrs (t : Taskattrs) : Taskattrs :=
  t.attrs.foldl countAttr
    { t with nTasksPerType := List.replicate maxAttrtypes 0, maxType := 0 }

/-- `n` attributes, each drawn below `maxValue`. -/
def drawAttrs (maxValue : ℕ) : ℕ → Rand (List ℕ)
  | 0 => pure []
  | n + 1 => do
    let attrtype ← getRand maxValue
    let attrs ← drawAttrs maxValue n
    return attrtype :: attrs

def assignTaskattrs (nTasks maxValue : ℕ) (t : Taskattrs) : Rand Taskattrs := do
  let attrs ← drawAttrs maxValue nTasks
  return setupTaskattrs { t with attrs := attrs }

def inheritValues (nTasks : ℕ) (newborn taskattrs1 taskattrs2 : Taskattrs) (crosspt : ℕ) :
    Taskattrs :=
  setupTaskattrs { newborn with
    attrs := taskattrs1.attrs.take crosspt ++
      (taskattrs2.attrs.drop crosspt).take (nTasks - crosspt) }

/-! ### Repairing attributes -/

/-- Move one task from type `src` to type `dst` in the histogram. -/
def moveCount (counts : List ℕ) (src dst : ℕ) : List ℕ :=
  (counts.modify src fun n => u32 (n + (2 ^ 32 - 1))).modify dst fun n => u32 (n + 1)

/-- The scan of `balance_mem_types`: the index of occurrence number `idx` of `type`, or the length
    when there are not that many. -/
def nthOfType (type : ℕ) : List ℕ → ℕ → ℕ
  | [], _ => 0
  | a :: attrs, idx =>
    if a = type then
      match idx with
      | 0 => 0
      | idx + 1 => nthOfType type attrs idx + 1
    else nthOfType type attrs idx + 1

def balanceTaskattrs (nMems : ℕ) (t : Taskattrs) : Rand Taskattrs :=
  let nTasksType := t.count t.maxType
  if 0 < nTasksType then do
    let idxChanged ← getRand nTasksType
    let i := nthOfType t.maxType t.attrs idxChanged
    let typeNew ← getRandExcept nMems t.maxType
    let counts := moveCount t.nTasksPerType t.maxType typeNew
    return { attrs := t.attrs.set i typeNew
             nTasksPerType := counts
             maxType := if counts.getD t.maxType 0 < counts.getD typeNew 0 then typeNew
               else t.maxType }
  else pure t

def balanceMemTypes (cfg : Config) (g : Gene) : Rand Gene := do
  let t ← balanceTaskattrs cfg.nMems g.taskattrsMem
  return { g with taskattrsMem := t }

/-- The `do ... while (idx != idx_org)` of `lower_utilization_by_attr`: the first index from `idx`
    on, going round, whose attribute is positive. The first argument counts the indices left. -/
def scanPositive (attrs : List ℕ) (nTasks idxOrg : ℕ) : ℕ → ℕ → Option ℕ
  | 0, _ => none
  | k + 1, idx =>
    if 0 < attrs.getD idx 0 then some idx
    else
      let idx := (idx + 1) % nTasks
      if idx = idxOrg then none else scanPositive attrs nTasks idxOrg k idx

/-- Lower the attribute at `idx` by one. -/
def lowerAttr (t : Taskattrs) (idx : ℕ) : Taskattrs :=
  let type := t.attr idx
  let counts := moveCount t.nTasksPerType type (type - 1)
  { attrs := t.attrs.set idx (type - 1)
    nTasksPerType := counts
    maxType := if counts.getD t.maxType 0 < counts.getD (type - 1) 0 then type - 1
      else t.maxType }

def lowerUtilizationByAttr (nTasks : ℕ) (t : Taskattrs) : Rand (Bool × Taskattrs) := do
  let idxOrg ← getRand nTasks
  match scanPositive t.attrs nTasks idxOrg nTasks idxOrg with
  | some idx => return (true, lowerAttr t idx)
  | none => return (false, t)

def lowerCpufreq (cfg : Config) (g : Gene) : Rand (Bool × Gene) := do
  let r ← lowerUtilizationByAttr cfg.nTasks g.taskattrsCpufreq
  return (r.1, { g with taskattrsCpufreq := r.2 })

def lowerOffloadingratio (cfg : Config) (g : Gene) : Rand (Bool × Gene) := do
  let r ← lowerUtilizationByAttr cfg.nTasks g.taskattrsOffloadingratio
  return (r.1, { g with taskattrsOffloadingratio := r.2 })

/-- Lower by `first`, and by `second` when that found nothing to lower. -/
def lowerEither (first second : Gene → Rand (Bool × Gene)) (g : Gene) : Rand Gene := do
  let r ← first g
  if r.1 then return r.2
  else
    let r ← second r.2
    return r.2

def lowerUtilization (cfg : Config) (g : Gene) : Rand Gene := do
  let r ← getRand (cfg.nCpufreqs + cfg.nOffloadingratios)
  if r < cfg.nCpufreqs then lowerEither (lowerCpufreq cfg) (lowerOffloadingratio cfg) g
  else lowerEither (lowerOffloadingratio cfg) (lowerCpufreq cfg) g

end MutualEdge
