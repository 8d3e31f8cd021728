import MutualEdge.Lib.Lockstep
import MutualEdge.WholeRun

/-! What the search is for, without its data structures.

    A ranking is the list of the genes in the order of their scores; there is no gene array, no index
    and no link. A generation takes the last gene of the ranking, breeds another one in its place from
    two of the others and inserts it by its score. `search` is the whole run on rankings, with the rows
    of its report and the result it exports. -/

namespace MutualEdge
open Checks Choice Ordered

/-- The genes, the best score first. -/
abbrev Ranking := List Gene

namespace Ranking

/-- A gene comes behind those with the same score. -/
def add (l : Ranking) (g : Gene) : Ranking := insertKey (fun g : Gene => g.score) g l

def best (l : Ranking) : Except Halt Gene := require .wildPointer l.head?
def worst (l : Ranking) : Except Halt Gene := require .wildPointer l.getLast?

end Ranking

/-! ### New genes -/

/-- Repair a gene once, or accept it. -/
def prepareOnce (mode : Mode) (cfg : Config) (g : Gene) : Rand (Bool × Gene) :=
  if checkMemusage cfg g = false then do
    let g ← balanceMemTypes cfg g
    return (false, g)
  else do
    let r ← checkUtilpower mode cfg g
    if r.1 then return (true, r.2)
    else
      let g ← lowerUtilization cfg r.2
      return (false, g)

/-- A random gene, repaired until it is accepted. -/
def prepare (mode : Mode) (cfg : Config) : Rand Gene := do
  let g ← assignGene cfg {}
  attempts Gene.utilizationTooHigh (prepareOnce mode cfg) maxTry g

/-- Add `n` new genes. -/
def populate (mode : Mode) (cfg : Config) : ℕ → Ranking → Rand Ranking
  | 0, l => pure l
  | n + 1, l => do
    let g ← prepare mode cfg
    populate mode cfg n (l.add g)

/-! ### Generations -/

/-- The rank, out of `n`, that a draw selects. -/
def rankOf (cfg : Config) (n r : ℕ) : Except Halt ℕ := do
  let position ← selectPosition cfg.nPops r
  if n = 0 then throw .wildPointer else return min position (n - 1)

def drawRank (cfg : Config) (n : ℕ) : Rand ℕ := do
  let r ← next .starved
  rankOf cfg n r

/-- Draw until the rank is another one. -/
def drawOther (cfg : Config) (n rank1 : ℕ) : Rand ℕ :=
  retry .starved fun r => do
    let rank2 ← rankOf cfg n r
    return if rank2 ≠ rank1 then some rank2 else none

/-- The child of two genes, and whether it is feasible and scores no more than either of them. -/
def breed (mode : Mode) (cfg : Config) (newborn gene1 gene2 : Gene) (kr kc km : ℕ) :
    Except Halt (Bool × Gene) :=
  let child := inheritGene cfg newborn gene1 gene2 kr kc km
  if cfg.nTasks < kr ∨ cfg.nTasks < kc ∨ cfg.nTasks < km then .error .memoryFault
  else if checkMemusage cfg child = false then .ok (false, child)
  else do
    let r ← checkUtilpower mode cfg child
    return (r.1 && decide (r.2.score ≤ gene1.score ∧ r.2.score ≤ gene2.score), r.2)

/-- Breed in the place of the newborn from two drawn genes of the ranking. -/
def breedOnce (mode : Mode) (cfg : Config) (l : Ranking) (newborn : Gene) : Rand (Bool × Gene) := do
  let rank1 ← drawRank cfg l.length
  let rank2 ← drawOther cfg l.length rank1
  let kr ← drawCrosspt cfg
  let kc ← drawCrosspt cfg
  let km ← drawCrosspt cfg
  breed mode cfg newborn (l.getD rank1 {}) (l.getD rank2 {}) kr kc km

/-- The last gene makes way for a new one. -/
def generation (mode : Mode) (cfg : Config) (l : Ranking) : Rand Ranking := do
  let worst ← l.worst
  let g ← attempts (fun _ => .fatal 3 "cannot execute crossover" []) (breedOnce mode cfg l.dropLast)
    maxTry worst
  return Ranking.add l.dropLast g

/-! ### The report and the result -/

/-- The row of a ranking. -/
def Ranking.row (cfg : Config) (l : Ranking) (gen : ℕ) : Except Halt Row := do
  let s := l.foldl Sums.addGene {}
  let best ← l.best
  let worst ← l.worst
  let utilMin ← require .wildPointer (l.map fun g => g.util).min?
  let utilMax ← require .wildPointer (l.map fun g => g.util).max?
  let costMin := if best.util ≤ 3.0 then best.score else -1
  let costAvg := if 0 < s.nValidGenes then s.costSum / s.nValidGenes else -1
  return {
    gen := gen
    costKind := s.costKind
    fitMin := s.fitMin
    fitAvg := if 0 < s.nValidGenes then s.fitSum / s.nValidGenes else 0
    fitMax := s.fitMax
    penaltyMin := s.penaltyMin
    penaltyAvg := if 0 < s.nValidGenes then s.penaltySum / s.nValidGenes else 0
    penaltyMax := s.penaltyMax
    costMin := if costMin < 0 then worst.score else costMin
    costAvg := if costAvg < 0 then worst.score else costAvg
    costMax := worst.score
    utilMin := utilMin
    utilAvg := s.utilSum / cfg.nPops
    utilMax := utilMax }

/-- The generations 1, `max_gen` and every one that the interval divides get a row. -/
def Ranking.report (cfg : Config) (l : Ranking) (gen : ℕ) (r : Report) : Except Halt Report :=
  if r.nReportIntervals = 0 then do
    let row ← l.row cfg gen
    return { nReportIntervals := reportInterval cfg, rows := r.rows ++ [row] }
  else if Reported cfg gen then do
    let row ← l.row cfg gen
    return { r with rows := r.rows ++ [row] }
  else return r

/-- What is printed and written to `task.txt` of a gene. -/
def Gene.infos (cfg : Config) (gene : Gene) : Except Halt TaskInfos :=
  if 2.0 < gene.util then .error (.fatal 2 "over-utilized gene: %lf" [.num gene.util])
  else
    let tasks := List.range cfg.nTasks
    .ok
      { tasks := tasks.map (taskInfo gene)
        power := gene.power
        util := gene.util
        cpuPower := gene.cpuPower
        memPower := gene.memPower
        powerNetcom := gene.powerNetcom
        offloadingRatio := (tasks.countP gene.offloads : ℕ) / cfg.nTasks
        cpufreqs := (List.range 5).map fun k => tasks.countP fun i =>
          !gene.offloads i && decide (min (gene.taskattrsCpufreq.attr i) 4 = k)
        periodViolation := gene.periodViolation
        totalCost := gene.totalCost
        costCpuMemory := gene.costCpuMemory
        costNetwork := gene.costNetwork
        costBase := gene.costBase
        costHw := gene.costHw
        costRent := gene.costRent }

/-! ### The run -/

structure SearchState where
  gen : ℕ
  ranking : Ranking
  report : Report

def searchStart (mode : Mode) (cfg : Config) : Rand SearchState := do
  let l ← populate mode cfg cfg.nPops []
  let r ← l.report cfg 1 {}
  return ⟨1, l, r⟩

def searchRound (mode : Mode) (cfg : Config) (s : SearchState) : Rand SearchState := do
  let l ← generation mode cfg s.ranking
  let gen := u32 (s.gen + 1)
  let r ← l.report cfg gen s.report
  return ⟨gen, l, r⟩

/-- The run on rankings: its report and the result it exports, that of the first gene. -/
def search (mode : Mode) (cfg : Config) : Rand (Report × TaskInfos) := do
  let s ← searchStart mode cfg
  let s ← loop .starved (fun s => decide (s.gen ≤ cfg.maxGen)) (searchRound mode cfg) s
  let best ← s.ranking.best
  let infos ← best.infos cfg
  return (s.report, infos)

end MutualEdge
