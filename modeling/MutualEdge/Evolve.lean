import Mathlib.Data.Nat.Sqrt
import MutualEdge.Evaluate
import MutualEdge.Lib.Loops
import MutualEdge.Population

/-! The genetic algorithm: `init_gene`, `do_crossover`, parent selection, `crossover`, `run_GA`.

    Both retry loops of the program (the repairs of `init_gene`, the attempts of `crossover`) are
    `attempts`: a body that answers whether it is done, run at most `MAX_TRY` times. `evolve k` is the
    run of `run_GA` up to the end of its `k`-th crossover; the reports it writes read the population
    and change nothing. -/

namespace MutualEdge
open Choice

def maxTry : ℕ := 10000

/-! ### Initial genes -/

/-- The first half of `init_gene`: random memory types, levels and clouds, all tasks local. -/
def assignGene (cfg : Config) (g : Gene) : Rand Gene := do
  let mem ← assignTaskattrs cfg.nTasks cfg.nMems g.taskattrsMem
  let cpufreq ← assignTaskattrs cfg.nTasks cfg.nCpufreqs g.taskattrsCpufreq
  let cloud ← assignTaskattrs cfg.nTasks cfg.nClouds g.taskattrsCloud
  return { g with
    taskattrsMem := mem
    taskattrsCpufreq := cpufreq
    taskattrsCloud := cloud
    taskattrsOffloadingratio := setupTaskattrs
      { g.taskattrsOffloadingratio with attrs := List.replicate cfg.nTasks 0 } }

/-- One round of the loop of `init_gene` on gene `k`. -/
def initTry (mode : Mode) (cfg : Config) (k : ℕ) (p : Pop) : Rand (Bool × Pop) :=
  let p := p.initLists k
  if checkMemusage cfg (p.gene k) = false then do
    let g ← balanceMemTypes cfg (p.gene k)
    return (false, p.setGene k g)
  else do
    let r ← checkUtilpower mode cfg (p.gene k)
    let p := p.setGene k r.2
    if r.1 then
      let p ← sortGene p k
      return (true, p)
    else
      let g ← lowerUtilization cfg (p.gene k)
      return (false, p.setGene k g)

/-- The FATAL behind the tries. -/
def Gene.utilizationTooHigh (gene : Gene) : Halt :=
  .fatal 3 "cannot generate initial genes: utilization too high: %lf"
    [if gene.utilKind = .number then .num gene.util else .text "nan"]

def utilizationTooHigh (k : ℕ) (p : Pop) : Halt := (p.gene k).utilizationTooHigh

def initGene (mode : Mode) (cfg : Config) (k : ℕ) (p : Pop) : Rand Pop := do
  let g ← assignGene cfg (p.gene k)
  attempts (utilizationTooHigh k) (initTry mode cfg k) maxTry (p.setGene k g)

/-- The `n` genes from index `k` on. -/
def initGenes (mode : Mode) (cfg : Config) : ℕ → ℕ → Pop → Rand Pop
  | 0, _, p => pure p
  | n + 1, k, p => do
    let p ← initGene mode cfg k p
    initGenes mode cfg n (k + 1) p

/-- The zeroed gene array and the three empty lists. -/
def emptyPop (nPops : ℕ) : Pop :=
  ⟨List.replicate nPops {}, listHead, listHead, listHead⟩

def initPopulations (mode : Mode) (cfg : Config) : Rand Pop :=
  initGenes mode cfg cfg.nPops 0 (emptyPop cfg.nPops)

/-! ### Crossover -/

/-- What `do_crossover` copies from the parents: not the clouds. -/
def inheritGene (cfg : Config) (newborn gene1 gene2 : Gene)
    (crossptRatio crossptCpufreq crossptMem : ℕ) : Gene :=
  { newborn with
    taskattrsMem := inheritValues cfg.nTasks newborn.taskattrsMem gene1.taskattrsMem
      gene2.taskattrsMem crossptMem
    taskattrsOffloadingratio := inheritValues cfg.nTasks newborn.taskattrsOffloadingratio
      gene1.taskattrsOffloadingratio gene2.taskattrsOffloadingratio crossptRatio
    taskattrsCpufreq := inheritValues cfg.nTasks newborn.taskattrsCpufreq gene1.taskattrsCpufreq
      gene2.taskattrsCpufreq crossptCpufreq }

/-- `memcpy` gets `n_tasks - crosspt` bytes: with a crossover point behind the last task that is a
    huge `size_t`. -/
def doCrossover (mode : Mode) (cfg : Config) (p : Pop) (newborn gene1 gene2 : ℕ)
    (crossptRatio crossptCpufreq crossptMem : ℕ) : Except Halt (Bool × Pop) :=
  if cfg.nTasks < crossptRatio ∨ cfg.nTasks < crossptCpufreq ∨ cfg.nTasks < crossptMem then
    .error .memoryFault
  else
    let p := p.setGene newborn (inheritGene cfg (p.gene newborn) (p.gene gene1) (p.gene gene2)
      crossptRatio crossptCpufreq crossptMem)
    if checkMemusage cfg (p.gene newborn) = false then .ok (false, p)
    else do
      let r ← checkUtilpower mode cfg (p.gene newborn)
      let p := p.setGene newborn r.2
      if r.1 = false then return (false, p)
      else if (p.gene gene1).score < (p.gene newborn).score ∨
          (p.gene gene2).score < (p.gene newborn).score then
        return (false, p)
      else
        let p ← sortGene p newborn
        return (true, p)

/-- `#define M 4` -/
def M : ℕ := 4

/-- `select_position` for the result `r` of `rand()`. The square root of `1 + x` for a 32-bit `x` is
    rounded correctly, so truncating `(sqrt(1 + x) - 1) / 2` is integer arithmetic on the integer
    square root. -/
def selectPosition (nPops r : ℕ) : Except Halt ℕ := do
  let max := u32 (M * u32 (nPops + 1)) / 2
  let alpha ← getRandOf r max
  let kvalue := (Nat.sqrt (1 + u32 (u32 (8 * alpha) * nPops) / M) - 1) / 2
  if kvalue < nPops then return nPops - kvalue - 1 else throw .assertFailed

/-- `select_gene`: the gene at the drawn position, or the last one when the list is shorter. -/
def selectGeneOf (cfg : Config) (p : Pop) (r : ℕ) : Except Halt ℕ := do
  let position ← selectPosition cfg.nPops r
  match listForEach p.genesByScore (p.genes.length + 1) (fun (position i : ℕ) =>
      if position = 0 then .error i else .ok (position - 1)) position with
  | some (.error i) => return i
  | some (.ok _) =>
    match p.genesByScore.prev none with
    | some i => return i
    | none => throw .wildPointer
  | none => throw .endless

def selectGene (cfg : Config) (p : Pop) : Rand ℕ := do
  let r ← next .starved
  selectGeneOf cfg p r

/-- `do { gene2 = select_gene(); } while (gene1 == gene2)` -/
def selectOther (cfg : Config) (p : Pop) (gene1 : ℕ) : Rand ℕ :=
  retry .starved fun r => do
    let gene2 ← selectGeneOf cfg p r
    return if gene2 ≠ gene1 then some gene2 else none

/-- Take the gene with the largest score off the lists. -/
def getNewborn (p : Pop) : Except Halt (ℕ × Pop) :=
  match p.genesByScore.prev none with
  | some i => .ok (i, p.delLists i)
  | none => .error .wildPointer

/-- A crossover point: `get_rand(n_tasks - 1) + 1`. -/
def drawCrosspt (cfg : Config) : Rand ℕ := do
  let r ← getRand (u32 (cfg.nTasks + (2 ^ 32 - 1)))
  return r + 1

/-- One attempt of the loop of `crossover`. -/
def attempt (mode : Mode) (cfg : Config) (newborn : ℕ) (p : Pop) : Rand (Bool × Pop) := do
  let gene1 ← selectGene cfg p
  let gene2 ← selectOther cfg p gene1
  let crossptRatio ← drawCrosspt cfg
  let crossptCpufreq ← drawCrosspt cfg
  let crossptMem ← drawCrosspt cfg
  doCrossover mode cfg p newborn gene1 gene2 crossptRatio crossptCpufreq crossptMem

def crossover (mode : Mode) (cfg : Config) (p : Pop) : Rand Pop := do
  let r ← getNewborn p
  attempts (fun _ => .fatal 3 "cannot execute crossover" []) (attempt mode cfg r.1) maxTry r.2

/-- The given number of generations. -/
def generations (mode : Mode) (cfg : Config) : ℕ → Pop → Rand Pop
  | 0, p => pure p
  | n + 1, p => do
    let p ← crossover mode cfg p
    generations mode cfg n p

/-- The run of `run_GA` up to the end of crossover number `gens`. -/
def evolve (mode : Mode) (cfg : Config) (gens : ℕ) : Rand Pop := do
  let p ← initPopulations mode cfg
  generations mode cfg gens p

/-! ### The run as a transition system -/

/-- Where a run is: about to fill gene `k`, in the loop of `init_gene` on gene `k`, between two
    generations, or in the loop of `crossover` on the gene it took off the lists. -/
inductive Phase where
  | fresh (k : ℕ)
  | trying (k : ℕ)
  | boundary
  | breeding (newborn : ℕ)
  deriving DecidableEq

/-- The steps of a run: one for each round of each loop. -/
inductive GaStep (mode : Mode) (cfg : Config) : Phase × Pop → Phase × Pop → Prop where
  | assign {k p g} (hk : k < cfg.nPops) (h : Returns (assignGene cfg (p.gene k)) g) :
      GaStep mode cfg (.fresh k, p) (.trying k, p.setGene k g)
  | repair {k p p'} (h : Returns (initTry mode cfg k p) (false, p')) :
      GaStep mode cfg (.trying k, p) (.trying k, p')
  | place {k p p'} (h : Returns (initTry mode cfg k p) (true, p')) :
      GaStep mode cfg (.trying k, p) (.fresh (k + 1), p')
  | populated {p} : GaStep mode cfg (.fresh cfg.nPops, p) (.boundary, p)
  | remove {p p' newborn} (h : getNewborn p = .ok (newborn, p')) :
      GaStep mode cfg (.boundary, p) (.breeding newborn, p')
  | reject {newborn p p'} (h : Returns (attempt mode cfg newborn p) (false, p')) :
      GaStep mode cfg (.breeding newborn, p) (.breeding newborn, p')
  | accept {newborn p p'} (h : Returns (attempt mode cfg newborn p) (true, p')) :
      GaStep mode cfg (.breeding newborn, p) (.boundary, p')

/-- The genetic algorithm on a configuration. -/
def gaSystem (mode : Mode) (cfg : Config) : System (Phase × Pop) where
  init s := s = (.fresh 0, emptyPop cfg.nPops)
  step := GaStep mode cfg

section Runs
variable {mode : Mode} {cfg : Config}

theorem initGene_steps {k : ℕ} {p p' : Pop} (hk : k < cfg.nPops)
    (h : Returns (initGene mode cfg k p) p') :
    Relation.ReflTransGen (GaStep mode cfg) (.fresh k, p) (.fresh (k + 1), p') := by
  obtain ⟨g, hg, h⟩ := h.bind
  obtain ⟨q, hsteps, hq⟩ := h.attempts
  refine .head (.assign hk hg) (.tail ?_ (.place hq))
  exact hsteps.lift (fun q => (Phase.trying k, q)) fun _ _ => .repair

theorem initGenes_steps {n k : ℕ} {p p' : Pop} (hk : k + n = cfg.nPops)
    (h : Returns (initGenes mode cfg n k p) p') :
    Relation.ReflTransGen (GaStep mode cfg) (.fresh k, p) (.boundary, p') := by
  induction n generalizing k p with
  | zero =>
    obtain rfl := returns_pure.mp h
    obtain rfl : k = cfg.nPops := by omega
    exact .single .populated
  | succ n ih =>
    obtain ⟨q, hq, h⟩ := h.bind
    exact (initGene_steps (by omega) hq).trans (ih (by omega) h)

theorem crossover_steps {p p' : Pop} (h : Returns (crossover mode cfg p) p') :
    Relation.ReflTransGen (GaStep mode cfg) (.boundary, p) (.boundary, p') := by
  obtain ⟨⟨newborn, q⟩, hr, h⟩ := h.bind
  obtain ⟨q', hsteps, hq'⟩ := h.attempts
  refine .head (.remove (returns_lift.mp hr)) (.tail ?_ (.accept hq'))
  exact hsteps.lift (fun q => (Phase.breeding newborn, q)) fun _ _ => .reject

theorem generations_steps {n : ℕ} {p p' : Pop} (h : Returns (generations mode cfg n p) p') :
    Relation.ReflTransGen (GaStep mode cfg) (.boundary, p) (.boundary, p') := by
  induction n generalizing p with
  | zero =>
    obtain rfl := returns_pure.mp h
    exact .refl
  | succ n ih =>
    obtain ⟨q, hq, h⟩ := h.bind
    exact (crossover_steps hq).trans (ih h)

/-- Every generation boundary of every run is a reachable state of the transition system. -/
theorem evolve_reachable {gens : ℕ} {p : Pop} (h : Returns (evolve mode cfg gens) p) :
    (gaSystem mode cfg).Reachable (.boundary, p) := by
  obtain ⟨q, hq, h⟩ := h.bind
  refine ⟨_, rfl, (initGenes_steps ?_ hq).trans (generations_steps h)⟩
  omega

end Runs

end MutualEdge
