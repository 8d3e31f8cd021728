import Mathlib.Tactic.Ring
import MutualEdge.Generations

/-! The breakdown that a run prints of its best gene: `save_task_infos` of `report.c`.

    `check_utilpower` adds each contribution to a component and to a total, in its loop over the tasks
    and after it. The gene at the head of the score list is one whose fields a successful evaluation has
    written. -/

namespace MutualEdge
open Checks Choice

/-- The components a gene reports add up to its total cost and its power. -/
structure AddsUp (c : Cached) : Prop where
  cost : c.totalCost = c.costCpuMemory + c.costNetwork + c.costBase + c.costHw + c.costRent
  power : c.power = c.cpuPower + c.memPower + c.powerNetcom

/-! ### The evaluation -/

theorem tallied_costNetwork (mode : Mode) (cfg : Config) (g : Gene) :
    (tallied mode cfg g).costNetwork = ∑ i ∈ Finset.range cfg.nTasks,
      if g.offloads i then
        computeOffloadingCostPerSec (cfg.task i) (cfg.cloud (g.taskattrsCloud.attr i)) 30.0 120.0
      else 0 := by
  refine tallied_sum mode cfg g (φ := Tally.costNetwork) rfl fun t i => ?_
  rw [Tally.addTask]
  split <;> split <;> simp

/-- Every task's cost is in the total and in one of the two components of the loop. -/
theorem tallied_totalCost_eq (mode : Mode) (cfg : Config) (g : Gene) :
    (tallied mode cfg g).totalCost =
      (tallied mode cfg g).costCpuMemory + (tallied mode cfg g).costNetwork := by
  rw [tallied_totalCost, tallied_costCpuMemory, tallied_costNetwork, ← Finset.sum_add_distrib]
  refine Finset.sum_congr rfl fun i _ => ?_
  rw [taskCost]
  split
  · rw [zero_add]
  · rw [add_zero]

/-- What an accepting evaluation stores adds up, whatever was stored before. -/
theorem checkUtilpower_addsUp {mode : Mode} {cfg : Config} {g g' : Gene}
    (h : checkUtilpower mode cfg g = .ok (true, g')) : AddsUp g'.toCached := by
  obtain ⟨_, hg'⟩ := checkUtilpower_ok h
  rw [if_pos rfl] at hg'
  have htotal := tallied_totalCost_eq mode cfg g
  subst hg'
  refine ⟨?_, ?_⟩
  · simp only [secondWrites, firstWrites, Tally.fullCost, htotal]
    ring
  · simp only [secondWrites, firstWrites]
    ring

/-! ### The report -/

/-- What `save_task_infos` writes to `task.txt` and prints. -/
structure TaskInfos where
  /-- Memory type, frequency level, cloud and offloading ratio of each task. -/
  tasks : List (ℕ × ℕ × ℕ × ℕ)
  power : ℚ
  util : ℚ
  cpuPower : ℚ
  memPower : ℚ
  powerNetcom : ℚ
  offloadingRatio : ℚ
  /-- The local tasks at the levels 0 to 3, and those at any other. -/
  cpufreqs : List ℕ
  periodViolation : ℕ
  totalCost : ℚ
  costCpuMemory : ℚ
  costNetwork : ℚ
  costBase : ℚ
  costHw : ℚ
  costRent : ℚ

/-- The line of task `i` in `task.txt`. -/
def taskInfo (g : Gene) (i : ℕ) : ℕ × ℕ × ℕ × ℕ :=
  (g.taskattrsMem.attr i, g.taskattrsCpufreq.attr i, g.taskattrsCloud.attr i,
    g.taskattrsOffloadingratio.attr i)

/-- `save_task_infos`, on the first gene of the score list. -/
def saveTaskInfos (cfg : Config) (p : Pop) : Except Halt TaskInfos :=
  match p.genesByScore.next none with
  | none => .error .wildPointer
  | some i =>
    let gene := p.gene i
    if 2.0 < gene.util then .error (.fatal 2 "over-utilized gene: %lf" [.num gene.util])
    else
      let tasks := List.range cfg.nTasks
      let nOffloading := tasks.countP gene.offloads
      let level i := min (gene.taskattrsCpufreq.attr i) 4
      .ok
        { tasks := tasks.map (taskInfo gene)
          power := gene.power
          util := gene.util
          cpuPower := gene.cpuPower
          memPower := gene.memPower
          powerNetcom := gene.powerNetcom
          offloadingRatio := nOffloading / cfg.nTasks
          cpufreqs := (List.range 5).map fun k =>
            tasks.countP fun i => !gene.offloads i && decide (level i = k)
          periodViolation := gene.periodViolation
          totalCost := gene.totalCost
          costCpuMemory := gene.costCpuMemory
          costNetwork := gene.costNetwork
          costBase := gene.costBase
          costHw := gene.costHw
          costRent := gene.costRent }

/-- The gene a report is about. -/
theorem saveTaskInfos_ok {cfg : Config} {p : Pop} {infos : TaskInfos}
    (h : saveTaskInfos cfg p = .ok infos) : ∃ i, p.genesByScore.next none = some i ∧
      infos.power = (p.gene i).power ∧ infos.cpuPower = (p.gene i).cpuPower ∧
      infos.memPower = (p.gene i).memPower ∧ infos.powerNetcom = (p.gene i).powerNetcom ∧
      infos.totalCost = (p.gene i).totalCost ∧ infos.costCpuMemory = (p.gene i).costCpuMemory ∧
      infos.costNetwork = (p.gene i).costNetwork ∧ infos.costBase = (p.gene i).costBase ∧
      infos.costHw = (p.gene i).costHw ∧ infos.costRent = (p.gene i).costRent := by
  unfold saveTaskInfos at h
  split at h
  · cases h
  · rename_i i hi
    dsimp only at h
    split at h
    · cases h
    · obtain rfl := Except.ok.inj h
      exact ⟨i, hi, rfl, rfl, rfl, rfl, rfl, rfl, rfl, rfl, rfl, rfl⟩

/-- In every gene of a population between two generations the components add up. -/
theorem population_addsUp {mode : Mode} {cfg : Config} {gens : ℕ} {p : Pop}
    (h : Returns (evolve mode cfg gens) p) {i : ℕ} (hi : i < cfg.nPops) :
    AddsUp (p.gene i).toCached :=
  checkUtilpower_addsUp (((evolve_gaInv h).valid i (List.mem_range.mpr hi)).fresh {})

/-- The head of the score list is a gene of the population. -/
theorem head_lt {mode : Mode} {cfg : Config} {p : Pop} (hinv : GaInv mode cfg (.boundary, p)) {i : ℕ}
    (hi : p.genesByScore.next none = some i) : i < cfg.nPops :=
  List.mem_range.mp (hinv.listed.byScore.mem_of_next hi)

/-- The printed breakdown adds up: for every gene that `check_utilpower` accepts, whatever its fields
    held before, and for the best gene printed at the end of every run. -/
theorem breakdown_addsUp {mode : Mode} {cfg : Config} :
    (∀ g g', checkUtilpower mode cfg g = .ok (true, g') →
      g'.totalCost = g'.costCpuMemory + g'.costNetwork + g'.costBase + g'.costHw + g'.costRent ∧
      g'.power = g'.cpuPower + g'.memPower + g'.powerNetcom) ∧
    ∀ p infos, Returns (evolve mode cfg cfg.maxGen) p → saveTaskInfos cfg p = .ok infos →
      infos.totalCost = infos.costCpuMemory + infos.costNetwork + infos.costBase + infos.costHw +
        infos.costRent ∧
      infos.power = infos.cpuPower + infos.memPower + infos.powerNetcom := by
  refine ⟨fun g g' h => ?_, fun p infos hp h => ?_⟩
  · obtain ⟨hcost, hpower⟩ := checkUtilpower_addsUp h
    exact ⟨hcost, hpower⟩
  · obtain ⟨i, hi, h1, h2, h3, h4, h5, h6, h7, h8, h9, h10⟩ := saveTaskInfos_ok h
    obtain ⟨hcost, hpower⟩ := population_addsUp hp (head_lt (evolve_gaInv hp) hi)
    rw [h1, h2, h3, h4, h5, h6, h7, h8, h9, h10]
    exact ⟨hcost, hpower⟩

/-- `smallConf` for one generation. -/
def shortConf : Config := { smallConf with maxGen := 1 }

theorem breakdown_addsUp_shortConf : ∃ p infos, Returns (evolve .localOnly shortConf 1) p ∧
    saveTaskInfos shortConf p = .ok infos ∧
    infos.totalCost = infos.costCpuMemory + infos.costNetwork + infos.costBase + infos.costHw +
      infos.costRent ∧
    infos.power = infos.cpuPower + infos.memPower + infos.powerNetcom := by
  have hok : ((evolve .localOnly shortConf 1 smallDraws).toOption.any fun r =>
      (saveTaskInfos shortConf r.1).isOk) = true := by decide +kernel
  obtain ⟨⟨p, ds⟩, hrun, hsave⟩ := exists_ok_of_any hok
  have hp : Returns (evolve .localOnly shortConf 1) p := ⟨smallDraws, ds, hrun⟩
  obtain ⟨infos, h⟩ := exists_ok_of_isOk hsave
  exact ⟨p, infos, hp, h, breakdown_addsUp.2 p infos hp h⟩

end MutualEdge
