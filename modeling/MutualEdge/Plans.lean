import MutualEdge.Completeness
import MutualEdge.Ranking
import MutualEdge.Ratios

/-! What the search is for: plans.

    A plan gives every task of a configuration its memory type, frequency level, cloud and offloading
    ratio: the lines of `task.txt`. `Plan.Feasible` says what a plan has to meet and `Plan.figures` what
    it uses and costs, both in the terms of the tasks and without genes. A run ends with a feasible plan
    and prints its figures. -/

namespace MutualEdge
open Checks Choice Doubles

/-- An accepted configuration on which everything that is charged or printed is a number: no link is
    zero and no period shorter than a second. -/
structure Accounted (cfg : Config) : Prop where
  accepted : Accepted cfg
  charges : ∀ i < cfg.nTasks, Chargeable cfg i

/-- Memory type, frequency level, cloud and offloading ratio of each task. -/
abbrev Plan := List (ℕ × ℕ × ℕ × ℕ)

namespace Plan
variable (cfg : Config) (plan : Plan)

def row (i : ℕ) : ℕ × ℕ × ℕ × ℕ := plan.getD i (0, 0, 0, 0)
def memType (i : ℕ) : ℕ := (plan.row i).1
def level (i : ℕ) : ℕ := (plan.row i).2.1
def ratio (i : ℕ) : ℕ := (plan.row i).2.2.2

/-- The share of its period that task `i` keeps the CPU busy. -/
def share (i : ℕ) : ℚ :=
  wcetScaled cfg i (plan.memType i) (plan.level i) / (cfg.task i).period

def utilization : ℚ := ∑ i ∈ Finset.range cfg.nTasks, plan.share cfg i

/-- The memory of one type that is in use, as doubles add it up. -/
def memory (type : ℕ) : ℚ :=
  let round := Binary64.nearest
  (List.range cfg.nTasks).foldl (fun used i =>
    if plan.memType i = type then
      round (used + round ((cfg.task i).memreq *
        round (1 - round (cfg.offloadingratio (plan.ratio i)))))
    else used) 0

/-- A plan on the device itself that meets every limit of the configuration. -/
structure Feasible : Prop where
  rows : plan.length = cfg.nTasks
  levels : 0 < cfg.nCpufreqs
  tables : ∀ row ∈ plan, row.1 < cfg.nMems ∧ row.2.1 < cfg.nCpufreqs ∧ row.2.2.1 < cfg.nClouds
  onDevice : ∀ row ∈ plan, row.2.2.2 = 0
  memory_le : ∀ type < cfg.nMems, plan.memory cfg type ≤ (cfg.mem type).maxCapacity
  periods : ∀ i < cfg.nTasks, ¬ Overruns cfg i (plan.memType i) (plan.level i)
  scales : ∀ i < cfg.nTasks, (cfg.cpufreq (plan.level i)).wcetScale ≠ 0 ∧
    (cfg.mem (plan.memType i)).wcetScale ≠ 0
  cutoff : plan.utilization cfg ≤ cfg.cutoff
  limit : plan.utilization cfg ≤ 2

/-! ### Figures -/

/-- The power of the CPU while it runs task `i`: that of the busy and the idle CPU, weighted by what the
    level and the memory type slow the task down. -/
def cpuPowerUnit (i : ℕ) : ℚ :=
  let f := cfg.cpufreq (plan.level i)
  let s := 1 / f.wcetScale
  let s' := 1 / (cfg.mem (plan.memType i)).wcetScale
  (f.powerActive * s + f.powerIdle * s') / (s + s')

/-- The CPU at its slowest level while there is nothing to run. -/
def idlePower : ℚ :=
  if plan.utilization cfg < 1 then
    (cfg.cpufreq (cfg.nCpufreqs - 1)).powerIdle * (1 - plan.utilization cfg)
  else 0

def cpuPower : ℚ :=
  (∑ i ∈ Finset.range cfg.nTasks, plan.cpuPowerUnit cfg i * plan.share cfg i) + plan.idlePower cfg

/-- The memory of a task is active for a part of the time the task runs. -/
def memPower : ℚ := ∑ i ∈ Finset.range cfg.nTasks,
  let task := cfg.task i
  let mem := cfg.mem (plan.memType i)
  task.memreq * ((task.memActiveRatio * mem.powerActive + (1 - task.memActiveRatio) * mem.powerIdle) *
    plan.share cfg i + mem.powerIdle * (1 - plan.share cfg i))

/-- The electricity the CPU and the memory cost: for each task, and for the memory none uses. -/
def costCpuMemory : ℚ :=
  (∑ i ∈ Finset.range cfg.nTasks, computeLocalCostPerSec (cfg.task i) (plan.level i)) +
    costStaticUnused (∑ i ∈ Finset.range cfg.nTasks, (cfg.task i).memreq / 1000)

/-- What is printed of a plan on the device. -/
def figures : TaskInfos where
  tasks := plan
  power := plan.cpuPower cfg + plan.memPower cfg
  util := plan.utilization cfg
  cpuPower := plan.cpuPower cfg
  memPower := plan.memPower cfg
  powerNetcom := 0
  offloadingRatio := 0
  cpufreqs := (List.range 5).map fun k => plan.countP fun row => decide (min row.2.1 4 = k)
  periodViolation := 0
  totalCost := plan.costCpuMemory cfg + baseCost + privateDepreciationCost
  costCpuMemory := plan.costCpuMemory cfg
  costNetwork := 0
  costBase := baseCost
  costHw := privateDepreciationCost
  costRent := 0

end Plan

/-! ### The plan of a gene -/

/-- The lines of `task.txt` for a gene. -/
def Gene.plan (cfg : Config) (g : Gene) : Plan := (List.range cfg.nTasks).map (taskInfo g)

section Genes
variable {cfg : Config} {g : Gene}

theorem Gene.plan_row {i : ℕ} (hi : i < cfg.nTasks) : (g.plan cfg).row i = taskInfo g i := by
  rw [Plan.row, Gene.plan, List.getD_eq_getElem _ _ (by simpa using hi)]
  simp

theorem Gene.plan_memType {i : ℕ} (hi : i < cfg.nTasks) :
    (g.plan cfg).memType i = g.taskattrsMem.attr i := by
  rw [Plan.memType, Gene.plan_row hi, taskInfo]

theorem Gene.plan_level {i : ℕ} (hi : i < cfg.nTasks) :
    (g.plan cfg).level i = g.taskattrsCpufreq.attr i := by
  rw [Plan.level, Gene.plan_row hi, taskInfo]

theorem Gene.plan_ratio {i : ℕ} (hi : i < cfg.nTasks) :
    (g.plan cfg).ratio i = g.taskattrsOffloadingratio.attr i := by
  rw [Plan.ratio, Gene.plan_row hi, taskInfo]

theorem taskEval_share (i : ℕ) (hi : i < cfg.nTasks) :
    (geneEval .localOnly cfg g i).util = (g.plan cfg).share cfg i := by
  rw [Plan.share, Gene.plan_memType hi, Gene.plan_level hi]
  norm_num [geneEval, taskEval, Mode.realOffloading]

/-- The evaluation sums up the shares of the tasks. -/
theorem tallied_utilization :
    (tallied .localOnly cfg g).utilNew = (g.plan cfg).utilization cfg := by
  rw [tallied_utilNew, Plan.utilization]
  exact Finset.sum_congr rfl fun i hi => taskEval_share i (Finset.mem_range.mp hi)

/-- The utilisation is a number exactly if no task selects a zero scale. -/
theorem tallied_utilKind_plan : (tallied .localOnly cfg g).utilKind = .number ↔
    ∀ i < cfg.nTasks, (cfg.cpufreq ((g.plan cfg).level i)).wcetScale ≠ 0 ∧
      (cfg.mem ((g.plan cfg).memType i)).wcetScale ≠ 0 := by
  rw [tallied_utilKind, Kind.sum_eq_number]
  refine forall₂_congr fun i hi => ?_
  rw [Gene.plan_level hi, Gene.plan_memType hi]
  exact utilKind_eq_number

theorem memUsed_plan {type : ℕ} (htype : type < maxMems) :
    (memUsed Binary64.nearest cfg g).getD type 0 = (g.plan cfg).memory cfg type := by
  rw [memUsed_getD Binary64.nearest cfg g htype, memHeld, Plan.memory]
  refine List.foldl_ext _ _ _ fun used i hi => ?_
  have hi := List.mem_range.mp hi
  rw [Gene.plan_memType hi, Gene.plan_ratio hi, memDemand, getTaskMemreq]
  norm_num

theorem checkMemusage_plan (hmax : cfg.nMems ≤ maxMems) : checkMemusage cfg g = true ↔
    ∀ type < cfg.nMems, (g.plan cfg).memory cfg type ≤ (cfg.mem type).maxCapacity := by
  simp only [checkMemusage, List.all_eq_true, List.mem_range, Bool.not_eq_true',
    decide_eq_false_iff_not, not_lt]
  refine forall₂_congr fun type htype => ?_
  rw [memUsed_plan (Nat.lt_of_lt_of_le htype hmax)]

theorem Gene.overruns_plan {i : ℕ} (hi : i < cfg.nTasks) : g.Overruns cfg i ↔
    MutualEdge.Overruns cfg i ((g.plan cfg).memType i) ((g.plan cfg).level i) := by
  rw [Gene.Overruns, Gene.plan_memType hi, Gene.plan_level hi]

/-! ### The figures of a gene -/

theorem tallied_powerNewSumCpu : (tallied .localOnly cfg g).powerNewSumCpu =
    ∑ i ∈ Finset.range cfg.nTasks, (g.plan cfg).cpuPowerUnit cfg i * (g.plan cfg).share cfg i := by
  rw [tallied_sum .localOnly cfg g (φ := Tally.powerNewSumCpu)
    (c := fun i => (geneEval .localOnly cfg g i).powerCpu) rfl]
  · refine Finset.sum_congr rfl fun i hi => ?_
    have hi := Finset.mem_range.mp hi
    rw [Plan.cpuPowerUnit, Plan.share, Gene.plan_memType hi, Gene.plan_level hi]
    norm_num [geneEval, taskEval, Mode.realOffloading]
  · intro t i
    rw [Tally.addTask]
    split <;> split <;> rfl

theorem tallied_powerNewSumMem : (tallied .localOnly cfg g).powerNewSumMem =
    (g.plan cfg).memPower cfg := by
  rw [tallied_sum .localOnly cfg g (φ := Tally.powerNewSumMem)
    (c := fun i => (geneEval .localOnly cfg g i).powerMem) rfl]
  · refine Finset.sum_congr rfl fun i hi => ?_
    have hi := Finset.mem_range.mp hi
    rw [Plan.share, Gene.plan_memType hi, Gene.plan_level hi]
    norm_num [geneEval, taskEval, Mode.realOffloading]
    ring
  · intro t i
    rw [Tally.addTask]
    split <;> split <;> rfl

theorem tallied_powerNewSumNetCom : (tallied .localOnly cfg g).powerNewSumNetCom = 0 := by
  rw [tallied_sum .localOnly cfg g (φ := Tally.powerNewSumNetCom)
    (c := fun i => (geneEval .localOnly cfg g i).powerNetCom) rfl]
  · refine Finset.sum_eq_zero fun i _ => ?_
    norm_num [geneEval, taskEval, Mode.realOffloading]
  · intro t i
    rw [Tally.addTask]
    split <;> split <;> rfl

theorem tallied_violatePeriod_local : (tallied .localOnly cfg g).violatePeriod = 0 := by
  rw [tallied_violatePeriod]
  exact Finset.sum_eq_zero fun i _ => if_neg (not_late_localOnly cfg i _ _ _)

theorem Gene.Shaped.costCpuMemory (hs : g.Shaped cfg) :
    (tallied .localOnly cfg g).costCpuMemory +
      costStaticUnused (tallied .localOnly cfg g).usedMemory = (g.plan cfg).costCpuMemory cfg := by
  rw [tallied_costCpuMemory, tallied_usedMemory, Plan.costCpuMemory]
  congr 1
  · refine Finset.sum_congr rfl fun i hi => ?_
    rw [hs.offloads, if_neg Bool.false_ne_true, Gene.plan_level (Finset.mem_range.mp hi)]
  · congr 1
    refine Finset.sum_congr rfl fun i _ => ?_
    rw [hs.offloads, if_neg Bool.false_ne_true]
    norm_num

theorem Gene.Shaped.costNetwork (hs : g.Shaped cfg) :
    (tallied .localOnly cfg g).costNetwork = 0 := by
  rw [tallied_costNetwork]
  refine Finset.sum_eq_zero fun i _ => ?_
  rw [hs.offloads, if_neg Bool.false_ne_true]

/-- The cached fields of a valid gene are those a fresh evaluation writes. -/
theorem Gene.Valid.toCached_eq {mode : Mode} (hv : g.Valid mode cfg) :
    g.toCached = secondWrites cfg (tallied mode cfg g) (firstWrites cfg (tallied mode cfg g) {}) := by
  have heq := (checkUtilpower_ok (hv.fresh {})).2
  rw [if_pos rfl] at heq
  exact congrArg Gene.toCached heq

theorem Gene.Valid.within {mode : Mode} (hv : g.Valid mode cfg) : (tallied mode cfg g).Within cfg :=
  of_decide_eq_true (checkUtilpower_ok (hv.fresh {})).1.symm

theorem tallied_idlePower (hnum : (tallied .localOnly cfg g).utilKind = .number) :
    (tallied .localOnly cfg g).idlePower cfg = (g.plan cfg).idlePower cfg := by
  simp only [Tally.idlePower, Plan.idlePower, Tally.Idle, hnum, tallied_utilization,
    tallied_violatePeriod_local]
  norm_num

theorem Gene.Shaped.cpufreqs (hs : g.Shaped cfg) (k : ℕ) :
    ((List.range cfg.nTasks).countP fun i =>
      !g.offloads i && decide (min (g.taskattrsCpufreq.attr i) 4 = k)) =
    (g.plan cfg).countP fun row => decide (min row.2.1 4 = k) := by
  rw [Gene.plan, List.countP_map]
  refine List.countP_congr fun i _ => ?_
  rw [hs.offloads, Bool.not_false, Bool.true_and]
  exact Iff.rfl

/-- What is exported of a valid gene are the figures of its plan. -/
theorem Gene.Valid.infos (hs : g.Shaped cfg) (hv : g.Valid .localOnly cfg) : g.infos cfg =
    if 2 < (g.plan cfg).utilization cfg then
      .error (.fatal 2 "over-utilized gene: %lf" [.num ((g.plan cfg).utilization cfg)])
    else .ok ((g.plan cfg).figures cfg) := by
  have hutil : g.util = (g.plan cfg).utilization cfg := by
    rw [hv.toCached_eq]
    exact tallied_utilization
  have hcpu : g.cpuPower = (g.plan cfg).cpuPower cfg := by
    rw [hv.toCached_eq, Plan.cpuPower, ← tallied_powerNewSumCpu,
      ← tallied_idlePower hv.within.1]
    rfl
  have hmem : g.memPower = (g.plan cfg).memPower cfg := by
    rw [hv.toCached_eq]
    exact tallied_powerNewSumMem
  have hnet : g.powerNetcom = 0 := by
    rw [hv.toCached_eq]
    exact tallied_powerNewSumNetCom
  have hpower : g.power = (g.plan cfg).cpuPower cfg + (g.plan cfg).memPower cfg := by
    rw [← hcpu, ← hmem, ← add_zero (g.cpuPower + g.memPower), ← hnet]
    exact (checkUtilpower_addsUp (hv.fresh {})).power
  have hcost : g.costCpuMemory = (g.plan cfg).costCpuMemory cfg := by
    rw [hv.toCached_eq]
    exact hs.costCpuMemory
  have hnetwork : g.costNetwork = 0 := by
    rw [hv.toCached_eq]
    exact hs.costNetwork
  have hbase : g.costBase = baseCost := by rw [hv.toCached_eq]; rfl
  have hhw : g.costHw = privateDepreciationCost := by rw [hv.toCached_eq]; rfl
  have hrent : g.costRent = 0 := by rw [hv.toCached_eq]; rfl
  have htotal : g.totalCost =
      (g.plan cfg).costCpuMemory cfg + baseCost + privateDepreciationCost := by
    have hadd := (checkUtilpower_addsUp (hv.fresh {})).cost
    rw [hadd, hcost, hnetwork, hbase, hhw, hrent]
    ring
  have hviol : g.periodViolation = 0 := by
    rw [hv.toCached_eq]
    exact tallied_violatePeriod_local
  have hoffload : (List.range cfg.nTasks).countP g.offloads = 0 := by
    rw [List.countP_eq_zero]
    intro i _
    rw [hs.offloads]
    exact Bool.false_ne_true
  rw [Gene.infos, hutil]
  norm_num only
  split
  · rfl
  · simp only [hcpu, hmem, hnet, hpower, hcost, hnetwork, hbase, hhw, hrent, htotal, hviol, hoffload,
      hs.cpufreqs]
    norm_num [Plan.figures, Gene.plan]

/-- The plan of a valid gene is feasible if it is within the limit of the export. -/
theorem Gene.Valid.feasible (hmax : cfg.nMems ≤ maxMems) (hs : g.Shaped cfg)
    (hv : g.Valid .localOnly cfg) (hlimit : (g.plan cfg).utilization cfg ≤ 2) :
    (g.plan cfg).Feasible cfg := by
  have hrows : ∀ row ∈ g.plan cfg, ∃ i < cfg.nTasks, taskInfo g i = row := by
    intro row hrow
    obtain ⟨i, hi, rfl⟩ := List.mem_map.mp hrow
    exact ⟨i, List.mem_range.mp hi, rfl⟩
  refine ⟨by simp [Gene.plan], ?_, ?_, ?_, (checkMemusage_plan hmax).mp hv.memory, ?_,
    tallied_utilKind_plan.mp hv.within.1, ?_, hlimit⟩
  · -- with a task there is a level for it, and without one a level to be idle at
    refine Nat.pos_of_ne_zero fun hf => ?_
    rcases Nat.eq_zero_or_pos cfg.nTasks with h0 | ht
    · have hok := hv.fresh {}
      rw [checkUtilpower_of_empty .localOnly h0 hf] at hok
      cases hok
    · exact absurd (hs.cpufreq.getD_lt ht) (by omega)
  · intro row hrow
    obtain ⟨i, hi, rfl⟩ := hrows row hrow
    exact ⟨hs.mem.getD_lt hi, hs.cpufreq.getD_lt hi, hs.cloud.getD_lt hi⟩
  · intro row hrow
    obtain ⟨i, _, rfl⟩ := hrows row hrow
    exact hs.ratio_attr i
  · intro i hi hbad
    obtain ⟨j, hj, hbad, hfirst⟩ :=
      exists_first (P := fun i => g.Overruns cfg i) ((Gene.overruns_plan hi).mpr hbad)
    have herr := (checkUtilpower_spec .localOnly cfg g).2 j (by omega) hbad hfirst
    have hok := hv.fresh g.toCached
    rw [show { g with toCached := g.toCached } = g from rfl, herr] at hok
    cases hok
  · rw [← tallied_utilization]
    exact hv.within.2

end Genes

/-! ### Soundness -/

/-- A run that ends well writes a feasible plan to `task.txt` and prints the figures of that plan. -/
theorem runGa_feasible {cfg : Config} (hacc : Accepted cfg) {r : Report} {infos : TaskInfos}
    (h : Returns (runGa .localOnly cfg) (r, infos)) :
    Plan.Feasible cfg infos.tasks ∧ infos = Plan.figures cfg infos.tasks := by
  obtain ⟨s, ⟨k, hat, _⟩, _, hsave⟩ := runGa_completed h
  have hinv := hat.gaInv
  obtain ⟨i, hi, _⟩ := saveTaskInfos_ok hsave
  have hinfos : (s.pop.gene i).infos cfg = .ok infos := by
    rw [← hsave, saveTaskInfos, hi]
    rfl
  have hlt := List.mem_range.mpr (head_lt hinv hi)
  have hs := hinv.shaped i hlt
  have hv := hinv.valid i hlt
  rw [hv.infos hs] at hinfos
  split at hinfos
  · cases hinfos
  · rename_i hlimit
    obtain rfl := Except.ok.inj hinfos
    exact ⟨hv.feasible hacc.wellFormed.mems_length hs (not_lt.mp hlimit), rfl⟩

end MutualEdge
