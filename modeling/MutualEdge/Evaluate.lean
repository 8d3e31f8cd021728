import MutualEdge.Cost
import MutualEdge.Gene
import MutualEdge.Lib.Fold
import MutualEdge.Utilpower

/-! Evaluating a gene: `check_memusage` and `check_utilpower`.

    `check_utilpower` accumulates over the tasks and then writes the gene's cached fields in two
    groups, the second only when the gene is accepted. `tally_eq` gives the accumulated sums in closed
    form and `checkUtilpower_ok` what a returning call stores; nothing later unfolds the loop. -/

namespace MutualEdge
open Checks Choice Doubles

/-- `check_utilpower` decides with the index, where `check_memusage` weighs with the ratio it selects. -/
def Gene.offloads (g : Gene) (i : ℕ) : Bool := g.taskattrsOffloadingratio.attr i ≠ 0

/-! ### Memory -/

/-- What task `i` adds to the use of its memory type. `fl` rounds to a double. -/
def memDemand (fl : ℚ → ℚ) (cfg : Config) (g : Gene) (i : ℕ) : ℚ :=
  fl (getTaskMemreq cfg i * fl (1.0 - fl (cfg.offloadingratio (g.taskattrsOffloadingratio.attr i))))

/-- `mem_used` after the loop over the tasks. -/
def memUsed (fl : ℚ → ℚ) (cfg : Config) (g : Gene) : List ℚ :=
  (List.range cfg.nTasks).foldl
    (fun used i => used.modify (g.taskattrsMem.attr i) fun u => fl (u + memDemand fl cfg g i))
    (List.replicate maxMems 0)

def checkMemusage (cfg : Config) (g : Gene) : Bool :=
  (List.range cfg.nMems).all fun i =>
    !decide ((cfg.mem i).maxCapacity < (memUsed Binary64.nearest cfg g).getD i 0)

/-! ### Utilisation, power and cost -/

/-- The local variables `check_utilpower` accumulates into. -/
structure Tally where
  utilNew : ℚ := 0
  utilKind : Kind := .number
  powerNewSumCpu : ℚ := 0
  powerNewSumMem : ℚ := 0
  powerNewSumNetCom : ℚ := 0
  violatePeriod : ℕ := 0
  remoteDelay : ℚ := 0
  totalCost : ℚ := 0
  costKind : Kind := .number
  usedMemory : ℚ := 0
  costCpuMemory : ℚ := 0
  costNetwork : ℚ := 0

/-- The loop body of `check_utilpower` for task `i`, given the values of `get_task_utilpower`. -/
def Tally.addTask (cfg : Config) (g : Gene) (t : Tally) (i : ℕ) (e : TaskEval) : Tally :=
  let t := { t with
    utilNew := t.utilNew + e.util
    utilKind := t.utilKind + e.utilKind
    powerNewSumCpu := t.powerNewSumCpu + e.powerCpu
    powerNewSumMem := t.powerNewSumMem + e.powerMem
    powerNewSumNetCom := t.powerNewSumNetCom + e.powerNetCom }
  let t :=
    if e.Late then
      { t with
        violatePeriod := t.violatePeriod + 1
        remoteDelay := if g.offloads i then t.remoteDelay + (e.deadline - 1.0) else t.remoteDelay }
    else t
  if g.offloads i then
    let c := computeOffloadingCostPerSec (cfg.task i) (cfg.cloud (g.taskattrsCloud.attr i)) 30.0 120.0
    { t with
      totalCost := t.totalCost + c
      costKind := t.costKind + offloadingCostKind (cfg.task i) 30.0 120.0
      costNetwork := t.costNetwork + c }
  else
    let d := computeLocalCostPerSec (cfg.task i) (g.taskattrsCpufreq.attr i)
    { t with
      usedMemory := t.usedMemory + (cfg.task i).memreq / 1000.0
      totalCost := t.totalCost + d
      costKind := t.costKind + localCostKind (cfg.task i)
      costCpuMemory := t.costCpuMemory + d }

/-- The deadline ratio matters only where it is missed. -/
theorem Tally.addTask_of_not_late {cfg : Config} {g : Gene} {t : Tally} {i : ℕ} {e e' : TaskEval}
    (h : ∃ d k, e' = { e with deadline := d, deadlineKind := k }) (he : ¬ e.Late) (he' : ¬ e'.Late) :
    t.addTask cfg g i e' = t.addTask cfg g i e := by
  obtain ⟨d, k, rfl⟩ := h
  simp only [Tally.addTask, if_neg he, if_neg he']

/-- The loop over the tasks; `get_task_utilpower` may end the process in it. -/
def tally (mode : Mode) (cfg : Config) (g : Gene) : Except Halt Tally :=
  (List.range cfg.nTasks).foldlM (fun t i => do
    let e ← getTaskUtilpower mode cfg i (g.taskattrsMem.attr i) (g.taskattrsCloud.attr i)
      (g.taskattrsCpufreq.attr i) (g.taskattrsOffloadingratio.attr i)
    return t.addTask cfg g i e) {}

/-- Static power of the memory no local task uses (USD). -/
def costStaticUnused (usedMemory : ℚ) : ℚ :=
  let unusedMemory := totalMemory - usedMemory
  if 0.0 < unusedMemory then energyCost (unusedMemory * kStat * allPeriod) else 0

def baseCost : ℚ := energyCost (pBaseline * allPeriod)

def privateDepreciationCost : ℚ := hwCost / depPeriodSec * allPeriod

/-- `total_cost` after the whole-system terms. -/
def Tally.fullCost (t : Tally) : ℚ :=
  t.totalCost + costStaticUnused t.usedMemory + baseCost + privateDepreciationCost

/-- `util_new < 1.0 && violate_period == 0` -/
def Tally.Idle (t : Tally) : Prop :=
  t.utilKind = .number ∧ t.utilNew < 1.0 ∧ t.violatePeriod = 0

/-- `util_new <= cutoff` -/
def Tally.Within (cfg : Config) (t : Tally) : Prop :=
  t.utilKind = .number ∧ t.utilNew ≤ cfg.cutoff

/-- `util_new >= 1.0 || violate_period > 0`, where the utilisation is within the cutoff -/
def Tally.Penalised (t : Tally) : Prop := 1.0 ≤ t.utilNew ∨ 0 < t.violatePeriod

instance (t : Tally) : Decidable t.Idle := inferInstanceAs (Decidable (_ ∧ _))
instance (cfg : Config) (t : Tally) : Decidable (t.Within cfg) := inferInstanceAs (Decidable (_ ∧ _))
instance (t : Tally) : Decidable t.Penalised := inferInstanceAs (Decidable (_ ∨ _))

/-- `power_new_idle`, with a frequency table that is not empty -/
def Tally.idlePower (cfg : Config) (t : Tally) : ℚ :=
  if t.Idle then (cfg.cpufreq (cfg.nCpufreqs - 1)).powerIdle * (1 - t.utilNew) else 0

/-- What the penalty makes of an infinite cost: `inf + inf * (util_new - 1.0) * penalty`. -/
def Tally.scoreKind (cfg : Config) (t : Tally) : Kind :=
  match t.costKind with
  | .infinite =>
    if t.Penalised ∧ (t.utilNew - 1.0) * cfg.penalty ≤ 0 then .nan else .infinite
  | k => k

theorem Tally.scoreKind_eq_number {cfg : Config} {t : Tally} :
    t.scoreKind cfg = .number ↔ t.costKind = .number := by
  unfold Tally.scoreKind
  split
  · rename_i hinf
    rw [hinf]
    split <;> decide
  · rfl

/-- The fields written whatever the outcome. -/
def firstWrites (cfg : Config) (t : Tally) (c : Cached) : Cached :=
  let localOverutil := if t.utilKind = .number ∧ 1.0 < t.utilNew then t.utilNew - 1.0 else 0.0
  let constraintPenalty := localOverutil + mu * t.remoteDelay
  let eps := 1.0
  { c with
    costCpuMemory := t.costCpuMemory + costStaticUnused t.usedMemory
    costNetwork := t.costNetwork
    costBase := baseCost
    costHw := privateDepreciationCost
    costRent := 0
    cpuPower := t.powerNewSumCpu + t.idlePower cfg
    memPower := t.powerNewSumMem
    powerNetcom := t.powerNewSumNetCom
    periodViolation := t.violatePeriod
    constraintPenalty := constraintPenalty
    fitness := 1.0 / (t.fullCost + eps * constraintPenalty)
    util := t.utilNew
    utilKind := t.utilKind }

/-- The fields written only when the utilisation is within the cutoff. -/
def secondWrites (cfg : Config) (t : Tally) (c : Cached) : Cached :=
  { c with
    power := t.powerNewSumCpu + t.powerNewSumMem + t.powerNewSumNetCom + t.idlePower cfg
    totalCost := t.fullCost
    costKind := t.costKind
    score :=
      if t.costKind = .number then
        if t.Penalised then t.fullCost + t.fullCost * (t.utilNew - 1.0) * cfg.penalty
        else t.fullCost
      else 0
    scoreKind := t.scoreKind cfg }

/-- The idle power is read at `cpufreqs[n_cpufreqs - 1]`, far outside an empty table. -/
def checkUtilpower (mode : Mode) (cfg : Config) (g : Gene) : Except Halt (Bool × Gene) := do
  let t ← tally mode cfg g
  if t.Idle ∧ cfg.nCpufreqs = 0 then .error .memoryFault
  else
    let c := firstWrites cfg t g.toCached
    if t.Within cfg then return (true, { g with toCached := secondWrites cfg t c })
    else return (false, { g with toCached := c })

/-! ### The loop in closed form -/

/-- The values `get_task_utilpower` computes for task `i` of a gene. -/
def geneEval (mode : Mode) (cfg : Config) (g : Gene) (i : ℕ) : TaskEval :=
  taskEval mode cfg i (g.taskattrsMem.attr i) (g.taskattrsCloud.attr i) (g.taskattrsCpufreq.attr i)

/-- What the loop leaves behind when no task overruns its period. -/
def tallied (mode : Mode) (cfg : Config) (g : Gene) : Tally :=
  (List.range cfg.nTasks).foldl (fun t i => t.addTask cfg g i (geneEval mode cfg g i)) {}

/-- A loop that ends has accumulated the values of every task. -/
theorem tally_eq {mode : Mode} {cfg : Config} {g : Gene} {t : Tally}
    (h : tally mode cfg g = .ok t) : t = tallied mode cfg g := by
  refine foldlM_eq_foldl ?_ h
  intro s i s' hs
  obtain ⟨e, he, hs⟩ := bind_ok.mp hs
  rw [← pure_ok.mp hs, getTaskUtilpower_ok he, geneEval]

/-- What a returning evaluation stores and answers. -/
theorem checkUtilpower_ok {mode : Mode} {cfg : Config} {g g' : Gene} {b : Bool}
    (h : checkUtilpower mode cfg g = .ok (b, g')) :
    let t := tallied mode cfg g
    b = decide (t.Within cfg) ∧
      g' = { g with toCached :=
        if b then secondWrites cfg t (firstWrites cfg t g.toCached)
        else firstWrites cfg t g.toCached } := by
  obtain ⟨t, ht, h⟩ := bind_ok.mp h
  obtain rfl := tally_eq ht
  obtain ⟨-, h⟩ := ite_error_ok.mp h
  by_cases hcut : (tallied mode cfg g).Within cfg
  · dsimp only at h
    rw [if_pos hcut] at h
    obtain ⟨rfl, rfl⟩ := Prod.mk.inj (pure_ok.mp h)
    exact ⟨(decide_eq_true hcut).symm, rfl⟩
  · dsimp only at h
    rw [if_neg hcut] at h
    obtain ⟨rfl, rfl⟩ := Prod.mk.inj (pure_ok.mp h)
    exact ⟨(decide_eq_false hcut).symm, rfl⟩

/-- An evaluation accepts when no task overruns its period, the utilisation is within the cutoff, and
    there is a level to be idle at. -/
theorem checkUtilpower_accepts {mode : Mode} {cfg : Config} {g g' : Gene} :
    checkUtilpower mode cfg g = .ok (true, g') ↔ ∃ t, tally mode cfg g = .ok t ∧
      ¬ (t.Idle ∧ cfg.nCpufreqs = 0) ∧ t.Within cfg ∧
      g' = { g with toCached := secondWrites cfg t (firstWrites cfg t g.toCached) } := by
  constructor
  · intro h
    obtain ⟨t, ht, h⟩ := bind_ok.mp h
    obtain ⟨htable, h⟩ := ite_error_ok.mp h
    dsimp only at h
    by_cases hcut : t.Within cfg
    · rw [if_pos hcut] at h
      exact ⟨t, ht, htable, hcut, (Prod.mk.inj (pure_ok.mp h)).2.symm⟩
    · rw [if_neg hcut] at h
      simp [pure_ok] at h
  · rintro ⟨t, ht, htable, hcut, rfl⟩
    refine bind_ok.mpr ⟨t, ht, ite_error_ok.mpr ⟨htable, ?_⟩⟩
    dsimp only
    rw [if_pos hcut]
    rfl

/-- An evaluation that returns, with a utilisation within the cutoff, accepts the gene. -/
theorem exists_accepted {mode : Mode} {cfg : Config} {g : Gene}
    (h : (checkUtilpower mode cfg g).isOk = true)
    (hcut : (tallied mode cfg g).Within cfg) :
    ∃ g', checkUtilpower mode cfg g = .ok (true, g') := by
  obtain ⟨⟨b, g'⟩, hg⟩ := exists_ok_of_isOk h
  have hb : b = true := by rw [(checkUtilpower_ok hg).1, decide_eq_true hcut]
  exact ⟨g', hb ▸ hg⟩

/-! Every accumulator is the sum of what the tasks contribute to it. -/

section Sums
variable (mode : Mode) (cfg : Config) (g : Gene)

/-- An accumulator that starts at zero and grows by `c i` with task `i` ends up with their sum. -/
theorem tallied_sum {M : Type} [AddCommMonoid M] {φ : Tally → M} {c : ℕ → M} (h0 : φ {} = 0)
    (h : ∀ t i, φ (t.addTask cfg g i (geneEval mode cfg g i)) = φ t + c i) :
    φ (tallied mode cfg g) = ∑ i ∈ Finset.range cfg.nTasks, c i := by
  rw [tallied, foldl_range_sum h, h0, zero_add]

theorem tallied_utilNew : (tallied mode cfg g).utilNew =
    ∑ i ∈ Finset.range cfg.nTasks, (geneEval mode cfg g i).util := by
  refine tallied_sum mode cfg g (φ := Tally.utilNew) rfl fun t i => ?_
  rw [Tally.addTask]
  split <;> split <;> rfl

theorem tallied_utilKind : (tallied mode cfg g).utilKind =
    ∑ i ∈ Finset.range cfg.nTasks, (geneEval mode cfg g i).utilKind := by
  refine tallied_sum mode cfg g (φ := Tally.utilKind) rfl fun t i => ?_
  rw [Tally.addTask]
  split <;> split <;> rfl

theorem tallied_violatePeriod : (tallied mode cfg g).violatePeriod =
    ∑ i ∈ Finset.range cfg.nTasks, if (geneEval mode cfg g i).Late then 1 else 0 := by
  refine tallied_sum mode cfg g (φ := Tally.violatePeriod) rfl fun t i => ?_
  rw [Tally.addTask]
  split <;> split <;> rfl

/-- The cost of task `i`, offloaded or local. -/
def taskCost (cfg : Config) (g : Gene) (i : ℕ) : ℚ :=
  if g.offloads i then
    computeOffloadingCostPerSec (cfg.task i) (cfg.cloud (g.taskattrsCloud.attr i)) 30.0 120.0
  else computeLocalCostPerSec (cfg.task i) (g.taskattrsCpufreq.attr i)

theorem tallied_totalCost : (tallied mode cfg g).totalCost =
    ∑ i ∈ Finset.range cfg.nTasks, taskCost cfg g i := by
  refine tallied_sum mode cfg g (φ := Tally.totalCost) rfl fun t i => ?_
  rw [Tally.addTask, taskCost]
  split <;> split <;> rfl

/-- What the cost of task `i` is. -/
def taskCostKind (cfg : Config) (g : Gene) (i : ℕ) : Kind :=
  if g.offloads i then offloadingCostKind (cfg.task i) 30.0 120.0 else localCostKind (cfg.task i)

theorem tallied_costKind : (tallied mode cfg g).costKind =
    ∑ i ∈ Finset.range cfg.nTasks, taskCostKind cfg g i := by
  refine tallied_sum mode cfg g (φ := Tally.costKind) rfl fun t i => ?_
  rw [Tally.addTask, taskCostKind]
  split <;> split <;> rfl

theorem tallied_scoreKind : (tallied mode cfg g).scoreKind cfg = .number ↔
    ∀ i < cfg.nTasks, taskCostKind cfg g i = .number := by
  rw [Tally.scoreKind_eq_number, tallied_costKind, Kind.sum_eq_number]

theorem tallied_scoreKind_nan {i : ℕ} (hi : i < cfg.nTasks) (h : taskCostKind cfg g i = .nan) :
    (tallied mode cfg g).scoreKind cfg = .nan := by
  have hcost : (tallied mode cfg g).costKind = .nan := by
    rw [tallied_costKind, Kind.sum_eq_nan]
    exact ⟨i, hi, h⟩
  rw [Tally.scoreKind, hcost]

theorem tallied_usedMemory : (tallied mode cfg g).usedMemory =
    ∑ i ∈ Finset.range cfg.nTasks,
      if g.offloads i then 0 else ((cfg.task i).memreq / 1000.0 : ℚ) := by
  refine tallied_sum mode cfg g (φ := Tally.usedMemory) rfl fun t i => ?_
  rw [Tally.addTask]
  split <;> split <;> simp

theorem tallied_costCpuMemory : (tallied mode cfg g).costCpuMemory =
    ∑ i ∈ Finset.range cfg.nTasks, if g.offloads i then 0
      else computeLocalCostPerSec (cfg.task i) (g.taskattrsCpufreq.attr i) := by
  refine tallied_sum mode cfg g (φ := Tally.costCpuMemory) rfl fun t i => ?_
  rw [Tally.addTask]
  split <;> split <;> simp

end Sums

end MutualEdge
