import Mathlib.Algebra.BigOperators.Ring.Finset
import Mathlib.Data.Nat.Cast.Field
import Mathlib.Tactic.Linarith
import Mathlib.Tactic.Positivity
import Mathlib.Tactic.Ring
import MutualEdge.Generations

/-! The cost model that the comments of `GA.c` state, against the costs it charges.

    The model works in seconds and megabytes. The code divides `unsigned` by `1000` where it converts
    the operands of `compute_local_cost_per_sec`, so a gene is charged what the model says exactly when
    the tasks come in whole seconds and megabytes. Its frequency tables are in the order of increasing
    speed while the configured levels are in the order of decreasing speed. -/

namespace MutualEdge
open Choice

def toSeconds (ms : ℕ) : ℚ := ms / 1000
def toMegabytes (kb : ℕ) : ℚ := kb / 1000

/-- The CPU power of a task: `C * V^2 * F * S * (wcet / period)`. -/
def modelCpuPower (task : Task) (cpufreqIdx : ℕ) : ℚ :=
  C * V.getD cpufreqIdx 0 ^ 2 * F.getD cpufreqIdx 0 * S.getD cpufreqIdx 0 *
    (toSeconds task.wcet / toSeconds task.period)

/-- The memory power of a task: the memory it uses at `gamma * K_DYN + K_STAT`. -/
def modelMemPower (task : Task) : ℚ :=
  toMegabytes task.memreq * (task.memActiveRatio * kDyn + kStat)

/-- The memory of the local tasks, in MB. -/
def localMegabytes (cfg : Config) (g : Gene) : ℚ :=
  ∑ i ∈ Finset.range cfg.nTasks, if g.offloads i then 0 else toMegabytes (cfg.task i).memreq

/-- The local cost of a gene: its local tasks, and the static power of the memory they leave unused. -/
def modelLocalCost (cfg : Config) (g : Gene) : ℚ :=
  energyCost (((∑ i ∈ Finset.range cfg.nTasks, if g.offloads i then 0
      else modelCpuPower (cfg.task i) (g.taskattrsCpufreq.attr i) + modelMemPower (cfg.task i)) +
    kStat * max 0 (totalMemory - localMegabytes cfg g)) * allPeriod)

/-- What the stated model asks of an evaluation of `g` that stores `g'`. -/
structure CostLaw (cfg : Config) (g g' : Gene) : Prop where
  total : g'.costCpuMemory = modelLocalCost cfg g
  wcet_exact : ∀ i < cfg.nTasks, g.offloads i = false →
    (((cfg.task i).wcet / 1000 : ℕ) : ℚ) = toSeconds (cfg.task i).wcet
  period_exact : ∀ i < cfg.nTasks, g.offloads i = false →
    (((cfg.task i).period / 1000 : ℕ) : ℚ) = toSeconds (cfg.task i).period
  memory_exact : ∀ i < cfg.nTasks, g.offloads i = false →
    sizeMb (cfg.task i) = (cfg.task i).memreq / 1000.0
  cpu_pos : ∀ i < cfg.nTasks, g.offloads i = false → 0 < (cfg.task i).wcet →
    0 < eCpu (cfg.task i) (g.taskattrsCpufreq.attr i)
  cpu_mono : ∀ i < cfg.nTasks, ∀ j < cfg.nTasks, g.offloads i = false → g.offloads j = false →
    g.taskattrsCpufreq.attr i = g.taskattrsCpufreq.attr j →
    (cfg.task i).period = (cfg.task j).period → (cfg.task i).wcet < (cfg.task j).wcet →
    eCpu (cfg.task i) (g.taskattrsCpufreq.attr i) < eCpu (cfg.task j) (g.taskattrsCpufreq.attr j)

/-- A task in whole seconds and megabytes. -/
structure Task.Whole (task : Task) : Prop where
  wcet : 1000 ∣ task.wcet
  period : 1000 ∣ task.period
  memreq : 1000 ∣ task.memreq

instance (task : Task) : Decidable task.Whole :=
  decidable_of_iff (1000 ∣ task.wcet ∧ 1000 ∣ task.period ∧ 1000 ∣ task.memreq)
    ⟨fun h => ⟨h.1, h.2.1, h.2.2⟩, fun h => ⟨h.wcet, h.period, h.memreq⟩⟩

/-- An integer quotient by `1000` is exact on the multiples of `1000` only. -/
theorem cast_div_thousand {n : ℕ} : ((n / 1000 : ℕ) : ℚ) = n / 1000 ↔ 1000 ∣ n := by
  constructor
  · intro h
    rw [eq_div_iff (by norm_num)] at h
    exact ⟨n / 1000, by rw [Nat.mul_comm]; exact_mod_cast h.symm⟩
  · intro h
    exact Nat.cast_div h (by norm_num)

namespace Task.Whole

variable {task : Task} (h : task.Whole)
include h

theorem wcet_eq : ((task.wcet / 1000 : ℕ) : ℚ) = toSeconds task.wcet :=
  cast_div_thousand.mpr h.wcet

theorem period_eq : ((task.period / 1000 : ℕ) : ℚ) = toSeconds task.period :=
  cast_div_thousand.mpr h.period

theorem sizeMb_eq : sizeMb task = toMegabytes task.memreq := cast_div_thousand.mpr h.memreq

theorem eCpu_eq (idx : ℕ) : eCpu task idx = modelCpuPower task idx := by
  unfold eCpu modelCpuPower
  rw [h.wcet_eq, h.period_eq]
  ring

theorem eMem_eq : eMem task = modelMemPower task := by rw [eMem, modelMemPower, h.sizeMb_eq]

end Task.Whole

/-! ### The frequency tables -/

theorem tables_pos : ∀ i < 5, 0 < V.getD i 0 ∧ 0 < F.getD i 0 ∧ 0 < S.getD i 0 := by decide +kernel

/-- Voltage and frequency grow with the index. -/
theorem tables_lt : ∀ j < 5, ∀ i < j, V.getD i 0 < V.getD j 0 ∧ F.getD i 0 < F.getD j 0 := by
  decide +kernel

/-- The CPU power of the model is a positive multiple of the utilisation. -/
theorem modelCpuPower_lt {t t' : Task} {idx : ℕ} (hidx : idx < 5) (hp : 0 < t.period)
    (hpp : t.period = t'.period) (hw : t.wcet < t'.wcet) :
    modelCpuPower t idx < modelCpuPower t' idx := by
  obtain ⟨hv, hf, hs⟩ := tables_pos idx hidx
  have hC : 0 < C := by norm_num [C]
  have hp' : (0 : ℚ) < t'.period := by rw [← hpp]; exact_mod_cast hp
  have hw' : (t.wcet : ℚ) < t'.wcet := by exact_mod_cast hw
  unfold modelCpuPower toSeconds
  rw [hpp]
  have hcoef : 0 < C * V.getD idx 0 ^ 2 * F.getD idx 0 * S.getD idx 0 := by positivity
  refine mul_lt_mul_of_pos_left ?_ hcoef
  gcongr

theorem modelCpuPower_pos {t : Task} {idx : ℕ} (hidx : idx < 5) (hp : 0 < t.period)
    (hw : 0 < t.wcet) : 0 < modelCpuPower t idx := by
  have hzero : modelCpuPower { t with wcet := 0 } idx = 0 := by simp [modelCpuPower, toSeconds]
  rw [← hzero]
  exact modelCpuPower_lt (t := { t with wcet := 0 }) hidx hp rfl hw

/-! ### What a gene is charged -/

theorem energyCost_add (x y : ℚ) : energyCost x + energyCost y = energyCost (x + y) := by
  simp only [energyCost, add_div, add_mul]

theorem energyCost_sum (n : ℕ) (f : ℕ → ℚ) :
    ∑ i ∈ Finset.range n, energyCost (f i) = energyCost (∑ i ∈ Finset.range n, f i) := by
  simp only [energyCost, div_eq_mul_inv, Finset.sum_mul]

theorem costStaticUnused_eq (usedMemory : ℚ) :
    costStaticUnused usedMemory = energyCost (kStat * max 0 (totalMemory - usedMemory) * allPeriod) := by
  unfold costStaticUnused
  dsimp only
  split
  · rename_i h
    rw [max_eq_right (by norm_num at h; exact sub_nonneg.mpr h.le), mul_comm kStat]
  · rename_i h
    rw [max_eq_left (by norm_num at h; linarith), mul_zero, zero_mul]
    norm_num [energyCost]

/-- `used_memory` after the loop. -/
theorem usedMemory_eq (mode : Mode) (cfg : Config) (g : Gene) :
    (tallied mode cfg g).usedMemory = localMegabytes cfg g := by
  rw [tallied_usedMemory, localMegabytes]
  refine Finset.sum_congr rfl fun i _ => ?_
  norm_num [toMegabytes]

/-- The field `cost_cpu_memory` after an evaluation that returned. -/
theorem costCpuMemory_ok {mode : Mode} {cfg : Config} {g g' : Gene} {b : Bool}
    (h : checkUtilpower mode cfg g = .ok (b, g')) :
    g'.costCpuMemory = (∑ i ∈ Finset.range cfg.nTasks, if g.offloads i then 0
      else computeLocalCostPerSec (cfg.task i) (g.taskattrsCpufreq.attr i)) +
      costStaticUnused (localMegabytes cfg g) := by
  obtain ⟨_, rfl⟩ := checkUtilpower_ok h
  have hfield : ∀ t : Tally, (if b then secondWrites cfg t (firstWrites cfg t g.toCached)
      else firstWrites cfg t g.toCached).costCpuMemory =
      t.costCpuMemory + costStaticUnused t.usedMemory := by
    intro t
    cases b <;> rfl
  rw [hfield, tallied_costCpuMemory, usedMemory_eq]

/-- On whole tasks the charged cost is the model's. -/
theorem costCpuMemory_eq_model {mode : Mode} {cfg : Config} {g g' : Gene} {b : Bool}
    (hw : ∀ i < cfg.nTasks, (cfg.task i).Whole) (h : checkUtilpower mode cfg g = .ok (b, g')) :
    g'.costCpuMemory = modelLocalCost cfg g := by
  have hterm : ∀ i ∈ Finset.range cfg.nTasks, (if g.offloads i then 0
      else computeLocalCostPerSec (cfg.task i) (g.taskattrsCpufreq.attr i)) =
      energyCost ((if g.offloads i then 0
        else modelCpuPower (cfg.task i) (g.taskattrsCpufreq.attr i) + modelMemPower (cfg.task i)) *
        allPeriod) := by
    intro i hi
    have hwhole := hw i (Finset.mem_range.mp hi)
    split
    · norm_num [energyCost]
    · rw [computeLocalCostPerSec, hwhole.eCpu_eq, hwhole.eMem_eq]
  rw [costCpuMemory_ok h, Finset.sum_congr rfl hterm, energyCost_sum, ← Finset.sum_mul,
    costStaticUnused_eq, energyCost_add, ← add_mul, modelLocalCost]

/-- In every evaluation of a run the gene is charged what the stated model says if and only if every
    task comes in whole seconds and megabytes. -/
theorem costLaw_iff {mode : Mode} {cfg : Config} {g g' : Gene} {b : Bool} (hcfg : Accepted cfg)
    (hg : InRun mode cfg g) (h : checkUtilpower mode cfg g = .ok (b, g')) :
    CostLaw cfg g g' ↔ ∀ i < cfg.nTasks, (cfg.task i).Whole := by
  have hlocal := hg.shaped.offloads
  have hwf := hcfg.wellFormed
  have hidx : ∀ i < cfg.nTasks, g.taskattrsCpufreq.attr i < 5 := fun i hi =>
    (hg.shaped.cpufreq.getD_lt hi).trans_le hwf.cpufreqs_length
  have hperiod : ∀ i < cfg.nTasks, (cfg.task i).wcet < (cfg.task i).period :=
    fun i hi => hwf.wcet_lt hi
  constructor
  · intro hlaw i hi
    refine ⟨cast_div_thousand.mp (hlaw.wcet_exact i hi (hlocal i)),
      cast_div_thousand.mp (hlaw.period_exact i hi (hlocal i)), cast_div_thousand.mp ?_⟩
    have hmem := hlaw.memory_exact i hi (hlocal i)
    rw [sizeMb] at hmem
    rw [hmem]
    norm_num
  · intro hw
    refine ⟨costCpuMemory_eq_model hw h, fun i hi _ => (hw i hi).wcet_eq,
      fun i hi _ => (hw i hi).period_eq, ?_, ?_, ?_⟩
    · intro i hi _
      rw [(hw i hi).sizeMb_eq, toMegabytes]
      norm_num
    · intro i hi _ hpos
      rw [(hw i hi).eCpu_eq]
      exact modelCpuPower_pos (hidx i hi) (by have := hperiod i hi; omega) hpos
    · intro i hi j hj _ _ hlevel hpp hlt
      rw [(hw i hi).eCpu_eq, (hw j hj).eCpu_eq, ← hlevel]
      exact modelCpuPower_lt (hidx i hi) (by have := hperiod i hi; omega) hpp hlt

theorem costLaw_smallConf : ∃ g', CostLaw smallConf zeroGene g' := by
  obtain ⟨g', h⟩ : ∃ g', checkUtilpower .localOnly smallConf zeroGene = .ok (true, g') :=
    exists_accepted (by decide +kernel) (by decide +kernel)
  exact ⟨g', (costLaw_iff smallConf_accepted (.first (by decide) zeroGene_returns) h).mpr
    (by decide)⟩

/-- The first task takes a second and a half and uses one and a half megabytes. -/
def fractionConf : Config :=
  smallConfOf [⟨1, 1500, 4000, 1500, 1 / 2, 500, 100, 100, 0⟩,
    ⟨2, 2000, 8000, 2000, 1 / 4, 500, 100, 100, 0⟩] [0]

theorem fractionConf_accepted : Accepted fractionConf :=
  ⟨smallFile
    [⟨"1500 4000 1500 0.5 500 100 100 0", some ⟨0, 1500, 4000, 1500, 1 / 2, 500, 100, 100, 0⟩⟩,
      ⟨"2000 8000 2000 0.25 500 100 100 0", some ⟨0, 2000, 8000, 2000, 1 / 4, 500, 100, 100, 0⟩⟩]
    [⟨"0", some 0⟩], by decide +kernel⟩

/-- A gene of a run on this configuration is charged less than the stated cost. -/
theorem costLaw_fails : Accepted fractionConf ∧ ∃ g g' : Gene, InRun .localOnly fractionConf g ∧
    checkMemusage fractionConf g = true ∧
    checkUtilpower .localOnly fractionConf g = .ok (true, g') ∧ ¬ CostLaw fractionConf g g' := by
  obtain ⟨g', h⟩ : ∃ g', checkUtilpower .localOnly fractionConf zeroGene = .ok (true, g') :=
    exists_accepted (by decide +kernel) (by decide +kernel)
  refine ⟨fractionConf_accepted, zeroGene, g',
    .first (by decide) ⟨List.replicate 6 0, [], by decide +kernel⟩, by decide +kernel, h, ?_⟩
  intro hlaw
  have htotal := hlaw.total
  rw [costCpuMemory_ok h] at htotal
  exact absurd htotal (by decide +kernel)

/-! ### Frequency levels -/

/-- The scheduling model and the cost model agree on two levels: where a task runs longer at `j` than
    at `i`, it is charged no shorter a time, at no higher voltage and frequency, and no more energy. -/
structure LevelsAgree (cfg : Config) (task : Task) (i j : ℕ) : Prop where
  time : (cfg.cpufreq j).wcetScale < (cfg.cpufreq i).wcetScale →
    chargedTime task i ≤ chargedTime task j
  voltage : (cfg.cpufreq j).wcetScale < (cfg.cpufreq i).wcetScale → V.getD j 0 ≤ V.getD i 0
  frequency : (cfg.cpufreq j).wcetScale < (cfg.cpufreq i).wcetScale → F.getD j 0 ≤ F.getD i 0
  energy : (cfg.cpufreq j).wcetScale < (cfg.cpufreq i).wcetScale → eCpu task j ≤ eCpu task i

/-- A smaller `wcet_scale` means a longer execution time. -/
theorem wcetScaled_lt {cfg : Config} {noTask memType i j : ℕ} (hw : 0 < (cfg.task noTask).wcet)
    (hm : 0 < (cfg.mem memType).wcetScale) (hj : 0 < (cfg.cpufreq j).wcetScale)
    (hij : (cfg.cpufreq j).wcetScale < (cfg.cpufreq i).wcetScale) :
    wcetScaled cfg noTask memType i < wcetScaled cfg noTask memType j := by
  have hw' : (0 : ℚ) < (cfg.task noTask).wcet := by exact_mod_cast hw
  have hcpu := one_div_lt_one_div_of_lt hj hij
  have hmem := one_div_pos.mpr hm
  exact mul_lt_mul_of_pos_right (mul_lt_mul_of_pos_left hcpu hw') hmem

/-- The two models agree on a pair of levels only when the configured table does not tell them apart:
    the tables `V` and `F` grow with the index. -/
theorem levelsAgree_iff {cfg : Config} (hcfg : Accepted cfg) (task : Task) {i j : ℕ} (hij : i < j)
    (hj : j < cfg.nCpufreqs) :
    LevelsAgree cfg task i j ↔ (cfg.cpufreq j).wcetScale = (cfg.cpufreq i).wcetScale := by
  have hwf := hcfg.wellFormed
  have hle : (cfg.cpufreq j).wcetScale ≤ (cfg.cpufreq i).wcetScale := by
    unfold Config.cpufreq
    rw [List.getD_eq_getElem _ _ hj, List.getD_eq_getElem _ _ (hij.trans hj)]
    exact List.pairwise_iff_getElem.mp hwf.cpufreqs_decreasing i j (hij.trans hj) hj hij
  obtain ⟨hv, _⟩ := tables_lt j (lt_of_lt_of_le hj hwf.cpufreqs_length) i hij
  constructor
  · intro h
    by_contra hne
    exact absurd (h.voltage (lt_of_le_of_ne hle hne)) (not_le.mpr hv)
  · intro heq
    have hnot : ¬ (cfg.cpufreq j).wcetScale < (cfg.cpufreq i).wcetScale := heq.not_lt
    exact ⟨fun h => absurd h hnot, fun h => absurd h hnot, fun h => absurd h hnot,
      fun h => absurd h hnot⟩

theorem levelsAgree_smallConf : LevelsAgree smallConf (smallConf.task 0) 0 1 ↔
    (smallConf.cpufreq 1).wcetScale = (smallConf.cpufreq 0).wcetScale :=
  levelsAgree_iff smallConf_accepted _ (by decide) (by decide)

/-- At half the speed the first task runs longer and is charged a higher voltage and frequency, a
    shorter time and more energy. -/
theorem levels_disagree : Accepted smallConf ∧
    ¬ LevelsAgree smallConf (smallConf.task 0) 0 1 ∧
    wcetScaled smallConf 0 0 0 < wcetScaled smallConf 0 0 1 ∧
    chargedTime (smallConf.task 0) 1 < chargedTime (smallConf.task 0) 0 ∧
    eCpu (smallConf.task 0) 0 < eCpu (smallConf.task 0) 1 := by
  have hslow : (smallConf.cpufreq 1).wcetScale < (smallConf.cpufreq 0).wcetScale := by
    decide +kernel
  have hlonger : wcetScaled smallConf 0 0 0 < wcetScaled smallConf 0 0 1 :=
    wcetScaled_lt (by decide) (by decide +kernel) (by decide +kernel) hslow
  refine ⟨smallConf_accepted, ?_, hlonger, by decide +kernel, by decide +kernel⟩
  intro h
  exact absurd (h.voltage hslow) (by decide +kernel)

end MutualEdge
