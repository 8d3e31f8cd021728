import MutualEdge.Overruns

/-! The divisors of the evaluation functions, over every evaluation of a run.

    The tables they come from are checked apart from each other, or not at all: a scale is checked
    against `< 0`, a period against the execution time, a network row not even for being there. An
    evaluation goes through the tasks in order and ends at the first one that overruns its period, after
    the scales and before anything else is divided by. -/

namespace MutualEdge
open Choice

/-- What `get_task_utilpower` divides by before it checks the period. -/
def scaleDenominators (cfg : Config) (memType cloudType cpufreqType : ℕ) : List ℚ :=
  [(cfg.cpufreq cpufreqType).wcetScale, (cfg.mem memType).wcetScale,
    (cfg.cloud cloudType).computationPower]

/-- What it divides by afterwards. -/
def utilpowerDenominators (cfg : Config) (noTask memType cpufreqType : ℕ) : List ℚ :=
  let wcetScaledCpu := 1 / (cfg.cpufreq cpufreqType).wcetScale
  let wcetScaledMem := 1 / (cfg.mem memType).wcetScale
  [(cfg.network noTask).uplink, (cfg.network noTask).downlink, (cfg.task noTask).period,
    wcetScaledCpu + wcetScaledMem]

/-- What `compute_local_cost_per_sec` divides by, constants apart. -/
def localCostDenominators (task : Task) : List ℚ := [((task.period / 1000 : ℕ) : ℚ)]

/-- What `compute_offloading_cost_per_sec` divides by, constants apart. -/
def offloadingCostDenominators (task : Task) (uplink downlink : ℚ) : List ℚ :=
  [uplink * 1e6, downlink * 1e6, ((task.period / 1000 : ℕ) : ℚ)]

namespace Gene

/-- The divisors of task `i` of a gene up to the check of its period. -/
def denominatorsBefore (cfg : Config) (g : Gene) (i : ℕ) : List ℚ :=
  scaleDenominators cfg (g.taskattrsMem.attr i) (g.taskattrsCloud.attr i) (g.taskattrsCpufreq.attr i)

/-- Those after it. -/
def denominatorsAfter (cfg : Config) (g : Gene) (i : ℕ) : List ℚ :=
  utilpowerDenominators cfg i (g.taskattrsMem.attr i) (g.taskattrsCpufreq.attr i) ++
    if g.offloads i then offloadingCostDenominators (cfg.task i) 30.0 120.0
    else localCostDenominators (cfg.task i)

/-- An evaluation of the gene comes to task `i`. -/
structure Reaches (cfg : Config) (g : Gene) (i : ℕ) : Prop where
  task : i < cfg.nTasks
  fits : checkMemusage cfg g = true
  before : ∀ j < i, ¬ g.Overruns cfg j

end Gene

/-- No evaluation of a gene of a run divides by zero. -/
structure NonzeroDenominators (mode : Mode) (cfg : Config) : Prop where
  before : ∀ g, InRun mode cfg g → ∀ i, g.Reaches cfg i → ∀ d ∈ g.denominatorsBefore cfg i, d ≠ 0
  after : ∀ g, InRun mode cfg g → ∀ i, g.Reaches cfg i → ¬ g.Overruns cfg i →
    ∀ d ∈ g.denominatorsAfter cfg i, d ≠ 0

/-- Wherever the attributes within the tables fit into the memory, the rows they select for a task that
    is reached are fit to divide by: the scales and the computation power, and, unless the task overruns
    its period, its links and its period. -/
def Divisible (cfg : Config) : Prop :=
  ∀ g : Gene, g.Shaped cfg → ∀ i, g.Reaches cfg i →
    Scalable cfg (g.taskattrsMem.attr i) (g.taskattrsCloud.attr i) (g.taskattrsCpufreq.attr i) ∧
      (¬ g.Overruns cfg i → Chargeable cfg i)

section Rows
variable {mode : Mode} {cfg : Config} {g : Gene} {i : ℕ}

/-- An index within a table selects one of its rows. -/
theorem getD_mem_of_lt {α : Type} {l : List α} {i : ℕ} (h : i < l.length) (d : α) :
    l.getD i d ∈ l := by
  rw [List.getD_eq_getElem _ _ h]
  exact List.getElem_mem h

theorem denominatorsBefore_ne_zero : (∀ d ∈ g.denominatorsBefore cfg i, d ≠ 0) ↔
    Scalable cfg (g.taskattrsMem.attr i) (g.taskattrsCloud.attr i) (g.taskattrsCpufreq.attr i) := by
  simp only [Gene.denominatorsBefore, scaleDenominators, List.forall_mem_cons, List.not_mem_nil,
    IsEmpty.forall_iff, implies_true, and_true, Scalable]

/-- The other divisors of a local task are its links and its period once the scales are not zero: the
    sum of the two factors is positive. -/
theorem denominatorsAfter_ne_zero (hcfg : Accepted cfg) (hg : g.Shaped cfg) (hi : i < cfg.nTasks)
    (hscale : Scalable cfg (g.taskattrsMem.attr i) (g.taskattrsCloud.attr i)
      (g.taskattrsCpufreq.attr i)) :
    (∀ d ∈ g.denominatorsAfter cfg i, d ≠ 0) ↔ Chargeable cfg i := by
  have hf : cfg.cpufreq (g.taskattrsCpufreq.attr i) ∈ cfg.cpufreqs :=
    getD_mem_of_lt (hg.cpufreq.getD_lt hi) _
  have hm : cfg.mem (g.taskattrsMem.attr i) ∈ cfg.mems := getD_mem_of_lt (hg.mem.getD_lt hi) _
  have hfpos := lt_of_le_of_ne (hcfg.wellFormed.cpufreqs_range _ hf).1 hscale.1.symm
  have hmpos := lt_of_le_of_ne (hcfg.wellFormed.mems_range _ hm).2.1 hscale.2.1.symm
  have hsum : 1 / (cfg.cpufreq (g.taskattrsCpufreq.attr i)).wcetScale +
      1 / (cfg.mem (g.taskattrsMem.attr i)).wcetScale ≠ 0 :=
    (add_pos (one_div_pos.mpr hfpos) (one_div_pos.mpr hmpos)).ne'
  rw [Gene.denominatorsAfter, hg.offloads]
  simp only [utilpowerDenominators, localCostDenominators, Bool.false_eq_true, if_false,
    List.cons_append, List.nil_append, List.forall_mem_cons, List.not_mem_nil, IsEmpty.forall_iff,
    implies_true, and_true, ne_eq, Nat.cast_eq_zero, hsum, not_false_eq_true, true_and, Chargeable]
  omega

/-- The first gene of a run can be given the attributes of any gene within the tables. -/
theorem Gene.Shaped.drawn (hn : 0 < cfg.nPops) (hg : g.Shaped cfg) :
    ∃ g', InRun mode cfg g' ∧ SameAttrs g g' := by
  obtain ⟨g', hread, hgm, hgf, hgc⟩ := assignGene_reads hg.mem hg.cpufreq hg.cloud {}
  have hs := assignGene_shaped hread.returns
  exact ⟨g', .first hn hread.returns, hgm.symm, hgf.symm, hgc.symm, by rw [hg.ratio, hs.ratio]⟩

theorem SameAttrs.reaches {g' : Gene} (h : SameAttrs g g') (hg : g.Reaches cfg i) :
    g'.Reaches cfg i :=
  ⟨hg.task, h.checkMemusage ▸ hg.fits, fun j hj => (h.overruns j).not.mpr (hg.before j hj)⟩

theorem SameAttrs.scalable {g' : Gene} (h : SameAttrs g g') (i : ℕ) :
    Scalable cfg (g'.taskattrsMem.attr i) (g'.taskattrsCloud.attr i) (g'.taskattrsCpufreq.attr i) ↔
      Scalable cfg (g.taskattrsMem.attr i) (g.taskattrsCloud.attr i) (g.taskattrsCpufreq.attr i) := by
  unfold Taskattrs.attr
  rw [h.mem, h.cpufreq, h.cloud]

/-- Tables without zeroes are fit to divide by. -/
theorem divisible_of_rows (hscale : ∀ m < cfg.nMems, ∀ c < cfg.nClouds, ∀ f < cfg.nCpufreqs,
    Scalable cfg m c f) (hcharge : ∀ i < cfg.nTasks, Chargeable cfg i) : Divisible cfg :=
  fun _ hg i hreach => ⟨hscale _ (hg.mem.getD_lt hreach.task) _ (hg.cloud.getD_lt hreach.task) _
    (hg.cpufreq.getD_lt hreach.task), fun _ => hcharge i hreach.task⟩

end Rows

/-- `smallConf` without its network section. -/
def noNetworkConf : Config := { smallConf with networks := [] }

end MutualEdge
