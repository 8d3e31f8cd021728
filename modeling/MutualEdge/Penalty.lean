import Mathlib.Algebra.Order.BigOperators.Group.Finset
import MutualEdge.CostModel

/-! The penalty term of the score.

    It is applied when the utilisation reaches `1` or a task misses its deadline, and scaled by the
    utilisation less `1`: a gene that misses deadlines with spare utilisation has its score lowered. The
    functions `geneCost`, `geneCostKind`, `cpuLoad` and `IsLate` read the inputs of an evaluation only. -/

namespace MutualEdge
open Choice Doubles

/-! ### What an evaluation computes from its inputs -/

/-- The cost of a gene over the simulation period, if it is a number. -/
def geneCost (cfg : Config) (g : Gene) : ℚ :=
  (∑ i ∈ Finset.range cfg.nTasks, taskCost cfg g i) + costStaticUnused (localMegabytes cfg g) +
    baseCost + privateDepreciationCost

/-- What the cost is: the terms that are not a task's are numbers. -/
def geneCostKind (cfg : Config) (g : Gene) : Kind :=
  ∑ i ∈ Finset.range cfg.nTasks, taskCostKind cfg g i

/-- The utilisation: by the tasks, or by the network commander, which is all that offloaded tasks ask
    of the CPU. -/
def cpuLoad (cfg : Config) (g : Gene) : Mode → ℚ
  | .localOnly => ∑ i ∈ Finset.range cfg.nTasks,
      wcetScaled cfg i (g.taskattrsMem.attr i) (g.taskattrsCpufreq.attr i) / (cfg.task i).period
  | .offloadingOnly => ∑ i ∈ Finset.range cfg.nTasks,
      1 / (cfg.cpufreq (g.taskattrsCpufreq.attr i)).wcetScale * netcomtime cfg i /
        (cfg.task i).period

/-- Offloaded, task `i` takes longer than its period, or for ever. -/
def IsLate (cfg : Config) (g : Gene) (i : ℕ) : Mode → Prop
  | .localOnly => False
  | .offloadingOnly =>
    let kind := deadlineKind .offloadingOnly cfg i (g.taskattrsCloud.attr i) (g.taskattrsCpufreq.attr i)
    kind = .infinite ∨ kind = .number ∧
      1 < (1 / (cfg.cloud (g.taskattrsCloud.attr i)).computationPower * (cfg.task i).wcet +
        1 / (cfg.cpufreq (g.taskattrsCpufreq.attr i)).wcetScale * netcomtime cfg i +
        transtime cfg i) / (cfg.task i).period

theorem late_iff (mode : Mode) (cfg : Config) (g : Gene) (i : ℕ) :
    (geneEval mode cfg g i).Late ↔ IsLate cfg g i mode := by
  cases mode with
  | localOnly => exact iff_of_false (not_late_localOnly cfg i _ _ _) id
  | offloadingOnly =>
    simp only [TaskEval.Late, geneEval, taskEval, Mode.realOffloading, IsLate]
    norm_num

theorem sum_util (mode : Mode) (cfg : Config) (g : Gene) :
    ∑ i ∈ Finset.range cfg.nTasks, (geneEval mode cfg g i).util = cpuLoad cfg g mode := by
  cases mode with
  | localOnly =>
    refine Finset.sum_congr rfl fun i _ => ?_
    simp only [geneEval, taskEval, Mode.realOffloading]
    norm_num
  | offloadingOnly =>
    refine Finset.sum_congr rfl fun i _ => ?_
    simp only [geneEval, taskEval, Mode.realOffloading]
    norm_num

/-! ### The score -/

/-- The score of a gene of cost `t` and utilisation `u` with `v` missed deadlines. -/
def scoreOf (penalty t u : ℚ) (v : ℕ) : ℚ :=
  if 1 ≤ u ∨ 0 < v then t + t * (u - 1) * penalty else t

theorem scoreOf_eq (penalty t u : ℚ) (v : ℕ) :
    scoreOf penalty t u v = if 1 ≤ u ∨ 0 < v then t * (1 - (1 - u) * penalty) else t := by
  rw [scoreOf, show t + t * (u - 1) * penalty = t * (1 - (1 - u) * penalty) by ring]

/-- A count of tasks is zero when there is none to count. -/
theorem sum_count_eq_zero {n : ℕ} {P : ℕ → Prop} [DecidablePred P] :
    (∑ i ∈ Finset.range n, if P i then 1 else 0) = 0 ↔ ∀ i < n, ¬ P i := by
  simp

/-- A negative cost has to be turned round. -/
theorem scoreOf_nonneg_of_neg {penalty t u : ℚ} {v : ℕ} (hp : 0 ≤ penalty) (ht : t < 0) :
    0 ≤ scoreOf penalty t u v ↔ 0 < v ∧ 1 ≤ (1 - u) * penalty := by
  rw [scoreOf_eq]
  constructor
  · intro h
    split at h
    · rename_i hpen
      have hge : 1 ≤ (1 - u) * penalty := by
        by_contra hlt
        exact absurd h (not_le.mpr (mul_neg_of_neg_of_pos ht (by linarith)))
      refine ⟨hpen.resolve_left fun hu => ?_, hge⟩
      have hnonneg : 0 ≤ (u - 1) * penalty := mul_nonneg (sub_nonneg.mpr hu) hp
      linarith
    · exact absurd h (not_le.mpr ht)
  · rintro ⟨hv, hge⟩
    rw [if_pos (Or.inr hv)]
    exact mul_nonneg_of_nonpos_of_nonpos ht.le (by linarith)

/-- Spare utilisation and a missed deadline lower the score of a positive cost. -/
theorem le_scoreOf_of_pos {penalty t u : ℚ} {v : ℕ} (hp : 0 ≤ penalty) (ht : 0 < t) :
    t ≤ scoreOf penalty t u v ↔ v = 0 ∨ 1 ≤ u ∨ penalty = 0 := by
  have hmul : t ≤ t * (1 - (1 - u) * penalty) ↔ (1 - u) * penalty ≤ 0 := by
    rw [le_mul_iff_one_le_right ht]
    constructor <;> intro h <;> linarith
  rw [scoreOf_eq]
  split
  · rename_i hpen
    rw [hmul]
    constructor
    · intro h
      by_contra hne
      push Not at hne
      obtain ⟨-, hu, hpne⟩ := hne
      have hpos : 0 < penalty := lt_of_le_of_ne hp (Ne.symm hpne)
      exact absurd h (not_le.mpr (mul_pos (sub_pos.mpr hu) hpos))
    · rintro (rfl | hu | rfl)
      · have hu : 1 ≤ u := hpen.resolve_right (lt_irrefl 0)
        exact mul_nonpos_of_nonpos_of_nonneg (sub_nonpos.mpr hu) hp
      · exact mul_nonpos_of_nonpos_of_nonneg (sub_nonpos.mpr hu) hp
      · exact (mul_zero _).le
  · rename_i hpen
    rw [not_or, Nat.pos_iff_ne_zero, not_not] at hpen
    exact iff_of_true le_rfl (Or.inl hpen.2)

/-- The score is neither below the cost nor negative exactly when the penalty does not work against the
    sign of the cost. -/
theorem scoreOf_ge_iff {penalty t u : ℚ} {v : ℕ} (hp : 0 ≤ penalty) :
    t ≤ scoreOf penalty t u v ∧ 0 ≤ scoreOf penalty t u v ↔
      t = 0 ∨ (0 < t ∧ (v = 0 ∨ 1 ≤ u ∨ penalty = 0)) ∨
        (t < 0 ∧ 0 < v ∧ 1 ≤ (1 - u) * penalty) := by
  rcases lt_trichotomy t 0 with ht | rfl | ht
  · rw [← scoreOf_nonneg_of_neg hp ht]
    constructor
    · rintro ⟨-, h⟩
      exact Or.inr (Or.inr ⟨ht, h⟩)
    · rintro (rfl | h | ⟨-, h⟩)
      · exact absurd ht (lt_irrefl _)
      · exact absurd h.1 (not_lt.mpr ht.le)
      · exact ⟨ht.le.trans h, h⟩
  · simp [scoreOf]
  · rw [← le_scoreOf_of_pos hp ht]
    constructor
    · rintro ⟨h, -⟩
      exact Or.inr (Or.inl ⟨ht, h⟩)
    · rintro (rfl | ⟨-, h⟩ | h)
      · exact absurd ht (lt_irrefl _)
      · exact ⟨h, ht.le.trans h⟩
      · exact absurd h.1 (not_lt.mpr ht.le)

/-- The fields of a gene that was accepted. -/
theorem accepted_fields {mode : Mode} {cfg : Config} {g g' : Gene}
    (h : checkUtilpower mode cfg g = .ok (true, g')) :
    g'.totalCost = geneCost cfg g ∧ g'.costKind = geneCostKind cfg g ∧ g'.util = cpuLoad cfg g mode ∧
      g'.periodViolation = ∑ i ∈ Finset.range cfg.nTasks,
        (if (geneEval mode cfg g i).Late then 1 else 0) := by
  have hcost : (tallied mode cfg g).fullCost = geneCost cfg g := by
    rw [Tally.fullCost, tallied_totalCost, usedMemory_eq, geneCost]
  obtain ⟨_, rfl⟩ := checkUtilpower_ok h
  exact ⟨hcost, tallied_costKind mode cfg g, (tallied_utilNew mode cfg g).trans (sum_util mode cfg g),
    tallied_violatePeriod mode cfg g⟩

/-- Its score: what `scoreOf` says of a cost that is a number, not a number for one that is none, and
    for an infinite one infinite unless the penalty is infinitely negative or `0.0 * inf`. -/
theorem accepted_score {mode : Mode} {cfg : Config} {g g' : Gene}
    (h : checkUtilpower mode cfg g = .ok (true, g')) :
    match g'.costKind with
    | .number => g'.scoreKind = .number ∧
        g'.score = scoreOf cfg.penalty g'.totalCost g'.util g'.periodViolation
    | .infinite => g'.scoreKind =
        if (1 ≤ g'.util ∨ 0 < g'.periodViolation) ∧ (g'.util - 1) * cfg.penalty ≤ 0 then .nan
        else .infinite
    | .nan => g'.scoreKind = .nan := by
  obtain ⟨_, rfl⟩ := checkUtilpower_ok h
  rcases hkind : (tallied mode cfg g).costKind with _ | _ | _ <;>
    simp only [if_true, secondWrites, firstWrites, Tally.scoreKind, Tally.Penalised, hkind, scoreOf] <;>
    norm_num

/-! ### Violations -/

/-- Violations are not rewarded in the stored values of an accepted gene: it scores at least its cost
    and nothing negative, and, having missed a deadline, no less than a gene of the same cost and
    utilisation that missed none. -/
structure NotRewarded (mode : Mode) (cfg : Config) (g' : Gene) : Prop where
  ge_cost : g'.costDouble ≤ g'.scoreDouble
  nonneg : ⟨.number, 0⟩ ≤ g'.scoreDouble
  pair : ∀ h h' : Gene, checkUtilpower mode cfg h = .ok (true, h') →
    h'.costDouble ≤ g'.costDouble → g'.costDouble ≤ h'.costDouble → h'.util = g'.util →
    0 < g'.periodViolation → h'.periodViolation = 0 → ¬ g'.scoreDouble < h'.scoreDouble

/-- The inputs on which the penalty works as intended. A cost of `0` needs nothing; a positive one no
    late task, or a CPU that is used up, or no penalty; a negative one (some task has a sufficiently
    negative `mem_active_ratio`) a penalty that turns it round. An infinite one (an offloaded task of a
    period shorter than a second) must not meet a penalty that is infinitely negative or not a number,
    and one that is not a number is always wrong. -/
def PenaltySound (mode : Mode) (cfg : Config) (g : Gene) : Prop :=
  let someLate := ∃ i < cfg.nTasks, IsLate cfg g i mode
  let load := cpuLoad cfg g mode
  match geneCostKind cfg g with
  | .number =>
    geneCost cfg g = 0 ∨
      (0 < geneCost cfg g ∧ (¬ someLate ∨ 1 ≤ load ∨ cfg.penalty = 0)) ∨
      (geneCost cfg g < 0 ∧ someLate ∧ 1 ≤ (1 - load) * cfg.penalty)
  | .infinite => ¬ ((1 ≤ load ∨ someLate) ∧ (load - 1) * cfg.penalty ≤ 0)
  | .nan => False

/-- A score that is not below a cost that is a number is not below that of a gene without violations
    either. -/
theorem notRewarded_of_number {mode : Mode} {cfg : Config} {g g' : Gene}
    (h : checkUtilpower mode cfg g = .ok (true, g')) (hkind : g'.costKind = .number) :
    NotRewarded mode cfg g' ↔ g'.totalCost ≤ g'.score ∧ 0 ≤ g'.score := by
  have hscore := accepted_score h
  rw [hkind] at hscore
  obtain ⟨hscoreKind, hscore⟩ := hscore
  have hcost : g'.costDouble ≤ g'.scoreDouble ↔ g'.totalCost ≤ g'.score :=
    Double.le_iff_of_number hkind hscoreKind
  have hzero : ⟨.number, 0⟩ ≤ g'.scoreDouble ↔ 0 ≤ g'.score :=
    Double.le_iff_of_number rfl hscoreKind
  constructor
  · exact fun hlaw => ⟨hcost.mp hlaw.ge_cost, hzero.mp hlaw.nonneg⟩
  · rintro ⟨hge, hnn⟩
    refine ⟨hcost.mpr hge, hzero.mpr hnn, ?_⟩
    intro k k' hk hle hge' hutil hviol hnone
    have hkind' : k'.costKind = .number := Double.number_of_le hle hkind
    have heq : k'.totalCost = g'.totalCost :=
      le_antisymm ((Double.le_iff_of_number hkind' hkind).mp hle)
        ((Double.le_iff_of_number hkind hkind').mp hge')
    have hscore' := accepted_score hk
    rw [hkind'] at hscore'
    obtain ⟨hscoreKind', hscore'⟩ := hscore'
    rw [heq, hutil, hnone] at hscore'
    rw [Double.lt_iff_of_number hscoreKind hscoreKind', not_lt]
    change k'.score ≤ g'.score
    by_cases hu : 1 ≤ g'.util
    · have heq : k'.score = g'.score := by
        rw [hscore, hscore', scoreOf, scoreOf, if_pos (.inl hu), if_pos (.inl hu)]
      exact heq.le
    · rw [hscore', scoreOf, if_neg (by simp [hu])]
      exact hge

/-- Nothing is above an infinite score. -/
theorem notRewarded_of_infinite {mode : Mode} {cfg : Config} {g' : Gene}
    (hkind : g'.costKind = .infinite) :
    NotRewarded mode cfg g' ↔ g'.scoreKind = .infinite := by
  constructor
  · intro hlaw
    obtain ⟨-, hinf⟩ | ⟨hnumber, -, -⟩ := hlaw.ge_cost
    · exact hinf
    · exact Kind.noConfusion (hkind.symm.trans hnumber)
  · intro hinf
    refine ⟨.inl ⟨?_, hinf⟩, .inl ⟨Kind.noConfusion, hinf⟩, ?_⟩
    · exact fun hnan => Kind.noConfusion (hkind.symm.trans hnan)
    · intro k k' _ _ _ _ _ _ hlt
      exact Kind.noConfusion (hinf.symm.trans hlt.1)

/-- Uploading the first task takes longer than its period. -/
def lateConf : Config :=
  smallConfOf [⟨1, 1000, 4000, 1000, 1 / 2, 150000, 100, 100, 1⟩,
    ⟨2, 2000, 8000, 2000, 1 / 4, 500, 100, 100, 1⟩] [0, 1]

theorem lateConf_accepted : Accepted lateConf :=
  ⟨smallFile
    [⟨"1000 4000 1000 0.5 150000 100 100 1", some ⟨0, 1000, 4000, 1000, 1 / 2, 150000, 100, 100, 1⟩⟩,
      ⟨"2000 8000 2000 0.25 500 100 100 1", some ⟨0, 2000, 8000, 2000, 1 / 4, 500, 100, 100, 1⟩⟩]
    [⟨"0", some 0⟩, ⟨"1", some 1⟩], by decide +kernel⟩

end MutualEdge
