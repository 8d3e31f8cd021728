import Mathlib.Algebra.BigOperators.Group.Finset.Sigma
import Mathlib.Algebra.BigOperators.Ring.Finset
import MutualEdge.Generations

/-! Which tasks are local: the value of the offloading ratio against its index.

    `check_utilpower` decides by the index of a task's ratio, `check_memusage` weighs the task's memory
    by the value of the ratio, and `init_gene` writes index `0`. A gene of a run is split alike by all
    of them exactly when index `0` selects the ratio `0`. -/

namespace MutualEdge
open Choice

/-- The evaluators agree on a gene: a task is costed as offloaded when the ratio it selects is not zero,
    and the local memory accounted, in KB, is what the memory types hold, no sum being rounded (`id`). -/
structure SplitAgrees (cfg : Config) (g : Gene) (t : Tally) : Prop where
  offloads : ∀ i < cfg.nTasks,
    (g.offloads i = true ↔ cfg.offloadingratio (g.taskattrsOffloadingratio.attr i) ≠ 0)
  memory : t.usedMemory * 1000 =
    ∑ type ∈ Finset.range cfg.nMems, (memUsed id cfg g).getD type 0

/-- What one memory type holds: the loop over the tasks, seen from it. -/
def memHeld (fl : ℚ → ℚ) (cfg : Config) (g : Gene) (type : ℕ) : ℚ :=
  (List.range cfg.nTasks).foldl
    (fun u i => if g.taskattrsMem.attr i = type then fl (u + memDemand fl cfg g i) else u) 0

theorem getD_modify {l : List ℚ} {k m : ℕ} (hm : m < l.length) (f : ℚ → ℚ) :
    (l.modify k f).getD m 0 = if k = m then f (l.getD m 0) else l.getD m 0 := by
  have hm' : m < (l.modify k f).length := by rwa [List.length_modify]
  rw [List.getD_eq_getElem _ _ hm', List.getD_eq_getElem _ _ hm, List.getElem_modify]

theorem memUsed_getD (fl : ℚ → ℚ) (cfg : Config) (g : Gene) {type : ℕ} (htype : type < maxMems) :
    (memUsed fl cfg g).getD type 0 = memHeld fl cfg g type := by
  have hfold : ∀ (l : List ℕ) (used : List ℚ), type < used.length →
      (l.foldl (fun used i => used.modify (g.taskattrsMem.attr i)
        fun u => fl (u + memDemand fl cfg g i)) used).getD type 0 =
      l.foldl (fun u i => if g.taskattrsMem.attr i = type then fl (u + memDemand fl cfg g i) else u)
        (used.getD type 0) := by
    intro l
    induction l with
    | nil => exact fun used _ => rfl
    | cons i l ih =>
      intro used hlen
      rw [List.foldl_cons, List.foldl_cons, ih _ (by rwa [List.length_modify]), getD_modify hlen]
  rw [memUsed, hfold _ _ (by simpa using htype), memHeld,
    List.getD_eq_getElem _ _ (by simpa using htype), List.getElem_replicate]

/-- Without rounding, memory type `type` holds what the tasks on it demand. -/
theorem memHeld_id (cfg : Config) (g : Gene) (type : ℕ) : memHeld id cfg g type =
    ∑ i ∈ Finset.range cfg.nTasks,
      if g.taskattrsMem.attr i = type then memDemand id cfg g i else 0 := by
  have hsum := foldl_range_sum (n := cfg.nTasks) (s := (0 : ℚ)) (φ := id)
    (f := fun u i => if g.taskattrsMem.attr i = type then id (u + memDemand id cfg g i) else u)
    (c := fun i => if g.taskattrsMem.attr i = type then memDemand id cfg g i else 0) ?_
  · rwa [id_eq, id_eq, zero_add] at hsum
  · intro u i
    split <;> simp

/-- Without rounding, the memory types together hold what all tasks demand. -/
theorem sum_memUsed {cfg : Config} {g : Gene} (hg : g.Shaped cfg) (hm : cfg.nMems ≤ maxMems) :
    ∑ type ∈ Finset.range cfg.nMems, (memUsed id cfg g).getD type 0 =
      ∑ i ∈ Finset.range cfg.nTasks, memDemand id cfg g i := by
  have hcells : ∀ type ∈ Finset.range cfg.nMems, (memUsed id cfg g).getD type 0 =
      ∑ i ∈ Finset.range cfg.nTasks,
        if g.taskattrsMem.attr i = type then memDemand id cfg g i else 0 := by
    intro type h
    rw [memUsed_getD id cfg g ((Finset.mem_range.mp h).trans_le hm), memHeld_id]
  rw [Finset.sum_congr rfl hcells, Finset.sum_comm]
  refine Finset.sum_congr rfl fun i hi => ?_
  rw [Finset.sum_ite_eq, if_pos]
  exact Finset.mem_range.mpr (hg.mem.getD_lt (Finset.mem_range.mp hi))

/-- The ratio index of every task of a well-shaped gene is `0`. -/
theorem Gene.Shaped.ratio_attr {cfg : Config} {g : Gene} (h : g.Shaped cfg) (i : ℕ) :
    g.taskattrsOffloadingratio.attr i = 0 := by
  have hoff := h.offloads i
  unfold Gene.offloads at hoff
  simpa using hoff

/-- The genes of a run are split alike by every evaluator if and only if there is no task or the ratio
    at index `0` is `0` (or missing, which reads as `0`). -/
theorem splitAgrees_iff {mode : Mode} {cfg : Config} {g : Gene} {t : Tally} (hcfg : Accepted cfg)
    (hg : InRun mode cfg g) (ht : tally mode cfg g = .ok t) :
    SplitAgrees cfg g t ↔ cfg.nTasks = 0 ∨ cfg.offloadingratio 0 = 0 := by
  have hshaped := hg.shaped
  constructor
  · intro h
    by_contra hne
    push Not at hne
    have hfirst := h.offloads 0 (Nat.pos_of_ne_zero hne.1)
    rw [hshaped.offloads, hshaped.ratio_attr] at hfirst
    exact absurd (hfirst.mpr hne.2) (by simp)
  · intro h
    -- without a task or with ratio 0 at index 0, every task is local for everyone
    have hratio : ∀ i < cfg.nTasks, cfg.offloadingratio (g.taskattrsOffloadingratio.attr i) = 0 := by
      intro i hi
      rw [hshaped.ratio_attr]
      exact h.resolve_left (by omega)
    refine ⟨fun i hi => ?_, ?_⟩
    · rw [hshaped.offloads, hratio i hi]
      simp
    · rw [tally_eq ht, tallied_usedMemory, sum_memUsed hshaped hcfg.wellFormed.mems_length,
        Finset.sum_mul]
      refine Finset.sum_congr rfl fun i hi => ?_
      rw [hshaped.offloads, memDemand, hratio i (Finset.mem_range.mp hi), getTaskMemreq]
      norm_num

theorem splitAgrees_smallConf : ∃ t, SplitAgrees smallConf zeroGene t := by
  obtain ⟨t, ht⟩ := exists_ok_of_isOk (x := tally .localOnly smallConf zeroGene)
    (by decide +kernel)
  exact ⟨t, (splitAgrees_iff smallConf_accepted (.first (by decide) zeroGene_returns) ht).mpr
    (.inr (by decide +kernel))⟩

/-- The tasks of `smallConf` with the only ratio `1` of the Public strategy. -/
def publicConf : Config :=
  smallConfOf [⟨1, 1000, 4000, 1000, 1 / 2, 500, 100, 100, 0⟩,
    ⟨2, 2000, 8000, 2000, 1 / 4, 500, 100, 100, 0⟩] [1]

theorem publicConf_accepted : Accepted publicConf :=
  ⟨smallFile [⟨"1000 4000 1000 0.5 500 100 100 0", some ⟨0, 1000, 4000, 1000, 1 / 2, 500, 100, 100, 0⟩⟩,
    ⟨"2000 8000 2000 0.25 500 100 100 0", some ⟨0, 2000, 8000, 2000, 1 / 4, 500, 100, 100, 0⟩⟩]
    [⟨"1", some 1⟩], by decide +kernel⟩

/-- On it the tasks of a gene of a run are costed as local, with three megabytes, and hold no memory in
    `check_memusage`. -/
theorem splitAgrees_fails : Accepted publicConf ∧ ∃ g t, InRun .offloadingOnly publicConf g ∧
    tally .offloadingOnly publicConf g = .ok t ∧ ¬ SplitAgrees publicConf g t ∧
    g.offloads 0 = false ∧ t.usedMemory = 3 ∧ (memUsed id publicConf g).getD 0 0 = 0 := by
  obtain ⟨t, ht⟩ := exists_ok_of_isOk (x := tally .offloadingOnly publicConf zeroGene)
    (by decide +kernel)
  refine ⟨publicConf_accepted, zeroGene, t,
    .first (by decide) ⟨List.replicate 6 0, [], by decide +kernel⟩, ht, ?_, by decide, ?_,
    by decide +kernel⟩
  · intro h
    exact absurd ((h.offloads 0 (by decide)).mpr (by decide +kernel)) (by decide)
  · rw [tally_eq ht]
    decide +kernel

end MutualEdge
