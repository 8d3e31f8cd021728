import MutualEdge.RunGA

/-! The result of a run: `close_report` of `report.c`, at the end of `run_GA`.

    Three limits on the utilisation meet here. `check_utilpower` admits a gene up to the configured
    cutoff, the report counts the genes up to 3.0, and `save_task_infos` rejects a best gene above
    2.0, when it has opened `task.txt` and written the header. -/

namespace MutualEdge
open Checks Choice

/-- A run that has left the loop with all its generations done. -/
def Completed (mode : Mode) (cfg : Config) (s : GaState) : Prop :=
  ∃ k, AtLoop mode cfg k s ∧ cfg.maxGen < s.gen

/-- The rows behind the header of `task.txt` when the process has ended. -/
def taskTxt (cfg : Config) (p : Pop) : List (ℕ × ℕ × ℕ × ℕ) :=
  match saveTaskInfos cfg p with
  | .ok infos => infos.tasks
  | .error _ => []

/-- The process ends well, and the rows are those of the tasks of a gene of best score. -/
def Exported (cfg : Config) (p : Pop) : Prop :=
  ∃ i < cfg.nPops, (∀ j < cfg.nPops, (p.gene i).score ≤ (p.gene j).score) ∧
    (saveTaskInfos cfg p).isOk ∧ taskTxt cfg p = (List.range cfg.nTasks).map (taskInfo (p.gene i))

/-! ### The limit -/

section Limit
variable {mode : Mode} {cfg : Config}

/-- Within the limit there is one row for each task. -/
theorem saveTaskInfos_within {p : Pop} {i : ℕ} (hi : p.genesByScore.next none = some i)
    (hutil : (p.gene i).util ≤ 2) : ∃ infos, saveTaskInfos cfg p = .ok infos ∧
      infos.tasks = (List.range cfg.nTasks).map (taskInfo (p.gene i)) := by
  have hlimit : ¬ 2.0 < (p.gene i).util := by
    norm_num
    exact hutil
  simp only [saveTaskInfos, hi, if_neg hlimit]
  exact ⟨_, rfl, rfl⟩

/-- Above the limit the header is all that is written. -/
theorem saveTaskInfos_above {p : Pop} {i : ℕ} (hi : p.genesByScore.next none = some i)
    (hutil : 2 < (p.gene i).util) : saveTaskInfos cfg p =
      .error (.fatal 2 "over-utilized gene: %lf" [.num (p.gene i).util]) := by
  have hlimit : 2.0 < (p.gene i).util := by
    norm_num
    exact hutil
  simp only [saveTaskInfos, hi, if_pos hlimit]

/-- The first row of the report is taken from genes on the lists. -/
theorem AtLoop.nPops_pos {k : ℕ} {s : GaState} (h : AtLoop mode cfg k s) : 0 < cfg.nPops := by
  induction h with
  | start h =>
    obtain ⟨p, hp, h⟩ := h.bind
    obtain ⟨r, hr, _⟩ := h.bind
    obtain ⟨row, hrow, _⟩ := addReport_first (returns_lift.mp hr)
    obtain ⟨first, hfirst, _⟩ := bind_ok.mp hrow
    have hmem := (initPopulations_gaInv hp).listed.byUtil.mem_of_next (require_ok.mp hfirst)
    exact Nat.zero_lt_of_lt (List.mem_range.mp hmem)
  | round _ _ _ ih => exact ih

/-- A completed run exports its result exactly if the gene at the head of the score list is within the
    limit, which a cutoff within the limit makes sure of. -/
theorem exported_iff {s : GaState} (h : Completed mode cfg s) : Exported cfg s.pop ↔
    cfg.cutoff ≤ 2 ∨ ∃ i, s.pop.genesByScore.next none = some i ∧ (s.pop.gene i).util ≤ 2 := by
  obtain ⟨k, hat, _⟩ := h
  have hinv := hat.gaInv
  obtain ⟨_, _, i, _, hends⟩ := exists_ends hinv hat.nPops_pos
  have hhead : (∃ j, s.pop.genesByScore.next none = some j ∧ (s.pop.gene j).util ≤ 2) ↔
      (s.pop.gene i).util ≤ 2 := by
    rw [hends.is_best]
    simp
  rw [hhead]
  constructor
  · rintro ⟨_, _, _, hok, _⟩
    refine .inr (not_lt.mp fun hutil => ?_)
    rw [saveTaskInfos_above hends.is_best hutil] at hok
    cases hok
  · intro hlimit
    have hutil : (s.pop.gene i).util ≤ 2 := by
      rcases hlimit with hcutoff | hutil
      · exact (hinv.valid i (List.mem_range.mpr hends.best_lt)).util_le.trans hcutoff
      · exact hutil
    obtain ⟨infos, hinfos, htasks⟩ : ∃ infos, saveTaskInfos cfg s.pop = .ok infos ∧
        infos.tasks = (List.range cfg.nTasks).map (taskInfo (s.pop.gene i)) :=
      saveTaskInfos_within hends.is_best hutil
    refine ⟨i, hends.best_lt, hends.scoreMin, ?_, ?_⟩
    · rw [hinfos]
      rfl
    · rw [taskTxt, hinfos]
      exact htasks

end Limit

theorem exported_gensConf : ∃ s, Completed .localOnly (gensConf 1) s ∧
    Exported (gensConf 1) s.pop := by
  obtain ⟨s, hs⟩ := gensConf_runs 1 (by decide)
  have hdone : Completed .localOnly (gensConf 1) s := ⟨1, hs, by rw [hs.gen_eq]; decide⟩
  exact ⟨s, hdone, (exported_iff hdone).mpr (.inl (by decide))⟩

/-- Three tasks that need 2.4 CPUs at the least, with the cutoff of `run_extend.sh`. -/
def hungryConf : Config :=
  { smallConfOf [⟨1, 1000, 1250, 1000, 1 / 2, 500, 100, 100, 0⟩,
      ⟨2, 1000, 1250, 1000, 1 / 2, 500, 100, 100, 0⟩, ⟨3, 1000, 1250, 1000, 1 / 2, 500, 100, 100, 0⟩]
      [0] with
    maxGen := 1
    cutoff := 3 }

theorem hungryConf_accepted : Accepted hungryConf :=
  ⟨smallFile (List.replicate 3 ⟨"1000 1250 1000 0.5 500 100 100 0",
      some ⟨0, 1000, 1250, 1000, 1 / 2, 500, 100, 100, 0⟩⟩) [⟨"0", some 0⟩] ++
    [.genetic [⟨"1 3 3 1.5", some ⟨1, 3, 3, 3 / 2⟩⟩]], by decide +kernel⟩

/-- Three genes with all tasks at the fast level, and a crossover of two of them. -/
def hungryDraws : List ℕ := List.replicate 27 0 ++ [0, 4, 0, 0, 0]

/-- The best gene is one the cutoff admits and the export rejects: `task.txt` is left with its header
    in front of none of the three rows. -/
theorem exported_fails : Accepted hungryConf ∧
    (∃ s, Completed .localOnly hungryConf s ∧ taskTxt hungryConf s.pop = [] ∧ hungryConf.nTasks = 3 ∧
      saveTaskInfos hungryConf s.pop =
        .error (.fatal 2 "over-utilized gene: %lf" [.num (12 / 5)])) ∧
    ¬ ∀ cfg s, Accepted cfg → Completed .localOnly cfg s → Exported cfg s.pop := by
  have hok : (((gaStart .localOnly hungryConf >>= gaRound .localOnly hungryConf)
      hungryDraws).toOption.any
      fun r => (r.1.pop.genesByScore.next none).any fun i =>
        decide ((r.1.pop.gene i).util = 12 / 5)) = true := by decide +kernel
  obtain ⟨⟨s, ds⟩, hrun, hany⟩ := exists_ok_of_any hok
  obtain ⟨i, hi, hutil⟩ := (Option.any_eq_true _ _).mp hany
  have hutil : (s.pop.gene i).util = 12 / 5 := of_decide_eq_true hutil
  have hreturns : Returns (gaStart .localOnly hungryConf >>= gaRound .localOnly hungryConf) s :=
    ⟨hungryDraws, ds, hrun⟩
  obtain ⟨s0, hstart, hround⟩ := hreturns.bind
  have hat : AtLoop .localOnly hungryConf 1 s :=
    .round (.start hstart) (by rw [(AtLoop.start hstart).gen_eq]; decide) hround
  have hdone : Completed .localOnly hungryConf s := ⟨1, hat, by rw [hat.gen_eq]; decide⟩
  have hsave : saveTaskInfos hungryConf s.pop =
      .error (.fatal 2 "over-utilized gene: %lf" [.num (12 / 5)]) := by
    rw [saveTaskInfos_above hi (by rw [hutil]; norm_num), hutil]
  have htxt : taskTxt hungryConf s.pop = [] := by rw [taskTxt, hsave]
  refine ⟨hungryConf_accepted, ⟨s, hdone, htxt, rfl, hsave⟩, fun hall => ?_⟩
  obtain ⟨_, _, _, hisOk, _⟩ := hall hungryConf s hungryConf_accepted hdone
  rw [hsave] at hisOk
  cases hisOk

end MutualEdge
