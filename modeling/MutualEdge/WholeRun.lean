import MutualEdge.Export
import MutualEdge.Lib.Loops

/-! The whole run of `run_GA`, from the first random gene to the exported result.

    The `while` loop of `run_GA` draws random numbers in every round, so on a finite list of draws it is
    a total program (`runGa_loop`). What a run returns is the report and the result of a state in which
    the loop has ended. -/

namespace MutualEdge
open Checks Choice

/-- The loop of `run_GA`. -/
def gaLoop (mode : Mode) (cfg : Config) : GaState → Rand GaState :=
  loop .starved (fun s => decide (s.gen ≤ cfg.maxGen)) (gaRound mode cfg)

/-- `run_GA`, with what it leaves in `report.txt` and what `close_report` makes of the best gene. -/
def runGa (mode : Mode) (cfg : Config) : Rand (Report × TaskInfos) := do
  let s ← gaStart mode cfg
  let s ← gaLoop mode cfg s
  let infos ← saveTaskInfos cfg s.pop
  return (s.report, infos)

section Run
variable {mode : Mode} {cfg : Config}

theorem drawCrosspt_spends (cfg : Config) : Spends 0 (drawCrosspt cfg) := by
  refine Spends.weaken (n := 1) (Spends.bind (n := 1) (m := 0) ?_ fun _ => .pure _) (by omega)
  exact (Spends.next _).bind (m := 0) fun _ => .lift _

/-- An attempt draws at least the two parents. -/
theorem attempt_spends (b : ℕ) (p : Pop) : Spends 1 (attempt mode cfg b p) := by
  have hrest : ∀ g1, Spends 0 (do
      let gene2 ← selectOther cfg p g1
      let crossptRatio ← drawCrosspt cfg
      let crossptCpufreq ← drawCrosspt cfg
      let crossptMem ← drawCrosspt cfg
      (doCrossover mode cfg p b g1 gene2 crossptRatio crossptCpufreq crossptMem : Rand _)) := by
    have hpoint := drawCrosspt_spends cfg
    refine fun g1 => Spends.weaken (n := 1) (Spends.bind (m := 0) (.retry _ _) fun _ => ?_) (by omega)
    exact hpoint.bind fun _ => hpoint.bind fun _ => hpoint.bind fun _ => .lift _
  have hselect : Spends 1 (selectGene cfg p) := (Spends.next _).bind (m := 0) fun _ => .lift _
  exact hselect.bind hrest

/-- So does every generation. -/
theorem gaRound_spends (s : GaState) : Spends 1 (gaRound mode cfg s) := by
  have hcross : Spends (0 + 1) (crossover mode cfg s.pop) := by
    refine (Spends.lift _).bind fun r => ?_
    exact .attempts (attempt_spends r.1) _ _
  rw [Nat.zero_add] at hcross
  refine hcross.bind (m := 0) fun p => ?_
  exact (Spends.lift _).bind (m := 0) fun _ => .pure _

/-- The loop is the `while` of the source. -/
theorem gaLoop_eq (s : GaState) : gaLoop mode cfg s =
    if s.gen ≤ cfg.maxGen then gaRound mode cfg s >>= gaLoop mode cfg else pure s := by
  rw [gaLoop, loop_eq gaRound_spends]
  simp only [decide_eq_true_eq]

/-- The states at the head of the loop are those of `AtLoop`. -/
theorem gaLoop_completed {k : ℕ} {s s' : GaState} (h : AtLoop mode cfg k s)
    (hs : Returns (gaLoop mode cfg s) s') : Completed mode cfg s' := by
  obtain ⟨hsteps, hdone⟩ := hs.loop
  rw [decide_eq_true_eq, not_le] at hdone
  have hat : ∃ k', AtLoop mode cfg k' s' := by
    clear hs hdone
    induction hsteps with
    | refl => exact ⟨k, h⟩
    | tail _ hstep ih =>
      obtain ⟨k', hat⟩ := ih
      exact ⟨k' + 1, .round hat (of_decide_eq_true hstep.1) hstep.2⟩
  obtain ⟨k', hat⟩ := hat
  exact ⟨k', hat, hdone⟩

/-- What a run returns is what a completed run leaves. -/
theorem runGa_completed {r : Report} {infos : TaskInfos} (h : Returns (runGa mode cfg) (r, infos)) :
    ∃ s, Completed mode cfg s ∧ s.report = r ∧ saveTaskInfos cfg s.pop = .ok infos := by
  obtain ⟨s, hs, h⟩ := h.bind
  obtain ⟨s', hs', h⟩ := h.bind
  obtain ⟨infos', hinfos, h⟩ := h.bind
  have heq := returns_pure.mp h
  simp only [Prod.mk.injEq] at heq
  obtain ⟨rfl, rfl⟩ := heq
  exact ⟨s', gaLoop_completed (.start hs) hs', rfl, returns_lift.mp hinfos⟩

/-- The head of the loop is between two generations of the transition system. -/
theorem AtLoop.reachable {k : ℕ} {s : GaState} (h : AtLoop mode cfg k s) :
    (gaSystem mode cfg).Reachable (.boundary, s.pop) := by
  induction h with
  | start h =>
    obtain ⟨p, hp, h⟩ := h.bind
    obtain ⟨r, _, h⟩ := h.bind
    obtain rfl := returns_pure.mp h
    exact ⟨_, rfl, initGenes_steps (Nat.zero_add _) hp⟩
  | @round k s s' _ _ hs ih =>
    obtain ⟨p, hp, hs⟩ := hs.bind
    obtain ⟨r, _, hs⟩ := hs.bind
    obtain rfl := returns_pure.mp hs
    exact ih.steps (crossover_steps hp)

end Run

theorem runGa_shortConf : ∃ r infos, Returns (runGa .localOnly shortConf) (r, infos) := by
  have hok : ((runGa .localOnly shortConf) smallDraws).isOk = true := by decide +kernel
  obtain ⟨⟨r, infos⟩, h⟩ := returns_of_isOk smallDraws hok
  exact ⟨r, infos, h⟩

end MutualEdge
