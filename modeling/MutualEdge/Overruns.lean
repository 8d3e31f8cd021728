import MutualEdge.InitRuns
import MutualEdge.Reasons

/-! Runs that end in the period check of `get_task_utilpower`.

    The reader compares the unscaled execution time of a task with its period; the levels and memory
    types a gene draws scale it. An evaluation of a gene with an overrunning task ends the process, and
    `init_gene` can draw every gene that fits into the memory, so a configuration is safe from it exactly
    when none of these has such a task. -/

namespace MutualEdge
open Checks Choice

/-- The scaled execution time of the task is a number, and below its period. -/
structure Meets (cfg : Config) (noTask memType cpufreqType : ℕ) : Prop where
  cpufreq : 0 < (cfg.cpufreq cpufreqType).wcetScale
  mem : 0 < (cfg.mem memType).wcetScale
  lt : wcetScaled cfg noTask memType cpufreqType < (cfg.task noTask).period

instance (cfg : Config) (noTask memType cpufreqType : ℕ) :
    Decidable (Meets cfg noTask memType cpufreqType) :=
  decidable_of_iff (0 < (cfg.cpufreq cpufreqType).wcetScale ∧ 0 < (cfg.mem memType).wcetScale ∧
      wcetScaled cfg noTask memType cpufreqType < (cfg.task noTask).period)
    ⟨fun h => ⟨h.1, h.2.1, h.2.2⟩, fun h => ⟨h.cpufreq, h.mem, h.lt⟩⟩

/-- The `FATAL` of the period check. -/
def PeriodFatal (e : Halt) : Prop :=
  ∃ args, e = .fatal 3 "task[%u]: scaled wcet exceeds task period: %lf > %u" args

/-- No gene within the tables that fits into the memory has a task that overruns its period. -/
def NoneOverruns (cfg : Config) : Prop :=
  ∀ g : Gene, g.Shaped cfg → checkMemusage cfg g = true → ∀ i < cfg.nTasks, ¬ g.Overruns cfg i

section Runs
variable {mode : Mode} {cfg : Config}

theorem Meets.not_overruns {noTask memType cpufreqType : ℕ}
    (h : Meets cfg noTask memType cpufreqType) : ¬ Overruns cfg noTask memType cpufreqType := by
  rintro (⟨_, h0 | h0⟩ | hle)
  · exact absurd h0 h.cpufreq.ne'
  · exact absurd h0 h.mem.ne'
  · exact absurd h.lt (not_lt.mpr hle)

/-- Tasks that meet their periods at every level with every memory type do so in every gene. -/
theorem noneOverruns_of_meets (h : ∀ i < cfg.nTasks, ∀ m < cfg.nMems, ∀ f < cfg.nCpufreqs,
    Meets cfg i m f) : NoneOverruns cfg := by
  intro g hg _ i hi
  exact (h i hi _ (hg.mem.getD_lt hi) _ (hg.cpufreq.getD_lt hi)).not_overruns

theorem periodFatal_periodExceeded (g : Gene) (i : ℕ) : PeriodFatal (g.periodExceeded cfg i) :=
  ⟨_, rfl⟩

theorem not_periodFatal {e : Halt} (h : ∀ n fmt args, e ≠ .fatal n fmt args) : ¬ PeriodFatal e := by
  rintro ⟨args, rfl⟩
  exact h _ _ _ rfl

/-- An evaluation of a gene of the program does not end in the period check. -/
theorem NoneOverruns.eval (h : NoneOverruns cfg) {g : Gene} (hg : g.Shaped cfg)
    (hm : checkMemusage cfg g = true) {e : Halt} (he : checkUtilpower mode cfg g = .error e) :
    ¬ PeriodFatal e := by
  rcases checkUtilpower_error he with ⟨i, hi, hbad, _⟩ | ⟨_, rfl⟩
  · exact absurd hbad (h g hg hm i hi)
  · exact not_periodFatal (by simp)

/-! ### With genes that keep to the periods -/

section Safe
variable (h : NoneOverruns cfg)
include h

theorem NoneOverruns.initTry {k : ℕ} {p : Pop} (hinv : GaInv mode cfg (.trying k, p)) :
    Fails (initTry mode cfg k p) (¬ PeriodFatal ·) := by
  have hz : ¬ PeriodFatal .sigfpe := not_periodFatal (by simp)
  refine fails_initTry (not_periodFatal (by simp)) (fun _ => hz) (fun _ => hz) ?_ ?_
  · intro hm e he
    exact h.eval (hinv.inWork k rfl).2 hm he
  · intro g _ e he
    rw [sortGene_error he]
    exact not_periodFatal (by simp)

theorem NoneOverruns.initGene {k : ℕ} {p : Pop} (hinv : GaInv mode cfg (.fresh k, p))
    (hk : k < cfg.nPops) : Fails (initGene mode cfg k p) (¬ PeriodFatal ·) := by
  refine (fails_assignGene (not_periodFatal (by simp)) (fun _ _ => not_periodFatal (by simp)) _).bind
    fun g hg => ?_
  refine Fails.attempts (I := fun p => GaInv mode cfg (.trying k, p)) ?_ (fun _ => h.initTry) ?_
    (hinv.assign hk hg)
  · rintro q ⟨args, hargs⟩
    simp [utilizationTooHigh, Gene.utilizationTooHigh] at hargs
  · intro q q' hq hr
    exact gaInv_step hq (.repair hr)

theorem NoneOverruns.initGenes {n k : ℕ} {p : Pop} (hinv : GaInv mode cfg (.fresh k, p))
    (hk : k + n = cfg.nPops) : Fails (initGenes mode cfg n k p) (¬ PeriodFatal ·) := by
  induction n generalizing k p with
  | zero => exact Fails.pure _
  | succ n ih =>
    refine (h.initGene hinv (by omega)).bind fun q hq => ih ?_ (by omega)
    exact (gaSystem mode cfg).invariant_steps (fun _ _ hs hstep => gaInv_step hs hstep) hinv
      (initGene_steps (by omega) hq)

theorem NoneOverruns.doCrossover {b g1 g2 kr kc km : ℕ} {p : Pop}
    (hinv : GaInv mode cfg (.breeding b, p)) (h1 : g1 ∈ members cfg (.breeding b))
    (h2 : g2 ∈ members cfg (.breeding b)) (hr : kr ≤ cfg.nTasks) (hc : kc ≤ cfg.nTasks)
    (hm : km ≤ cfg.nTasks) {e : Halt}
    (he : doCrossover mode cfg p b g1 g2 kr kc km = .error e) : ¬ PeriodFatal e := by
  rcases doCrossover_reasons he with rfl | rfl | ⟨hcheck, he⟩
  · exact not_periodFatal (by simp)
  · exact not_periodFatal (by simp)
  · rw [Pop.gene_setGene_self (hinv.inWork_lt rfl)] at hcheck he
    refine h.eval ?_ hcheck he
    exact inheritGene_shaped (hinv.inWork b rfl).2 (hinv.shaped g1 h1) (hinv.shaped g2 h2) hr hc hm

theorem NoneOverruns.attempt {b : ℕ} {p : Pop} (hinv : GaInv mode cfg (.breeding b, p)) :
    Fails (attempt mode cfg b p) (¬ PeriodFatal ·) := by
  have hs : ¬ PeriodFatal .starved := not_periodFatal (by simp)
  have hsel : ∀ r e, selectGeneOf cfg p r = .error e → ¬ PeriodFatal e := by
    intro r e he
    rcases selectGeneOf_reasons he with rfl | rfl | rfl | rfl <;> exact not_periodFatal (by simp)
  have hpt : Fails (drawCrosspt cfg) (¬ PeriodFatal ·) :=
    (fails_getRand hs fun _ => not_periodFatal (by simp)).bind fun _ _ => Fails.pure _
  have hselect : Fails (selectGene cfg p) (¬ PeriodFatal ·) :=
    Fails.bind (Fails.next hs) fun r _ => Fails.lift (hsel r)
  refine hselect.bind fun g1 h1 => ?_
  refine Fails.bind (Fails.retry hs fun d e he => ?_) fun g2 h2 => ?_
  · rcases bind_error.mp he with he | ⟨_, _, he⟩
    · exact hsel d e he
    · cases he
  obtain ⟨hm1, hm2, hne⟩ := hinv.parents h1 h2
  refine hpt.bind fun kr hkr => hpt.bind fun kc hkc => hpt.bind fun km hkm => Fails.lift fun e he => ?_
  by_cases hn : 1 ≤ cfg.nTasks
  · exact h.doCrossover hinv hm1 hm2 (drawCrosspt_le hn hkr) (drawCrosspt_le hn hkc)
      (drawCrosspt_le hn hkm) he
  · -- without a task no evaluation overruns
    rcases doCrossover_reasons he with rfl | rfl | ⟨_, he⟩
    · exact not_periodFatal (by simp)
    · exact not_periodFatal (by simp)
    · rcases checkUtilpower_error he with ⟨i, hi, _⟩ | ⟨_, rfl⟩
      · omega
      · exact not_periodFatal (by simp)

end Safe

/-- Without a population there is nothing to breed. -/
theorem fails_crossover_period (h : 0 < cfg.nPops → NoneOverruns cfg) {p : Pop}
    (hinv : GaInv mode cfg (.boundary, p)) : Fails (crossover mode cfg p) (¬ PeriodFatal ·) := by
  refine (Fails.lift fun e he => ?_).bind fun r hr => ?_
  · unfold getNewborn at he
    split at he
    · cases he
    · rw [← Except.error.inj he]
      exact not_periodFatal (by simp)
  · obtain ⟨b, q⟩ := r
    have hbreed := hinv.remove (returns_lift.mp hr)
    have hnone := h (Nat.zero_lt_of_lt (hbreed.inWork b rfl).1)
    refine Fails.attempts (I := fun q => GaInv mode cfg (.breeding b, q)) ?_
      (fun _ => hnone.attempt) ?_ hbreed
    · rintro q ⟨args, hargs⟩
      simp at hargs
    · intro q q' hq hstep
      exact gaInv_step hq (.reject hstep)

theorem fails_generations_period (h : 0 < cfg.nPops → NoneOverruns cfg) {n : ℕ} {p : Pop}
    (hinv : GaInv mode cfg (.boundary, p)) : Fails (generations mode cfg n p) (¬ PeriodFatal ·) := by
  induction n generalizing p with
  | zero => exact Fails.pure _
  | succ n ih =>
    exact (fails_crossover_period h hinv).bind fun _ hq => ih (crossover_gaInv hinv hq)

theorem fails_evolve_period (h : 0 < cfg.nPops → NoneOverruns cfg) (n : ℕ) :
    Fails (evolve mode cfg n) (¬ PeriodFatal ·) := by
  refine Fails.bind ?_ fun p hp => fails_generations_period h (initPopulations_gaInv hp)
  rcases Nat.eq_zero_or_pos cfg.nPops with h0 | hn
  · rw [initPopulations, h0]
    exact Fails.pure _
  · exact (h hn).initGenes gaInv_init (Nat.zero_add _)

/-! ### With a gene that does not -/

/-- Which tasks overrun depends on the attributes only. -/
theorem SameAttrs.overruns {g g' : Gene} (h : SameAttrs g g') (i : ℕ) :
    g'.Overruns cfg i ↔ g.Overruns cfg i := by
  unfold Gene.Overruns Taskattrs.attr
  rw [h.mem, h.cpufreq]

/-- The first gene can be given the attributes of any gene within the tables; an evaluation of it ends
    the process. -/
theorem initGene_overruns (mode : Mode) (hn : 0 < cfg.nPops) {g : Gene} (hg : g.Shaped cfg)
    (hm : checkMemusage cfg g = true) {i : ℕ} (hi : i < cfg.nTasks) (hbad : g.Overruns cfg i) :
    ∃ ds e, Stops (MutualEdge.initGene mode cfg 0 (emptyPop cfg.nPops)) ds e ∧ PeriodFatal e := by
  obtain ⟨g', hread, hgm, hgf, hgc⟩ :=
    assignGene_reads hg.mem hg.cpufreq hg.cloud ((emptyPop cfg.nPops).gene 0)
  have hs := assignGene_shaped hread.returns
  have hsame : SameAttrs g g' := ⟨hgm.symm, hgf.symm, hgc.symm, by rw [hg.ratio, hs.ratio]⟩
  obtain ⟨j, hj, hjbad, hfirst⟩ := exists_first (P := fun i => g'.Overruns cfg i)
    ((hsame.overruns i).mpr hbad)
  have herr : checkUtilpower mode cfg g' = .error (g'.periodExceeded cfg j) :=
    (checkUtilpower_spec mode cfg g').2 j (by omega) hjbad hfirst
  have hgene : (((emptyPop cfg.nPops).setGene 0 g').initLists 0).gene 0 = g' :=
    Pop.gene_setGene_self (by simpa [emptyPop] using hn) g'
  have htry : Stops (MutualEdge.initTry mode cfg 0 ((emptyPop cfg.nPops).setGene 0 g')) []
      (g'.periodExceeded cfg j) := by
    rw [MutualEdge.initTry]
    dsimp only
    rw [hgene, if_neg (by rw [← hsame.checkMemusage, hm]; simp), herr]
    exact (Stops.lift rfl).bind _
  exact ⟨_, _, hread.bind_stops htry.attempts, periodFatal_periodExceeded g' j⟩

end Runs

/-- `smallConf` with a period that the first task fills at the slower level. -/
def tightConf : Config :=
  smallConfOf [⟨1, 1000, 2000, 1000, 1 / 2, 500, 100, 100, 0⟩,
    ⟨2, 2000, 8000, 2000, 1 / 4, 500, 100, 100, 0⟩] [0]

theorem tightConf_accepted : Accepted tightConf :=
  ⟨smallFile [⟨"1000 2000 1000 0.5 500 100 100 0", some ⟨0, 1000, 2000, 1000, 1 / 2, 500, 100, 100, 0⟩⟩,
    ⟨"2000 8000 2000 0.25 500 100 100 0", some ⟨0, 2000, 8000, 2000, 1 / 4, 500, 100, 100, 0⟩⟩]
    [⟨"0", some 0⟩], by decide +kernel⟩

end MutualEdge
