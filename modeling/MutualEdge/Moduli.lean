import MutualEdge.InitRuns
import MutualEdge.Reasons

/-! The moduli of `get_rand`: when a run can come to a remainder by zero.

    Each call site takes its modulus from counts the parser leaves unchecked. `Trapless` says that
    whatever makes a program stop is not a remainder by zero; the rules follow the program. -/

namespace MutualEdge
open Checks Choice LinkRing

/-- Nothing that stops the program is a remainder by zero. -/
abbrev Trapless {α : Type} (x : Rand α) : Prop := Fails x (· ≠ .sigfpe)

/-- A run of the program never comes to a remainder by zero. -/
def NoModuloByZero (mode : Mode) (cfg : Config) : Prop :=
  ∀ ds, evolve mode cfg cfg.maxGen ds ≠ .error .sigfpe

/-! ### The initial genes -/

/-- The tables the first draws of a gene select from: none is empty while there are tasks to draw for.
    Without a task nothing is to be repaired, or the evaluation ends at the empty table of levels. -/
def InitDrawable (cfg : Config) : Prop :=
  (cfg.nTasks = 0 ∧ (0 ≤ cfg.cutoff ∨ cfg.nCpufreqs = 0)) ∨
    (0 < cfg.nTasks ∧ 0 < cfg.nMems ∧ 0 < cfg.nClouds)

section Init
variable {mode : Mode} {cfg : Config}

theorem Accepted.cpufreqs_pos (hcfg : Accepted cfg) (ht : 0 < cfg.nTasks) : 0 < cfg.nCpufreqs :=
  List.length_pos_iff.mpr (hcfg.wellFormed.tasks_cpufreqs (List.length_pos_iff.mp ht))

theorem trapless_assignGene (hcfg : Accepted cfg) (hd : InitDrawable cfg) (g : Gene) :
    Trapless (assignGene cfg g) := by
  have htables : 0 < cfg.nTasks → 0 < cfg.nMems ∧ 0 < cfg.nClouds := by
    intro ht
    rcases hd with ⟨h0, _⟩ | ⟨_, hm, hc⟩
    · omega
    · exact ⟨hm, hc⟩
  refine fails_assignGene (by simp) (fun ht h => ?_) g
  have hf := hcfg.cpufreqs_pos ht
  have hmc := htables ht
  omega

theorem trapless_initTry (hcfg : Accepted cfg) (hd : InitDrawable cfg) (k : ℕ) (p : Pop) :
    Trapless (initTry mode cfg k p) := by
  have heval : ∀ g e, checkUtilpower mode cfg g = .error e → e ≠ .sigfpe := by
    intro g e h
    rcases checkUtilpower_error h with ⟨i, _, _, rfl⟩ | ⟨_, rfl⟩
    · simp [Gene.periodExceeded, periodExceeded]
    · simp
  have hsort : ∀ q e, sortGene q k = .error e → e ≠ .sigfpe := by
    intro q e h
    rw [sortGene_error h]
    simp
  rcases hd with ⟨h0, hc⟩ | ⟨ht, hm, _⟩
  · -- no task: the gene fits into the memory, and passes the other check unless that ends the process
    rw [initTry]
    dsimp only
    rw [if_neg (by rw [checkMemusage_of_no_task h0]; simp)]
    refine (Fails.lift (heval _)).bind fun r hr => ?_
    rcases Nat.eq_zero_or_pos cfg.nCpufreqs with hf | hf
    · have hnone := returns_lift.mp hr
      rw [checkUtilpower_of_empty mode h0 hf] at hnone
      cases hnone
    · obtain ⟨g', hg'⟩ := checkUtilpower_of_no_task mode h0 hf ((p.initLists k).gene k)
      rw [decide_eq_true (hc.resolve_right (by omega))] at hg'
      obtain rfl : r = (true, g') := Except.ok.inj ((returns_lift.mp hr).symm.trans hg')
      exact (Fails.lift (hsort _)).bind fun _ _ => Fails.pure _
  · have hf := hcfg.cpufreqs_pos ht
    exact fails_initTry (by simp) (by omega) (by omega) (fun _ => heval _) fun _ _ => hsort _

theorem trapless_initGene (hcfg : Accepted cfg) (hd : InitDrawable cfg) (k : ℕ) (p : Pop) :
    Trapless (initGene mode cfg k p) := by
  refine (trapless_assignGene hcfg hd _).bind fun g _ => ?_
  exact Fails.attempts (I := fun _ => True) (by simp [utilizationTooHigh, Gene.utilizationTooHigh])
    (fun p _ => trapless_initTry hcfg hd k p)
    (fun _ _ _ _ => trivial) trivial

theorem trapless_initGenes (hcfg : Accepted cfg) (hd : InitDrawable cfg) {n k : ℕ} {p : Pop} :
    Trapless (initGenes mode cfg n k p) := by
  induction n generalizing k p with
  | zero => exact Fails.pure _
  | succ n ih => exact (trapless_initGene hcfg hd k p).bind fun _ _ => ih

end Init

/-! ### Crossover -/

/-- The draws of a crossover: parents from positions below a maximum that is not zero, and points
    below `n_tasks - 1`, unless no two parents can be drawn. -/
def BreedDrawable (cfg : Config) : Prop :=
  0 < selectMax cfg.nPops ∧ (cfg.nTasks % 2 ^ 32 ≠ 1 ∨ ¬ TwoDrawable cfg.nPops)

section Crossover
variable {mode : Mode} {cfg : Config} {b : ℕ} {p : Pop}

theorem selectGeneOf_error (hm : 0 < selectMax cfg.nPops) {r : ℕ} {e : Halt}
    (h : selectGeneOf cfg p r = .error e) : e ≠ .sigfpe := by
  rcases bind_error.mp h with h | ⟨position, _, h⟩
  · exact selectPosition_error hm h
  · split at h
    · cases h
    · split at h
      · cases h
      · obtain rfl := Except.error.inj h
        simp
    · obtain rfl := Except.error.inj h
      simp

theorem doCrossover_error {w g1 g2 kr kc km : ℕ} {e : Halt}
    (h : doCrossover mode cfg p w g1 g2 kr kc km = .error e) : e ≠ .sigfpe := by
  rcases doCrossover_reasons h with rfl | rfl | ⟨_, h⟩
  · simp
  · simp
  · rcases checkUtilpower_error h with ⟨i, _, _, rfl⟩ | ⟨_, rfl⟩
    · simp [Gene.periodExceeded, periodExceeded]
    · simp

theorem trapless_drawCrosspt (ht : cfg.nTasks % 2 ^ 32 ≠ 1) : Trapless (drawCrosspt cfg) := by
  refine (fails_getRand (by simp) ?_).bind fun _ _ => Fails.pure _
  unfold u32
  omega

theorem trapless_attempt (hd : BreedDrawable cfg) (hinv : GaInv mode cfg (.breeding b, p)) :
    Trapless (attempt mode cfg b p) := by
  obtain ⟨hmax, hcross⟩ := hd
  obtain ⟨l, hl⟩ := hinv.selects
  refine Fails.bind ?_ fun g1 h1 => ?_
  · exact (Fails.next (by simp)).bind fun _ _ => Fails.lift fun _ => selectGeneOf_error hmax
  refine Fails.bind ?_ fun g2 h2 => ?_
  · refine Fails.retry (by simp) fun d e h => ?_
    rcases bind_error.mp h with h | ⟨_, _, h⟩
    · exact selectGeneOf_error hmax h
    · cases h
  -- two parents were drawn, so the points are drawn below a positive number
  have ht : cfg.nTasks % 2 ^ 32 ≠ 1 := hcross.resolve_right fun hno => hno (hl.twoDrawable h1 h2)
  refine (trapless_drawCrosspt ht).bind fun _ _ => ?_
  refine (trapless_drawCrosspt ht).bind fun _ _ => ?_
  refine (trapless_drawCrosspt ht).bind fun _ _ => ?_
  exact Fails.lift fun _ => doCrossover_error

theorem trapless_crossover (hd : BreedDrawable cfg ∨ cfg.nPops = 0)
    (hinv : GaInv mode cfg (.boundary, p)) : Trapless (crossover mode cfg p) := by
  refine Fails.bind (Fails.lift ?_) ?_
  · intro e h
    unfold getNewborn at h
    split at h
    · cases h
    · obtain rfl := Except.error.inj h
      simp
  · rintro ⟨b, q⟩ hr
    have hb := returns_lift.mp hr
    have hq := hinv.remove hb
    have hbreed : BreedDrawable cfg :=
      hd.resolve_right fun h0 => absurd (hq.inWork b rfl).1 (by simp [h0])
    refine Fails.attempts (I := fun q => GaInv mode cfg (.breeding b, q)) (by simp)
      (fun q hq => trapless_attempt hbreed hq) ?_ hq
    intro q q' hq hstep
    exact gaInv_step hq (.reject hstep)

theorem trapless_generations (hd : BreedDrawable cfg ∨ cfg.nPops = 0) {n : ℕ} {p : Pop}
    (hinv : GaInv mode cfg (.boundary, p)) : Trapless (generations mode cfg n p) := by
  induction n generalizing p with
  | zero => exact Fails.pure _
  | succ n ih =>
    exact (trapless_crossover hd hinv).bind fun _ hq => ih (crossover_gaInv hinv hq)

/-- A run of `n` generations over drawable tables comes to no remainder by zero. -/
theorem trapless_evolve (hcfg : Accepted cfg) (hi : cfg.nPops = 0 ∨ InitDrawable cfg) {n : ℕ}
    (hb : n = 0 ∨ cfg.nPops = 0 ∨ ¬ Feasible mode cfg ∨ BreedDrawable cfg) :
    Trapless (evolve mode cfg n) := by
  refine Fails.bind ?_ fun p hp => ?_
  · rcases hi with h0 | hi
    · rw [initPopulations, h0]
      exact Fails.pure _
    · exact trapless_initGenes hcfg hi
  have hinv : GaInv mode cfg (.boundary, p) := initPopulations_gaInv hp
  rcases hb with rfl | h0 | hno | hd
  · exact Fails.pure _
  · exact trapless_generations (.inr h0) hinv
  · rcases Nat.eq_zero_or_pos cfg.nPops with h0 | hpos
    · exact trapless_generations (.inr h0) hinv
    · exact absurd (hinv.feasible hpos) hno
  · exact trapless_generations (.inl hd) hinv

end Crossover

/-! ### Runs that come to a remainder by zero -/

section Stops
variable {mode : Mode} {cfg : Config}

theorem drawAttrs_stops {n : ℕ} (hn : 0 < n) : Stops (drawAttrs 0 n) [0] .sigfpe := by
  obtain ⟨n, rfl⟩ := Nat.exists_eq_succ_of_ne_zero (by omega : n ≠ 0)
  exact (getRand_stops 0).bind _

/-- With a task but without a memory type or a cloud, the first gene cannot be drawn. -/
theorem assignGene_stops (hcfg : Accepted cfg) (ht : 0 < cfg.nTasks)
    (h : cfg.nMems = 0 ∨ cfg.nClouds = 0) (g : Gene) :
    ∃ ds, Stops (assignGene cfg g) ds .sigfpe := by
  rcases Nat.eq_zero_or_pos cfg.nMems with hm | hm
  · refine ⟨[0], Stops.bind (Stops.bind ?_ _) _⟩
    rw [hm]
    exact drawAttrs_stops ht
  · have hc : cfg.nClouds = 0 := h.resolve_left (by omega)
    have hcloud : Stops (assignTaskattrs cfg.nTasks cfg.nClouds g.taskattrsCloud) [0] .sigfpe := by
      rw [hc]
      exact (drawAttrs_stops ht).bind _
    exact ⟨_, (assignTaskattrs_reads (within_replicate hm) _).bind_stops
      ((assignTaskattrs_reads (within_replicate (hcfg.cpufreqs_pos ht)) _).bind_stops
        (hcloud.bind _))⟩

/-- Without a task nothing can be lowered. -/
theorem lowerUtilization_stops (h0 : cfg.nTasks = 0) (g : Gene) :
    ∃ ds, Stops (lowerUtilization cfg g) ds .sigfpe := by
  have hattr : ∀ t, Stops (lowerUtilizationByAttr cfg.nTasks t) [0] .sigfpe := by
    intro t
    rw [h0]
    exact (getRand_stops 0).bind _
  rcases Nat.eq_zero_or_pos (cfg.nCpufreqs + cfg.nOffloadingratios) with hz | hpos
  · refine ⟨[0], Stops.bind ?_ _⟩
    rw [hz]
    exact getRand_stops 0
  · refine ⟨[0] ++ [0], (getRand_reads hpos).bind_stops ?_⟩
    split
    · exact ((hattr _).bind _).bind _
    · exact ((hattr _).bind _).bind _

/-- Without tables to draw from, or without a task to lower, the first gene stops the process. -/
theorem initGene_stops (mode : Mode) (hcfg : Accepted cfg) (h : ¬ InitDrawable cfg) :
    ∃ ds, Stops (initGene mode cfg 0 (emptyPop cfg.nPops)) ds .sigfpe := by
  rcases Nat.eq_zero_or_pos cfg.nTasks with h0 | ht
  · have hc : ¬ 0 ≤ cfg.cutoff := fun hc => h (.inl ⟨h0, .inl hc⟩)
    have hf : 0 < cfg.nCpufreqs := Nat.pos_of_ne_zero fun hf => h (.inl ⟨h0, .inr hf⟩)
    have hnil : ∀ bound, Within cfg.nTasks bound [] := fun _ => ⟨h0.symm, by simp⟩
    obtain ⟨g, hg, _⟩ := assignGene_reads (hnil _) (hnil _) (hnil _) ((emptyPop cfg.nPops).gene 0)
    obtain ⟨g', hg'⟩ := checkUtilpower_of_no_task mode h0 hf
      ((((emptyPop cfg.nPops).setGene 0 g).initLists 0).gene 0)
    rw [decide_eq_false hc] at hg'
    obtain ⟨ds, hds⟩ := lowerUtilization_stops h0
      (((((emptyPop cfg.nPops).setGene 0 g).initLists 0).setGene 0 g').gene 0)
    have htry : Stops (initTry mode cfg 0 ((emptyPop cfg.nPops).setGene 0 g)) ([] ++ ds)
        .sigfpe := by
      rw [initTry]
      dsimp only
      rw [if_neg (by rw [checkMemusage_of_no_task h0]; simp), hg']
      exact (Reads.lift rfl).bind_stops (hds.bind _)
    exact ⟨_, hg.bind_stops htry.attempts⟩
  · have htab : cfg.nMems = 0 ∨ cfg.nClouds = 0 := by
      by_contra hne
      push Not at hne
      exact h (.inr ⟨ht, Nat.pos_of_ne_zero hne.1, Nat.pos_of_ne_zero hne.2⟩)
    obtain ⟨ds, hds⟩ := assignGene_stops hcfg ht htab ((emptyPop cfg.nPops).gene 0)
    exact ⟨ds, hds.bind _⟩

/-- With one task and two drawable parents, or a maximum of zero, the first crossover cannot be
    drawn. -/
theorem crossover_stops (hn : 0 < cfg.nPops) (h : ¬ BreedDrawable cfg) {p : Pop}
    (hinv : GaInv mode cfg (.boundary, p)) : ∃ ds, Stops (crossover mode cfg p) ds .sigfpe := by
  have hne : List.range cfg.nPops ≠ [] := by
    rw [Ne, List.range_eq_nil]
    omega
  obtain ⟨b, _, hlast, _⟩ := hinv.listed.byScore.last hne
  have hb : getNewborn p = .ok (b, p.delLists b) := by rw [getNewborn, hlast]
  obtain ⟨l, hl⟩ := (hinv.remove hb).selects
  have hattempt : ∃ ds, Stops (attempt mode cfg b (p.delLists b)) ds .sigfpe := by
    by_cases hmax : selectMax cfg.nPops = 0
    · refine ⟨[0] ++ [], Stops.bind ((Reads.next _ 0).bind_stops (Stops.lift ?_)) _⟩
      exact bind_error.mpr (.inl (selectPosition_max_zero hmax 0))
    · have hone : cfg.nTasks % 2 ^ 32 = 1 ∧ TwoDrawable cfg.nPops := by
        by_contra hno
        refine h ⟨Nat.pos_of_ne_zero hmax, ?_⟩
        by_cases ht : cfg.nTasks % 2 ^ 32 = 1
        · exact .inr fun h2 => hno ⟨ht, h2⟩
        · exact .inl ht
      obtain ⟨ht, p1, p2, ⟨r1, hp1⟩, ⟨r2, hp2⟩, hne12⟩ := hone
      -- two different places of a list without repetitions
      have hlen : l.length = cfg.nPops - 1 := hl.length
      have hlne : l ≠ [] := by
        rw [← List.length_pos_iff]
        omega
      have hsel1 := (hl.selects r1 _).mpr ⟨hlne, p1, hp1, rfl⟩
      have hsel2 := (hl.selects r2 _).mpr ⟨hlne, p2, hp2, rfl⟩
      have hdiff : l.getD (min p2 (cfg.nPops - 2)) 0 ≠ l.getD (min p1 (cfg.nPops - 2)) 0 := by
        rw [List.getD_eq_getElem _ _ (by omega), List.getD_eq_getElem _ _ (by omega)]
        intro heq
        exact hne12 ((hl.nodup.getElem_inj_iff.mp heq).symm)
      have hpoint : Stops (drawCrosspt cfg) [0] .sigfpe := by
        have h0 : u32 (cfg.nTasks + (2 ^ 32 - 1)) = 0 := by
          unfold u32
          omega
        rw [drawCrosspt, h0]
        exact (getRand_stops 0).bind _
      exact ⟨[r1] ++ ([r2] ++ [0]), (selectGene_reads hsel1).bind_stops
        ((selectOther_reads hsel2 hdiff).bind_stops (hpoint.bind _))⟩
  obtain ⟨ds, hds⟩ := hattempt
  exact ⟨[] ++ ds, (Reads.lift hb).bind_stops hds.attempts⟩

end Stops

/-- `smallConf` with its first task only. -/
def oneTaskConf : Config := { smallConf with tasks := smallConf.tasks.take 1 }

/-- `smallConf` without its cloud section. -/
def noCloudConf : Config := { smallConf with clouds := [] }

end MutualEdge
