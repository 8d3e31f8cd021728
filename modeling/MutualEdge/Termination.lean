import MutualEdge.Balancing
import MutualEdge.Outputs

/-! Whether the whole run comes to an end.

    `run_GA` has two loops without a bound, the draw of another memory type in `balance_mem_types` and
    that of a second parent in `crossover`. On a stream of draws that keeps offering every memory type
    and every value below the maximum of `select_position` both come to an end, and with them the run:
    with a result, or in one of four `FATAL`s. -/

namespace MutualEdge
open Checks Choice

/-- The `FATAL`s in which a run can end. -/
inductive RunFatal : Halt → Prop where
  | initial (k : ℕ) (p : Pop) : RunFatal (utilizationTooHigh k p)
  | period {e : Halt} (h : PeriodFatal e) : RunFatal e
  | crossover : RunFatal (.fatal 3 "cannot execute crossover" [])
  | overUtilized (util : ℚ) : RunFatal (.fatal 2 "over-utilized gene: %lf" [.num util])

/-! ### Parents -/

section Parents
variable {mode : Mode} {cfg : Config} {b : ℕ} {p : Pop} {s : ℕ → ℕ} {E : Halt → Prop}

/-- `select_position` looks at the draw modulo its maximum. -/
theorem selectGeneOf_mod (hn : 0 < cfg.nPops) (hm : 0 < selectMax cfg.nPops) {r r' : ℕ}
    (h : r % selectMax cfg.nPops = r' % selectMax cfg.nPops) :
    selectGeneOf cfg p r = selectGeneOf cfg p r' := by
  rw [selectGeneOf, selectGeneOf, selectPosition_kvalue hn hm, selectPosition_kvalue hn hm, h]

theorem finishes_selectGene (h : GaInv mode cfg (.breeding b, p)) (htells : TellsApart cfg.nPops) :
    Finishes s (selectGene cfg p) (fun _ => True) E := by
  obtain ⟨h3, hm⟩ := htells.three_le
  obtain ⟨l, hl⟩ := h.selects
  refine Finishes.next.bind fun r _ _ => Finishes.lift (fun _ _ => trivial) fun e he => ?_
  obtain ⟨i, -, hi⟩ := hl.all (by omega) hm r
  rw [hi] at he
  cases he

/-- A gene other than the first parent comes up. -/
theorem finishes_selectOther (h : GaInv mode cfg (.breeding b, p)) (htells : TellsApart cfg.nPops)
    (hs : Fair (selectMax cfg.nPops) s) {g1 : ℕ} (h1 : Returns (selectGene cfg p) g1) :
    Finishes s (selectOther cfg p g1) (fun _ => True) E := by
  obtain ⟨h3, hm⟩ := htells.three_le
  obtain ⟨l, hl⟩ := h.selects
  refine Finishes.retry (fun i => ?_) (fun _ _ _ => trivial) fun d e he => ?_
  · obtain ⟨r, g2, hr, hne⟩ := hl.other (twoDrawable_iff.mpr htells) h1
    obtain ⟨k, hk, hsk⟩ := hs (r % selectMax cfg.nPops) (Nat.mod_lt r hm) i
    refine ⟨k, hk, fun hnone => ?_⟩
    obtain ⟨g2', hg2', hnone⟩ := bind_ok.mp hnone
    rw [selectGeneOf_mod (by omega) hm hsk, hr, Except.ok.injEq] at hg2'
    rw [← hg2', if_pos hne] at hnone
    cases pure_ok.mp hnone
  · rcases bind_error.mp he with he | ⟨_, _, he⟩
    · obtain ⟨i, -, hi⟩ := hl.all (by omega) hm d
      rw [hi] at he
      cases he
    · cases he

end Parents

/-! ### Generations -/

section Generations
variable {mode : Mode} {cfg : Config} {b : ℕ} {p : Pop} {s : ℕ → ℕ}

/-- With points within the tasks the period check is all that ends the process. -/
theorem doCrossover_fatal (h : GaInv mode cfg (.breeding b, p)) (ht : 0 < cfg.nTasks)
    {g1 g2 kr kc km : ℕ} (hr : kr ≤ cfg.nTasks) (hc : kc ≤ cfg.nTasks) (hm : km ≤ cfg.nTasks) {e : Halt}
    (he : doCrossover mode cfg p b g1 g2 kr kc km = .error e) : PeriodFatal e := by
  have hnot : b ∉ members cfg (.breeding b) := inWork_not_mem rfl
  rw [doCrossover, if_neg (by omega)] at he
  dsimp only at he
  split at he
  · cases he
  · rcases bind_error.mp he with he | ⟨r, _, he⟩
    · rcases checkUtilpower_error he with ⟨i, _, _, rfl⟩ | ⟨hf, _⟩
      · exact periodFatal_periodExceeded _ _
      · exact absurd ((h.inWork b rfl).2.cpufreq.getD_lt ht) (by omega)
    · split at he
      · cases he
      · split at he
        · cases he
        · -- the newborn is on no list, so it can be sorted in
          obtain ⟨q, hq, -, -⟩ := sortGene_listed
            ((h.listed.setGene hnot _).setGene hnot r.2) hnot
            (((h.unlisted b rfl).setGene b _).setGene b r.2) (by simpa using h.members_length)
          rw [hq] at he
          cases he

theorem finishes_drawCrosspt {E : Halt → Prop} (h2 : 2 ≤ cfg.nTasks) (ht : cfg.nTasks < 2 ^ 32) :
    Finishes s (drawCrosspt cfg) (fun _ => True) E := by
  have hpos : 0 < u32 (cfg.nTasks + (2 ^ 32 - 1)) := by
    unfold u32
    omega
  exact (finishes_getRand hpos).bind fun _ _ _ => Finishes.pure trivial

variable (htells : TellsApart cfg.nPops) (h2 : 2 ≤ cfg.nTasks) (ht : cfg.nTasks < 2 ^ 32)
  (hs : Fair (selectMax cfg.nPops) s)
include htells h2 ht hs

theorem finishes_attempt (h : GaInv mode cfg (.breeding b, p)) :
    Finishes s (attempt mode cfg b p) (fun _ => True) RunFatal := by
  have hpoint : Finishes s (drawCrosspt cfg) (fun _ => True) RunFatal := finishes_drawCrosspt h2 ht
  refine (finishes_selectGene h htells).bind fun g1 _ h1 => ?_
  refine (finishes_selectOther h htells hs h1).bind fun g2 _ _ => ?_
  refine hpoint.bind fun kr _ hr => hpoint.bind fun kc _ hc => hpoint.bind fun km _ hm => ?_
  refine Finishes.lift (fun _ _ => trivial) fun e he => .period ?_
  exact doCrossover_fatal h (by omega) (drawCrosspt_le (by omega) hr) (drawCrosspt_le (by omega) hc)
    (drawCrosspt_le (by omega) hm) he

theorem finishes_crossover (h : GaInv mode cfg (.boundary, p)) :
    Finishes s (crossover mode cfg p) (fun _ => True) RunFatal := by
  have hne : List.range cfg.nPops ≠ [] := by
    rw [Ne, List.range_eq_nil]
    have := htells.three_le.1
    omega
  obtain ⟨b, _, hlast, _⟩ := h.listed.byScore.last hne
  have hb : getNewborn p = .ok (b, p.delLists b) := by rw [getNewborn, hlast]
  rw [crossover, hb]
  refine Finishes.bind (P := fun r => r = (b, p.delLists b))
    (Finishes.lift (fun _ hr => (Except.ok.inj hr).symm) (by rintro _ ⟨⟩)) fun r hr _ => ?_
  subst hr
  exact Finishes.attempts (I := fun q => GaInv mode cfg (.breeding b, q)) (fun _ => .crossover)
    (fun q hq => finishes_attempt htells h2 ht hs hq) (fun _ _ hq hr => gaInv_step hq (.reject hr))
    (h.remove hb)

theorem finishes_gaRound {t : GaState} (h : GaInv mode cfg (.boundary, t.pop)) :
    Finishes s (gaRound mode cfg t) (fun _ => True) RunFatal := by
  refine (finishes_crossover htells h2 ht hs h).bind fun p _ hp => ?_
  obtain ⟨r, hr⟩ := addReport_isOk (crossover_gaInv h hp) (by have := htells.three_le.1; omega)
    (u32 (t.gen + 1)) t.report
  dsimp only
  rw [hr]
  exact (Finishes.lift (P := fun _ => True) (fun _ _ => trivial) (by rintro _ ⟨⟩)).bind
    fun _ _ _ => Finishes.pure trivial

end Generations

/-! ### The run -/

section Run
variable {mode : Mode} {cfg : Config} {s : ℕ → ℕ}

/-- The counter reaches `max_gen`. -/
theorem finishes_gaLoop (h : CanEnd cfg) (ht : cfg.nTasks < 2 ^ 32)
    (hs : Fair (selectMax cfg.nPops) s) (n : ℕ) {k : ℕ} {t : GaState} (hat : AtLoop mode cfg k t)
    (hn : k + n = cfg.maxGen) : Finishes s (gaLoop mode cfg t) (fun _ => True) RunFatal := by
  have hcounter := h.counter
  have hgen : t.gen = k + 1 := by rw [hat.gen_eq, u32_of_lt (by omega)]
  induction n generalizing k t with
  | zero =>
    rw [gaLoop_eq, if_neg (by omega)]
    exact Finishes.pure trivial
  | succ n ih =>
    have hmore : t.gen ≤ cfg.maxGen := by omega
    obtain ⟨htells, h2⟩ := h.breeds (by omega)
    rw [gaLoop_eq, if_pos hmore]
    refine (finishes_gaRound htells h2 ht hs hat.gaInv).bind fun t' _ ht' => ?_
    have hat' : AtLoop mode cfg (k + 1) t' := .round hat hmore ht'
    exact ih hat' (by omega) (by rw [hat'.gen_eq, u32_of_lt (by omega)])

theorem finishes_initGenes (h : InitEnds mode cfg GivesUpOrOverruns) (hs : Fair cfg.nMems s) (n : ℕ)
    {k : ℕ} {p : Pop} (hp : (gaSystem mode cfg).Reachable (.fresh k, p)) (hn : k + n = cfg.nPops) :
    Finishes s (initGenes mode cfg n k p) (fun _ => True) RunFatal := by
  induction n generalizing k p with
  | zero => exact Finishes.pure trivial
  | succ n ih =>
    have hfatal : ∀ e, GivesUpOrOverruns k e → RunFatal e := by
      rintro e (⟨q, rfl⟩ | hperiod)
      · exact .initial k q
      · exact .period hperiod
    have hgene := (h.ends k p hp (by omega) s hs).mono (fun _ h => h) hfatal
    exact hgene.bind fun q _ hq => ih (hp.steps (initGene_steps (by omega) hq)) (by omega)

/-- What the run leaves is written, unless its best gene is over-utilized. -/
theorem saveTaskInfos_fatal {p : Pop} (h : GaInv mode cfg (.boundary, p)) (hn : 0 < cfg.nPops)
    {e : Halt} (he : saveTaskInfos cfg p = .error e) : RunFatal e := by
  obtain ⟨_, _, i, _, hends⟩ := exists_ends h hn
  rcases le_or_gt (p.gene i).util 2 with hle | hlt
  · obtain ⟨infos, hinfos, _⟩ := saveTaskInfos_within hends.is_best hle
    rw [hinfos] at he
    cases he
  · rw [saveTaskInfos_above hends.is_best hlt] at he
    rw [← Except.error.inj he]
    exact .overUtilized _

/-- On every stream of draws that keeps offering every memory type and every value below the maximum of
    `select_position`, wherever in the stream it starts, the whole run comes to an end, with a result
    or in one of the four `FATAL`s: if there is something to draw and evaluate, there is a second memory
    type or no need for one, the generation counter can pass `max_gen`, and, should there be a
    generation, two tasks or more and places of the list that the selection tells apart. -/
theorem runGa_finishes (hacc : Accepted cfg) (ht : cfg.nTasks < 2 ^ 32) (hd : Startable cfg)
    (hbal : Balanceable cfg) (hend : CanEnd cfg) (hmem : Fair cfg.nMems s)
    (hsel : Fair (selectMax cfg.nPops) s) :
    Finishes s (runGa mode cfg) (fun _ => True) RunFatal := by
  have hinit : InitEnds mode cfg GivesUpOrOverruns :=
    .of_startable hacc hd hbal (fun _ _ => .inl) (.inr fun _ _ => .inr)
  have hstart : Finishes s (gaStart mode cfg) (fun _ => True) RunFatal := by
    refine (finishes_initGenes hinit hmem cfg.nPops (.of_init _ rfl) (Nat.zero_add _)).bind
      fun p _ hp => ?_
    obtain ⟨r, hr⟩ := addReport_isOk (initPopulations_gaInv hp) hend.pops 1 {}
    rw [hr]
    exact (Finishes.lift (P := fun _ => True) (fun _ _ => trivial) (by rintro _ ⟨⟩)).bind
      fun _ _ _ => Finishes.pure trivial
  refine hstart.bind fun t _ hstarted => ?_
  have hat : AtLoop mode cfg 0 t := .start hstarted
  refine (finishes_gaLoop hend ht hsel cfg.maxGen hat (Nat.zero_add _)).bind fun t' _ hloop => ?_
  obtain ⟨k, hat', _⟩ := gaLoop_completed hat hloop
  refine Finishes.bind (P := fun _ => True) (Finishes.lift (fun _ _ => trivial) fun e he => ?_)
    fun _ _ _ => Finishes.pure trivial
  exact saveTaskInfos_fatal hat'.gaInv hend.pops he

theorem runGa_finishes_gensConf :
    Finishes id (runGa .localOnly (gensConf 1)) (fun _ => True) RunFatal :=
  runGa_finishes (gensConf_accepted 1) (by decide) (.inr (by decide)) (by decide +kernel)
    ⟨by decide, by decide, fun _ => by decide⟩ (fair_id _) (fair_id _)

end Run

end MutualEdge
