import MutualEdge.Plans
import MutualEdge.Ranks
import MutualEdge.Refinement

/-! Every feasible plan can come out of a run.

    `init_gene` can draw the genes of any feasible plan. When all genes of a ranking are those of one
    plan, so are all their children, and each generation can put one back in the place of the gene it
    takes away. The plans a run can end with are therefore all the feasible ones. -/

namespace MutualEdge
open Checks Choice Ordered

/-! ### Genes that breed true -/

/-- The histograms of the bred attributes are those that counting them gives. -/
structure Gene.Settled (g : Gene) : Prop where
  mem : setupTaskattrs g.taskattrsMem = g.taskattrsMem
  cpufreq : setupTaskattrs g.taskattrsCpufreq = g.taskattrsCpufreq
  ratio : setupTaskattrs g.taskattrsOffloadingratio = g.taskattrsOffloadingratio

/-- Counting does not read what was counted before. -/
theorem setupTaskattrs_congr {t t' : Taskattrs} (h : t.attrs = t'.attrs) :
    setupTaskattrs t = setupTaskattrs t' := by
  rw [setupTaskattrs, setupTaskattrs, h]

theorem setupTaskattrs_idem (t : Taskattrs) : setupTaskattrs (setupTaskattrs t) = setupTaskattrs t :=
  setupTaskattrs_congr (setupTaskattrs_attrs t)

theorem inheritValues_self {n k : ℕ} {t : Taskattrs} (hn : t.attrs.length = n)
    (ht : setupTaskattrs t = t) : inheritValues n t t t k = t := by
  rw [inheritValues, take_append_drop_self hn]
  exact ht

/-- Bred with itself a gene gives itself, at any points. -/
theorem Gene.Settled.inherit {cfg : Config} {g : Gene} (h : g.Settled) (hs : g.Shaped cfg)
    (kr kc km : ℕ) : inheritGene cfg g g g kr kc km = g := by
  rw [inheritGene, inheritValues_self hs.mem.length h.mem,
    inheritValues_self hs.cpufreq.length h.cpufreq,
    inheritValues_self (by rw [hs.ratio, List.length_replicate]) h.ratio]

/-- The attributes of a plan. -/
def Plan.gene (cfg : Config) (plan : Plan) : Gene where
  taskattrsMem := setupTaskattrs { attrs := plan.map fun row => row.1 }
  taskattrsCpufreq := setupTaskattrs { attrs := plan.map fun row => row.2.1 }
  taskattrsCloud := setupTaskattrs { attrs := plan.map fun row => row.2.2.1 }
  taskattrsOffloadingratio := setupTaskattrs { attrs := List.replicate cfg.nTasks 0 }

section Genes
variable {cfg : Config} {plan : Plan}

theorem Plan.gene_settled (cfg : Config) (plan : Plan) : (plan.gene cfg).Settled :=
  ⟨setupTaskattrs_idem _, setupTaskattrs_idem _, setupTaskattrs_idem _⟩

theorem Plan.Feasible.shaped (h : plan.Feasible cfg) : (plan.gene cfg).Shaped cfg := by
  have hwithin : ∀ {f : ℕ × ℕ × ℕ × ℕ → ℕ} {bound : ℕ}, (∀ row ∈ plan, f row < bound) →
      Within cfg.nTasks bound (plan.map f) := by
    intro f bound hf
    refine ⟨by rw [List.length_map, h.rows], ?_⟩
    intro a ha
    obtain ⟨row, hrow, rfl⟩ := List.mem_map.mp ha
    exact hf row hrow
  refine ⟨?_, ?_, ?_, by simp [Plan.gene]⟩
  · simpa [Plan.gene] using hwithin fun row hrow => (h.tables row hrow).1
  · simpa [Plan.gene] using hwithin fun row hrow => (h.tables row hrow).2.1
  · simpa [Plan.gene] using hwithin fun row hrow => (h.tables row hrow).2.2

/-- The gene of a plan has the plan. -/
theorem Plan.Feasible.gene_plan (h : plan.Feasible cfg) : (plan.gene cfg).plan cfg = plan := by
  refine List.ext_getElem (by simp [Gene.plan, h.rows]) fun i hi hi' => ?_
  have hzero : (plan[i]).2.2.2 = 0 := h.onDevice _ (List.getElem_mem hi')
  have hlt : i < cfg.nTasks := by rw [← h.rows]; exact hi'
  simp only [Gene.plan, List.getElem_map, List.getElem_range, taskInfo, Plan.gene, Taskattrs.attr,
    setupTaskattrs_attrs]
  simp [hi', hlt, ← hzero]

/-- The gene of a feasible plan is drawn at the first try of every `init_gene`. -/
theorem Plan.Feasible.prepare_reads (hmax : cfg.nMems ≤ maxMems) (h : plan.Feasible cfg) :
    ∃ ds g, Reads (prepare .localOnly cfg) ds g ∧ g.Shaped cfg ∧ g.Valid .localOnly cfg ∧
      g.Settled ∧ g.plan cfg = plan := by
  have hs := h.shaped
  have hplan := h.gene_plan
  have hassign : Reads (assignGene cfg {}) _ (plan.gene cfg) :=
    (assignTaskattrs_reads (by simpa [Plan.gene] using hs.mem) _).bind
      ((assignTaskattrs_reads (by simpa [Plan.gene] using hs.cpufreq) _).bind
        ((assignTaskattrs_reads (by simpa [Plan.gene] using hs.cloud) _).bind_nil (Reads.pure _)))
  have hmem : checkMemusage cfg (plan.gene cfg) = true :=
    (checkMemusage_plan hmax).mpr (hplan.symm ▸ h.memory_le)
  obtain ⟨g, hg⟩ : ∃ g, checkUtilpower .localOnly cfg (plan.gene cfg) = .ok (true, g) := by
    refine exists_accepted ?_ ?_
    · obtain ⟨r, hr⟩ := (checkUtilpower_isOk_iff .localOnly h.levels).mpr fun i hi hbad =>
        h.periods i hi (hplan ▸ (Gene.overruns_plan hi).mp hbad)
      rw [hr]
      rfl
    · refine ⟨tallied_utilKind_plan.mpr (hplan.symm ▸ h.scales), ?_⟩
      rw [tallied_utilization, hplan]
      exact h.cutoff
  have honce : Reads (prepareOnce .localOnly cfg (plan.gene cfg)) [] (true, g) := by
    rw [prepareOnce, hmem, if_neg (by simp)]
    exact (Reads.lift hg).bind_nil (Reads.pure _)
  have hsame := (checkUtilpower_ok hg).2
  refine ⟨_, g, hassign.bind_nil (Reads.attempts honce), checkUtilpower_shaped hs hg,
    valid_of_checks hmem hg, ?_, ?_⟩
  · rw [hsame]
    exact ⟨(Plan.gene_settled cfg plan).mem, (Plan.gene_settled cfg plan).cpufreq,
      (Plan.gene_settled cfg plan).ratio⟩
  · rw [hsame]
    exact hplan

end Genes

/-! ### Rankings of one gene -/

section Runs
variable {cfg : Config} {g : Gene}

theorem add_replicate (g : Gene) (n : ℕ) :
    Ranking.add (List.replicate n g) g = List.replicate (n + 1) g := insertKey_replicate _ g n

theorem populate_reads {mode : Mode} {ds : List ℕ} (hg : Reads (prepare mode cfg) ds g) (n k : ℕ) :
    ∃ es, Reads (populate mode cfg n (List.replicate k g)) es (List.replicate (k + n) g) := by
  induction n generalizing k with
  | zero => exact ⟨[], Reads.pure _⟩
  | succ n ih =>
    obtain ⟨es, hes⟩ := ih (k + 1)
    rw [← add_replicate, Nat.add_right_comm, Nat.add_assoc] at hes
    exact ⟨ds ++ es, hg.bind hes⟩

/-- Two different ranks can be drawn among those that a generation leaves. -/
theorem TwoDrawable.ranks (h : TwoDrawable cfg.nPops) {n : ℕ} (hn : cfg.nPops = n + 1) :
    ∃ r1 r2 k1 k2, rankOf cfg n r1 = .ok k1 ∧ rankOf cfg n r2 = .ok k2 ∧ k1 < n ∧ k2 < n ∧
      k2 ≠ k1 := by
  obtain ⟨p1, p2, ⟨r1, h1⟩, ⟨r2, h2⟩, hne⟩ := h
  have hpos : n ≠ 0 := by
    rintro rfl
    rw [hn] at hne
    simp at hne
  have hlast : cfg.nPops - 2 = n - 1 := by omega
  rw [hlast] at hne
  refine ⟨r1, r2, min p1 (n - 1), min p2 (n - 1), bind_ok.mpr ⟨p1, h1, if_neg hpos⟩,
    bind_ok.mpr ⟨p2, h2, if_neg hpos⟩, by omega, by omega, hne.symm⟩

/-- A generation can put back the gene it takes away. -/
theorem generation_reads {mode : Mode} (htells : TellsApart cfg.nPops) (ht : 2 ≤ cfg.nTasks)
    (ht' : cfg.nTasks < 2 ^ 32) (hs : g.Shaped cfg) (hv : g.Valid mode cfg) (hg : g.Settled) :
    ∃ ds, Reads (generation mode cfg (List.replicate cfg.nPops g)) ds
      (List.replicate cfg.nPops g) := by
  obtain ⟨n, hn⟩ : ∃ n, cfg.nPops = n + 1 := ⟨cfg.nPops - 1, by have := htells.three_le; omega⟩
  obtain ⟨r1, r2, k1, k2, h1, h2, hk1, hk2, hne⟩ := (twoDrawable_iff.mpr htells).ranks hn
  obtain ⟨ds, hpt⟩ := drawCrosspt_reads (drawCrosspt_one ht ht')
  have hbreed : breed mode cfg g g g 1 1 1 = .ok (true, g) := by
    have heval : checkUtilpower mode cfg g = .ok (true, g) := hv.fresh g.toCached
    rw [breed, hg.inherit hs, if_neg (by omega), hv.memory, if_neg (by simp), heval]
    exact bind_ok.mpr ⟨_, rfl, by simp [pure_ok]⟩
  have hother : Reads (drawOther cfg n k1) [r2] k2 :=
    Reads.retry (bind_ok.mpr ⟨k2, h2, by rw [if_pos hne]; rfl⟩)
  obtain ⟨es, honce⟩ : ∃ es, Reads (breedOnce mode cfg (List.replicate n g) g) es (true, g) := by
    rw [breedOnce, List.length_replicate]
    refine ⟨_, ((Reads.next _ r1).bind_nil (Reads.lift h1)).bind (hother.bind (hpt.bind (hpt.bind
      (hpt.bind_nil (Reads.lift ?_)))))⟩
    rw [List.getD_replicate _ hk1, List.getD_replicate _ hk2]
    exact hbreed
  have hworst : Ranking.worst (List.replicate (n + 1) g) = .ok g := by
    rw [Ranking.worst, List.replicate_succ', List.getLast?_concat]
    rfl
  have hdrop : (List.replicate (n + 1) g).dropLast = List.replicate n g := by simp
  rw [hn, generation, hdrop]
  refine ⟨[] ++ es, (Reads.lift hworst).bind ((Reads.attempts honce).bind_nil ?_)⟩
  rw [add_replicate]
  exact Reads.pure _

/-! ### The loop -/

theorem breedOnce_spends (mode : Mode) (l : Ranking) (newborn : Gene) :
    Spends 1 (breedOnce mode cfg l newborn) := by
  have hpoint := drawCrosspt_spends cfg
  have hrank : Spends 1 (drawRank cfg l.length) := (Spends.next _).bind (m := 0) fun _ => .lift _
  refine hrank.bind (m := 0) fun rank1 => ?_
  refine Spends.weaken (n := 1) (Spends.bind (m := 0) (.retry _ _) fun _ => ?_) (Nat.zero_le 1)
  exact hpoint.bind fun _ => hpoint.bind fun _ => hpoint.bind fun _ => .lift _

theorem searchRound_spends (mode : Mode) (s : SearchState) : Spends 1 (searchRound mode cfg s) := by
  have hgen : Spends (0 + (1 + 0)) (generation mode cfg s.ranking) :=
    (Spends.lift _).bind fun worst =>
      (Spends.attempts (breedOnce_spends mode _) _ worst).bind fun _ => .pure _
  exact hgen.bind (m := 0) fun l => (Spends.lift _).bind (m := 0) fun _ => .pure _

/-- A ranking that is not empty has a row. -/
theorem report_isOk (cfg : Config) {l : Ranking} (hne : l ≠ []) (gen : ℕ) (r : Report) :
    ∃ r', l.report cfg gen r = .ok r' := by
  obtain ⟨row, hrow⟩ : ∃ row, l.row cfg gen = .ok row := by
    cases l with
    | nil => exact absurd rfl hne
    | cons g l =>
      have hlast : (g :: l).getLast? = some ((g :: l).getLast hne) := List.getLast?_eq_some_getLast hne
      rw [Ranking.row, Ranking.worst, hlast]
      exact ⟨_, rfl⟩
  unfold Ranking.report
  split
  · exact ⟨_, bind_ok.mpr ⟨row, hrow, rfl⟩⟩
  · split
    · exact ⟨_, bind_ok.mpr ⟨row, hrow, rfl⟩⟩
    · exact ⟨r, rfl⟩

/-- What a configuration needs so that a run of it can end at all: genes, a counter that gets past the
    last generation, and, if there are generations, parents and crossover points to draw. -/
structure CanEnd (cfg : Config) : Prop where
  pops : 0 < cfg.nPops
  counter : cfg.maxGen + 1 < 2 ^ 32
  breeds : 0 < cfg.maxGen → TellsApart cfg.nPops ∧ 2 ≤ cfg.nTasks

/-- From a ranking of one gene the loop can be left with that ranking. -/
theorem CanEnd.loop_reads {mode : Mode} (h : CanEnd cfg) (ht : cfg.nTasks < 2 ^ 32)
    (hs : g.Shaped cfg) (hv : g.Valid mode cfg) (hg : g.Settled) (n : ℕ) {s : SearchState}
    (hrank : s.ranking = List.replicate cfg.nPops g) (h1 : 0 < s.gen)
    (hgen : s.gen + n = cfg.maxGen + 1) : ∃ ds s',
      Reads (loop .starved (fun s => decide (s.gen ≤ cfg.maxGen)) (searchRound mode cfg) s) ds s' ∧
        s'.ranking = List.replicate cfg.nPops g := by
  induction n generalizing s with
  | zero =>
    have hdone : ¬ s.gen ≤ cfg.maxGen := by omega
    refine ⟨[], s, ?_, hrank⟩
    rw [loop_eq (searchRound_spends mode), if_neg (by rwa [decide_eq_true_eq])]
    exact Reads.pure s
  | succ n ih =>
    obtain ⟨htells, ht2⟩ := h.breeds (by omega)
    obtain ⟨ds, hds⟩ := generation_reads htells ht2 ht hs hv hg
    have hne : List.replicate cfg.nPops g ≠ [] := by
      rw [Ne, List.replicate_eq_nil_iff]
      exact h.pops.ne'
    obtain ⟨r, hr⟩ := report_isOk cfg hne (u32 (s.gen + 1)) s.report
    have hround : Reads (searchRound mode cfg s) ds
        ⟨u32 (s.gen + 1), List.replicate cfg.nPops g, r⟩ := by
      rw [searchRound, hrank]
      exact hds.bind_nil ((Reads.lift hr).bind_nil (Reads.pure _))
    have hnext : u32 (s.gen + 1) = s.gen + 1 := u32_of_lt (by have := h.counter; omega)
    obtain ⟨es, s', hes, hrank'⟩ := ih (s := ⟨u32 (s.gen + 1), List.replicate cfg.nPops g, r⟩)
      rfl (by dsimp only; omega) (by dsimp only; omega)
    have hmore : s.gen ≤ cfg.maxGen := by omega
    refine ⟨ds ++ es, s', ?_, hrank'⟩
    rw [loop_eq (searchRound_spends mode), if_pos (by rwa [decide_eq_true_eq])]
    exact hround.bind hes

/-- The figures of every feasible plan can be the result of a run. -/
theorem CanEnd.runGa (h : CanEnd cfg) (ht : cfg.nTasks < 2 ^ 32) (hmax : cfg.nMems ≤ maxMems)
    {plan : Plan} (hplan : plan.Feasible cfg) :
    ∃ r, Returns (runGa .localOnly cfg) (r, plan.figures cfg) := by
  obtain ⟨ds, g, hprep, hs, hv, hg, rfl⟩ := hplan.prepare_reads hmax
  obtain ⟨es, hpop⟩ := populate_reads hprep cfg.nPops 0
  rw [Nat.zero_add] at hpop
  obtain ⟨n, hn⟩ : ∃ n, cfg.nPops = n + 1 := ⟨cfg.nPops - 1, by have := h.pops; omega⟩
  have hne : List.replicate cfg.nPops g ≠ [] := by
    rw [hn]
    exact List.cons_ne_nil _ _
  obtain ⟨r, hr⟩ := report_isOk cfg hne 1 {}
  have hstart : Reads (searchStart .localOnly cfg) es ⟨1, List.replicate cfg.nPops g, r⟩ :=
    hpop.bind_nil ((Reads.lift hr).bind_nil (Reads.pure _))
  obtain ⟨fs, s, hloop, hrank⟩ := h.loop_reads ht hs hv hg cfg.maxGen
    (s := ⟨1, List.replicate cfg.nPops g, r⟩) rfl Nat.one_pos (Nat.add_comm 1 _)
  have hbest : s.ranking.best = .ok g := by
    rw [hrank, hn]
    rfl
  have hinfos : g.infos cfg = .ok ((g.plan cfg).figures cfg) := by
    rw [hv.infos hs, if_neg (not_lt.mpr hplan.limit)]
  have hsearch : Reads (search .localOnly cfg) (es ++ fs) (s.report, (g.plan cfg).figures cfg) :=
    hstart.bind (hloop.bind_nil ((Reads.lift hbest).bind_nil
      ((Reads.lift hinfos).bind_nil (Reads.pure _))))
  rw [(runGa_lockstep .localOnly cfg).eq]
  exact ⟨s.report, hsearch.returns⟩

/-! ### Runs that end -/

/-- A crossover that returns has drawn two parents and three points. -/
theorem crossover_needs {mode : Mode} (ht : cfg.nTasks < 2 ^ 32) {p p' : Pop}
    (hinv : GaInv mode cfg (.boundary, p)) (h : Returns (crossover mode cfg p) p') :
    TellsApart cfg.nPops ∧ 2 ≤ cfg.nTasks := by
  obtain ⟨⟨b, q⟩, hb, h⟩ := h.bind
  obtain ⟨q', hsteps, hq'⟩ := h.attempts
  have hinv' := (hinv.remove (returns_lift.mp hb)).attempts hsteps
  obtain ⟨g1, g2, kr, kc, km, hsel1, hsel2, ⟨hkr, _, _⟩, hdo⟩ := attempt_returns hq'
  constructor
  · obtain ⟨l, hl⟩ := hinv'.selects
    obtain ⟨r1, hr1⟩ := returns_selectGene.mp hsel1
    obtain ⟨r2, hr2⟩ := hsel2.retry
    obtain ⟨j, hj, hr2⟩ := bind_ok.mp hr2
    rw [pure_ok, Option.ite_none_right_eq_some] at hr2
    obtain ⟨_, p1, hp1, h1⟩ := (hl.selects r1 g1).mp hr1
    obtain ⟨_, p2, hp2, h2⟩ := (hl.selects r2 j).mp hj
    refine twoDrawable_iff.mp ⟨p1, p2, ⟨r1, hp1⟩, ⟨r2, hp2⟩, fun heq => hr2.1 ?_⟩
    rw [← h1, ← h2, heq]
  · obtain ⟨r, hr, hk⟩ := hkr.bind
    obtain rfl := returns_pure.mp hk
    have hlt := getRand_lt hr
    rw [doCrossover] at hdo
    split at hdo
    · cases hdo
    · unfold u32 at hlt
      omega

theorem Completed.canEnd {mode : Mode} (ht : cfg.nTasks < 2 ^ 32) {s : GaState}
    (h : Completed mode cfg s) : CanEnd cfg := by
  obtain ⟨k, hat, hdone⟩ := h
  have hgen := hat.gen_eq
  refine ⟨hat.nPops_pos, ?_, fun hmax => ?_⟩
  · have hlt : u32 (k + 1) < 2 ^ 32 := Nat.mod_lt _ (by decide)
    omega
  · cases hat with
    | start h =>
      rw [Nat.zero_add] at hgen
      rw [hgen] at hdone
      exact absurd hdone (not_lt.mpr hmax)
    | round hat _ hround =>
      obtain ⟨p, hp, _⟩ := hround.bind
      exact crossover_needs ht hat.gaInv hp

end Runs

/-- The results that runs on an accepted configuration can end with, all of them numbers, are exactly the
    figures of its feasible plans, if runs of it can end at all. -/
theorem runGa_outputs_iff {cfg : Config} (hacc : Accounted cfg) (ht : cfg.nTasks < 2 ^ 32)
    {infos : TaskInfos} : (∃ r, Returns (runGa .localOnly cfg) (r, infos)) ↔
      CanEnd cfg ∧ ∃ plan : Plan, plan.Feasible cfg ∧ infos = plan.figures cfg := by
  constructor
  · rintro ⟨r, h⟩
    obtain ⟨s, hdone, _⟩ := runGa_completed h
    obtain ⟨hplan, hinfos⟩ := runGa_feasible hacc.accepted h
    exact ⟨hdone.canEnd ht, infos.tasks, hplan, hinfos⟩
  · rintro ⟨hend, plan, hplan, rfl⟩
    exact hend.runGa ht hacc.accepted.wellFormed.mems_length hplan

theorem runGa_outputs_iff_shortConf : ∃ infos,
    (∃ r, Returns (runGa .localOnly shortConf) (r, infos)) ∧
      CanEnd shortConf ∧ ∃ plan : Plan, plan.Feasible shortConf ∧ infos = plan.figures shortConf := by
  obtain ⟨r, infos, h⟩ := runGa_shortConf
  have hacc : Accounted shortConf := ⟨gensConf_accepted 1, by decide +kernel⟩
  exact ⟨infos, ⟨r, h⟩, (runGa_outputs_iff hacc (by decide)).mp ⟨r, h⟩⟩

end MutualEdge
