import MutualEdge.Counts
import MutualEdge.Selection

/-! What a child has from its parents.

    `do_crossover` splices memory types, levels and ratios of two parents into the newborn, which is the
    storage of the gene it replaces. The clouds are not among what it copies: they stay the ones stored
    there. -/

namespace MutualEdge
open Checks Choice LinkRing

/-- The first `n` attributes are those of `t1` below the point and those of `t2` from it on. -/
def Spliced (n k : ℕ) (t t1 t2 : Taskattrs) : Prop :=
  ∀ i < n, t.attr i = if i < k then t1.attr i else t2.attr i

/-- The attribute arrays have an entry for each task. -/
structure Gene.Sized (cfg : Config) (g : Gene) : Prop where
  mem : g.taskattrsMem.attrs.length = cfg.nTasks
  cpufreq : g.taskattrsCpufreq.attrs.length = cfg.nTasks
  ratio : g.taskattrsOffloadingratio.attrs.length = cfg.nTasks

/-- Gene `w` is a recombination of two parents, which are as they were: every attribute that the
    evaluation reads is spliced from theirs, the cloud at some point of its own. -/
structure Recombination (cfg : Config) (p p' : Pop) (w gene1 gene2 : ℕ) (kr kc km : ℕ) : Prop where
  mem : Spliced cfg.nTasks km (p'.gene w).taskattrsMem (p.gene gene1).taskattrsMem
    (p.gene gene2).taskattrsMem
  cpufreq : Spliced cfg.nTasks kc (p'.gene w).taskattrsCpufreq (p.gene gene1).taskattrsCpufreq
    (p.gene gene2).taskattrsCpufreq
  ratio : Spliced cfg.nTasks kr (p'.gene w).taskattrsOffloadingratio
    (p.gene gene1).taskattrsOffloadingratio (p.gene gene2).taskattrsOffloadingratio
  cloud : ∃ k ≤ cfg.nTasks, Spliced cfg.nTasks k (p'.gene w).taskattrsCloud
    (p.gene gene1).taskattrsCloud (p.gene gene2).taskattrsCloud
  parents : p'.gene gene1 = p.gene gene1 ∧ p'.gene gene2 = p.gene gene2

theorem Gene.Shaped.sized {cfg : Config} {g : Gene} (h : g.Shaped cfg) : g.Sized cfg :=
  ⟨h.mem.length, h.cpufreq.length, by rw [h.ratio, List.length_replicate]⟩

theorem inheritValues_spliced {n k : ℕ} {t t1 t2 : Taskattrs} (h1 : t1.attrs.length = n)
    (hk : k ≤ n) : Spliced n k (inheritValues n t t1 t2 k) t1 t2 := by
  intro i hi
  have htake : (t1.attrs.take k).length = k := by
    rw [List.length_take]
    omega
  simp only [Taskattrs.attr, inheritValues, setupTaskattrs_attrs]
  by_cases hik : i < k
  · rw [if_pos hik, List.getD_append _ _ _ _ (by omega), List.getD_eq_getElem?_getD,
      List.getElem?_take_of_lt hik, ← List.getD_eq_getElem?_getD]
  · rw [if_neg hik, List.getD_append_right _ _ _ _ (by omega), htake, List.getD_eq_getElem?_getD,
      List.getElem?_take_of_lt (by omega), List.getElem?_drop, ← List.getD_eq_getElem?_getD]
    congr 1
    omega

/-- An evaluation that returns leaves the attributes alone. -/
theorem checkUtilpower_taskattrs {mode : Mode} {cfg : Config} {g g' : Gene} {b : Bool}
    (h : checkUtilpower mode cfg g = .ok (b, g')) (a : Attr) : g'.taskattrs a = g.taskattrs a := by
  rw [(checkUtilpower_ok h).2]
  cases a <;> rfl

/-- What `do_crossover` leaves in the population, whatever it answers. -/
theorem doCrossover_genes {mode : Mode} {cfg : Config} {w g1 g2 kr kc km : ℕ} {p p' : Pop}
    {done : Bool} (hw : w < p.genes.length) (h1 : g1 ≠ w) (h2 : g2 ≠ w)
    (h : doCrossover mode cfg p w g1 g2 kr kc km = .ok (done, p')) :
    (∀ j, j ≠ w → p'.gene j = p.gene j) ∧ ∀ a, (p'.gene w).taskattrs a =
      (inheritGene cfg (p.gene w) (p.gene g1) (p.gene g2) kr kc km).taskattrs a := by
  obtain ⟨_, hcase⟩ := doCrossover_cases hw h1 h2 h
  rcases hcase with ⟨_, rfl⟩ | ⟨b, g, heval, ⟨_, rfl⟩ | ⟨_, _, _, _, _, hsort⟩⟩
  · exact ⟨fun j hj => p.gene_setGene_ne hj _, fun a => by rw [Pop.gene_setGene_self hw]⟩
  · refine ⟨fun j hj => p.gene_setGene_ne hj _, fun a => ?_⟩
    rw [Pop.gene_setGene_self hw, checkUtilpower_taskattrs heval]
  · have hgene : ∀ j, p'.gene j = (p.setGene w g).gene j := fun j => by
      rw [Pop.gene, Pop.gene, sortGene_genes hsort]
    refine ⟨fun j hj => by rw [hgene, p.gene_setGene_ne hj], fun a => ?_⟩
    rw [hgene, Pop.gene_setGene_self hw, checkUtilpower_taskattrs heval]

/-- A call of `do_crossover` that returns recombines the parents if and only if the clouds stored with
    the discarded gene happen to be spliced from those of the parents. -/
theorem doCrossover_recombines_iff {mode : Mode} {cfg : Config} {w g1 g2 kr kc km : ℕ} {p p' : Pop}
    {done : Bool} (hw : w < p.genes.length) (h1 : g1 ≠ w) (h2 : g2 ≠ w)
    (hs1 : (p.gene g1).Sized cfg) (h : doCrossover mode cfg p w g1 g2 kr kc km = .ok (done, p')) :
    Recombination cfg p p' w g1 g2 kr kc km ↔ ∃ k ≤ cfg.nTasks, Spliced cfg.nTasks k
      (p.gene w).taskattrsCloud (p.gene g1).taskattrsCloud (p.gene g2).taskattrsCloud := by
  obtain ⟨hothers, hattrs⟩ := doCrossover_genes hw h1 h2 h
  obtain ⟨⟨hr, hc, hm⟩, _⟩ := doCrossover_cases hw h1 h2 h
  have hcloud : (p'.gene w).taskattrsCloud = (p.gene w).taskattrsCloud := hattrs .cloud
  constructor
  · intro hrec
    rw [← hcloud]
    exact hrec.cloud
  · intro hspliced
    refine ⟨?_, ?_, ?_, ?_, hothers g1 h1, hothers g2 h2⟩
    · rw [show (p'.gene w).taskattrsMem = _ from hattrs .mem]
      exact inheritValues_spliced hs1.mem hm
    · rw [show (p'.gene w).taskattrsCpufreq = _ from hattrs .cpufreq]
      exact inheritValues_spliced hs1.cpufreq hc
    · rw [show (p'.gene w).taskattrsOffloadingratio = _ from hattrs .ratio]
      exact inheritValues_spliced hs1.ratio hr
    · rw [hcloud]
      exact hspliced

/-! ### The first crossover of a run -/

/-- What `get_newborn` makes of the population that the draws set up. -/
def firstBreeding (cfg : Config) (draws : List ℕ) : Except Halt (ℕ × Pop) := do
  let r ← evolve .localOnly cfg 0 draws
  getNewborn r.1

/-- A state of the first crossover that passes a test. -/
theorem exists_firstBreeding {cfg : Config} {draws : List ℕ} {test : ℕ × Pop → Bool}
    (h : (firstBreeding cfg draws).toOption.any test = true) :
    ∃ b q, (gaSystem .localOnly cfg).Reachable (.breeding b, q) ∧ test (b, q) = true := by
  obtain ⟨⟨b, q⟩, hq, ht⟩ := exists_ok_of_any h
  obtain ⟨⟨p, ds⟩, hrun, hb⟩ := bind_ok.mp hq
  have hstep : (gaSystem .localOnly cfg).step (.boundary, p) (.breeding b, q) := GaStep.remove hb
  exact ⟨b, q, (evolve_reachable ⟨_, _, hrun⟩).steps (.single hstep), ht⟩

/-- `smallConf` with a second cloud. -/
def cloudConf : Config :=
  { smallConf with clouds := smallConf.clouds ++ [⟨"public", 5, 20, 80, 90000, 1⟩] }

theorem cloudConf_accepted : Accepted cloudConf := by
  obtain ⟨sections, hs⟩ := smallConf_accepted
  refine ⟨sections ++ [.cloud [⟨"public 5 20 80 90000 1", some ⟨"public", 5, 20, 80, 90000, 1⟩⟩]], ?_⟩
  rw [parseConf, List.foldlM_append]
  exact bind_ok.mpr ⟨smallConf, hs, by decide +kernel⟩

/-- Three genes of `cloudConf`: the first two with the first cloud, the last with the second. -/
def cloudDraws : List ℕ := [0, 0, 0, 0, 0, 0, 0, 0, 0, 0, 0, 0, 0, 0, 0, 0, 1, 1]

/-- The clouds of the first three genes. -/
def cloudsOf (p : Pop) : List (List ℕ) := [0, 1, 2].map fun i => (p.gene i).taskattrsCloud.attrs

/-- The child of two genes with the first cloud gets the second cloud, that of the gene it replaces. -/
theorem doCrossover_recombines_fails : Accepted cloudConf ∧ ∃ p p' : Pop,
    (gaSystem .localOnly cloudConf).Reachable (.breeding 2, p) ∧
    Returns (selectGene cloudConf p) 0 ∧ Returns (selectOther cloudConf p 0) 1 ∧
    doCrossover .localOnly cloudConf p 2 0 1 1 1 1 = .ok (true, p') ∧
    (p.gene 0).Shaped cloudConf ∧ (p.gene 1).Shaped cloudConf ∧
    ¬ Recombination cloudConf p p' 2 0 1 1 1 1 := by
  obtain ⟨b, p, hreach, htest⟩ := exists_firstBreeding (show (firstBreeding cloudConf
    cloudDraws).toOption.any (fun x => decide (x.1 = 2 ∧ cloudsOf x.2 = [[0, 0], [0, 0], [1, 1]] ∧
      selectGeneOf cloudConf x.2 7 = .ok 0 ∧ selectGeneOf cloudConf x.2 0 = .ok 1 ∧
      (doCrossover .localOnly cloudConf x.2 2 0 1 1 1 1).toOption.map Prod.fst = some true)) = true by
    decide +kernel)
  obtain ⟨rfl, hclouds, hsel0, hsel1, hdone⟩ := of_decide_eq_true htest
  have hinv := reachable_gaInv hreach
  obtain ⟨⟨done, p'⟩, hp', rfl⟩ := Option.map_eq_some_iff.mp hdone
  have hrun := ok_of_toOption hp'
  refine ⟨cloudConf_accepted, p, p', hreach, (selectGene_reads hsel0).returns,
    (selectOther_reads hsel1 (by decide)).returns, hrun,
    hinv.shaped 0 (show 0 ∈ (List.range 3).erase 2 by decide),
    hinv.shaped 1 (show 1 ∈ (List.range 3).erase 2 by decide), fun hrec => ?_⟩
  obtain ⟨_, hattrs⟩ := doCrossover_genes (hinv.inWork_lt rfl) (by decide) (by decide) hrun
  obtain ⟨k, _, hspliced⟩ := hrec.cloud
  have h0 := hspliced 0 (by decide)
  have hc : (p'.gene 2).taskattrsCloud = (p.gene 2).taskattrsCloud := hattrs .cloud
  simp only [cloudsOf, List.map_cons, List.map_nil, List.cons.injEq] at hclouds
  rw [hc, Taskattrs.attr, Taskattrs.attr, Taskattrs.attr, hclouds.1, hclouds.2.1, hclouds.2.2.1]
    at h0
  simp at h0

/-- With one cloud there is nothing stale. -/
theorem doCrossover_recombines_smallConf : ∃ p p' : Pop, Recombination smallConf p p' 2 0 1 1 1 1 := by
  obtain ⟨b, p, hreach, htest⟩ := exists_firstBreeding
    (show (firstBreeding smallConf (List.replicate 18 0)).toOption.any
      (fun x => decide (x.1 = 2 ∧ cloudsOf x.2 = [[0, 0], [0, 0], [0, 0]]) &&
        (doCrossover .localOnly smallConf x.2 2 0 1 1 1 1).isOk) = true by decide +kernel)
  rw [Bool.and_eq_true] at htest
  obtain ⟨rfl, hclouds⟩ := of_decide_eq_true htest.1
  obtain ⟨⟨done, p'⟩, hrun⟩ := exists_ok_of_isOk htest.2
  have hinv := reachable_gaInv hreach
  refine ⟨p, p', (doCrossover_recombines_iff (hinv.inWork_lt rfl) (by decide) (by decide)
    (hinv.shaped 0 (show 0 ∈ (List.range 3).erase 2 by decide)).sized hrun).mpr ⟨0, by decide, fun i _ => ?_⟩⟩
  simp only [cloudsOf, List.map_cons, List.map_nil, List.cons.injEq] at hclouds
  rw [if_neg (by omega), Taskattrs.attr, Taskattrs.attr, hclouds.2.1, hclouds.2.2.1]

end MutualEdge
