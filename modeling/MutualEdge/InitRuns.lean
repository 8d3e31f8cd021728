import MutualEdge.Draws
import MutualEdge.Generations

/-! When the population can be set up: exactly when some attributes pass both checks.

    The repairs of `init_gene` only ever end at such attributes, and the draws can hit them at once. -/

namespace MutualEdge
open Checks Choice

/-- Some attributes within the tables, every task local, pass both checks. -/
def Feasible (mode : Mode) (cfg : Config) : Prop :=
  ∃ g : Gene, g.Shaped cfg ∧ checkMemusage cfg g = true ∧
    ∃ g', checkUtilpower mode cfg g = .ok (true, g')

/-- Two genes with the same attributes. -/
structure SameAttrs (g g' : Gene) : Prop where
  mem : g.taskattrsMem.attrs = g'.taskattrsMem.attrs
  cpufreq : g.taskattrsCpufreq.attrs = g'.taskattrsCpufreq.attrs
  cloud : g.taskattrsCloud.attrs = g'.taskattrsCloud.attrs
  ratio : g.taskattrsOffloadingratio.attrs = g'.taskattrsOffloadingratio.attrs

section Same
variable {mode : Mode} {cfg : Config} {g g' : Gene}

/-- `check_memusage` reads the memory types and the ratios only. -/
theorem checkMemusage_congr (hm : g.taskattrsMem.attrs = g'.taskattrsMem.attrs)
    (hr : g.taskattrsOffloadingratio.attrs = g'.taskattrsOffloadingratio.attrs) :
    checkMemusage cfg g = checkMemusage cfg g' := by
  unfold checkMemusage memUsed memDemand Taskattrs.attr
  rw [hm, hr]

/-- What `check_utilpower` accepts, and what it writes, depends on its sums only. -/
theorem accepted_of_tally (h : tally mode cfg g = tally mode cfg g') {g₁ : Gene}
    (hg : checkUtilpower mode cfg g = .ok (true, g₁)) :
    ∃ g₁', checkUtilpower mode cfg g' = .ok (true, g₁') ∧ g₁'.scoreDouble = g₁.scoreDouble := by
  obtain ⟨t, ht, htable, hc, rfl⟩ := checkUtilpower_accepts.mp hg
  exact ⟨_, checkUtilpower_accepts.mpr ⟨t, h ▸ ht, htable, hc, rfl⟩, rfl⟩

theorem SameAttrs.checkMemusage (h : SameAttrs g g') :
    checkMemusage cfg g = checkMemusage cfg g' := checkMemusage_congr h.mem h.ratio

theorem SameAttrs.tally (h : SameAttrs g g') : tally mode cfg g = tally mode cfg g' := by
  unfold MutualEdge.tally Tally.addTask Gene.offloads Taskattrs.attr
  rw [h.mem, h.cpufreq, h.cloud, h.ratio]

theorem SameAttrs.accepted (h : SameAttrs g g') {g₁ : Gene}
    (hg : checkUtilpower mode cfg g = .ok (true, g₁)) :
    ∃ g₁', checkUtilpower mode cfg g' = .ok (true, g₁') ∧ g₁'.scoreDouble = g₁.scoreDouble :=
  accepted_of_tally h.tally hg

end Same

section Init
variable {mode : Mode} {cfg : Config}

/-- What stops the first gene stops the population. -/
theorem initPopulations_stops (hn : 0 < cfg.nPops) {ds : List ℕ} {e : Halt}
    (h : Stops (initGene mode cfg 0 (emptyPop cfg.nPops)) ds e) :
    Stops (initPopulations mode cfg) ds e := by
  obtain ⟨n, hsucc⟩ := Nat.exists_eq_succ_of_ne_zero (Nat.ne_of_gt hn)
  have hstops : Stops (initGenes mode cfg n.succ 0 (emptyPop cfg.nPops)) ds e := h.bind _
  rwa [← hsucc] at hstops

theorem initPopulations_gaInv {p : Pop} (h : Returns (initPopulations mode cfg) p) :
    GaInv mode cfg (.boundary, p) :=
  (gaSystem mode cfg).invariant_steps (fun _ _ hs hstep => gaInv_step hs hstep) gaInv_init
    (initGenes_steps (Nat.zero_add _) h)

/-- Every gene of a population is a feasible choice of attributes. -/
theorem GaInv.feasible {p : Pop} (h : GaInv mode cfg (.boundary, p)) (hn : 0 < cfg.nPops) :
    Feasible mode cfg := by
  have hmem : 0 ∈ members cfg .boundary := List.mem_range.mpr hn
  have hv := h.valid 0 hmem
  exact ⟨p.gene 0, h.shaped 0 hmem, hv.memory, p.gene 0, hv.fresh _⟩

/-- The gene in work can be sorted in, with whatever an evaluation writes into it. -/
theorem sortGene_ready {k : ℕ} {p : Pop} (hinv : GaInv mode cfg (.trying k, p)) (g : Gene) :
    ∃ q, sortGene ((p.initLists k).setGene k g) k = .ok q := by
  have hnot : k ∉ members cfg (.trying k) := by simp [members]
  obtain ⟨hl, hun⟩ := hinv.listed.initLists hnot
  obtain ⟨q, hq, -, -⟩ := sortGene_listed (hl.setGene hnot g) hnot (hun.setGene k g)
    (by simpa using hinv.members_length)
  exact ⟨q, hq⟩

/-- A gene that passes both checks is sorted in without a draw. -/
theorem initTry_reads {k : ℕ} {p : Pop} {g : Gene} (hinv : GaInv mode cfg (.trying k, p))
    (hm : checkMemusage cfg (p.gene k) = true)
    (hu : checkUtilpower mode cfg (p.gene k) = .ok (true, g)) :
    ∃ q, Reads (initTry mode cfg k p) [] (true, q) := by
  obtain ⟨q, hq⟩ := sortGene_ready hinv g
  have hgene : (p.initLists k).gene k = p.gene k := rfl
  refine ⟨q, ?_⟩
  rw [initTry]
  dsimp only
  rw [hgene, if_neg (by rw [hm]; simp), hu]
  exact (Reads.lift rfl).bind_nil ((Reads.lift hq).bind_nil (Reads.pure _))

/-- Drawing feasible attributes sorts the gene in at once. -/
theorem initGene_reads (hf : Feasible mode cfg) {k : ℕ} {p : Pop}
    (hinv : GaInv mode cfg (.fresh k, p)) (hk : k < cfg.nPops) :
    ∃ ds p', Reads (initGene mode cfg k p) ds p' ∧ GaInv mode cfg (.fresh (k + 1), p') := by
  obtain ⟨g₀, hs₀, hm₀, g₁, hu₀⟩ := hf
  obtain ⟨g, hg, hgm, hgf, hgc⟩ := assignGene_reads hs₀.mem hs₀.cpufreq hs₀.cloud (p.gene k)
  have hs := assignGene_shaped hg.returns
  have hsame : SameAttrs g₀ g := ⟨hgm.symm, hgf.symm, hgc.symm, by rw [hs₀.ratio, hs.ratio]⟩
  obtain ⟨g', hu, _⟩ := hsame.accepted hu₀
  have hlen : k < p.genes.length := by
    rw [hinv.size]
    exact hk
  have hgene : (p.setGene k g).gene k = g := Pop.gene_setGene_self hlen g
  obtain ⟨q, htry⟩ := initTry_reads (hinv.assign hk hg.returns)
    (by rw [hgene, ← hsame.checkMemusage, hm₀]) (by rw [hgene, hu])
  have hread : Reads (initGene mode cfg k p) (g₀.taskattrsMem.attrs ++ (g₀.taskattrsCpufreq.attrs ++
      g₀.taskattrsCloud.attrs)) q := hg.bind_nil htry.attempts
  refine ⟨_, q, hread, ?_⟩
  exact (gaSystem mode cfg).invariant_steps (fun _ _ hs hstep => gaInv_step hs hstep) hinv
    (initGene_steps hk hread.returns)

theorem initGenes_reads (hf : Feasible mode cfg) {n k : ℕ} {p : Pop}
    (hinv : GaInv mode cfg (.fresh k, p)) (hk : k + n = cfg.nPops) :
    ∃ ds p', Reads (initGenes mode cfg n k p) ds p' := by
  induction n generalizing k p with
  | zero => exact ⟨[], p, Reads.pure p⟩
  | succ n ih =>
    obtain ⟨ds, q, hq, hinv'⟩ := initGene_reads hf hinv (by omega)
    obtain ⟨es, p', hp'⟩ := ih hinv' (by omega)
    exact ⟨ds ++ es, p', hq.bind hp'⟩

end Init

end MutualEdge
