import MutualEdge.GeneWise
import MutualEdge.InitRuns
import MutualEdge.Selection

/-! Which populations a crossover can leave.

    A child is accepted only if it does not score more than either parent, and nothing mutates, so a
    population can be a dead end, at which no attempt succeeds. `crossover_returns_iff` says when it is
    not one. -/

namespace MutualEdge
open Checks Choice Doubles LinkRing Ordered

/-- `select_gene` can return the gene. -/
def Selectable (cfg : Config) (p : Pop) (i : ℕ) : Prop := ∃ r, selectGeneOf cfg p r = .ok i

/-- The child of two parents in the place of gene `b` passes both checks and does not score more than
    either. -/
def Breeds (mode : Mode) (cfg : Config) (p : Pop) (b gene1 gene2 kr kc km : ℕ) : Prop :=
  let child := inheritGene cfg (p.gene b) (p.gene gene1) (p.gene gene2) kr kc km
  checkMemusage cfg child = true ∧ ∃ g, checkUtilpower mode cfg child = .ok (true, g) ∧
    ¬ (p.gene gene1).scoreDouble < g.scoreDouble ∧ ¬ (p.gene gene2).scoreDouble < g.scoreDouble

instance (mode : Mode) (cfg : Config) (p : Pop) (b gene1 gene2 kr kc km : ℕ) :
    Decidable (Breeds mode cfg p b gene1 gene2 kr kc km) := inferInstanceAs (Decidable (_ ∧ _))

/-- Two parents that can be selected have an acceptable child at points that can be drawn. -/
def CanBreed (mode : Mode) (cfg : Config) (b : ℕ) (p : Pop) : Prop :=
  ∃ gene1 gene2 kr kc km, Selectable cfg p gene1 ∧ Selectable cfg p gene2 ∧ gene2 ≠ gene1 ∧
    Returns (drawCrosspt cfg) kr ∧ Returns (drawCrosspt cfg) kc ∧ Returns (drawCrosspt cfg) km ∧
    Breeds mode cfg p b gene1 gene2 kr kc km

section Attempts
variable {mode : Mode} {cfg : Config} {b : ℕ} {p : Pop}

/-- The child of two listed parents does not score more than either of them. -/
theorem not_more_iff (hinv : GaInv mode cfg (.breeding b, p)) {g1 g2 i kr kc km : ℕ} {g : Gene}
    (h1 : g1 ∈ members cfg (.breeding b)) (h2 : g2 ∈ members cfg (.breeding b))
    (hi : i ∈ members cfg (.breeding b)) (hr : kr ≤ cfg.nTasks) (hc : kc ≤ cfg.nTasks)
    (hm : km ≤ cfg.nTasks) (heval : checkUtilpower mode cfg
      (inheritGene cfg (p.gene b) (p.gene g1) (p.gene g2) kr kc km) = .ok (true, g)) :
    ¬ (p.gene i).scoreDouble < g.scoreDouble ↔ g.score ≤ (p.gene i).score := by
  have hchild := inheritGene_shaped (hinv.inWork b rfl).2 (hinv.shaped g1 h1) (hinv.shaped g2 h2) hr hc hm
  rw [(hinv.shaped i hi).scoreDouble_lt_iff hchild ((hinv.valid i hi).fresh (p.gene i).toCached) heval,
    not_lt]

/-- `do_crossover` on two listed parents answers yes exactly for an acceptable child. -/
theorem doCrossover_true_iff (hinv : GaInv mode cfg (.breeding b, p)) {g1 g2 kr kc km : ℕ}
    (h1 : g1 ∈ members cfg (.breeding b)) (h2 : g2 ∈ members cfg (.breeding b))
    (hr : kr ≤ cfg.nTasks) (hc : kc ≤ cfg.nTasks) (hm : km ≤ cfg.nTasks) :
    (∃ p', doCrossover mode cfg p b g1 g2 kr kc km = .ok (true, p')) ↔
      Breeds mode cfg p b g1 g2 kr kc km := by
  have hlen : b < p.genes.length := hinv.inWork_lt rfl
  have hne : ∀ {j : ℕ}, j ∈ members cfg (.breeding b) → j ≠ b := fun hj => ne_inWork rfl hj
  constructor
  · rintro ⟨p', h⟩
    rcases (doCrossover_cases hlen (hne h1) (hne h2) h).2 with
      ⟨hd, _⟩ | ⟨d, g, heval, ⟨hd, _⟩ | ⟨rfl, _, hcheck, hs1, hs2, _⟩⟩
    · cases hd
    · cases hd
    · exact ⟨hcheck, g, heval, (not_more_iff hinv h1 h2 h1 hr hc hm heval).mpr hs1,
        (not_more_iff hinv h1 h2 h2 hr hc hm heval).mpr hs2⟩
  · rintro ⟨hcheck, g, heval, hs1, hs2⟩
    have hs1 := (not_more_iff hinv h1 h2 h1 hr hc hm heval).mp hs1
    have hs2 := (not_more_iff hinv h1 h2 h2 hr hc hm heval).mp hs2
    have hnot : b ∉ members cfg (.breeding b) := inWork_not_mem rfl
    obtain ⟨q, hq, -, -⟩ := sortGene_listed (hinv.listed.setGene hnot g) hnot
      ((hinv.unlisted b rfl).setGene b g) (by simpa using hinv.members_length)
    refine ⟨q, ?_⟩
    rw [doCrossover, if_neg (by omega)]
    dsimp only
    rw [Pop.gene_setGene_self hlen, hcheck, if_neg (by simp), heval]
    simp only [Pop.setGene_setGene]
    refine bind_ok.mpr ⟨_, rfl, ?_⟩
    rw [if_neg (by simp), Pop.gene_setGene_self hlen, p.gene_setGene_ne (hne h1),
      p.gene_setGene_ne (hne h2), if_neg (by push Not; exact ⟨hs1, hs2⟩)]
    exact bind_ok.mpr ⟨q, hq, rfl⟩

/-- The draws that breed two given parents at given points. -/
theorem attempt_reads {g1 g2 r1 r2 kr kc km : ℕ} {p' : Pop} (hr1 : selectGeneOf cfg p r1 = .ok g1)
    (hr2 : selectGeneOf cfg p r2 = .ok g2) (hne : g2 ≠ g1) (hkr : Returns (drawCrosspt cfg) kr)
    (hkc : Returns (drawCrosspt cfg) kc) (hkm : Returns (drawCrosspt cfg) km)
    (h : doCrossover mode cfg p b g1 g2 kr kc km = .ok (true, p')) :
    ∃ ds, Reads (attempt mode cfg b p) ds (true, p') := by
  obtain ⟨dr, hdr⟩ := drawCrosspt_reads hkr
  obtain ⟨dc, hdc⟩ := drawCrosspt_reads hkc
  obtain ⟨dm, hdm⟩ := drawCrosspt_reads hkm
  exact ⟨[r1] ++ ([r2] ++ (dr ++ (dc ++ dm))), (selectGene_reads hr1).bind
    ((selectOther_reads hr2 hne).bind (hdr.bind (hdc.bind (hdm.bind_nil (Reads.lift h)))))⟩

theorem CanBreed.reads (ht : 1 ≤ cfg.nTasks) (hinv : GaInv mode cfg (.breeding b, p))
    (h : CanBreed mode cfg b p) : ∃ ds p', Reads (attempt mode cfg b p) ds (true, p') := by
  obtain ⟨g1, g2, kr, kc, km, ⟨r1, hr1⟩, ⟨r2, hr2⟩, hne, hkr, hkc, hkm, hbreeds⟩ := h
  have h1 := selectGeneOf_mem hinv.listed hinv.members_length hr1
  have h2 := selectGeneOf_mem hinv.listed hinv.members_length hr2
  obtain ⟨p', hp'⟩ := (doCrossover_true_iff hinv h1 h2 (drawCrosspt_le ht hkr)
    (drawCrosspt_le ht hkc) (drawCrosspt_le ht hkm)).mpr hbreeds
  obtain ⟨ds, hds⟩ := attempt_reads hr1 hr2 hne hkr hkc hkm hp'
  exact ⟨ds, p', hds⟩

/-- Some draws make an attempt succeed exactly when the population can breed. -/
theorem attempt_true_iff (ht : 1 ≤ cfg.nTasks) (hinv : GaInv mode cfg (.breeding b, p)) :
    (∃ p', Returns (attempt mode cfg b p) (true, p')) ↔ CanBreed mode cfg b p := by
  constructor
  · rintro ⟨p', h⟩
    obtain ⟨g1, g2, kr, kc, km, hsel1, hsel2, ⟨hkr, hkc, hkm⟩, h⟩ := attempt_returns h
    obtain ⟨h1, h2, hne⟩ := hinv.parents hsel1 hsel2
    obtain ⟨r2, hr2⟩ := hsel2.retry
    obtain ⟨j, hj, hr2⟩ := bind_ok.mp hr2
    rw [pure_ok, Option.ite_none_right_eq_some] at hr2
    obtain rfl := Option.some.inj hr2.2
    exact ⟨g1, j, kr, kc, km, returns_selectGene.mp hsel1, ⟨r2, hj⟩, hne, hkr, hkc, hkm,
      (doCrossover_true_iff hinv h1 h2 (drawCrosspt_le ht hkr) (drawCrosspt_le ht hkc)
        (drawCrosspt_le ht hkm)).mp ⟨p', h⟩⟩
  · intro h
    obtain ⟨ds, p', hds⟩ := h.reads ht hinv
    exact ⟨p', hds.returns⟩

/-! ### Failed attempts -/

/-- Populations that differ in the bred attributes of gene `b` at most. -/
structure Alike (b : ℕ) (p p' : Pop) : Prop where
  size : p'.genes.length = p.genes.length
  byScore : p'.genesByScore = p.genesByScore
  others : ∀ j, j ≠ b → p'.gene j = p.gene j
  cloud : (p'.gene b).taskattrsCloud.attrs = (p.gene b).taskattrsCloud.attrs

theorem Alike.trans {p p' p'' : Pop} (h : Alike b p p') (h' : Alike b p' p'') : Alike b p p'' :=
  ⟨h'.size.trans h.size, h'.byScore.trans h.byScore,
    fun j hj => (h'.others j hj).trans (h.others j hj), h'.cloud.trans h.cloud⟩

theorem alike_setGene (hlen : b < p.genes.length) {g : Gene}
    (hg : g.taskattrsCloud.attrs = (p.gene b).taskattrsCloud.attrs) : Alike b p (p.setGene b g) :=
  ⟨by simp, rfl, fun _ hj => p.gene_setGene_ne hj g, by rw [Pop.gene_setGene_self hlen, hg]⟩

/-- A failed attempt leaves the clouds of the newborn and all other genes as they are. -/
theorem alike_of_failed (hinv : GaInv mode cfg (.breeding b, p)) {p' : Pop}
    (h : Returns (attempt mode cfg b p) (false, p')) : Alike b p p' := by
  obtain ⟨g1, g2, kr, kc, km, hsel1, hsel2, -, h⟩ := attempt_returns h
  obtain ⟨h1, h2, _⟩ := hinv.parents hsel1 hsel2
  have hlen : b < p.genes.length := hinv.inWork_lt rfl
  rcases (doCrossover_cases hlen (ne_inWork rfl h1) (ne_inWork rfl h2) h).2 with
    ⟨_, rfl⟩ | ⟨d, g, heval, ⟨_, rfl⟩ | ⟨_, hd, _⟩⟩
  · exact alike_setGene hlen rfl
  · refine alike_setGene hlen ?_
    rw [(checkUtilpower_ok heval).2]
    rfl
  · cases hd

theorem alike_of_attempts (hinv : GaInv mode cfg (.breeding b, p)) {p' : Pop}
    (h : Relation.ReflTransGen (fun q q' => Returns (attempt mode cfg b q) (false, q')) p p') :
    GaInv mode cfg (.breeding b, p') ∧ Alike b p p' := by
  induction h with
  | refl => exact ⟨hinv, rfl, rfl, fun _ _ => rfl, rfl⟩
  | tail _ hstep ih =>
    exact ⟨gaInv_step ih.1 (.reject hstep), ih.2.trans (alike_of_failed ih.1 hstep)⟩

/-- Whether a population can breed does not depend on what failed attempts left in the newborn. -/
theorem CanBreed.of_alike {p' : Pop} (hinv : GaInv mode cfg (.breeding b, p)) (h : Alike b p p')
    (hcan : CanBreed mode cfg b p') : CanBreed mode cfg b p := by
  have hselect : ∀ r, selectGeneOf cfg p' r = selectGeneOf cfg p r := by
    intro r
    simp only [selectGeneOf, h.byScore, h.size]
  obtain ⟨g1, g2, kr, kc, km, ⟨r1, hr1⟩, ⟨r2, hr2⟩, hne, hkr, hkc, hkm, hcheck, g, heval, hs1, hs2⟩ :=
    hcan
  rw [hselect] at hr1 hr2
  have hother : ∀ {r i : ℕ}, selectGeneOf cfg p r = .ok i → p'.gene i = p.gene i := by
    intro r i hr
    exact h.others i (ne_inWork rfl (selectGeneOf_mem hinv.listed hinv.members_length hr))
  rw [hother hr1, hother hr2] at hcheck heval
  rw [hother hr1] at hs1
  rw [hother hr2] at hs2
  -- the child has the same attributes whatever the newborn held before
  have hsame : SameAttrs (inheritGene cfg (p'.gene b) (p.gene g1) (p.gene g2) kr kc km)
      (inheritGene cfg (p.gene b) (p.gene g1) (p.gene g2) kr kc km) :=
    ⟨by simp [inheritGene, inheritValues], by simp [inheritGene, inheritValues], h.cloud,
      by simp [inheritGene, inheritValues]⟩
  obtain ⟨g', heval', hscore⟩ := hsame.accepted heval
  exact ⟨g1, g2, kr, kc, km, ⟨r1, hr1⟩, ⟨r2, hr2⟩, hne, hkr, hkc, hkm,
    hsame.checkMemusage ▸ hcheck, g', heval', hscore ▸ hs1, hscore ▸ hs2⟩

/-- A crossover can return exactly when the population `get_newborn` leaves can breed. -/
theorem crossover_canBreed_iff (ht : 1 ≤ cfg.nTasks) (hinv : GaInv mode cfg (.boundary, p)) :
    (∃ p', Returns (crossover mode cfg p) p') ↔
      ∃ b q, getNewborn p = .ok (b, q) ∧ CanBreed mode cfg b q := by
  constructor
  · rintro ⟨p', h⟩
    obtain ⟨⟨b, q⟩, hb, h⟩ := h.bind
    obtain ⟨q', hsteps, hq'⟩ := h.attempts
    have hbreed := hinv.remove (returns_lift.mp hb)
    obtain ⟨hinv', halike⟩ := alike_of_attempts hbreed hsteps
    exact ⟨b, q, returns_lift.mp hb,
      ((attempt_true_iff ht hinv').mp ⟨p', hq'⟩).of_alike hbreed halike⟩
  · rintro ⟨b, q, hb, hcan⟩
    obtain ⟨ds, p', hds⟩ := hcan.reads ht (hinv.remove hb)
    have hread : Reads (crossover mode cfg p) ([] ++ ds) p' :=
      (Reads.lift hb).bind hds.attempts
    exact ⟨p', hread.returns⟩

end Attempts

/-! ### Twins -/

/-- Two genes with the same memory types and levels. -/
structure Twins (g g' : Gene) : Prop where
  mem : g.taskattrsMem.attrs = g'.taskattrsMem.attrs
  cpufreq : g.taskattrsCpufreq.attrs = g'.taskattrsCpufreq.attrs

/-- The two genes of best score are twins. -/
def TwinsLead (p : Pop) : Prop :=
  ∃ i j l, Holds p.genesByScore (i :: j :: l) ∧ Twins (p.gene i) (p.gene j)

section Twins
variable {cfg : Config}

theorem tally_localOnly {g g' : Gene} (hm : g.taskattrsMem.attrs = g'.taskattrsMem.attrs)
    (hf : g.taskattrsCpufreq.attrs = g'.taskattrsCpufreq.attrs)
    (hr : g.taskattrsOffloadingratio.attrs = g'.taskattrsOffloadingratio.attrs) :
    tally .localOnly cfg g = tally .localOnly cfg g' := by
  have hstep : ∀ t i e, Tally.addTask cfg g t i e = Tally.addTask cfg g' t i e := by
    intro t i e
    unfold Tally.addTask Gene.offloads computeOffloadingCostPerSec Taskattrs.attr
    rw [hf, hr]
  have hattr : ∀ {t t' : Taskattrs}, t.attrs = t'.attrs → ∀ i, t.attr i = t'.attr i := by
    intro t t' h i
    rw [Taskattrs.attr, Taskattrs.attr, h]
  unfold tally
  congr 1
  funext t i
  rw [hattr hm, hattr hf, hattr hr, getTaskUtilpower, getTaskUtilpower]
  simp only [hstep]
  split
  · rfl
  · -- with every task local no cloud is asked
    refine congrArg Except.ok (Tally.addTask_of_not_late ⟨_, _, rfl⟩ ?_ ?_)
    · exact not_late_localOnly cfg i _ _ _
    · exact not_late_localOnly cfg i _ _ _

theorem take_append_drop_self {l : List ℕ} {n k : ℕ} (hl : l.length = n) :
    l.take k ++ (l.drop k).take (n - k) = l := by
  have hrest : (l.drop k).take (n - k) = l.drop k :=
    List.take_of_length_le (by rw [List.length_drop, hl])
  rw [hrest, List.take_append_drop]

/-- Twins have the same score, and so has their child, at any points. -/
theorem Twins.child {b : ℕ} {p : Pop} {i j : ℕ} (h : Twins (p.gene i) (p.gene j)) (kr kc km : ℕ)
    (hi : (p.gene i).Valid .localOnly cfg) (hj : (p.gene j).Valid .localOnly cfg)
    (hsi : (p.gene i).Shaped cfg) (hsj : (p.gene j).Shaped cfg) :
    (p.gene j).scoreDouble = (p.gene i).scoreDouble ∧
    checkMemusage cfg (inheritGene cfg (p.gene b) (p.gene i) (p.gene j) kr kc km) = true ∧
    ∃ g, checkUtilpower .localOnly cfg
        (inheritGene cfg (p.gene b) (p.gene i) (p.gene j) kr kc km) = .ok (true, g) ∧
      g.scoreDouble = (p.gene i).scoreDouble := by
  have hratio : (p.gene i).taskattrsOffloadingratio.attrs =
      (p.gene j).taskattrsOffloadingratio.attrs := by rw [hsi.ratio, hsj.ratio]
  have hcm : (p.gene i).taskattrsMem.attrs =
      (inheritGene cfg (p.gene b) (p.gene i) (p.gene j) kr kc km).taskattrsMem.attrs := by
    simp only [inheritGene, inheritValues, setupTaskattrs_attrs]
    rw [← h.mem, take_append_drop_self hsi.mem.length]
  have hcf : (p.gene i).taskattrsCpufreq.attrs =
      (inheritGene cfg (p.gene b) (p.gene i) (p.gene j) kr kc km).taskattrsCpufreq.attrs := by
    simp only [inheritGene, inheritValues, setupTaskattrs_attrs]
    rw [← h.cpufreq, take_append_drop_self hsi.cpufreq.length]
  have hcr : (p.gene i).taskattrsOffloadingratio.attrs = (inheritGene cfg (p.gene b) (p.gene i)
      (p.gene j) kr kc km).taskattrsOffloadingratio.attrs := by
    simp only [inheritGene, inheritValues, setupTaskattrs_attrs]
    rw [← hratio, take_append_drop_self (by rw [hsi.ratio, List.length_replicate])]
  refine ⟨?_, ?_, accepted_of_tally (tally_localOnly hcm hcf hcr) (hi.fresh _)⟩
  · obtain ⟨g, hg, hscore⟩ := accepted_of_tally
      (@tally_localOnly cfg _ _ h.mem h.cpufreq hratio) (hi.fresh (p.gene i).toCached)
    have heq := hg.symm.trans (hj.fresh (p.gene j).toCached)
    simp only [Except.ok.injEq, Prod.mk.injEq, true_and] at heq
    rw [← heq, hscore]
  · rw [← checkMemusage_congr hcm hcr]
    exact hi.memory

/-- The last gene by score makes way. -/
theorem getNewborn_last {p : Pop} {l : List ℕ} {b : ℕ} (hl : Holds p.genesByScore (l ++ [b])) :
    getNewborn p = .ok (b, p.delLists b) ∧ Holds (p.delLists b).genesByScore l := by
  have hprev : p.genesByScore.prev none = some b := hl.prev_sentinel
  have hsplit : Holds p.genesByScore (l ++ b :: []) := hl
  have hdel := listDelInit_holds hsplit
  rw [List.append_nil] at hdel
  exact ⟨by rw [getNewborn, hprev], hdel⟩

theorem perm_breeding {l : List ℕ} {b : ℕ} (hp : (l ++ [b]).Perm (List.range cfg.nPops)) :
    l.Perm (members cfg (.breeding b)) := by
  have hmem : b ∈ List.range cfg.nPops := hp.mem_iff.mp (by simp)
  refine List.Perm.cons_inv (a := b) ?_
  exact (List.perm_append_singleton b l).symm.trans (hp.trans (List.perm_cons_erase hmem))

theorem drawCrosspt_one (ht : 2 ≤ cfg.nTasks) (ht' : cfg.nTasks < 2 ^ 32) :
    Returns (drawCrosspt cfg) 1 := by
  have hpos : 0 < u32 (cfg.nTasks + (2 ^ 32 - 1)) := by
    unfold u32
    omega
  have hread : Reads (drawCrosspt cfg) [0] 1 := (getRand_reads hpos).bind_nil (Reads.pure 1)
  exact hread.returns

/-- A child with the score of the two best genes is sorted in behind them. -/
theorem doCrossover_behind {p p' : Pop} {i j b kr kc km : ℕ} {l : List ℕ} {g : Gene}
    (hinv : GaInv .localOnly cfg (.breeding b, p)) (hl : Holds p.genesByScore (i :: j :: l))
    (hperm : (i :: j :: l).Perm (members cfg (.breeding b)))
    (heval : checkUtilpower .localOnly cfg
      (inheritGene cfg (p.gene b) (p.gene i) (p.gene j) kr kc km) = .ok (true, g))
    (hgi : g.score = (p.gene i).score) (hgj : g.score = (p.gene j).score)
    (h : doCrossover .localOnly cfg p b i j kr kc km = .ok (true, p')) :
    (∃ l', Holds p'.genesByScore (i :: j :: l')) ∧ ∀ k, k ≠ b → p'.gene k = p.gene k := by
  have hlen : b < p.genes.length := hinv.inWork_lt rfl
  have hnot : b ∉ members cfg (.breeding b) := inWork_not_mem rfl
  have hib : i ≠ b := ne_inWork rfl (hperm.mem_iff.mp (by simp))
  have hjb : j ≠ b := ne_inWork rfl (hperm.mem_iff.mp (by simp))
  have hsort : sortGene (p.setGene b g) b = .ok p' := by
    rcases (doCrossover_cases hlen hib hjb h).2 with
      ⟨hd, _⟩ | ⟨d, g', heval', ⟨hd, _⟩ | ⟨rfl, _, _, _, _, hsort⟩⟩
    · cases hd
    · cases hd
    · have heq := heval.symm.trans heval'
      simp only [Except.ok.injEq, Prod.mk.injEq, true_and] at heq
      rw [heq]
      exact hsort
  have hlist := sortGene_byScore (p := p.setGene b g) hl
    (fun hm => hnot (hperm.mem_iff.mp hm)) ((hinv.unlisted b rfl).setGene b g)
    (by rw [hperm.length_eq]; simpa using hinv.members_length) hsort
  have hki : ¬ ((p.setGene b g).gene b).score < ((p.setGene b g).gene i).score := by
    rw [Pop.gene_setGene_self hlen, Pop.gene_setGene_ne _ hib, hgi]
    exact lt_irrefl _
  have hkj : ¬ ((p.setGene b g).gene b).score < ((p.setGene b g).gene j).score := by
    rw [Pop.gene_setGene_self hlen, Pop.gene_setGene_ne _ hjb, hgj]
    exact lt_irrefl _
  rw [insertKey, List.orderedInsert_cons, if_neg hki, List.orderedInsert_cons, if_neg hkj] at hlist
  refine ⟨⟨_, hlist⟩, fun k hk => ?_⟩
  unfold Pop.gene
  rw [sortGene_genes hsort]
  exact p.gene_setGene_ne hk g

/-- While the two best genes are twins, a crossover can return and they stay in front. -/
theorem twinsLead_crossover (hn : 3 ≤ cfg.nPops) (hn' : cfg.nPops ≤ 16383) (ht : 2 ≤ cfg.nTasks)
    (ht' : cfg.nTasks < 2 ^ 32) {p : Pop} (hinv : GaInv .localOnly cfg (.boundary, p))
    (h : TwinsLead p) : ∃ ds p', Reads (crossover .localOnly cfg p) ds p' ∧ TwinsLead p' := by
  obtain ⟨i, j, l, hl, htwins⟩ := h
  obtain ⟨l₀, hl₀, hp, _⟩ := hinv.listed.byScore
  obtain rfl := hl.unique hl₀
  have hp : (i :: j :: l).Perm (List.range cfg.nPops) := hp
  -- the gene that makes way is neither of the two
  obtain ⟨l, b, rfl⟩ : ∃ l' b, l = l' ++ [b] := by
    rcases List.eq_nil_or_concat l with rfl | ⟨l', b, rfl⟩
    · have hlen := hp.length_eq
      simp at hlen
      omega
    · exact ⟨l', b, List.concat_eq_append⟩
  have hl' : Holds p.genesByScore ((i :: j :: l) ++ [b]) := hl
  obtain ⟨hb, hrest⟩ := getNewborn_last hl'
  have hbreed := hinv.remove hb
  have hperm : (i :: j :: l).Perm (members cfg (.breeding b)) := perm_breeding hp
  have hmi : i ∈ members cfg (.breeding b) := hperm.mem_iff.mp (by simp)
  have hmj : j ∈ members cfg (.breeding b) := hperm.mem_iff.mp (by simp)
  -- the first two draws can select them
  have hsel := hbreed.selects_of_holds hrest hperm
  obtain ⟨⟨r1, hr1⟩, ⟨r2, hr2⟩⟩ := drawable_first_two hn hn'
  have hi : selectGeneOf cfg (p.delLists b) r1 = .ok i :=
    (hsel.selects r1 i).mpr ⟨by simp, 0, hr1, by simp⟩
  have hj : selectGeneOf cfg (p.delLists b) r2 = .ok j := by
    refine (hsel.selects r2 j).mpr ⟨by simp, 1, hr2, ?_⟩
    rw [Nat.min_eq_left (by omega)]
    rfl
  have hij : j ≠ i := by
    rintro rfl
    have hnd := hsel.nodup
    simp at hnd
  have hpt := drawCrosspt_one ht ht'
  obtain ⟨hscore, hcheck, g, heval, hg⟩ := htwins.child (b := b) (p := p.delLists b) 1 1 1
    (hbreed.valid i hmi) (hbreed.valid j hmj) (hbreed.shaped i hmi) (hbreed.shaped j hmj)
  obtain ⟨p', hp'⟩ := (doCrossover_true_iff hbreed hmi hmj (by omega) (by omega) (by omega)).mpr
    ⟨hcheck, g, heval, hg ▸ Double.lt_irrefl _, (hg.trans hscore.symm) ▸ Double.lt_irrefl _⟩
  obtain ⟨ds, hds⟩ := attempt_reads hi hj hij hpt hpt hpt hp'
  have hread : Reads (crossover .localOnly cfg p) ([] ++ ds) p' :=
    (Reads.lift hb).bind hds.attempts
  obtain ⟨⟨l', hlist⟩, hgene⟩ :=
    doCrossover_behind hbreed hrest hperm heval (congrArg Double.value hg)
      (congrArg Double.value (hg.trans hscore.symm)) hp'
  refine ⟨_, p', hread, i, j, l', hlist, ?_⟩
  rw [hgene i (ne_inWork rfl hmi), hgene j (ne_inWork rfl hmj)]
  exact htwins

/-- From twins in front every number of generations can be completed. -/
theorem twinsLead_generations (hn : 3 ≤ cfg.nPops) (hn' : cfg.nPops ≤ 16383) (ht : 2 ≤ cfg.nTasks)
    (ht' : cfg.nTasks < 2 ^ 32) (n : ℕ) {p : Pop} (hinv : GaInv .localOnly cfg (.boundary, p))
    (h : TwinsLead p) : ∃ ds p', Reads (generations .localOnly cfg n p) ds p' := by
  induction n generalizing p with
  | zero => exact ⟨[], p, Reads.pure p⟩
  | succ n ih =>
    obtain ⟨ds, q, hq, hlead⟩ := twinsLead_crossover hn hn' ht ht' hinv h
    obtain ⟨es, p', hp'⟩ := ih (crossover_gaInv hinv hq.returns) hlead
    exact ⟨ds ++ es, p', hq.bind hp'⟩

/-- Of genes that are all alike two lead. -/
theorem twinsLead_of_alike {mode : Mode} {p : Pop} (hinv : GaInv mode cfg (.boundary, p))
    (hn : 2 ≤ cfg.nPops) {mems cpufreqs : List ℕ}
    (hgenes : (p.genes.map fun g => (g.taskattrsMem.attrs, g.taskattrsCpufreq.attrs)) =
      List.replicate cfg.nPops (mems, cpufreqs)) : TwinsLead p := by
  have hsame : ∀ i < cfg.nPops, (p.gene i).taskattrsMem.attrs = mems ∧
      (p.gene i).taskattrsCpufreq.attrs = cpufreqs := by
    intro i hi
    have hlen : i < p.genes.length := by
      rw [hinv.size]
      exact hi
    have hmem : p.gene i ∈ p.genes := by
      rw [Pop.gene, List.getD_eq_getElem _ _ hlen]
      exact List.getElem_mem hlen
    have hmap := List.mem_map_of_mem (f := fun g : Gene =>
      (g.taskattrsMem.attrs, g.taskattrsCpufreq.attrs)) hmem
    rw [hgenes] at hmap
    exact Prod.mk.inj (List.eq_of_mem_replicate hmap)
  obtain ⟨l, hl, hp, _⟩ := hinv.listed.byScore
  have hp : l.Perm (List.range cfg.nPops) := hp
  have hlength := hp.length_eq
  rw [List.length_range] at hlength
  obtain ⟨i, j, l, rfl⟩ : ∃ i j l', l = i :: j :: l' := by
    cases l with
    | nil => simp at hlength; omega
    | cons i l =>
      cases l with
      | nil => simp at hlength; omega
      | cons j l => exact ⟨i, j, l, rfl⟩
  have hi := hsame i (List.mem_range.mp (hp.mem_iff.mp (by simp)))
  have hj := hsame j (List.mem_range.mp (hp.mem_iff.mp (by simp)))
  exact ⟨i, j, l, hl, hi.1.trans hj.1.symm, hi.2.trans hj.2.symm⟩

end Twins

/-- At a generation boundary some draws let `do_crossover` answer yes, and the crossover return, exactly
    when two parents that can be selected have an acceptable child. With every task local a population
    whose two best genes are twins is no dead end, and all further generations can be completed. -/
theorem crossover_returns_iff {mode : Mode} {cfg : Config} {gens : ℕ} {p : Pop}
    (hn : 3 ≤ cfg.nPops) (ht : 2 ≤ cfg.nTasks) (hp : Returns (evolve mode cfg gens) p) :
    (∀ b q, getNewborn p = .ok (b, q) →
      ((∃ q', Returns (attempt mode cfg b q) (true, q')) ↔ CanBreed mode cfg b q)) ∧
    ((∃ p', Returns (crossover mode cfg p) p') ↔
      ∃ b q, getNewborn p = .ok (b, q) ∧ CanBreed mode cfg b q) ∧
    (mode = .localOnly → cfg.nPops ≤ 16383 → cfg.nTasks < 2 ^ 32 → TwinsLead p →
      ∀ n, ∃ p', Returns (generations mode cfg n p) p') := by
  have hinv := evolve_gaInv hp
  refine ⟨fun b q hb => attempt_true_iff (by omega) (hinv.remove hb),
    crossover_canBreed_iff (by omega) hinv, ?_⟩
  rintro rfl hn' ht' h n
  obtain ⟨ds, p', hp'⟩ := twinsLead_generations hn hn' ht ht' n hinv h
  exact ⟨p', hp'.returns⟩

/-- Three equal genes of `smallConf` can breed for ever. -/
theorem crossover_returns_smallConf : ∃ p, Returns (evolve .localOnly smallConf 0) p ∧
    (∃ p', Returns (crossover .localOnly smallConf p) p') ∧
    ∀ n, ∃ p', Returns (generations .localOnly smallConf n p) p' := by
  have hattrs : ((evolve .localOnly smallConf 0 (List.replicate 18 0)).map fun r =>
      r.1.genes.map fun g => (g.taskattrsMem.attrs, g.taskattrsCpufreq.attrs)) =
      .ok (List.replicate 3 ([0, 0], [0, 0])) := by decide +kernel
  obtain ⟨⟨p, ds⟩, hrun, hgenes⟩ : ∃ r, evolve .localOnly smallConf 0 (List.replicate 18 0) = .ok r ∧
      (r.1.genes.map fun g => (g.taskattrsMem.attrs, g.taskattrsCpufreq.attrs)) =
        List.replicate 3 ([0, 0], [0, 0]) := by
    cases hrun : evolve .localOnly smallConf 0 (List.replicate 18 0) with
    | error e =>
      rw [hrun] at hattrs
      cases hattrs
    | ok r =>
      rw [hrun] at hattrs
      exact ⟨r, rfl, Except.ok.inj hattrs⟩
  have hp : Returns (evolve .localOnly smallConf 0) p := ⟨_, ds, hrun⟩
  have hinv := evolve_gaInv hp
  have hlead : TwinsLead p := twinsLead_of_alike hinv (by decide) hgenes
  have hmain := (crossover_returns_iff (by decide) (by decide) hp).2.2 rfl (by decide) (by decide) hlead
  obtain ⟨p', hp'⟩ := hmain 1
  obtain ⟨q, hq, _⟩ := hp'.bind
  exact ⟨p, hp, ⟨q, hq⟩, hmain⟩

/-! ### A dead end -/

/-- Draws for three genes of `smallConf`: the first at the fast level, the others at the slow one. -/
def splitDraws : List ℕ := [0, 0, 0, 0, 0, 0, 0, 0, 1, 1, 0, 0, 0, 0, 1, 1, 0, 0]

/-- What `get_newborn` leaves of them. -/
def splitPop : Option (Pop × ℕ × Pop) :=
  match evolve .localOnly smallConf 0 splitDraws with
  | .ok (p, _) =>
    match getNewborn p with
    | .ok (b, q) => some (p, b, q)
    | .error _ => none
  | .error _ => none

/-- On `smallConf`, with three genes and two tasks, the parents left are a fast and a slow one: either
    child has one slow task and so costs more than the fast parent. -/
theorem crossover_deadEnd : Accepted smallConf ∧ 3 ≤ smallConf.nPops ∧ 2 ≤ smallConf.nTasks ∧
    ∃ p b q, Returns (evolve .localOnly smallConf 0) p ∧ getNewborn p = .ok (b, q) ∧
      (∀ q', ¬ Returns (attempt .localOnly smallConf b q) (true, q')) ∧
      ∀ p', ¬ Returns (crossover .localOnly smallConf p) p' := by
  have hsome : splitPop.isSome = true := by decide +kernel
  have hnone : (splitPop.all fun x => decide (∀ g1 ∈ List.range 3, ∀ g2 ∈ List.range 3,
      g1 ≠ x.2.1 → g2 ≠ x.2.1 → g2 ≠ g1 →
      ¬ Breeds .localOnly smallConf x.2.2 x.2.1 g1 g2 1 1 1)) = true := by decide +kernel
  obtain ⟨⟨p, b, q⟩, hpop⟩ := Option.isSome_iff_exists.mp hsome
  rw [hpop, Option.all_some, decide_eq_true_eq] at hnone
  obtain ⟨hp, hb⟩ : Returns (evolve .localOnly smallConf 0) p ∧ getNewborn p = .ok (b, q) := by
    unfold splitPop at hpop
    split at hpop
    · rename_i hrun
      split at hpop
      · rename_i hnew
        simp only [Option.some.injEq, Prod.mk.injEq] at hpop
        obtain ⟨rfl, rfl, rfl⟩ := hpop
        exact ⟨⟨_, _, hrun⟩, hnew⟩
      · simp at hpop
    · simp at hpop
  have hinv := evolve_gaInv hp
  have hbreed := hinv.remove hb
  have hpoint : ∀ {k : ℕ}, Returns (drawCrosspt smallConf) k → k = 1 := by
    intro k hk
    obtain ⟨r, hr, hk⟩ := hk.bind
    obtain rfl := returns_pure.mp hk
    have hlt : r < 1 := getRand_lt hr
    omega
  have hdead : ¬ CanBreed .localOnly smallConf b q := by
    rintro ⟨g1, g2, kr, kc, km, ⟨r1, hr1⟩, ⟨r2, hr2⟩, hne, hkr, hkc, hkm, h⟩
    have hmem : ∀ {r i : ℕ}, selectGeneOf smallConf q r = .ok i → i ∈ List.range 3 ∧ i ≠ b := by
      intro r i hr
      have hi := selectGeneOf_mem hbreed.listed hbreed.members_length hr
      exact ⟨List.mem_range.mpr (hbreed.bounds i hi), ne_inWork rfl hi⟩
    rw [hpoint hkr, hpoint hkc, hpoint hkm] at h
    exact hnone g1 (hmem hr1).1 g2 (hmem hr2).1 (hmem hr1).2 (hmem hr2).2 hne h
  refine ⟨smallConf_accepted, by decide, by decide, p, b, q, hp, hb, ?_, ?_⟩
  · intro q' hq'
    exact hdead ((attempt_true_iff (by decide) hbreed).mp ⟨q', hq'⟩)
  · intro p' hp'
    obtain ⟨b', q'', hb', hcan⟩ := (crossover_canBreed_iff (by decide) hinv).mp ⟨p', hp'⟩
    obtain ⟨rfl, rfl⟩ := Prod.mk.inj (Except.ok.inj (hb.symm.trans hb'))
    exact hdead hcan

end MutualEdge
