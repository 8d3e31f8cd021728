import MutualEdge.Ranking

/-! The program refines the search on rankings.

    Read through the score list, the population of the program is a ranking. Every part of the run keeps
    in step with its counterpart on rankings, draw by draw, and both end alike; the other two lists, the
    indices and the array are gone on the one side and make no difference. -/

namespace MutualEdge
open Checks Choice LinkRing Ordered

/-- The genes on the score list are those of the ranking, in its order. -/
def Ranked (p : Pop) (l : Ranking) : Prop := ∃ idx, Holds p.genesByScore idx ∧ idx.map p.gene = l

section Refinement
variable {mode : Mode} {cfg : Config}

/-- Inserting a new gene by its links is inserting it by its score. -/
theorem Ranked.sortGene {p p' : Pop} {members : List ℕ} {w : ℕ} {g : Gene} {l : Ranking}
    (h : Ranked p l) (hl : Listed p members) (hw : w ∉ members) (hu : Unlisted p w)
    (hlen : w < p.genes.length) (hmem : members.length ≤ p.genes.length)
    (hs : MutualEdge.sortGene (p.setGene w g) w = .ok p') : Ranked p' (l.add g) := by
  obtain ⟨idx, hidx, rfl⟩ := h
  obtain ⟨idx', hidx', hperm, _⟩ := hl.byScore
  obtain rfl := hidx.unique hidx'
  have hnot : w ∉ idx := fun hm => hw (hperm.mem_iff.mp hm)
  have hins := sortGene_byScore (p := p.setGene w g) hidx hnot (hu.setGene w g)
    (by rw [hperm.length_eq, Pop.genes_setGene_length]; exact hmem) hs
  have hgene : p'.gene = (p.setGene w g).gene := by
    funext j
    rw [Pop.gene, Pop.gene, sortGene_genes hs]
  refine ⟨_, hins, ?_⟩
  have hold : idx.map (p.setGene w g).gene = idx.map p.gene := by
    refine List.map_congr_left fun j hj => p.gene_setGene_ne ?_ g
    rintro rfl
    exact hnot hj
  rw [hgene, map_insertKey_comp (fun g : Gene => g.score), hold, Pop.gene_setGene_self hlen,
    Ranking.add]

/-- Rewriting a gene that is not listed leaves the ranking as it is. -/
theorem Ranked.setGene {p : Pop} {members : List ℕ} {w : ℕ} {l : Ranking} (h : Ranked p l)
    (hl : Listed p members) (hw : w ∉ members) (g : Gene) : Ranked (p.setGene w g) l := by
  obtain ⟨idx, hidx, rfl⟩ := h
  obtain ⟨idx', hidx', hperm, _⟩ := hl.byScore
  obtain rfl := hidx.unique hidx'
  refine ⟨idx, hidx, List.map_congr_left fun j hj => p.gene_setGene_ne ?_ g⟩
  rintro rfl
  exact hw (hperm.mem_iff.mp hj)

/-! ### New genes -/

/-- What a round leaves: the gene sorted in, or in its place in the array. -/
def AfterRound (w : ℕ) (l : Ranking) (r : Bool × Pop) (r' : Bool × Gene) : Prop :=
  r.1 = r'.1 ∧ if r.1 then Ranked r.2 (l.add r'.2) else Ranked r.2 l ∧ r.2.gene w = r'.2

/-- A round of `init_gene` is one of the preparation. -/
theorem initTry_lockstep {k : ℕ} {p : Pop} {l : Ranking} (hinv : GaInv mode cfg (.trying k, p))
    (h : Ranked p l) :
    Lockstep (AfterRound k l) (initTry mode cfg k p) (prepareOnce mode cfg (p.gene k)) := by
  have hnot : k ∉ members cfg (.trying k) := by simp [members]
  have hlen : k < (p.initLists k).genes.length := hinv.inWork_lt rfl
  obtain ⟨hl, hun⟩ := hinv.listed.initLists hnot
  have hinit : Ranked (p.initLists k) l := by
    obtain ⟨idx, hidx, rfl⟩ := h
    obtain ⟨idx', hidx', hperm, _⟩ := hinv.listed.byScore
    obtain rfl := hidx.unique hidx'
    exact ⟨idx, initListHead_holds hidx fun hm => hnot (hperm.mem_iff.mp hm), rfl⟩
  rw [initTry, prepareOnce]
  dsimp only
  rw [Pop.gene_initLists]
  split
  · refine (Lockstep.refl _).bind fun g _ hg _ _ => ?_
    subst hg
    exact .pure ⟨rfl, hinit.setGene hl hnot g, Pop.gene_setGene_self hlen g⟩
  · refine (Lockstep.refl _).bind fun r _ hr _ _ => ?_
    subst hr
    obtain ⟨b, g⟩ := r
    rw [Pop.gene_setGene_self hlen]
    cases b with
    | true =>
      obtain ⟨q, hq⟩ := sortGene_ready hinv g
      rw [if_pos rfl, if_pos rfl, hq]
      exact .pure ⟨rfl, hinit.sortGene hl hnot hun hlen hinv.members_length hq⟩
    | false =>
      refine (Lockstep.refl _).bind fun g' _ hg' _ _ => ?_
      subst hg'
      rw [Pop.setGene_setGene]
      exact .pure ⟨rfl, hinit.setGene hl hnot g', Pop.gene_setGene_self hlen g'⟩

/-- The population before gene `k` is filled, and the ranking of the genes so far. -/
structure Filling (mode : Mode) (cfg : Config) (k : ℕ) (p : Pop) (l : Ranking) : Prop where
  inv : GaInv mode cfg (.fresh k, p)
  ranked : Ranked p l
  zeroed : ∀ i, k ≤ i → p.gene i = {}

/-- The same in the loop on gene `k`. -/
structure Trying (mode : Mode) (cfg : Config) (k : ℕ) (l : Ranking) (p : Pop) (g : Gene) : Prop where
  inv : GaInv mode cfg (.trying k, p)
  ranked : Ranked p l
  gene : p.gene k = g
  zeroed : ∀ i, k < i → p.gene i = {}

theorem Trying.step {k : ℕ} {l : Ranking} {p : Pop} {g : Gene} (h : Trying mode cfg k l p g) :
    Lockstep (fun r r' => r.1 = r'.1 ∧ if r.1 then Filling mode cfg (k + 1) r.2 (l.add r'.2)
      else Trying mode cfg k l r.2 r'.2) (initTry mode cfg k p) (prepareOnce mode cfg g) := by
  have hround := initTry_lockstep h.inv h.ranked
  rw [h.gene] at hround
  refine hround.mono fun r r' hr hx _ => ?_
  obtain ⟨done, q⟩ := r
  obtain ⟨hdone, hr⟩ := hr
  refine ⟨hdone, ?_⟩
  have hothers := (h.inv.initTry hx).others
  have hzero : ∀ i, k < i → q.gene i = {} := by
    intro i hi
    rw [hothers i (by omega), h.zeroed i hi]
  cases done with
  | true => exact ⟨gaInv_step h.inv (.place hx), hr, fun i hi => hzero i hi⟩
  | false => exact ⟨gaInv_step h.inv (.repair hx), hr.1, hr.2, hzero⟩

theorem Filling.initGene {k : ℕ} {p : Pop} {l : Ranking} (h : Filling mode cfg k p l)
    (hk : k < cfg.nPops) : Lockstep (fun q g => Filling mode cfg (k + 1) q (l.add g))
      (MutualEdge.initGene mode cfg k p) (prepare mode cfg) := by
  have hlen : k < p.genes.length := by
    rw [h.inv.size]
    exact hk
  rw [MutualEdge.initGene, prepare, h.zeroed k le_rfl]
  refine (Lockstep.refl _).bind fun g _ hg hx _ => ?_
  subst hg
  refine Lockstep.attempts (I := Trying mode cfg k l) (R := fun q g => Filling mode cfg (k + 1) q
    (l.add g)) ?_ ?_ ?_
  · rintro q g' ht
    rw [utilizationTooHigh, ht.gene]
  · exact fun q g' ht => ht.step
  · refine ⟨h.inv.assign hk ?_, ?_, Pop.gene_setGene_self hlen g, ?_⟩
    · rwa [h.zeroed k le_rfl]
    · exact h.ranked.setGene h.inv.listed (by simp [members]) g
    · intro i hi
      rw [p.gene_setGene_ne (by omega), h.zeroed i (by omega)]

theorem Filling.initGenes {n k : ℕ} {p : Pop} {l : Ranking} (h : Filling mode cfg k p l)
    (hk : k + n = cfg.nPops) :
    Lockstep (Filling mode cfg cfg.nPops) (MutualEdge.initGenes mode cfg n k p)
      (populate mode cfg n l) := by
  induction n generalizing k p l with
  | zero =>
    obtain rfl : k = cfg.nPops := by omega
    exact .pure h
  | succ n ih => exact (h.initGene (by omega)).bind fun q g hq _ _ => ih hq (by omega)

/-- A population between two generations and its ranking. -/
structure Bound (mode : Mode) (cfg : Config) (p : Pop) (l : Ranking) : Prop where
  inv : GaInv mode cfg (.boundary, p)
  ranked : Ranked p l

theorem initPopulations_lockstep : Lockstep (Bound mode cfg) (initPopulations mode cfg)
    (populate mode cfg cfg.nPops []) := by
  have hstart : Filling mode cfg 0 (emptyPop cfg.nPops) [] := by
    refine ⟨gaInv_init, ⟨[], listHead_holds, rfl⟩, fun i _ => ?_⟩
    simp only [emptyPop, Pop.gene, List.getD_eq_getElem?_getD, List.getElem?_replicate]
    split <;> rfl
  refine (hstart.initGenes (Nat.zero_add _)).mono fun p l h _ _ => ?_
  exact ⟨gaInv_step h.inv .populated, h.ranked⟩

/-! ### Generations -/

/-- A population in the loop of a crossover on gene `b`, the ranking of the others and the gene. -/
structure Breeding (mode : Mode) (cfg : Config) (b : ℕ) (l : Ranking) (p : Pop) (g : Gene) : Prop where
  inv : GaInv mode cfg (.breeding b, p)
  ranked : Ranked p l
  gene : p.gene b = g

/-- The gene with the largest score is taken off the lists and off the ranking. -/
theorem Bound.getNewborn {p : Pop} {l : Ranking} (h : Bound mode cfg p l) :
    Matched (fun r g => Breeding mode cfg r.1 l.dropLast r.2 g) (MutualEdge.getNewborn p) l.worst := by
  obtain ⟨idx, hidx, rfl⟩ := h.ranked
  rcases List.eq_nil_or_concat idx with rfl | ⟨idx, b, rfl⟩
  · have hprev : p.genesByScore.prev none = none := hidx.path.2
    simp only [MutualEdge.getNewborn, hprev]
    exact .error _
  · rw [List.concat_eq_append] at hidx ⊢
    have hnew : MutualEdge.getNewborn p = .ok (b, p.delLists b) := by
      simp only [MutualEdge.getNewborn, hidx.prev_sentinel]
    have hworst : Ranking.worst ((idx ++ [b]).map p.gene) = .ok (p.gene b) := by
      rw [Ranking.worst, List.map_append, List.map_singleton, List.getLast?_concat, require]
    rw [hnew, hworst]
    refine .ok ⟨h.inv.remove hnew, ⟨idx, ?_, ?_⟩, rfl⟩
    · have hdel : Holds (listDelInit p.genesByScore (some b)) (idx ++ []) := listDelInit_holds hidx
      rwa [List.append_nil] at hdel
    · rw [List.map_append, List.map_singleton, List.dropLast_concat]
      rfl

/-- The entry of a rank. -/
def EntryAt (idx : List ℕ) (i rank : ℕ) : Prop := idx[rank]? = some i

/-- A draw selects a gene of the score list by its rank. -/
theorem selectGeneOf_matched {b : ℕ} {p : Pop} {idx : List ℕ}
    (hinv : GaInv mode cfg (.breeding b, p)) (hidx : Holds p.genesByScore idx) (r : ℕ) :
    Matched (EntryAt idx) (MutualEdge.selectGeneOf cfg p r) (rankOf cfg idx.length r) := by
  obtain ⟨idx', hidx', hperm, _⟩ := hinv.listed.byScore
  obtain rfl := hidx.unique hidx'
  have hlen : idx.length ≤ p.genes.length := hperm.length_eq.trans_le hinv.members_length
  rcases List.eq_nil_or_concat idx with rfl | ⟨idx, a, rfl⟩
  · have hprev : p.genesByScore.prev none = none := hidx.path.2
    rw [MutualEdge.selectGeneOf, rankOf]
    refine (Matched.refl (fun _ => rfl) _).bind fun position _ hpos _ _ => ?_
    subst hpos
    rw [listForEach_eq hidx (Nat.lt_succ_of_le hlen)]
    simp only [hprev]
    exact .error _
  · have hne : idx.concat a ≠ [] := by simp
    have hpos := List.length_pos_iff.mpr hne
    rw [selectGeneOf_eq hidx hlen hne, rankOf]
    refine (Matched.refl (fun _ => rfl) _).bind fun position _ hposition _ _ => ?_
    subst hposition
    rw [if_neg hpos.ne', getD_getLast hne]
    refine .ok ?_
    have hlt : min position ((idx.concat a).length - 1) < (idx.concat a).length := by omega
    rw [EntryAt, List.getD_eq_getElem _ _ hlt, List.getElem?_eq_getElem hlt]

theorem selectGene_lockstep {b : ℕ} {p : Pop} {idx : List ℕ}
    (hinv : GaInv mode cfg (.breeding b, p)) (hidx : Holds p.genesByScore idx) :
    Lockstep (EntryAt idx) (selectGene cfg p) (drawRank cfg idx.length) := by
  refine (Lockstep.refl _).bind fun r _ hr _ _ => ?_
  subst hr
  exact .lift (selectGeneOf_matched hinv hidx r)

/-- Two places of the list hold the same gene only if they are the same place. -/
theorem selectOther_lockstep {b gene1 rank1 : ℕ} {p : Pop} {idx : List ℕ}
    (hinv : GaInv mode cfg (.breeding b, p)) (hidx : Holds p.genesByScore idx)
    (h1 : EntryAt idx gene1 rank1) :
    Lockstep (EntryAt idx) (selectOther cfg p gene1) (drawOther cfg idx.length rank1) := by
  refine Lockstep.retry fun r => ?_
  refine (selectGeneOf_matched hinv hidx r).bind fun gene2 rank2 h2 _ _ => ?_
  have hsame : gene2 = gene1 ↔ rank2 = rank1 := by
    unfold EntryAt at h1 h2
    constructor
    · rintro rfl
      obtain ⟨hlt, hget⟩ := List.getElem?_eq_some_iff.mp h2
      exact (List.getElem?_inj hlt hidx.nodup).mp (h2.trans h1.symm)
    · rintro rfl
      exact Option.some.inj (h2.symm.trans h1)
  by_cases heq : gene2 = gene1
  · rw [if_neg (not_not.mpr heq), if_neg (not_not.mpr (hsame.mp heq))]
    exact .ok .none
  · rw [if_pos heq, if_pos fun hr => heq (hsame.mpr hr)]
    exact .ok (.some h2)

theorem EntryAt.gene {p : Pop} {idx : List ℕ} {i rank : ℕ} (h : EntryAt idx i rank) :
    (idx.map p.gene).getD rank {} = p.gene i := by
  rw [List.getD_eq_getElem?_getD, List.getElem?_map, h]
  rfl

/-- The gene can be sorted in again. -/
theorem Breeding.sortGene_ready {b : ℕ} {l : Ranking} {p : Pop} {g : Gene}
    (h : Breeding mode cfg b l p g) (g' : Gene) : ∃ q, sortGene (p.setGene b g') b = .ok q := by
  have hnot : b ∉ members cfg (.breeding b) := inWork_not_mem rfl
  obtain ⟨q, hq, -, -⟩ := sortGene_listed (h.inv.listed.setGene hnot g') hnot
    ((h.inv.unlisted b rfl).setGene b g') (by simpa using h.inv.members_length)
  exact ⟨q, hq⟩

/-- Crossing two listed genes over is breeding their child. -/
theorem Breeding.doCrossover {b g1 g2 : ℕ} {l : Ranking} {p : Pop} {g : Gene}
    (h : Breeding mode cfg b l p g) (h1 : g1 ≠ b) (h2 : g2 ≠ b) (kr kc km : ℕ) :
    Matched (AfterRound b l) (MutualEdge.doCrossover mode cfg p b g1 g2 kr kc km)
      (breed mode cfg g (p.gene g1) (p.gene g2) kr kc km) := by
  have hlen : b < p.genes.length := h.inv.inWork_lt rfl
  have hnot : b ∉ members cfg (.breeding b) := inWork_not_mem rfl
  have hwritten : ∀ g', AfterRound b l (false, p.setGene b g') (false, g') := fun g' =>
    ⟨rfl, h.ranked.setGene h.inv.listed hnot g', Pop.gene_setGene_self hlen g'⟩
  rw [MutualEdge.doCrossover, breed]
  dsimp only
  rw [Pop.gene_setGene_self hlen, h.gene]
  split
  · exact .error _
  · split
    · exact .ok (hwritten _)
    · refine (Matched.refl (fun _ => rfl) _).bind fun r _ hr _ _ => ?_
      subst hr
      obtain ⟨accepted, g'⟩ := r
      rw [Pop.setGene_setGene, Pop.gene_setGene_self hlen, p.gene_setGene_ne h1,
        p.gene_setGene_ne h2]
      cases accepted with
      | false => exact .ok (hwritten g')
      | true =>
        rw [if_neg (by simp), Bool.true_and]
        by_cases hscore : g'.score ≤ (p.gene g1).score ∧ g'.score ≤ (p.gene g2).score
        · obtain ⟨q, hq⟩ := h.sortGene_ready g'
          rw [if_neg (by push Not; exact hscore), hq, decide_eq_true hscore]
          exact .ok ⟨rfl, h.ranked.sortGene h.inv.listed hnot (h.inv.unlisted b rfl) hlen
            h.inv.members_length hq⟩
        · rw [if_pos (by rwa [not_and_or, not_le, not_le] at hscore), decide_eq_false hscore]
          exact .ok (hwritten g')

/-- An attempt of the program is one on its ranking. -/
theorem Breeding.step {b : ℕ} {l : Ranking} {p : Pop} {g : Gene} (h : Breeding mode cfg b l p g) :
    Lockstep (fun r r' => r.1 = r'.1 ∧ if r.1 then Bound mode cfg r.2 (l.add r'.2)
      else Breeding mode cfg b l r.2 r'.2) (attempt mode cfg b p) (breedOnce mode cfg l g) := by
  have hround : Lockstep (AfterRound b l) (attempt mode cfg b p) (breedOnce mode cfg l g) := by
    obtain ⟨idx, hidx, rfl⟩ := h.ranked
    rw [attempt, breedOnce, List.length_map]
    refine (selectGene_lockstep h.inv hidx).bind fun g1 rank1 h1 hsel1 _ => ?_
    refine (selectOther_lockstep h.inv hidx h1).bind fun g2 rank2 h2 hsel2 _ => ?_
    obtain ⟨hm1, hm2, _⟩ := h.inv.parents hsel1 hsel2
    refine (Lockstep.refl _).bind fun kr _ hkr _ _ => ?_
    refine (Lockstep.refl _).bind fun kc _ hkc _ _ => ?_
    refine (Lockstep.refl _).bind fun km _ hkm _ _ => ?_
    subst hkr hkc hkm
    rw [h1.gene, h2.gene]
    exact .lift (h.doCrossover (ne_inWork rfl hm1) (ne_inWork rfl hm2) kr kc km)
  refine hround.mono fun r r' hr hx _ => ?_
  obtain ⟨done, q⟩ := r
  obtain ⟨hdone, hr⟩ := hr
  refine ⟨hdone, ?_⟩
  cases done with
  | true => exact ⟨gaInv_step h.inv (.accept hx), hr⟩
  | false => exact ⟨gaInv_step h.inv (.reject hx), hr.1, hr.2⟩

/-- A crossover of the program is a generation of the search. -/
theorem Bound.crossover {p : Pop} {l : Ranking} (h : Bound mode cfg p l) :
    Lockstep (Bound mode cfg) (MutualEdge.crossover mode cfg p) (generation mode cfg l) := by
  refine (Lockstep.lift h.getNewborn).bind fun r worst hr _ _ => ?_
  refine Lockstep.map_right ?_
  exact Lockstep.attempts (fun _ _ _ => rfl) (fun q g hq => hq.step) hr

/-! ### The report and the result -/

/-- The order in which the genes are looked at makes no difference to the sums and the extremes. -/
theorem Sums.addGene_comm (s : Sums) (g g' : Gene) :
    (s.addGene g).addGene g' = (s.addGene g').addGene g := by
  by_cases hg : g.util ≤ 3.0 <;> by_cases hg' : g'.util ≤ 3.0
  · by_cases hk : g.scoreKind = .number <;> by_cases hk' : g'.scoreKind = .number <;>
      simp only [Sums.addGene_counted _ hg, Sums.addGene_counted _ hg', if_pos, if_neg, hk, hk',
        not_false_iff, add_right_comm, min_left_comm, max_right_comm]
  · simp only [Sums.addGene_counted _ hg, Sums.addGene_skipped _ hg', add_right_comm]
  · simp only [Sums.addGene_skipped _ hg, Sums.addGene_counted _ hg', add_right_comm]
  · simp only [Sums.addGene_skipped _ hg, Sums.addGene_skipped _ hg', add_right_comm]

/-- The genes of the ranking are those of the array. -/
theorem Bound.perm {p : Pop} {l : Ranking} (h : Bound mode cfg p l) :
    l.Perm ((List.range cfg.nPops).map p.gene) := by
  obtain ⟨idx, hidx, rfl⟩ := h.ranked
  obtain ⟨idx', hidx', hperm, _⟩ := h.inv.listed.byScore
  obtain rfl := hidx.unique hidx'
  exact hperm.map p.gene

theorem Bound.sums {p : Pop} {l : Ranking} (h : Bound mode cfg p l) :
    p.sums cfg = l.foldl Sums.addGene {} := by
  rw [h.perm.foldl_eq' (fun g _ g' _ s => s.addGene_comm g g'), List.foldl_map, Pop.sums]

theorem Bound.mem {p : Pop} {l : Ranking} (h : Bound mode cfg p l) {g : Gene} :
    g ∈ l ↔ ∃ i < cfg.nPops, p.gene i = g := by
  simp [h.perm.mem_iff]

/-- The first gene is that of the head of the score list. -/
theorem Bound.best {p : Pop} {l : Ranking} (h : Bound mode cfg p l) :
    l.best = require .wildPointer (p.genesByScore.next none) >>= fun i => Pure.pure (p.gene i) := by
  obtain ⟨idx, hidx, rfl⟩ := h.ranked
  cases idx with
  | nil => rw [show p.genesByScore.next none = none from hidx.path.1]; rfl
  | cons i idx => rw [hidx.next_sentinel]; rfl

theorem Bound.worst {p : Pop} {l : Ranking} (h : Bound mode cfg p l) :
    l.worst = require .wildPointer (p.genesByScore.prev none) >>= fun i => Pure.pure (p.gene i) := by
  obtain ⟨idx, hidx, rfl⟩ := h.ranked
  rcases List.eq_nil_or_concat idx with rfl | ⟨idx, i, rfl⟩
  · rw [show p.genesByScore.prev none = none from hidx.path.2]
    rfl
  · rw [List.concat_eq_append] at hidx ⊢
    rw [hidx.prev_sentinel, Ranking.worst, List.map_append, List.map_singleton,
      List.getLast?_concat]
    rfl

/-- The row of the report needs the ranking only. -/
theorem Bound.row {p : Pop} {l : Ranking} (h : Bound mode cfg p l) (gen : ℕ) :
    reportRow cfg p gen = l.row cfg gen := by
  rcases Nat.eq_zero_or_pos cfg.nPops with h0 | hn
  · -- without a gene there is no first one
    obtain ⟨idx, hidx, hperm, _⟩ := h.inv.listed.byUtil
    obtain rfl : idx = [] := by simpa [members, h0] using hperm
    have hl : l = [] := by simpa [h0] using h.perm
    rw [reportRow, show p.genesByUtil.next none = none from hidx.path.1, hl]
    rfl
  · obtain ⟨first, last, best, worst, hends⟩ := exists_ends h.inv hn
    have hmin : (l.map fun g => g.util).min? = some (p.gene first).util := by
      rw [List.min?_eq_some_iff]
      constructor
      · exact List.mem_map_of_mem (h.mem.mpr ⟨first, hends.first_lt, rfl⟩)
      · intro u hu
        obtain ⟨g, hg, rfl⟩ := List.mem_map.mp hu
        obtain ⟨i, hi, rfl⟩ := h.mem.mp hg
        exact hends.utilMin i hi
    have hmax : (l.map fun g => g.util).max? = some (p.gene last).util := by
      rw [List.max?_eq_some_iff]
      constructor
      · exact List.mem_map_of_mem (h.mem.mpr ⟨last, hends.last_lt, rfl⟩)
      · intro u hu
        obtain ⟨g, hg, rfl⟩ := List.mem_map.mp hu
        obtain ⟨i, hi, rfl⟩ := h.mem.mp hg
        exact hends.utilMax i hi
    simp only [reportRow, Ranking.row, h.best, h.worst, hends.is_first, hends.is_last, hends.is_best,
      hends.is_worst, h.inv.searchCostMin hends.is_best, hmin, hmax, h.sums, require, bind,
      Except.bind, pure, Except.pure, Pop.Counted]
    rfl

/-- So does the decision to write one. -/
theorem Bound.report {p : Pop} {l : Ranking} (h : Bound mode cfg p l) (gen : ℕ) {r : Report}
    (hr : r = {} ∨ r.nReportIntervals = reportInterval cfg) :
    addReport cfg p gen r = l.report cfg gen r := by
  have hpos : reportInterval cfg ≠ 0 := by
    unfold reportInterval
    omega
  rcases hr with rfl | hr
  · have hinterval : (if cfg.maxGen / nReports = 0 then 1 else cfg.maxGen / nReports) =
        reportInterval cfg := by
      unfold reportInterval
      generalize cfg.maxGen / nReports = n
      split <;> omega
    simp only [addReport, Ranking.report, if_pos, h.row, hinterval]
  · have hne : r.nReportIntervals ≠ 0 := hr ▸ hpos
    have hskip : (gen % r.nReportIntervals ≠ 0 ∧ gen ≠ cfg.maxGen) ↔ ¬ Reported cfg gen := by
      rw [Reported, not_or, hr, Nat.dvd_iff_mod_eq_zero]
    rw [addReport, Ranking.report, if_neg hne, if_neg hne, h.row]
    by_cases hrep : Reported cfg gen
    · rw [if_neg fun hs => hskip.mp hs hrep, if_pos hrep]
    · rw [if_pos (hskip.mpr hrep), if_neg hrep]

/-- The result is that of the first gene. -/
theorem Bound.infos {p : Pop} {l : Ranking} (h : Bound mode cfg p l) :
    saveTaskInfos cfg p = l.best >>= fun g => g.infos cfg := by
  rw [h.best, saveTaskInfos]
  cases p.genesByScore.next none with
  | none => rfl
  | some i => rfl

/-! ### The run -/

/-- A state at the head of the loop and one of the search. -/
structure SameRun (mode : Mode) (cfg : Config) (s : GaState) (t : SearchState) : Prop where
  gen : s.gen = t.gen
  bound : Bound mode cfg s.pop t.ranking
  report : s.report = t.report
  interval : s.report.nReportIntervals = reportInterval cfg

theorem addReport_interval {p : Pop} {gen : ℕ} {r r' : Report}
    (hr : r.nReportIntervals = reportInterval cfg) (h : addReport cfg p gen r = .ok r') :
    r'.nReportIntervals = reportInterval cfg := by
  rcases addReport_later hr h with ⟨_, row, _, rfl⟩ | ⟨_, rfl⟩
  · exact hr
  · exact hr

theorem gaStart_lockstep : Lockstep (SameRun mode cfg) (gaStart mode cfg) (searchStart mode cfg) := by
  refine initPopulations_lockstep.bind fun p l h _ _ => ?_
  rw [h.report 1 (.inl rfl)]
  refine (Lockstep.refl _).bind fun r _ hr hx _ => ?_
  subst hr
  rw [← h.report 1 (.inl rfl)] at hx
  obtain ⟨row, _, rfl⟩ := addReport_first (returns_lift.mp hx)
  exact .pure ⟨rfl, h, rfl, rfl⟩

theorem gaRound_lockstep {s : GaState} {t : SearchState} (h : SameRun mode cfg s t) :
    Lockstep (SameRun mode cfg) (gaRound mode cfg s) (searchRound mode cfg t) := by
  refine h.bound.crossover.bind fun p l hb _ _ => ?_
  dsimp only
  rw [h.gen, h.report, hb.report _ (.inr (h.report ▸ h.interval))]
  refine (Lockstep.refl _).bind fun r _ hr hx _ => ?_
  subst hr
  rw [← hb.report _ (.inr (h.report ▸ h.interval))] at hx
  exact .pure ⟨rfl, hb, rfl, addReport_interval (h.report ▸ h.interval) (returns_lift.mp hx)⟩

theorem runGa_lockstep (mode : Mode) (cfg : Config) :
    Lockstep Eq (runGa mode cfg) (search mode cfg) := by
  refine gaStart_lockstep.bind fun s t h _ _ => ?_
  refine (Lockstep.loop (I := SameRun mode cfg) (fun s t h => by rw [h.gen])
    (fun s t h _ => gaRound_lockstep h) h).bind fun s t h _ _ => ?_
  rw [h.bound.infos, h.report]
  have hassoc : (liftM (t.ranking.best >>= fun g => g.infos cfg) : Rand TaskInfos) =
      liftM t.ranking.best >>= fun g => liftM (g.infos cfg) := by
    cases t.ranking.best with
    | ok g => rfl
    | error e => rfl
  rw [hassoc, bind_assoc]
  exact .refl _

/-- The whole run of the program is the search on rankings: on any random draws the two read the same
    ones and end with the same report and the same exported result, or stop for the same reason. -/
theorem runGa_eq_search (mode : Mode) (cfg : Config) : runGa mode cfg = search mode cfg :=
  (runGa_lockstep mode cfg).eq

end Refinement

end MutualEdge
