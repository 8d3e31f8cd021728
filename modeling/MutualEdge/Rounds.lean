import Mathlib.Data.List.GetD
import MutualEdge.Shape

/-! One round of the program's two retry loops.

    A round works on one gene that is on no list. `Round` is all that either loop's body can do: the
    other genes stay as they are; a failed round leaves the lists alone; a successful one has checked
    the gene's final attributes twice and sorts it in. -/

namespace MutualEdge
open Checks Choice Doubles LinkRing

/-- What the program promises of a gene in the population: it is feasible, and its cached fields are
    what a fresh call of `check_utilpower` on its attributes stores, whatever they held before. -/
structure Gene.Valid (mode : Mode) (cfg : Config) (g : Gene) : Prop where
  memory : checkMemusage cfg g = true
  util_le : g.util ≤ cfg.cutoff
  fresh : ∀ c : Cached, checkUtilpower mode cfg { g with toCached := c } = .ok (true, g)

/-- `check_utilpower` reads the attributes only. -/
theorem checkUtilpower_fresh {mode : Mode} {cfg : Config} {g₀ g : Gene}
    (h : checkUtilpower mode cfg g₀ = .ok (true, g)) (c : Cached) :
    checkUtilpower mode cfg { g with toCached := c } = .ok (true, g) := by
  obtain ⟨t, ht, htable, hcut, rfl⟩ := checkUtilpower_accepts.mp h
  exact checkUtilpower_accepts.mpr ⟨t, ht, htable, hcut, rfl⟩

/-- A gene that passes both checks on the same attributes is valid. -/
theorem valid_of_checks {mode : Mode} {cfg : Config} {g₀ g : Gene}
    (hm : checkMemusage cfg g₀ = true) (h : checkUtilpower mode cfg g₀ = .ok (true, g)) :
    g.Valid mode cfg := by
  obtain ⟨hcut, hg⟩ := checkUtilpower_ok h
  rw [if_pos rfl] at hg
  refine ⟨?_, ?_, checkUtilpower_fresh h⟩
  · rw [hg]
    exact hm
  · rw [hg]
    exact (of_decide_eq_true hcut.symm).2

/-- Evaluating a gene does not touch its attributes. -/
theorem checkUtilpower_shaped {mode : Mode} {cfg : Config} {g g' : Gene} {b : Bool}
    (hg : g.Shaped cfg) (h : checkUtilpower mode cfg g = .ok (b, g')) : g'.Shaped cfg := by
  rw [(checkUtilpower_ok h).2]
  exact ⟨hg.mem, hg.cpufreq, hg.cloud, hg.ratio⟩

/-- Every task of a well-shaped gene is local, so the score is a number exactly if no period is shorter
    than a second. -/
theorem Gene.Shaped.scoreKind {mode : Mode} {cfg : Config} {g g' : Gene} (hg : g.Shaped cfg)
    (h : checkUtilpower mode cfg g = .ok (true, g')) : g'.scoreKind = .number ↔ cfg.Priced := by
  obtain ⟨-, rfl⟩ := checkUtilpower_ok h
  refine (tallied_scoreKind mode cfg g).trans (forall₂_congr fun i _ => ?_)
  rw [taskCostKind, hg.offloads, if_neg Bool.false_ne_true, localCostKind_eq_number]

theorem Gene.Valid.scoreKind {mode : Mode} {cfg : Config} {g : Gene} (hv : g.Valid mode cfg)
    (hg : g.Shaped cfg) : g.scoreKind = .number ↔ cfg.Priced :=
  hg.scoreKind (hv.fresh g.toCached)

/-- With a shorter period no score is a number, and none is infinite either. -/
theorem Gene.Valid.scoreKind_nan {mode : Mode} {cfg : Config} {g : Gene} (hv : g.Valid mode cfg)
    (hg : g.Shaped cfg) (hcfg : cfg.WellFormed) (h : ¬ cfg.Priced) : g.scoreKind = .nan := by
  obtain ⟨-, hg'⟩ := checkUtilpower_ok (hv.fresh g.toCached)
  simp only [Config.Priced, not_forall, not_le] at h
  obtain ⟨i, hi, hperiod⟩ := h
  have hcost : taskCostKind cfg g i = .nan := by
    rw [taskCostKind, hg.offloads, if_neg Bool.false_ne_true, localCostKind_eq_nan]
    exact ⟨hperiod, (hcfg.wcet_lt hi).trans hperiod⟩
  have hscore := tallied_scoreKind_nan mode cfg g hi hcost
  rw [hg']
  exact hscore

/-- A score that is no number is kept as `0`. -/
theorem checkUtilpower_score {mode : Mode} {cfg : Config} {g g' : Gene}
    (h : checkUtilpower mode cfg g = .ok (true, g')) (hk : g'.scoreKind ≠ .number) : g'.score = 0 := by
  obtain ⟨-, rfl⟩ := checkUtilpower_ok h
  exact if_neg (Tally.scoreKind_eq_number.not.mp hk)

/-- What is kept of the scores compares as the doubles do, since all are numbers or none is. -/
theorem Gene.Shaped.scoreDouble_lt_iff {mode : Mode} {cfg : Config} {g g' g₁ g₁' : Gene}
    (hg : g.Shaped cfg) (hg' : g'.Shaped cfg) (h : checkUtilpower mode cfg g = .ok (true, g₁))
    (h' : checkUtilpower mode cfg g' = .ok (true, g₁')) :
    g₁.scoreDouble < g₁'.scoreDouble ↔ g₁.score < g₁'.score := by
  by_cases hpriced : cfg.Priced
  · exact Double.lt_iff_of_number ((hg.scoreKind h).mpr hpriced) ((hg'.scoreKind h').mpr hpriced)
  · have hk := (hg.scoreKind h).not.mpr hpriced
    have hk' := (hg'.scoreKind h').not.mpr hpriced
    rw [checkUtilpower_score h hk, checkUtilpower_score h' hk']
    exact iff_of_false (fun hlt => hk hlt.1) (lt_irrefl 0)

/-! ### Selecting parents -/

/-- Counting down along a list stops at the entry of that position, if there is one. -/
theorem countdown_eq : ∀ (l : List ℕ) (position : ℕ),
    l.foldlM (fun (position i : ℕ) =>
      if position = 0 then Except.error i else Except.ok (position - 1)) position =
      if h : position < l.length then .error l[position] else .ok (position - l.length)
  | [], position => rfl
  | i :: l, 0 => rfl
  | i :: l, position + 1 => by
    simp only [List.foldlM_cons, Nat.add_one_ne_zero, if_false, Nat.add_one_sub_one, bind,
      Except.bind, countdown_eq l position, List.length_cons, Nat.add_lt_add_iff_right,
      List.getElem_cons_succ, Nat.add_sub_add_right]

/-- `select_gene` returns the gene at the drawn position of the score list, or its last gene. -/
theorem selectGeneOf_eq {cfg : Config} {p : Pop} {l : List ℕ} {r : ℕ}
    (hl : Holds p.genesByScore l) (hlen : l.length ≤ p.genes.length) (hne : l ≠ []) :
    selectGeneOf cfg p r = do
      let position ← selectPosition cfg.nPops r
      return l.getD position (l.getLast hne) := by
  unfold selectGeneOf
  congr 1
  funext position
  rw [listForEach_eq hl (by omega), countdown_eq]
  by_cases h : position < l.length
  · rw [dif_pos h, List.getD_eq_getElem _ _ h]
  · have hlast : p.genesByScore.prev none = some (l.getLast hne) := by
      refine Holds.prev_sentinel (l := l.dropLast) ?_
      rwa [List.dropLast_append_getLast]
    rw [dif_neg h, List.getD_eq_default _ _ (by omega)]
    simp only [hlast]

theorem selectGeneOf_mem {cfg : Config} {p : Pop} {members : List ℕ} {r i : ℕ}
    (h : Listed p members) (hlen : members.length ≤ p.genes.length)
    (hr : selectGeneOf cfg p r = .ok i) : i ∈ members := by
  obtain ⟨l, hl, hp, _⟩ := h.byScore
  rw [← hp.mem_iff]
  have hlen' : l.length ≤ p.genes.length := by rw [hp.length_eq]; exact hlen
  by_cases hne : l = []
  · -- on an empty list there is no entry to return
    subst hne
    obtain ⟨position, _, hr⟩ := bind_ok.mp hr
    have hprev : p.genesByScore.prev none = none := hl.path.2
    simp [listForEach_eq hl (Nat.lt_succ_of_le hlen'), hprev, pure, Except.pure, throw, throwThe,
      MonadExceptOf.throw] at hr
  · rw [selectGeneOf_eq hl hlen' hne] at hr
    obtain ⟨position, _, hr⟩ := bind_ok.mp hr
    obtain rfl := pure_ok.mp hr
    by_cases h : position < l.length
    · rw [List.getD_eq_getElem _ _ h]
      exact List.getElem_mem h
    · rw [List.getD_eq_default _ _ (by omega)]
      exact List.getLast_mem hne

theorem selectGene_mem {cfg : Config} {p : Pop} {members : List ℕ} {i : ℕ}
    (h : Listed p members) (hlen : members.length ≤ p.genes.length)
    (hr : Returns (selectGene cfg p) i) : i ∈ members := by
  obtain ⟨r, _, hr⟩ := hr.bind
  exact selectGeneOf_mem h hlen (returns_lift.mp hr)

theorem selectOther_mem {cfg : Config} {p : Pop} {members : List ℕ} {gene1 i : ℕ}
    (h : Listed p members) (hlen : members.length ≤ p.genes.length)
    (hr : Returns (selectOther cfg p gene1) i) : i ∈ members ∧ i ≠ gene1 := by
  obtain ⟨r, hr⟩ := hr.retry
  obtain ⟨j, hj, hr⟩ := bind_ok.mp hr
  rw [pure_ok, Option.ite_none_right_eq_some] at hr
  obtain ⟨hne, heq⟩ := hr
  obtain rfl := Option.some.inj heq
  exact ⟨selectGeneOf_mem h hlen hj, hne⟩

/-! ### Rounds -/

/-- What one round of a retry loop does to the population, working on gene `w` while `members` are
    listed. -/
structure Round (mode : Mode) (cfg : Config) (members : List ℕ) (w : ℕ) (p p' : Pop)
    (done : Bool) : Prop where
  size : p'.genes.length = p.genes.length
  others : ∀ j, j ≠ w → p'.gene j = p.gene j
  listed : Listed p' (if done then w :: members else members)
  shaped : (p'.gene w).Shaped cfg
  valid : done = true → (p'.gene w).Valid mode cfg

/-- Writing the gene in work is a round that fails. -/
theorem round_setGene {mode : Mode} {cfg : Config} {members : List ℕ} {w : ℕ} {p : Pop} {g : Gene}
    (hl : Listed p members) (hw : w ∉ members) (hlen : w < p.genes.length) (hg : g.Shaped cfg) :
    Round mode cfg members w p (p.setGene w g) false where
  size := by simp
  others j hj := p.gene_setGene_ne hj g
  listed := hl.setGene hw g
  shaped := by rwa [Pop.gene_setGene_self hlen]
  valid h := absurd h (by simp)

/-- A gene that passed both checks is sorted in, as it was checked. -/
theorem round_sortGene {mode : Mode} {cfg : Config} {members : List ℕ} {w : ℕ} {p p' : Pop}
    {g : Gene} (hl : Listed p members) (hu : Unlisted p w) (hw : w ∉ members)
    (hlen : w < p.genes.length) (hmem : members.length ≤ p.genes.length) (hg : g.Shaped cfg)
    (hv : g.Valid mode cfg) (h : sortGene (p.setGene w g) w = .ok p') :
    Round mode cfg members w p p' true ∧ p'.gene w = g := by
  obtain ⟨q, hq, hgenes, hlisted⟩ := sortGene_listed (hl.setGene hw g) hw (hu.setGene w g)
    (by simpa using hmem)
  obtain rfl : p' = q := Except.ok.inj (h.symm.trans hq)
  have hgene : ∀ j, p'.gene j = (p.setGene w g).gene j := fun j => by unfold Pop.gene; rw [hgenes]
  have hw' : p'.gene w = g := by rw [hgene, Pop.gene_setGene_self hlen]
  refine ⟨⟨by rw [hgenes]; simp, ?_, hlisted, ?_, ?_⟩, hw'⟩
  · intro j hj
    rw [hgene, p.gene_setGene_ne hj]
  · rwa [hw']
  · intro _
    rwa [hw']

/-- What a call of the body of `init_gene`'s loop does: repair the memory types, repair the
    utilisation, or sort the gene in. -/
theorem initTry_cases {mode : Mode} {cfg : Config} {w : ℕ} {p p' : Pop} {done : Bool}
    (hlen : w < p.genes.length) (h : Returns (initTry mode cfg w p) (done, p')) :
    (∃ g, checkMemusage cfg (p.gene w) = false ∧ Returns (balanceMemTypes cfg (p.gene w)) g ∧
      done = false ∧ p' = (p.initLists w).setGene w g) ∨
    (∃ b g, checkMemusage cfg (p.gene w) = true ∧
      checkUtilpower mode cfg (p.gene w) = .ok (b, g) ∧
      ((b = true ∧ done = true ∧ sortGene ((p.initLists w).setGene w g) w = .ok p') ∨
        ∃ g', Returns (lowerUtilization cfg g) g' ∧ done = false ∧
          p' = (p.initLists w).setGene w g')) := by
  rw [initTry] at h
  dsimp only at h
  split at h
  · rename_i hcheck
    obtain ⟨g, hbal, h⟩ := h.bind
    have heq := returns_pure.mp h
    simp only [Prod.mk.injEq] at heq
    exact .inl ⟨g, hcheck, hbal, heq.1.symm, heq.2.symm⟩
  · rename_i hcheck
    obtain ⟨⟨b, g⟩, hr, h⟩ := h.bind
    refine .inr ⟨b, g, Bool.eq_true_of_not_eq_false hcheck, returns_lift.mp hr, ?_⟩
    cases b with
    | true =>
      obtain ⟨q, hq, h⟩ := h.bind
      have heq := returns_pure.mp h
      simp only [Prod.mk.injEq] at heq
      exact .inl ⟨rfl, heq.1.symm, heq.2 ▸ returns_lift.mp hq⟩
    | false =>
      obtain ⟨g', hlow, h⟩ := h.bind
      have heq := returns_pure.mp h
      simp only [Prod.mk.injEq] at heq
      rw [Pop.gene_setGene_self (by simpa using hlen)] at hlow
      rw [Pop.setGene_setGene] at heq
      exact .inr ⟨g', hlow, heq.1.symm, heq.2.symm⟩

/-- A round of the loop of `init_gene`. -/
theorem initTry_round {mode : Mode} {cfg : Config} {members : List ℕ} {w : ℕ} {p p' : Pop}
    {done : Bool} (hl : Listed p members) (hw : w ∉ members) (hlen : w < p.genes.length)
    (hmem : members.length ≤ p.genes.length) (hg : (p.gene w).Shaped cfg)
    (h : Returns (initTry mode cfg w p) (done, p')) : Round mode cfg members w p p' done := by
  obtain ⟨hl', hu⟩ := hl.initLists hw
  -- resetting the links of `w` rewrites no gene
  have hback : ∀ {q : Pop} {b : Bool}, Round mode cfg members w (p.initLists w) q b →
      Round mode cfg members w p q b :=
    fun hr => ⟨hr.size, hr.others, hr.listed, hr.shaped, hr.valid⟩
  rcases initTry_cases hlen h with ⟨g, -, hbal, rfl, rfl⟩ | ⟨b, g, hcheck, heval, hcase⟩
  · exact hback (round_setGene hl' hw hlen (balanceMemTypes_shaped hg hbal))
  · have hgs := checkUtilpower_shaped hg heval
    rcases hcase with ⟨rfl, rfl, hsort⟩ | ⟨g', hlow, rfl, rfl⟩
    · exact hback (round_sortGene hl' hu hw hlen hmem hgs (valid_of_checks hcheck heval) hsort).1
    · exact hback (round_setGene hl' hw hlen (lowerUtilization_shaped hgs hlow))

/-- What a call of `do_crossover` does: the child fails a check and stays in the newborn's place, or
    it passed both, scores no worse than its parents and is sorted in. -/
theorem doCrossover_cases {mode : Mode} {cfg : Config} {w g1 g2 kr kc km : ℕ} {p p' : Pop}
    {done : Bool} (hlen : w < p.genes.length) (h1 : g1 ≠ w) (h2 : g2 ≠ w)
    (h : doCrossover mode cfg p w g1 g2 kr kc km = .ok (done, p')) :
    (kr ≤ cfg.nTasks ∧ kc ≤ cfg.nTasks ∧ km ≤ cfg.nTasks) ∧
    ((done = false ∧
        p' = p.setGene w (inheritGene cfg (p.gene w) (p.gene g1) (p.gene g2) kr kc km)) ∨
      ∃ b g, checkUtilpower mode cfg
          (inheritGene cfg (p.gene w) (p.gene g1) (p.gene g2) kr kc km) = .ok (b, g) ∧
        ((done = false ∧ p' = p.setGene w g) ∨
          (b = true ∧ done = true ∧
            checkMemusage cfg (inheritGene cfg (p.gene w) (p.gene g1) (p.gene g2) kr kc km) = true ∧
            g.score ≤ (p.gene g1).score ∧ g.score ≤ (p.gene g2).score ∧
            sortGene (p.setGene w g) w = .ok p'))) := by
  rw [doCrossover] at h
  split at h
  · simp at h
  · rename_i hpts
    push Not at hpts
    refine ⟨hpts, ?_⟩
    dsimp only at h
    rw [Pop.gene_setGene_self hlen] at h
    split at h
    · simp only [Except.ok.injEq, Prod.mk.injEq] at h
      exact .inl ⟨h.1.symm, h.2.symm⟩
    · rename_i hcheck
      obtain ⟨⟨b, g⟩, heval, h⟩ := bind_ok.mp h
      refine .inr ⟨b, g, heval, ?_⟩
      simp only [Pop.setGene_setGene, Pop.gene_setGene_self hlen, p.gene_setGene_ne h1,
        p.gene_setGene_ne h2] at h
      split at h
      · obtain ⟨rfl, rfl⟩ := Prod.mk.inj (pure_ok.mp h)
        exact .inl ⟨rfl, rfl⟩
      · rename_i hb
        split at h
        · obtain ⟨rfl, rfl⟩ := Prod.mk.inj (pure_ok.mp h)
          exact .inl ⟨rfl, rfl⟩
        · rename_i hscore
          push Not at hscore
          obtain ⟨q, hsort, h⟩ := bind_ok.mp h
          obtain ⟨rfl, rfl⟩ := Prod.mk.inj (pure_ok.mp h)
          exact .inr ⟨Bool.eq_true_of_not_eq_false hb, rfl,
            Bool.eq_true_of_not_eq_false hcheck, hscore.1, hscore.2, hsort⟩

/-- A round of the loop of `crossover`, for two listed parents: a failed one leaves the newborn off
    the lists, an accepted newborn scores no worse than either parent. -/
theorem doCrossover_round {mode : Mode} {cfg : Config} {members : List ℕ} {w g1 g2 kr kc km : ℕ}
    {p p' : Pop} {done : Bool} (hl : Listed p members) (hu : Unlisted p w) (hw : w ∉ members)
    (hlen : w < p.genes.length) (hmem : members.length ≤ p.genes.length)
    (hg : (p.gene w).Shaped cfg) (h1 : g1 ∈ members) (h2 : g2 ∈ members)
    (hs1 : (p.gene g1).Shaped cfg) (hs2 : (p.gene g2).Shaped cfg)
    (h : doCrossover mode cfg p w g1 g2 kr kc km = .ok (done, p')) :
    Round mode cfg members w p p' done ∧ (done = false → Unlisted p' w) ∧
      (done = true → (p'.gene w).score ≤ (p.gene g1).score ∧
        (p'.gene w).score ≤ (p.gene g2).score) := by
  have hne : ∀ {j : ℕ}, j ∈ members → j ≠ w := by
    rintro j hj rfl
    exact hw hj
  obtain ⟨⟨hr, hc, hm⟩, hcase⟩ := doCrossover_cases hlen (hne h1) (hne h2) h
  have hchild := inheritGene_shaped hg hs1 hs2 hr hc hm
  rcases hcase with ⟨rfl, rfl⟩ | ⟨b, g, heval, hcase⟩
  · exact ⟨round_setGene hl hw hlen hchild, fun _ => hu.setGene w _, by simp⟩
  · have hgs := checkUtilpower_shaped hchild heval
    rcases hcase with ⟨rfl, rfl⟩ | ⟨rfl, rfl, hcheck, hscore1, hscore2, hsort⟩
    · exact ⟨round_setGene hl hw hlen hgs, fun _ => hu.setGene w _, by simp⟩
    · obtain ⟨hround, hgene⟩ := round_sortGene hl hu hw hlen hmem hgs
        (valid_of_checks hcheck heval) hsort
      exact ⟨hround, by simp, fun _ => by rw [hgene]; exact ⟨hscore1, hscore2⟩⟩

/-- What an attempt draws before it crosses two genes over. -/
theorem attempt_returns {mode : Mode} {cfg : Config} {w : ℕ} {p p' : Pop} {done : Bool}
    (h : Returns (attempt mode cfg w p) (done, p')) :
    ∃ g1 g2 kr kc km, Returns (selectGene cfg p) g1 ∧ Returns (selectOther cfg p g1) g2 ∧
      (Returns (drawCrosspt cfg) kr ∧ Returns (drawCrosspt cfg) kc ∧ Returns (drawCrosspt cfg) km) ∧
      doCrossover mode cfg p w g1 g2 kr kc km = .ok (done, p') := by
  obtain ⟨g1, hsel1, h⟩ := h.bind
  obtain ⟨g2, hsel2, h⟩ := h.bind
  obtain ⟨kr, hkr, h⟩ := h.bind
  obtain ⟨kc, hkc, h⟩ := h.bind
  obtain ⟨km, hkm, h⟩ := h.bind
  exact ⟨g1, g2, kr, kc, km, hsel1, hsel2, ⟨hkr, hkc, hkm⟩, returns_lift.mp h⟩

/-- An attempt works on two listed parents. -/
theorem attempt_round {mode : Mode} {cfg : Config} {members : List ℕ} {w : ℕ} {p p' : Pop}
    {done : Bool} (hl : Listed p members) (hu : Unlisted p w) (hw : w ∉ members)
    (hlen : w < p.genes.length) (hmem : members.length ≤ p.genes.length)
    (hs : ∀ i ∈ members, (p.gene i).Shaped cfg) (hg : (p.gene w).Shaped cfg)
    (h : Returns (attempt mode cfg w p) (done, p')) :
    Round mode cfg members w p p' done ∧ (done = false → Unlisted p' w) ∧
      (done = true → ∃ g1 ∈ members, ∃ g2 ∈ members, g1 ≠ g2 ∧
        (p'.gene w).score ≤ (p.gene g1).score ∧ (p'.gene w).score ≤ (p.gene g2).score) := by
  obtain ⟨g1, g2, kr, kc, km, hsel1, hsel2, -, h⟩ := attempt_returns h
  have h1 := selectGene_mem hl hmem hsel1
  obtain ⟨h2, hne⟩ := selectOther_mem hl hmem hsel2
  obtain ⟨hround, hun, hscore⟩ := doCrossover_round hl hu hw hlen hmem hg h1 h2 (hs g1 h1)
    (hs g2 h2) h
  exact ⟨hround, hun, fun hd => ⟨g1, h1, g2, h2, hne.symm, hscore hd⟩⟩

end MutualEdge
