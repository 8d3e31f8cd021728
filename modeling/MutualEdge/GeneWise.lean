import MutualEdge.GaInvariant

/-! Properties of single genes over whole runs.

    A run only ever changes a gene by drawing it afresh, repairing it, evaluating it or breeding it
    from two listed genes. A property that these keep (`Kept`) therefore holds of every gene of every
    run: `Kept.inRun`. -/

namespace MutualEdge
open Checks Choice

/-- What every operation of a run on a gene keeps. -/
structure Kept (mode : Mode) (cfg : Config) (P : Gene → Prop) : Prop where
  assign : ∀ {g g'}, Returns (assignGene cfg g) g' → P g'
  balance : ∀ {g g'}, P g → Returns (balanceMemTypes cfg g) g' → P g'
  eval : ∀ {g b g'}, P g → checkUtilpower mode cfg g = .ok (b, g') → P g'
  lower : ∀ {g g'}, P g → Returns (lowerUtilization cfg g) g' → P g'
  inherit : ∀ {newborn gene1 gene2 kr kc km}, P newborn → P gene1 → P gene2 → kr ≤ cfg.nTasks →
    kc ≤ cfg.nTasks → km ≤ cfg.nTasks → P (inheritGene cfg newborn gene1 gene2 kr kc km)

/-- Sorting a gene in rewrites no gene. -/
theorem sortGene_genes {p p' : Pop} {i : ℕ} (h : sortGene p i = .ok p') : p'.genes = p.genes := by
  obtain ⟨q, hq, h⟩ := bind_ok.mp h
  obtain ⟨q', hq', h⟩ := bind_ok.mp h
  obtain ⟨r, _, hq⟩ := bind_ok.mp hq
  obtain ⟨r', _, hq'⟩ := bind_ok.mp hq'
  obtain ⟨r'', _, h⟩ := bind_ok.mp h
  obtain rfl := pure_ok.mp hq
  obtain rfl := pure_ok.mp hq'
  obtain rfl := pure_ok.mp h
  rfl

theorem sortGene_gene {p p' : Pop} {i w : ℕ} {g : Gene} (hw : w < p.genes.length)
    (h : sortGene (p.setGene w g) i = .ok p') : p'.gene w = g := by
  rw [Pop.gene, sortGene_genes h]
  exact Pop.gene_setGene_self hw g

section Kept
variable {mode : Mode} {cfg : Config} {P : Gene → Prop}

theorem Kept.initTry (hP : Kept mode cfg P) {w : ℕ} {p p' : Pop} {done : Bool}
    (hw : w < p.genes.length) (hg : P (p.gene w)) (h : Returns (initTry mode cfg w p) (done, p')) :
    P (p'.gene w) := by
  rcases initTry_cases hw h with ⟨g, -, hbal, rfl, rfl⟩ | ⟨b, g, _, heval, hcase⟩
  · rw [Pop.gene_setGene_self (by simpa using hw)]
    exact hP.balance hg hbal
  · have hg' := hP.eval hg heval
    rcases hcase with ⟨rfl, rfl, hsort⟩ | ⟨g', hlow, rfl, rfl⟩
    · rw [sortGene_gene (by simpa using hw) hsort]
      exact hg'
    · rw [Pop.gene_setGene_self (by simpa using hw)]
      exact hP.lower hg' hlow

theorem Kept.attempt (hP : Kept mode cfg P) {b : ℕ} {p p' : Pop} {done : Bool}
    (hinv : GaInv mode cfg (.breeding b, p)) (hg : P (p.gene b))
    (hm : ∀ i ∈ members cfg (.breeding b), P (p.gene i))
    (h : Returns (attempt mode cfg b p) (done, p')) : P (p'.gene b) := by
  obtain ⟨g1, g2, kr, kc, km, hsel1, hsel2, -, h⟩ := attempt_returns h
  obtain ⟨h1, h2, _⟩ := hinv.parents hsel1 hsel2
  have hw : b < p.genes.length := hinv.inWork_lt rfl
  obtain ⟨⟨hr, hc, hmt⟩, hcase⟩ := doCrossover_cases hw (ne_inWork rfl h1) (ne_inWork rfl h2) h
  have hchild := hP.inherit hg (hm g1 h1) (hm g2 h2) hr hc hmt
  rcases hcase with ⟨rfl, rfl⟩ | ⟨b', g, heval, ⟨rfl, rfl⟩ | ⟨rfl, rfl, _, _, _, hsort⟩⟩
  · rwa [Pop.gene_setGene_self hw]
  · rw [Pop.gene_setGene_self hw]
    exact hP.eval hchild heval
  · rw [sortGene_gene hw hsort]
    exact hP.eval hchild heval

/-- The property holds of every gene on the lists and of the gene in work. -/
def Holding (cfg : Config) (P : Gene → Prop) (s : Phase × Pop) : Prop :=
  ∀ i, i ∈ members cfg s.1 ∨ i ∈ s.1.inWork → P (s.2.gene i)

/-- A step that only rewrites the gene in work keeps the property when it does so for that gene. -/
theorem Holding.step {s s' : Phase × Pop} (hinv : GaInv mode cfg s)
    (hs : GaStep mode cfg s s') (hP : Holding cfg P s)
    (hnew : ∀ i, i ∈ members cfg s'.1 ∨ i ∈ s'.1.inWork → i ∉ members cfg s.1 → P (s'.2.gene i)) :
    Holding cfg P s' := by
  intro i hi
  by_cases hm : i ∈ members cfg s.1
  · rw [gaStep_frame hinv hs hm]
    exact hP i (.inl hm)
  · exact hnew i hi hm

theorem Kept.step (hP : Kept mode cfg P) {s s' : Phase × Pop} (hinv : GaInv mode cfg s)
    (hs : GaStep mode cfg s s') (h : Holding cfg P s) : Holding cfg P s' := by
  refine h.step hinv hs ?_
  intro i hi hnot
  cases hs with
  | assign hk hg =>
    obtain rfl : _ = i := by simpa [hnot, Phase.inWork] using hi.resolve_left hnot
    rw [Pop.gene_setGene_self (by rw [hinv.size]; exact hk)]
    exact hP.assign hg
  | repair hr =>
    obtain rfl : _ = i := by simpa [Phase.inWork] using hi.resolve_left hnot
    exact hP.initTry (hinv.inWork_lt rfl) (h _ (.inr rfl)) hr
  | @place k p p' hr =>
    have hik : i = k := by
      simp only [members, List.mem_range, Phase.inWork, Option.not_mem_none, or_false] at hi hnot
      omega
    subst hik
    exact hP.initTry (hinv.inWork_lt rfl) (h _ (.inr rfl)) hr
  | populated => simp [members, Phase.inWork] at hi hnot; omega
  | remove hb =>
    obtain ⟨rfl, l, _, hp, _⟩ := getNewborn_spec hinv hb
    refine absurd ?_ hnot
    rcases hi with hi | hi
    · exact List.mem_of_mem_erase hi
    · obtain rfl : _ = i := by simpa [Phase.inWork] using hi
      exact hp.mem_iff.mp (by simp)
  | reject hr =>
    obtain rfl : _ = i := by simpa [Phase.inWork] using hi.resolve_left hnot
    exact hP.attempt hinv (h _ (.inr rfl)) (fun j hj => h j (.inl hj)) hr
  | @accept b p p' hr =>
    have hib : i = b := by
      by_contra hne
      have hmem : i ∈ List.range cfg.nPops := by simpa [Phase.inWork, members] using hi
      exact hnot ((List.mem_erase_of_ne hne).mpr hmem)
    subst hib
    exact hP.attempt hinv (h _ (.inr rfl)) (fun j hj => h j (.inl hj)) hr

theorem Kept.reachable (hP : Kept mode cfg P) {s : Phase × Pop}
    (h : (gaSystem mode cfg).Reachable s) : Holding cfg P s := by
  have hboth : GaInv mode cfg s ∧ Holding cfg P s := by
    refine (gaSystem mode cfg).invariant (I := fun s => GaInv mode cfg s ∧ Holding cfg P s) ?_ ?_ h
    · rintro s rfl
      exact ⟨gaInv_init, by simp [Holding, members, Phase.inWork]⟩
    · intro s s' hs hstep
      exact ⟨gaInv_step hs.1 hstep, hP.step hs.1 hstep hs.2⟩
  exact hboth.2

/-- What every operation keeps holds of every gene of every run. -/
theorem Kept.inRun (hP : Kept mode cfg P) {g : Gene} (h : InRun mode cfg g) : P g := by
  cases h with
  | held h hi => exact hP.reachable h _ hi
  | child h h1 h2 hpts =>
    have hold := hP.reachable h
    obtain ⟨hm1, hm2, _⟩ := (reachable_gaInv h).parents h1 h2
    exact hP.inherit (hold _ (.inr rfl)) (hold _ (.inl hm1)) (hold _ (.inl hm2)) hpts.1 hpts.2.1
      hpts.2.2

end Kept

end MutualEdge
