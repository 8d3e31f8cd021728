import MutualEdge.GaInvariant

/-! What holds at every generation boundary, and what a crossover does from one to the next.

    The boundaries of a run are the states `evolve` returns; they satisfy the invariant, so the lists
    are complete and sorted and the population is valid. A crossover replaces a gene of maximal score
    by one that scores no worse than two of the others. -/

namespace MutualEdge
open Checks Choice Doubles LinkRing Ordered

section Boundaries
variable {mode : Mode} {cfg : Config}

theorem generations_succ (n : ℕ) (p : Pop) :
    generations mode cfg (n + 1) p = generations mode cfg n p >>= crossover mode cfg := by
  induction n generalizing p with
  | zero => simp [generations]
  | succ n ih =>
    calc generations mode cfg (n + 1 + 1) p
        = crossover mode cfg p >>= generations mode cfg (n + 1) := rfl
      _ = crossover mode cfg p >>= fun q => generations mode cfg n q >>= crossover mode cfg := by
        rw [funext ih]
      _ = generations mode cfg (n + 1) p >>= crossover mode cfg := (bind_assoc _ _ _).symm

/-- One more generation is one more crossover. -/
theorem evolve_succ (n : ℕ) :
    evolve mode cfg (n + 1) = evolve mode cfg n >>= crossover mode cfg := by
  unfold evolve
  rw [bind_assoc, funext (generations_succ n)]

theorem evolve_gaInv {gens : ℕ} {p : Pop} (h : Returns (evolve mode cfg gens) p) :
    GaInv mode cfg (.boundary, p) := reachable_gaInv (evolve_reachable h)

theorem crossover_gaInv {p p' : Pop} (hinv : GaInv mode cfg (.boundary, p))
    (h : Returns (crossover mode cfg p) p') : GaInv mode cfg (.boundary, p') :=
  (gaSystem mode cfg).invariant_steps (fun _ _ hs hstep => gaInv_step hs hstep) hinv
    (crossover_steps h)

end Boundaries

/-- A small configuration file: three genes, two frequency levels, one memory type and one cloud. -/
def smallFile (tasks : List (Line Task)) (ratios : List (Line ℚ)) : List Section :=
  [.genetic [⟨"1000 3 2 1.5", some ⟨1000, 3, 2, 3 / 2⟩⟩],
    .cpufreq [⟨"1 100 1", some ⟨1, 100, 1⟩⟩, ⟨"0.5 25 0.25", some ⟨1 / 2, 25, 1 / 4⟩⟩],
    .mem [⟨"dram 10000 1 0.01 0.001", some ⟨"dram", 10000, 1, 1 / 100, 1 / 1000⟩⟩],
    .cloud [⟨"mec 3.5 10 60 45000 1", some ⟨"mec", 7 / 2, 10, 60, 45000, 1⟩⟩],
    .offloadingratio ratios,
    .network [⟨"30 120", some ⟨30, 120, 0⟩⟩, ⟨"30 120", some ⟨30, 120, 0⟩⟩],
    .netCommander [⟨"1 5", some ⟨1, 5, 0⟩⟩, ⟨"2 6", some ⟨2, 6, 0⟩⟩],
    .task tasks]

/-- What loading `smallFile` ends with. -/
def smallConfOf (tasks : List Task) (ratios : List ℚ) : Config :=
  { maxGen := 1000
    nPops := 3
    cutoff := 2
    penalty := 3 / 2
    cpufreqs := [⟨1, 100, 1⟩, ⟨1 / 2, 25, 1 / 4⟩]
    mems := [⟨"dram", 10000, 1, 1 / 100, 1 / 1000⟩]
    tasks := tasks
    offloadingratios := ratios
    clouds := [⟨"mec", 7 / 2, 10, 60, 45000, 1⟩]
    networks := [⟨30, 120, 1⟩, ⟨30, 120, 2⟩]
    netCommanders := [⟨1, 5, 1⟩, ⟨2, 6, 2⟩] }

/-- Two tasks whose times and memory are whole seconds and megabytes. -/
def smallConf : Config :=
  smallConfOf [⟨1, 1000, 4000, 1000, 1 / 2, 500, 100, 100, 0⟩,
    ⟨2, 2000, 8000, 2000, 1 / 4, 500, 100, 100, 0⟩] [0]

theorem smallConf_accepted : Accepted smallConf :=
  ⟨smallFile [⟨"1000 4000 1000 0.5 500 100 100 0", some ⟨0, 1000, 4000, 1000, 1 / 2, 500, 100, 100, 0⟩⟩,
    ⟨"2000 8000 2000 0.25 500 100 100 0", some ⟨0, 2000, 8000, 2000, 1 / 4, 500, 100, 100, 0⟩⟩]
    [⟨"0", some 0⟩], by decide +kernel⟩

/-- The gene `init_gene` assigns when every draw is `0`. -/
def zeroGene : Gene :=
  { taskattrsMem := ⟨[0, 0], [2, 0, 0, 0, 0], 0⟩
    taskattrsCloud := ⟨[0, 0], [2, 0, 0, 0, 0], 0⟩
    taskattrsCpufreq := ⟨[0, 0], [2, 0, 0, 0, 0], 0⟩
    taskattrsOffloadingratio := ⟨[0, 0], [2, 0, 0, 0, 0], 0⟩ }

theorem zeroGene_returns : Returns (assignGene smallConf {}) zeroGene :=
  ⟨List.replicate 6 0, [], by decide +kernel⟩

/-- Draws with which a run on `smallConf` reaches the end of its first generation. -/
def smallDraws : List ℕ := [0, 0, 0, 0, 0, 0, 0, 0, 1, 0, 0, 0, 0, 0, 1, 1, 0, 0, 4, 0, 0, 0, 0]

theorem smallConf_returns : ∃ p, Returns (evolve .localOnly smallConf 1) p :=
  returns_of_isOk smallDraws (by decide +kernel)

/-! ### The lists -/

/-- The gene is on the circular list. -/
def OnList (r : Links ℕ) (i : ℕ) : Prop := ∃ l, Holds r l ∧ i ∈ l

theorem ListedBy.mem_of_onList {key : ℕ → ℚ} {r : Links ℕ} {members : List ℕ} {i : ℕ}
    (h : ListedBy key r members) (hi : OnList r i) : i ∈ members := by
  obtain ⟨l, hl, hp, _⟩ := h
  obtain ⟨l', hl', hi⟩ := hi
  rw [hl.unique hl'] at hp
  exact hp.mem_iff.mp hi

/-- What the list head points to is on the list. -/
theorem ListedBy.mem_of_next {key : ℕ → ℚ} {r : Links ℕ} {members : List ℕ} {i : ℕ}
    (h : ListedBy key r members) (hi : r.next none = some i) : i ∈ members := by
  obtain ⟨l, hl, hp, _⟩ := h
  cases l with
  | nil =>
    have hnone : r.next none = none := hl.path.1
    rw [hnone] at hi
    cases hi
  | cons j l =>
    rw [hl.next_sentinel] at hi
    obtain rfl := Option.some.inj hi
    exact hp.mem_iff.mp List.mem_cons_self

theorem ListedBy.first {key : ℕ → ℚ} {r : Links ℕ} {members : List ℕ} (h : ListedBy key r members)
    (hne : members ≠ []) :
    ∃ i ∈ members, r.next none = some i ∧ ∀ j ∈ members, key i ≤ key j := by
  obtain ⟨l, hl, hp, hs⟩ := h
  cases l with
  | nil => exact absurd hp.nil_eq.symm hne
  | cons i l =>
    refine ⟨i, hp.mem_iff.mp List.mem_cons_self, hl.next_sentinel, ?_⟩
    intro j hj
    rcases List.mem_cons.mp (hp.mem_iff.mpr hj) with rfl | hj
    · exact le_rfl
    · exact (List.pairwise_cons.mp hs).1 j hj

theorem ListedBy.last {key : ℕ → ℚ} {r : Links ℕ} {members : List ℕ} (h : ListedBy key r members)
    (hne : members ≠ []) :
    ∃ i ∈ members, r.prev none = some i ∧ ∀ j ∈ members, key j ≤ key i := by
  obtain ⟨l, hl, hp, hs⟩ := h
  rcases List.eq_nil_or_concat l with rfl | ⟨l, i, rfl⟩
  · exact absurd hp.nil_eq.symm hne
  · rw [List.concat_eq_append] at hl hp hs
    refine ⟨i, hp.mem_iff.mp (by simp), hl.prev_sentinel, ?_⟩
    intro j hj
    rcases List.mem_append.mp (hp.mem_iff.mpr hj) with hj | hj
    · exact (List.pairwise_append.mp hs).2.2 j hj i (by simp)
    · exact (List.mem_singleton.mp hj) ▸ le_rfl

/-- At every generation boundary each list holds every gene exactly once, in the order of its key, and
    no step of a run changes a gene that is on a list. -/
theorem boundary_lists (mode : Mode) (cfg : Config) :
    (∀ gens p, Returns (evolve mode cfg gens) p → Listed p (List.range cfg.nPops)) ∧
    ∀ s s', (gaSystem mode cfg).Reachable s → (gaSystem mode cfg).step s s' → ∀ i,
      OnList s.2.genesByUtil i ∨ OnList s.2.genesByPower i ∨ OnList s.2.genesByScore i →
      s'.2.gene i = s.2.gene i := by
  refine ⟨fun gens p h => (evolve_gaInv h).listed, ?_⟩
  intro s s' hs hstep i hi
  have hinv := reachable_gaInv hs
  refine gaStep_frame hinv hstep ?_
  rcases hi with hi | hi | hi
  · exact hinv.listed.byUtil.mem_of_onList hi
  · exact hinv.listed.byPower.mem_of_onList hi
  · exact hinv.listed.byScore.mem_of_onList hi

theorem boundary_lists_smallConf : ∃ p, Listed p (List.range 3) ∧
    ∃ s' i, (gaSystem .localOnly smallConf).step (.boundary, p) s' ∧ OnList p.genesByUtil i ∧
      s'.2.gene i = p.gene i := by
  obtain ⟨p, hp⟩ := smallConf_returns
  obtain ⟨hlists, hkeys⟩ := boundary_lists .localOnly smallConf
  have hlisted := hlists 1 p hp
  obtain ⟨b, _, hlast, _⟩ := hlisted.byScore.last (by decide)
  obtain ⟨l, hl, hperm, _⟩ := hlisted.byUtil
  have hon : OnList p.genesByUtil 0 := ⟨l, hl, hperm.mem_iff.mpr (by decide)⟩
  have hstep : GaStep .localOnly smallConf (.boundary, p) (.breeding b, p.delLists b) :=
    .remove (by rw [getNewborn, hlast])
  exact ⟨p, hlisted, _, 0, hstep, hon, hkeys _ _ (evolve_reachable hp) hstep 0 (.inl hon)⟩

/-! ### The population -/

/-- Every gene of the population is feasible and its cached fields are up to date. -/
theorem population_valid {mode : Mode} {cfg : Config} {gens : ℕ} {p : Pop}
    (h : Returns (evolve mode cfg gens) p) {i : ℕ} (hi : i < cfg.nPops) :
    (p.gene i).Valid mode cfg :=
  (evolve_gaInv h).valid i (List.mem_range.mpr hi)

theorem population_valid_smallConf : ∃ p : Pop, (p.gene 2).Valid .localOnly smallConf := by
  obtain ⟨p, hp⟩ := smallConf_returns
  exact ⟨p, population_valid hp (by decide)⟩

/-! ### From one generation to the next -/

/-- The sorted vector of the scores. -/
def scores (cfg : Config) (p : Pop) : List ℚ :=
  sortedKeys (fun i => (p.gene i).score) (List.range cfg.nPops)

/-- What a crossover that returns does: it takes the last gene of the score list and gives its place
    to a gene that scores no worse than two of the others. -/
theorem crossover_spec {mode : Mode} {cfg : Config} {p p' : Pop} (hinv : GaInv mode cfg (.boundary, p))
    (h : Returns (crossover mode cfg p) p') :
    ∃ b l, Holds p.genesByScore (l ++ [b]) ∧ (l ++ [b]).Perm (List.range cfg.nPops) ∧
      ByKey (fun i => (p.gene i).score) (l ++ [b]) ∧ (∀ j, j ≠ b → p'.gene j = p.gene j) ∧
      ∃ g1 ∈ l, ∃ g2 ∈ l, g1 ≠ g2 ∧
        (p'.gene b).score ≤ (p.gene g1).score ∧ (p'.gene b).score ≤ (p.gene g2).score := by
  obtain ⟨⟨b, q⟩, hr, h⟩ := h.bind
  have hb := returns_lift.mp hr
  obtain ⟨q', hsteps, hq'⟩ := h.attempts
  obtain ⟨hq, l, hl, hp, hs⟩ := getNewborn_spec hinv hb
  -- failed attempts keep the invariant and every gene but the newborn
  have hloop : GaInv mode cfg (.breeding b, q') ∧ ∀ j, j ≠ b → q'.gene j = p.gene j := by
    clear hq'
    induction hsteps with
    | refl => exact ⟨hinv.remove hb, fun j _ => by rw [hq]; rfl⟩
    | tail _ hstep ih =>
      refine ⟨gaInv_step ih.1 (.reject hstep), fun j hj => ?_⟩
      rw [(ih.1.attempt hstep).1.others j hj, ih.2 j hj]
  obtain ⟨hround, _, hscore⟩ := hloop.1.attempt hq'
  obtain ⟨g1, h1, g2, h2, hne, hle1, hle2⟩ := hscore rfl
  have hmem : ∀ j ∈ members cfg (.breeding b), j ∈ l ∧ j ≠ b := by
    intro j hj
    have hjb : j ≠ b := ne_inWork rfl hj
    have hjl : j ∈ l ++ [b] := hp.mem_iff.mpr (List.mem_of_mem_erase hj)
    exact ⟨(List.mem_append.mp hjl).resolve_right (by simpa using hjb), hjb⟩
  refine ⟨b, l, hl, hp, hs, fun j hj => by rw [hround.others j hj, hloop.2 j hj],
    g1, (hmem g1 h1).1, g2, (hmem g2 h2).1, hne, ?_, ?_⟩
  · rwa [hloop.2 g1 (hmem g1 h1).2] at hle1
  · rwa [hloop.2 g2 (hmem g2 h2).2] at hle2

/-- Replacing the last of a list ordered by key lowers the sorted vector of keys. -/
theorem forall₂_scores {cfg : Config} {p p' : Pop} {b : ℕ} {l : List ℕ}
    (hp : (l ++ [b]).Perm (List.range cfg.nPops))
    (hs : ByKey (fun i => (p.gene i).score) (l ++ [b]))
    (ho : ∀ j, j ≠ b → p'.gene j = p.gene j) (hle : (p'.gene b).score ≤ (p.gene b).score) :
    List.Forall₂ (· ≤ ·) (scores cfg p') (scores cfg p) := by
  have hb : b ∉ l := by
    intro hmem
    have hnd := hp.nodup_iff.mpr List.nodup_range
    exact (List.nodup_append.mp hnd).2.2 b hmem b (by simp) rfl
  have hkeys : l.map (fun i => (p'.gene i).score) = l.map fun i => (p.gene i).score := by
    refine List.map_congr_left fun j hj => ?_
    rw [ho j]
    rintro rfl
    exact hb hj
  have hsl : ByKey (fun i => (p'.gene i).score) l := by
    have hsl := (List.pairwise_append.mp hs).1
    rw [ByKey, ← List.pairwise_map (f := fun i => (p'.gene i).score) (R := (· ≤ ·)), hkeys]
    exact List.pairwise_map.mpr hsl
  have hnew : scores cfg p' =
      insertKey id (p'.gene b).score (l.map fun i => (p.gene i).score) := by
    have hperm : (insertKey (fun i => (p'.gene i).score) b l).Perm (List.range cfg.nPops) :=
      ((insertKey_perm _ b l).trans (List.perm_append_singleton b l).symm).trans hp
    rw [scores, sortedKeys_eq _ hperm (byKey_insertKey _ b hsl), map_insertKey, hkeys]
  have hold : scores cfg p = l.map (fun i => (p.gene i).score) ++ [(p.gene b).score] := by
    rw [scores, sortedKeys_eq _ hp hs, List.map_append, List.map_singleton]
  rw [hnew, hold]
  refine forall₂_replaceMax hle ?_
  rw [← List.map_singleton (f := fun i => (p.gene i).score), ← List.map_append]
  exact List.pairwise_map.mpr hs

/-- Gene `b`, one of maximal score, made way for one that scores no worse. The scores are compared as
    doubles: none is above or below one that is no number. -/
structure Improved (cfg : Config) (p p' : Pop) (b : ℕ) : Prop where
  lt : b < cfg.nPops
  maximal : ∀ i < cfg.nPops, (p.gene i).scoreDouble ≤ (p.gene b).scoreDouble
  others : ∀ i, i ≠ b → p'.gene i = p.gene i
  replaced : (p'.gene b).scoreDouble ≤ (p.gene b).scoreDouble
  scores : List.Forall₂ (· ≤ ·) (scores cfg p') (scores cfg p)
  best : ∃ i j, p.genesByScore.next none = some i ∧ p'.genesByScore.next none = some j ∧
    (p'.gene j).scoreDouble ≤ (p.gene i).scoreDouble
  worst : ∃ i j, p.genesByScore.prev none = some i ∧ p'.genesByScore.prev none = some j ∧
    (p'.gene j).scoreDouble ≤ (p.gene i).scoreDouble
  head : p.genesByScore.next none ≠ some b

section Scores
variable {mode : Mode} {cfg : Config} {p : Pop} {i : ℕ}

/-- Between two generations every score is a number or none is: the periods decide. -/
theorem GaInv.scoreKind (h : GaInv mode cfg (.boundary, p)) (hi : i < cfg.nPops) :
    (p.gene i).scoreKind = .number ↔ cfg.Priced :=
  (h.valid i (List.mem_range.mpr hi)).scoreKind (h.shaped i (List.mem_range.mpr hi))

theorem GaInv.scoreKind_nan (h : GaInv mode cfg (.boundary, p)) (hcfg : Accepted cfg)
    (hi : i < cfg.nPops) (hpriced : ¬ cfg.Priced) : (p.gene i).scoreKind = .nan :=
  (h.valid i (List.mem_range.mpr hi)).scoreKind_nan (h.shaped i (List.mem_range.mpr hi))
    hcfg.wellFormed hpriced

/-- Between two generations numbers are compared, if no period is shorter than a second. -/
theorem GaInv.scoreDouble_le {p' : Pop} {j : ℕ} (h : GaInv mode cfg (.boundary, p))
    (h' : GaInv mode cfg (.boundary, p')) (hpriced : cfg.Priced) (hi : i < cfg.nPops)
    (hj : j < cfg.nPops) (hle : (p.gene i).score ≤ (p'.gene j).score) :
    (p.gene i).scoreDouble ≤ (p'.gene j).scoreDouble :=
  (Cached.scoreDouble_le_iff ((h.scoreKind hi).mpr hpriced) ((h'.scoreKind hj).mpr hpriced)).mpr hle

end Scores

/-- `smallConf` with periods below a second. -/
def briefConf : Config :=
  smallConfOf [⟨1, 100, 400, 1000, 1 / 2, 500, 100, 100, 0⟩,
    ⟨2, 200, 800, 2000, 1 / 4, 500, 100, 100, 0⟩] [0]

theorem briefConf_accepted : Accepted briefConf :=
  ⟨smallFile [⟨"100 400 1000 0.5 500 100 100 0", some ⟨0, 100, 400, 1000, 1 / 2, 500, 100, 100, 0⟩⟩,
    ⟨"200 800 2000 0.25 500 100 100 0", some ⟨0, 200, 800, 2000, 1 / 4, 500, 100, 100, 0⟩⟩]
    [⟨"0", some 0⟩], by decide +kernel⟩

end MutualEdge
