import Mathlib.Order.Bounds.Basic
import MutualEdge.Generations
import MutualEdge.Lib.Average

/-! The rows of `report.txt`: `add_report` of `report.c`.

    A row mixes three sources: sums and extremes folded over the gene array, of the genes with a
    utilisation of at most 3.0 only; the ends of the utilisation list; and the ends of the score
    list, whose search for the first such gene looks at the head of the list in every round. Negative
    averages and minima count as missing. Scores that are no numbers enter the averages, but no fitness
    that is none lowers or raises an extreme. -/

namespace MutualEdge
open Checks Choice Doubles LinkRing

/-- The local variables that the loop over the genes accumulates into. -/
structure Sums where
  utilSum : ℚ := 0
  costSum : ℚ := 0
  costKind : Kind := .number
  fitSum : ℚ := 0
  penaltySum : ℚ := 0
  fitMin : ℚ := 1e18
  fitMax : ℚ := -1e18
  penaltyMin : ℚ := 1e18
  penaltyMax : ℚ := -1e18
  nValidGenes : ℕ := 0

/-- The loop body for one gene. The fitness is a number if the score is, and else compares with nothing. -/
def Sums.addGene (s : Sums) (gene : Gene) : Sums :=
  let s := { s with utilSum := s.utilSum + gene.util }
  if gene.util ≤ 3.0 then
    { s with
      costSum := s.costSum + gene.score
      costKind := s.costKind + gene.scoreKind
      fitSum := s.fitSum + gene.fitness
      penaltySum := s.penaltySum + gene.constraintPenalty
      fitMin := if gene.scoreKind = .number ∧ gene.fitness < s.fitMin then gene.fitness else s.fitMin
      fitMax := if gene.scoreKind = .number ∧ s.fitMax < gene.fitness then gene.fitness else s.fitMax
      penaltyMin := if gene.constraintPenalty < s.penaltyMin then gene.constraintPenalty
        else s.penaltyMin
      penaltyMax := if s.penaltyMax < gene.constraintPenalty then gene.constraintPenalty
        else s.penaltyMax
      nValidGenes := s.nValidGenes + 1 }
  else s

def Pop.sums (cfg : Config) (p : Pop) : Sums :=
  (List.range cfg.nPops).foldl (fun s i => s.addGene (p.gene i)) {}

/-- A line of `report.txt`. The costs and the average of the fitness are numbers if `costKind` says so. -/
structure Row where
  gen : ℕ
  costKind : Kind
  fitMin : ℚ
  fitAvg : ℚ
  fitMax : ℚ
  penaltyMin : ℚ
  penaltyAvg : ℚ
  penaltyMax : ℚ
  costMin : ℚ
  costAvg : ℚ
  costMax : ℚ
  utilMin : ℚ
  utilAvg : ℚ
  utilMax : ℚ
  deriving DecidableEq

/-- `list_for_each (lp, &genes_by_score)`: every round takes the gene after the list head. -/
def searchCostMin (p : Pop) : Except Halt ℚ :=
  match listForEach p.genesByScore (p.genes.length + 1) (fun (_ : Unit) (_ : ℕ) =>
      match p.genesByScore.next none with
      | some i => if (p.gene i).util ≤ 3.0 then .error (p.gene i).score else .ok ()
      | none => .ok ()) () with
  | some (.error score) => .ok score
  | some (.ok _) => .ok (-1)
  | none => .error .endless

/-- The part of `add_report` behind the test of the interval. -/
def reportRow (cfg : Config) (p : Pop) (gen : ℕ) : Except Halt Row := do
  let s := p.sums cfg
  let utilAvg := s.utilSum / cfg.nPops
  let costAvg := if 0 < s.nValidGenes then s.costSum / s.nValidGenes else -1
  let fitAvg := if 0 < s.nValidGenes then s.fitSum / s.nValidGenes else 0
  let penaltyAvg := if 0 < s.nValidGenes then s.penaltySum / s.nValidGenes else 0
  let first ← require .wildPointer (p.genesByUtil.next none)
  let last ← require .wildPointer (p.genesByUtil.prev none)
  let costMin ← searchCostMin p
  let worst ← require .wildPointer (p.genesByScore.prev none)
  let costMax := (p.gene worst).score
  return {
    gen := gen
    costKind := s.costKind
    fitMin := s.fitMin
    fitAvg := fitAvg
    fitMax := s.fitMax
    penaltyMin := s.penaltyMin
    penaltyAvg := penaltyAvg
    penaltyMax := s.penaltyMax
    costMin := if costMin < 0 then costMax else costMin
    costAvg := if costAvg < 0 then costMax else costAvg
    costMax := costMax
    utilMin := (p.gene first).util
    utilAvg := utilAvg
    utilMax := (p.gene last).util }

/-! ### What a row should say -/

/-- The genes a report counts. -/
def Pop.Counted (p : Pop) (i : ℕ) : Prop := (p.gene i).util ≤ 3.0

instance (p : Pop) : DecidablePred p.Counted := fun _ => inferInstanceAs (Decidable (_ ≤ _))

/-- Minima, averages and maxima are numbers and in order, and three extremes are those of the
    population. -/
structure RowConsistent (cfg : Config) (p : Pop) (row : Row) : Prop where
  numbers : row.costKind = .number
  least : IsLeast {c | ∃ i < cfg.nPops, p.Counted i ∧ (p.gene i).score = c} row.costMin
  cost : row.costMin ≤ row.costAvg ∧ row.costAvg ≤ row.costMax
  fit : row.fitMin ≤ row.fitAvg ∧ row.fitAvg ≤ row.fitMax
  penalty : row.penaltyMin ≤ row.penaltyAvg ∧ row.penaltyAvg ≤ row.penaltyMax
  util : row.utilMin ≤ row.utilAvg ∧ row.utilAvg ≤ row.utilMax
  utilMin : IsLeast {u | ∃ i < cfg.nPops, (p.gene i).util = u} row.utilMin
  utilMax : IsGreatest {u | ∃ i < cfg.nPops, (p.gene i).util = u} row.utilMax

/-- The best gene of all is one that counts, and its score is not negative. -/
def BestCounts (p : Pop) : Prop :=
  ∃ i, p.genesByScore.next none = some i ∧ p.Counted i ∧ 0 ≤ (p.gene i).score

/-- The genes that count have the worst score of all. -/
def AllWorst (cfg : Config) (p : Pop) : Prop :=
  ∀ i < cfg.nPops, p.Counted i → ∀ j < cfg.nPops, (p.gene j).score ≤ (p.gene i).score

/-! ### The loop over the genes -/

theorem Sums.addGene_skipped (s : Sums) {gene : Gene} (h : ¬ gene.util ≤ 3.0) :
    s.addGene gene = { s with utilSum := s.utilSum + gene.util } := if_neg h

/-- The running extremes are those of the values so far and of the starting values. -/
theorem Sums.addGene_counted (s : Sums) {gene : Gene} (h : gene.util ≤ 3.0) : s.addGene gene =
    { utilSum := s.utilSum + gene.util
      costSum := s.costSum + gene.score
      costKind := s.costKind + gene.scoreKind
      fitSum := s.fitSum + gene.fitness
      penaltySum := s.penaltySum + gene.constraintPenalty
      fitMin := if gene.scoreKind = .number then min gene.fitness s.fitMin else s.fitMin
      fitMax := if gene.scoreKind = .number then max s.fitMax gene.fitness else s.fitMax
      penaltyMin := min gene.constraintPenalty s.penaltyMin
      penaltyMax := max s.penaltyMax gene.constraintPenalty
      nValidGenes := s.nValidGenes + 1 } := by
  rw [Sums.addGene, if_pos h]
  simp only [min_def_lt, max_def_lt, ite_and]

section Sums
variable (cfg : Config) (p : Pop)

/-- A component that grows by `c i` with gene `i`. -/
theorem sums_eq {M : Type} [AddCommMonoid M] {φ : Sums → M} {c : ℕ → M} (h0 : φ {} = 0)
    (h : ∀ s i, φ (s.addGene (p.gene i)) = φ s + c i) :
    φ (p.sums cfg) = ∑ i ∈ Finset.range cfg.nPops, c i := by
  rw [Pop.sums, foldl_range_sum h, h0, zero_add]

theorem sums_utilSum : (p.sums cfg).utilSum =
    Average.total cfg.nPops (fun _ => True) fun i => (p.gene i).util := by
  refine sums_eq cfg p (φ := Sums.utilSum) rfl fun s i => ?_
  rw [Sums.addGene, if_pos trivial]
  split <;> rfl

/-- A component that only the genes that count add to. -/
theorem sums_counted {M : Type} [AddCommMonoid M] {φ : Sums → M} {x : ℕ → M} (h0 : φ {} = 0)
    (hutil : ∀ s u, φ { s with utilSum := u } = φ s)
    (h : ∀ s i, p.Counted i → φ (s.addGene (p.gene i)) = φ s + x i) :
    φ (p.sums cfg) = ∑ i ∈ Finset.range cfg.nPops, if p.Counted i then x i else 0 := by
  refine sums_eq cfg p h0 fun s i => ?_
  by_cases hc : p.Counted i
  · rw [h s i hc, if_pos hc]
  · rw [Sums.addGene_skipped s hc, if_neg hc, add_zero, hutil]

theorem sums_costSum : (p.sums cfg).costSum =
    Average.total cfg.nPops p.Counted fun i => (p.gene i).score :=
  sums_counted cfg p (φ := Sums.costSum) rfl (fun _ _ => rfl) fun s i hc => by
    rw [Sums.addGene_counted s hc]

theorem sums_costKind : (p.sums cfg).costKind =
    ∑ i ∈ Finset.range cfg.nPops, if p.Counted i then (p.gene i).scoreKind else 0 :=
  sums_counted cfg p (φ := Sums.costKind) rfl (fun _ _ => rfl) fun s i hc => by
    rw [Sums.addGene_counted s hc]

theorem sums_fitSum : (p.sums cfg).fitSum =
    Average.total cfg.nPops p.Counted fun i => (p.gene i).fitness :=
  sums_counted cfg p (φ := Sums.fitSum) rfl (fun _ _ => rfl) fun s i hc => by
    rw [Sums.addGene_counted s hc]

theorem sums_penaltySum : (p.sums cfg).penaltySum =
    Average.total cfg.nPops p.Counted fun i => (p.gene i).constraintPenalty :=
  sums_counted cfg p (φ := Sums.penaltySum) rfl (fun _ _ => rfl) fun s i hc => by
    rw [Sums.addGene_counted s hc]

theorem sums_nValidGenes : (p.sums cfg).nValidGenes = Average.count cfg.nPops p.Counted :=
  sums_counted cfg p (φ := Sums.nValidGenes) rfl (fun _ _ => rfl) fun s i hc => by
    rw [Sums.addGene_counted s hc]

/-- The extremes bound the values of a gene. -/
structure Sums.Bounds (s : Sums) (gene : Gene) : Prop where
  fitMin : s.fitMin ≤ gene.fitness
  fitMax : gene.fitness ≤ s.fitMax
  penaltyMin : s.penaltyMin ≤ gene.constraintPenalty
  penaltyMax : gene.constraintPenalty ≤ s.penaltyMax

theorem Sums.addGene_bounds (s : Sums) {gene : Gene} (h : gene.util ≤ 3.0)
    (hk : gene.scoreKind = .number) : (s.addGene gene).Bounds gene := by
  rw [s.addGene_counted h, if_pos hk, if_pos hk]
  exact ⟨min_le_left _ _, le_max_right _ _, min_le_left _ _, le_max_right _ _⟩

/-- A further gene only widens the extremes. -/
theorem Sums.Bounds.addGene {s : Sums} {gene : Gene} (h : s.Bounds gene) (other : Gene) :
    (s.addGene other).Bounds gene := by
  by_cases hc : other.util ≤ 3.0
  · rw [s.addGene_counted hc]
    refine ⟨?_, ?_, (min_le_right _ _).trans h.penaltyMin, h.penaltyMax.trans (le_max_left _ _)⟩
    · dsimp only
      split
      · exact (min_le_right _ _).trans h.fitMin
      · exact h.fitMin
    · dsimp only
      split
      · exact h.fitMax.trans (le_max_left _ _)
      · exact h.fitMax
  · rw [s.addGene_skipped hc]
    exact ⟨h.fitMin, h.fitMax, h.penaltyMin, h.penaltyMax⟩

theorem sums_bounds {i : ℕ} (hi : i < cfg.nPops) (hc : p.Counted i)
    (hk : (p.gene i).scoreKind = .number) : (p.sums cfg).Bounds (p.gene i) :=
  foldl_range_established
    (P := fun i (s : Sums) => p.Counted i → (p.gene i).scoreKind = .number → s.Bounds (p.gene i))
    (fun s _ hc hk => s.addGene_bounds hc hk) (fun _ i _ h hc hk => (h hc hk).addGene (p.gene i))
    hi {} hc hk

end Sums

/-! ### The row of a population -/

/-- The gene the whole search looks at decides. -/
theorem searchCostMin_eq {p : Pop} {l : List ℕ} (hl : Holds p.genesByScore l)
    (hlen : l.length ≤ p.genes.length) {i : ℕ} (hi : p.genesByScore.next none = some i) :
    searchCostMin p = .ok (if p.Counted i then (p.gene i).score else -1) := by
  have hfold : ∀ l : List ℕ, (p.Counted i → l ≠ []) →
      l.foldlM (fun (_ : Unit) (_ : ℕ) => if (p.gene i).util ≤ 3.0 then Except.error (p.gene i).score
        else .ok ()) () = if p.Counted i then .error (p.gene i).score else .ok () := by
    intro l hne
    by_cases hc : (p.gene i).util ≤ 3.0
    · have hc' : p.Counted i := hc
      obtain ⟨j, l, rfl⟩ := List.exists_cons_of_ne_nil (hne hc')
      rw [List.foldlM_cons, if_pos hc, if_pos hc']
      rfl
    · have hc' : ¬ p.Counted i := hc
      simp only [if_neg hc, if_neg hc']
      induction l with
      | nil => rfl
      | cons j l ih => exact ih fun h => absurd h hc'
  have hne : l ≠ [] := by
    rintro rfl
    rw [hl.path.1] at hi
    cases hi
  simp only [searchCostMin, hi, listForEach_eq hl (Nat.lt_succ_of_le hlen), hfold l fun _ => hne]
  by_cases hc : p.Counted i
  · simp only [if_pos hc]
  · simp only [if_neg hc]

section Rows
variable {cfg : Config} {p : Pop}

/-- The average of a field over the genes that count. -/
def Pop.average (cfg : Config) (p : Pop) (field : Gene → ℚ) : ℚ :=
  Average.total cfg.nPops p.Counted (fun i => field (p.gene i)) / Average.count cfg.nPops p.Counted

/-- The row in terms of averages and of the genes at the ends of the lists. -/
def rowOf (cfg : Config) (p : Pop) (gen first last best worst : ℕ) : Row :=
  let found := if p.Counted best then (p.gene best).score else -1
  let costAvg := p.average cfg fun g => g.score
  let costMax := (p.gene worst).score
  { gen := gen
    costKind := (p.sums cfg).costKind
    fitMin := (p.sums cfg).fitMin
    fitAvg := p.average cfg fun g => g.fitness
    fitMax := (p.sums cfg).fitMax
    penaltyMin := (p.sums cfg).penaltyMin
    penaltyAvg := p.average cfg fun g => g.constraintPenalty
    penaltyMax := (p.sums cfg).penaltyMax
    costMin := if found < 0 then costMax else found
    costAvg := if costAvg < 0 then costMax else costAvg
    costMax := costMax
    utilMin := (p.gene first).util
    utilAvg := Average.total cfg.nPops (fun _ => True) (fun i => (p.gene i).util) / cfg.nPops
    utilMax := (p.gene last).util }

/-- The genes at the ends of the utilisation list and of the score list. -/
structure Ends (cfg : Config) (p : Pop) (first last best worst : ℕ) : Prop where
  is_first : p.genesByUtil.next none = some first
  is_last : p.genesByUtil.prev none = some last
  is_best : p.genesByScore.next none = some best
  is_worst : p.genesByScore.prev none = some worst
  first_lt : first < cfg.nPops
  last_lt : last < cfg.nPops
  best_lt : best < cfg.nPops
  worst_lt : worst < cfg.nPops
  utilMin : ∀ j < cfg.nPops, (p.gene first).util ≤ (p.gene j).util
  utilMax : ∀ j < cfg.nPops, (p.gene j).util ≤ (p.gene last).util
  scoreMin : ∀ j < cfg.nPops, (p.gene best).score ≤ (p.gene j).score
  scoreMax : ∀ j < cfg.nPops, (p.gene j).score ≤ (p.gene worst).score

theorem exists_ends {mode : Mode} (hinv : GaInv mode cfg (.boundary, p)) (hn : 0 < cfg.nPops) :
    ∃ first last best worst, Ends cfg p first last best worst := by
  have hlisted : Listed p (List.range cfg.nPops) := hinv.listed
  have hne : List.range cfg.nPops ≠ [] := by
    rw [Ne, List.range_eq_nil]
    omega
  obtain ⟨first, hf, hfirst, hutilMin⟩ := hlisted.byUtil.first hne
  obtain ⟨last, hl, hlast, hutilMax⟩ := hlisted.byUtil.last hne
  obtain ⟨best, hb, hbest, hscoreMin⟩ := hlisted.byScore.first hne
  obtain ⟨worst, hw, hworst, hscoreMax⟩ := hlisted.byScore.last hne
  simp only [List.mem_range] at hf hl hb hw hutilMin hutilMax hscoreMin hscoreMax
  exact ⟨first, last, best, worst, hfirst, hlast, hbest, hworst, hf, hl, hb, hw, hutilMin, hutilMax,
    hscoreMin, hscoreMax⟩

/-- The search of the report at a generation boundary. -/
theorem GaInv.searchCostMin {mode : Mode} (hinv : GaInv mode cfg (.boundary, p)) {i : ℕ}
    (hi : p.genesByScore.next none = some i) :
    searchCostMin p = .ok (if p.Counted i then (p.gene i).score else -1) := by
  obtain ⟨l, hl, hperm, _⟩ := hinv.listed.byScore
  exact searchCostMin_eq hl (hperm.length_eq.trans_le hinv.members_length) hi

theorem reportRow_eq {mode : Mode} (hinv : GaInv mode cfg (.boundary, p))
    (hvalid : ∃ i < cfg.nPops, p.Counted i) {first last best worst : ℕ}
    (hends : Ends cfg p first last best worst) (gen : ℕ) :
    reportRow cfg p gen = .ok (rowOf cfg p gen first last best worst) := by
  have hcount : 0 < Average.count cfg.nPops p.Counted := Average.count_pos hvalid
  simp only [reportRow, hends.is_first, hends.is_last, hends.is_worst, hinv.searchCostMin hends.is_best,
    sums_nValidGenes, if_pos hcount, sums_costSum, sums_fitSum, sums_penaltySum, sums_utilSum,
    require, bind, Except.bind, pure, Except.pure]
  rfl

/-- The three numbers about the score, given the best and the worst gene. -/
theorem costs_iff {best worst : ℕ} (hb : best < cfg.nPops)
    (hbest : ∀ j < cfg.nPops, (p.gene best).score ≤ (p.gene j).score)
    (hworst : ∀ j < cfg.nPops, (p.gene j).score ≤ (p.gene worst).score) (hw : worst < cfg.nPops)
    (hvalid : ∃ i < cfg.nPops, p.Counted i) {found costMin costAvg : ℚ}
    (hfound : found = if p.Counted best then (p.gene best).score else -1)
    (hmin : costMin = if found < 0 then (p.gene worst).score else found)
    (havg : costAvg = if p.average cfg (fun g => g.score) < 0 then (p.gene worst).score
      else p.average cfg fun g => g.score) :
    (IsLeast {c | ∃ i < cfg.nPops, p.Counted i ∧ (p.gene i).score = c} costMin ∧
      costMin ≤ costAvg ∧ costAvg ≤ (p.gene worst).score) ↔
      (p.Counted best ∧ 0 ≤ (p.gene best).score) ∨ AllWorst cfg p := by
  have hlo : (p.gene best).score ≤ p.average cfg fun g => g.score :=
    Average.le_average hvalid fun i hi _ => hbest i hi
  have hhi : p.average cfg (fun g => g.score) ≤ (p.gene worst).score :=
    Average.average_le hvalid fun i hi _ => hworst i hi
  by_cases hgood : p.Counted best ∧ 0 ≤ (p.gene best).score
  · -- the best gene is found, and nothing counts as missing
    obtain ⟨hc, h0⟩ := hgood
    rw [if_pos hc] at hfound
    rw [hfound, if_neg (not_lt.mpr h0)] at hmin
    rw [if_neg (not_lt.mpr (h0.trans hlo))] at havg
    subst hmin havg
    refine iff_of_true ⟨⟨⟨best, hb, hc, rfl⟩, ?_⟩, hlo, hhi⟩ (.inl ⟨hc, h0⟩)
    rintro _ ⟨i, hi, -, rfl⟩
    exact hbest i hi
  · -- the largest score stands for the missing minimum
    have hneg : found < 0 := by
      rw [hfound]
      split
      · rename_i hc
        exact not_le.mp fun h0 => hgood ⟨hc, h0⟩
      · norm_num
    rw [if_pos hneg] at hmin
    subst hmin
    constructor
    · rintro ⟨hleast, -⟩
      exact .inr fun i hi hc j hj => (hworst j hj).trans (hleast.2 ⟨i, hi, hc, rfl⟩)
    · rintro (h | hall)
      · exact absurd h hgood
      · have hscore : ∀ i < cfg.nPops, p.Counted i → (p.gene i).score = (p.gene worst).score :=
          fun i hi hc => le_antisymm (hworst i hi) (hall i hi hc worst hw)
        have hlo' : (p.gene worst).score ≤ p.average cfg fun g => g.score :=
          Average.le_average hvalid fun i hi hc => (hscore i hi hc).ge
        obtain rfl : costAvg = (p.gene worst).score := by
          rw [havg]
          split
          · rfl
          · exact le_antisymm hhi hlo'
        obtain ⟨i, hi, hc⟩ := hvalid
        refine ⟨⟨⟨i, hi, hc, hscore i hi hc⟩, ?_⟩, le_rfl, le_rfl⟩
        rintro _ ⟨j, hj, hcj, rfl⟩
        exact (hscore j hj hcj).ge

/-- At a generation boundary there is a row to write. -/
theorem reportRow_isOk {mode : Mode} (hinv : GaInv mode cfg (.boundary, p)) (hn : 0 < cfg.nPops)
    (gen : ℕ) : ∃ row, reportRow cfg p gen = .ok row := by
  obtain ⟨first, last, best, worst, hends⟩ := exists_ends hinv hn
  simp only [reportRow, hends.is_first, hends.is_last, hends.is_worst, hinv.searchCostMin hends.is_best, require,
    bind, Except.bind, pure, Except.pure]
  exact ⟨_, rfl⟩

/-- The costs of a row are numbers exactly if no period is shorter than a second. -/
theorem GaInv.costKind {mode : Mode} (hinv : GaInv mode cfg (.boundary, p))
    (hvalid : ∃ i < cfg.nPops, p.Counted i) : (p.sums cfg).costKind = .number ↔ cfg.Priced := by
  rw [sums_costKind, Kind.sum_eq_number]
  constructor
  · intro h
    obtain ⟨i, hi, hc⟩ := hvalid
    have hk := h i hi
    rw [if_pos hc] at hk
    exact (hinv.scoreKind hi).mp hk
  · intro h i hi
    split
    · exact (hinv.scoreKind hi).mpr h
    · rfl

end Rows

/-- Four tasks of which a gene with the slow memory type needs 3.2 CPUs, within the cutoff. -/
def crowdedConf : Config :=
  { smallConfOf [⟨1, 1000, 2500, 1000, 1 / 2, 500, 100, 100, 0⟩,
      ⟨2, 1000, 2500, 1000, 1 / 2, 500, 100, 100, 0⟩, ⟨3, 1000, 2500, 1000, 1 / 2, 500, 100, 100, 0⟩,
      ⟨4, 1000, 2500, 1000, 1 / 2, 500, 100, 100, 0⟩] [0] with
    cutoff := 4
    penalty := 0
    mems := [⟨"dram", 10000, 1, 1 / 100, 1 / 1000⟩, ⟨"nvram", 20000, 1 / 2, 1 / 200, 0⟩] }

theorem crowdedConf_accepted : Accepted crowdedConf :=
  ⟨smallFile (List.replicate 4 ⟨"1000 2500 1000 0.5 500 100 100 0",
      some ⟨0, 1000, 2500, 1000, 1 / 2, 500, 100, 100, 0⟩⟩) [⟨"0", some 0⟩] ++
    [.genetic [⟨"1000 3 4 0", some ⟨1000, 3, 4, 0⟩⟩],
      .mem [⟨"nvram 20000 0.5 0.005 0", some ⟨"nvram", 20000, 1 / 2, 1 / 200, 0⟩⟩]],
    by decide +kernel⟩

/-- Draws for three genes: all tasks in the slow memory; one, then two tasks at the slow level. -/
def crowdedDraws : List ℕ :=
  [1, 1, 1, 1, 0, 0, 0, 0, 0, 0, 0, 0] ++ [0, 0, 0, 0, 1, 0, 0, 0, 0, 0, 0, 0] ++
    [0, 0, 0, 0, 1, 1, 0, 0, 0, 0, 0, 0]

end MutualEdge
