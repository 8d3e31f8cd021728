import MutualEdge.RunGA

/-! How the numbers of the report develop over a run.

    A crossover puts a gene in the place of the worst one that scores no worse, so nothing a row says of
    the costs gets worse from row to row, as long as every gene counts and the best score has not
    become negative: a negative minimum or average gives way to the maximum. -/

namespace MutualEdge
open Checks Choice LinkRing Ordered

/-! ### Populations -/

/-- The scores of a population are no worse than those of an earlier one: each of the earlier ones is
    reached, none is worse than all of them, and their sum is no greater. -/
structure NoWorse (cfg : Config) (p p' : Pop) : Prop where
  reached : ∀ i < cfg.nPops, ∃ j < cfg.nPops, (p'.gene j).score ≤ (p.gene i).score
  bounded : ∀ j < cfg.nPops, ∃ i < cfg.nPops, (p'.gene j).score ≤ (p.gene i).score
  total : ∑ i ∈ Finset.range cfg.nPops, (p'.gene i).score ≤ ∑ i ∈ Finset.range cfg.nPops, (p.gene i).score

section Populations
variable {mode : Mode} {cfg : Config} {p p' p'' : Pop}

theorem NoWorse.refl (cfg : Config) (p : Pop) : NoWorse cfg p p where
  reached i hi := ⟨i, hi, le_rfl⟩
  bounded i hi := ⟨i, hi, le_rfl⟩
  total := le_rfl

theorem NoWorse.trans (h : NoWorse cfg p p') (h' : NoWorse cfg p' p'') : NoWorse cfg p p'' where
  reached i hi := by
    obtain ⟨j, hj, hij⟩ := h.reached i hi
    obtain ⟨k, hk, hjk⟩ := h'.reached j hj
    exact ⟨k, hk, hjk.trans hij⟩
  bounded k hk := by
    obtain ⟨j, hj, hjk⟩ := h'.bounded k hk
    obtain ⟨i, hi, hij⟩ := h.bounded j hj
    exact ⟨i, hi, hjk.trans hij⟩
  total := h'.total.trans h.total

/-- Scores that are not negative in the end have never been. -/
theorem NoWorse.nonneg (h : NoWorse cfg p p') (hpos : ∀ j < cfg.nPops, 0 ≤ (p'.gene j).score) :
    ∀ i < cfg.nPops, 0 ≤ (p.gene i).score := by
  intro i hi
  obtain ⟨j, hj, hle⟩ := h.reached i hi
  exact (hpos j hj).trans hle

/-- One gene makes way for a better one. -/
theorem NoWorse.replace {b : ℕ} (ho : ∀ j, j ≠ b → p'.gene j = p.gene j)
    (hle : (p'.gene b).score ≤ (p.gene b).score) : NoWorse cfg p p' := by
  have hall : ∀ j, (p'.gene j).score ≤ (p.gene j).score := by
    intro j
    by_cases hj : j = b
    · rw [hj]
      exact hle
    · rw [ho j hj]
  exact ⟨fun i hi => ⟨i, hi, hall i⟩, fun j hj => ⟨j, hj, hall j⟩, Finset.sum_le_sum fun i _ => hall i⟩

/-- A crossover that returns. -/
theorem crossover_noWorse (hinv : GaInv mode cfg (.boundary, p))
    (h : Returns (crossover mode cfg p) p') : NoWorse cfg p p' := by
  obtain ⟨b, l, _, _, hs, ho, g1, h1, _, _, _, hle, _⟩ := crossover_spec hinv h
  exact .replace ho (hle.trans ((List.pairwise_append.mp hs).2.2 g1 h1 b (List.mem_singleton_self b)))

/-! ### Rows -/

/-- The row is that of the population. -/
structure Shows (mode : Mode) (cfg : Config) (p : Pop) (row : Row) : Prop where
  inv : GaInv mode cfg (.boundary, p)
  nonempty : 0 < cfg.nPops
  row : reportRow cfg p row.gen = .ok row

/-- What a row says of the costs. -/
structure Costs (cfg : Config) (p : Pop) (row : Row) : Prop where
  least : IsLeast {c | ∃ i < cfg.nPops, (p.gene i).score = c} row.costMin
  average : row.costAvg = (∑ i ∈ Finset.range cfg.nPops, (p.gene i).score) / cfg.nPops
  greatest : IsGreatest {c | ∃ i < cfg.nPops, (p.gene i).score = c} row.costMax

/-- Where every gene counts and no score is negative, the row gives the least score, the average and the
    greatest one. -/
theorem Shows.costs {row : Row} (h : Shows mode cfg p row) (hcutoff : cfg.cutoff ≤ 3)
    (hpos : ∀ i < cfg.nPops, 0 ≤ (p.gene i).score) : Costs cfg p row := by
  obtain ⟨first, last, best, worst, hends⟩ := exists_ends h.inv h.nonempty
  have hcounted : ∀ i < cfg.nPops, p.Counted i := by
    intro i hi
    have hutil := (h.inv.valid i (List.mem_range.mpr hi)).util_le
    exact (hutil.trans hcutoff).trans (by norm_num)
  have hrow := h.row
  rw [reportRow_eq h.inv ⟨best, hends.best_lt, hcounted best hends.best_lt⟩ hends, Except.ok.injEq] at hrow
  have haverage : (p.average cfg fun g => g.score) =
      (∑ i ∈ Finset.range cfg.nPops, (p.gene i).score) / cfg.nPops := by
    have hcount : Average.count cfg.nPops p.Counted = cfg.nPops := by
      rw [Average.count, Finset.sum_congr rfl fun i hi => if_pos (hcounted i (Finset.mem_range.mp hi))]
      simp
    have htotal : Average.total cfg.nPops p.Counted (fun i => (p.gene i).score) =
        ∑ i ∈ Finset.range cfg.nPops, (p.gene i).score :=
      Finset.sum_congr rfl fun i hi => if_pos (hcounted i (Finset.mem_range.mp hi))
    rw [Pop.average, hcount, htotal]
  have hmin : row.costMin = (p.gene best).score := by
    have hfound : (if p.Counted best then (p.gene best).score else -1) = (p.gene best).score :=
      if_pos (hcounted best hends.best_lt)
    rw [← hrow]
    simp only [rowOf, hfound, if_neg (hpos best hends.best_lt).not_gt]
  have havg : row.costAvg = (∑ i ∈ Finset.range cfg.nPops, (p.gene i).score) / cfg.nPops := by
    have hnonneg : 0 ≤ (∑ i ∈ Finset.range cfg.nPops, (p.gene i).score) / (cfg.nPops : ℚ) :=
      div_nonneg (Finset.sum_nonneg fun i hi => hpos i (Finset.mem_range.mp hi)) (Nat.cast_nonneg _)
    rw [← hrow]
    simp only [rowOf, haverage, if_neg hnonneg.not_gt]
  have hmax : row.costMax = (p.gene worst).score := by rw [← hrow]; rfl
  refine ⟨?_, havg, ?_⟩
  · rw [hmin]
    refine ⟨⟨best, hends.best_lt, rfl⟩, ?_⟩
    rintro _ ⟨i, hi, rfl⟩
    exact hends.scoreMin i hi
  · rw [hmax]
    refine ⟨⟨worst, hends.worst_lt, rfl⟩, ?_⟩
    rintro _ ⟨i, hi, rfl⟩
    exact hends.scoreMax i hi

theorem NoWorse.costs {row row' : Row} (h : NoWorse cfg p p') (hc : Costs cfg p row)
    (hc' : Costs cfg p' row') :
    row'.costMin ≤ row.costMin ∧ row'.costAvg ≤ row.costAvg ∧ row'.costMax ≤ row.costMax := by
  refine ⟨?_, ?_, ?_⟩
  · obtain ⟨i, hi, hscore⟩ := hc.least.1
    obtain ⟨j, hj, hle⟩ := h.reached i hi
    exact (hc'.least.2 ⟨j, hj, rfl⟩).trans (hle.trans hscore.le)
  · rw [hc.average, hc'.average]
    exact div_le_div_of_nonneg_right h.total (Nat.cast_nonneg _)
  · obtain ⟨j, hj, hscore⟩ := hc'.greatest.1
    obtain ⟨i, hi, hle⟩ := h.bounded j hj
    exact hscore.ge.trans (hle.trans (hc.greatest.2 ⟨i, hi, rfl⟩))

end Populations

/-! ### The run -/

section Run
variable {mode : Mode} {cfg : Config}

/-- Every row is that of a population the run has had, in their order. -/
structure Rows (mode : Mode) (cfg : Config) (s : GaState) : Prop where
  shown : ∀ r ∈ s.report.rows, ∃ p, Shows mode cfg p r ∧ NoWorse cfg p s.pop
  ordered : s.report.rows.Pairwise fun r r' =>
    ∃ p p', Shows mode cfg p r ∧ Shows mode cfg p' r' ∧ NoWorse cfg p p' ∧ NoWorse cfg p' s.pop

/-- Either the report stays as it is or it gets the row of the population. -/
theorem addReport_rows {p : Pop} {gen : ℕ} {r r' : Report} (h : addReport cfg p gen r = .ok r') :
    r'.rows = r.rows ∨ ∃ row, reportRow cfg p gen = .ok row ∧ r'.rows = r.rows ++ [row] := by
  unfold addReport at h
  split at h
  · obtain ⟨row, hrow, h⟩ := bind_ok.mp h
    exact .inr ⟨row, hrow, congrArg Report.rows (pure_ok.mp h).symm⟩
  · split at h
    · exact .inl (congrArg Report.rows (pure_ok.mp h).symm)
    · obtain ⟨row, hrow, h⟩ := bind_ok.mp h
      exact .inr ⟨row, hrow, congrArg Report.rows (pure_ok.mp h).symm⟩

theorem Rows.add {s : GaState} {p : Pop} {gen gen' : ℕ} {r : Report} (h : Rows mode cfg s)
    (hn : 0 < cfg.nPops) (hinv : GaInv mode cfg (.boundary, p)) (hp : NoWorse cfg s.pop p)
    (hr : addReport cfg p gen s.report = .ok r) : Rows mode cfg ⟨gen', p, r⟩ := by
  have hshown : ∀ r ∈ s.report.rows, ∃ q, Shows mode cfg q r ∧ NoWorse cfg q p := by
    intro r hr
    obtain ⟨q, hq, hle⟩ := h.shown r hr
    exact ⟨q, hq, hle.trans hp⟩
  have hordered : s.report.rows.Pairwise fun r r' =>
      ∃ q q', Shows mode cfg q r ∧ Shows mode cfg q' r' ∧ NoWorse cfg q q' ∧ NoWorse cfg q' p := by
    refine h.ordered.imp ?_
    rintro r r' ⟨q, q', hq, hq', hqq, hle⟩
    exact ⟨q, q', hq, hq', hqq, hle.trans hp⟩
  rcases addReport_rows hr with hrows | ⟨row, hrow, hrows⟩
  · exact ⟨hrows ▸ hshown, hrows ▸ hordered⟩
  · have hnew : Shows mode cfg p row := ⟨hinv, hn, by rw [reportRow_gen hrow]; exact hrow⟩
    constructor
    · intro r hr
      have hmem : r ∈ s.report.rows ++ [row] := hrows ▸ hr
      rcases List.mem_append.mp hmem with hr | hr
      · exact hshown r hr
      · obtain rfl := List.mem_singleton.mp hr
        exact ⟨p, hnew, .refl cfg p⟩
    · refine hrows ▸ List.pairwise_append.mpr ⟨hordered, List.pairwise_singleton _ _, ?_⟩
      intro r hr r' hr'
      obtain rfl := List.mem_singleton.mp hr'
      obtain ⟨q, hq, hle⟩ := hshown r hr
      exact ⟨q, p, hq, hnew, hle, .refl cfg p⟩

theorem AtLoop.rows {k : ℕ} {s : GaState} (h : AtLoop mode cfg k s) (hn : 0 < cfg.nPops) :
    Rows mode cfg s := by
  induction h with
  | start h =>
    obtain ⟨p, hp, h⟩ := h.bind
    obtain ⟨r, hr, h⟩ := h.bind
    obtain rfl := returns_pure.mp h
    have hnone : Rows mode cfg ⟨0, p, {}⟩ := ⟨by simp, List.Pairwise.nil⟩
    exact hnone.add hn (initPopulations_gaInv hp) (.refl cfg p) (returns_lift.mp hr)
  | @round k s s' h hgen hs ih =>
    obtain ⟨p, hp, hs⟩ := hs.bind
    obtain ⟨r, hr, hs⟩ := hs.bind
    obtain rfl := returns_pure.mp hs
    exact ih.add hn (crossover_gaInv h.gaInv hp) (crossover_noWorse h.gaInv hp) (returns_lift.mp hr)

/-- With a cutoff at which every gene counts, a run whose best score is not negative has written rows in
    which neither the least, nor the average, nor the greatest cost ever rises. -/
theorem report_improves {k : ℕ} {s : GaState} (h : AtLoop mode cfg k s) (hn : 0 < cfg.nPops)
    (hcutoff : cfg.cutoff ≤ 3) (hpos : ∀ i < cfg.nPops, 0 ≤ (s.pop.gene i).score) :
    s.report.rows.Pairwise fun r r' =>
      r'.costMin ≤ r.costMin ∧ r'.costAvg ≤ r.costAvg ∧ r'.costMax ≤ r.costMax := by
  refine (h.rows hn).ordered.imp ?_
  rintro r r' ⟨p, p', hr, hr', hle, hlast⟩
  have hpos' := hlast.nonneg hpos
  exact hle.costs (hr.costs hcutoff (hle.nonneg hpos')) (hr'.costs hcutoff hpos')

end Run

theorem report_improves_shortConf : ∃ s, AtLoop .localOnly shortConf 1 s ∧ s.report.rows.length = 2 ∧
    s.report.rows.Pairwise fun r r' =>
      r'.costMin ≤ r.costMin ∧ r'.costAvg ≤ r.costAvg ∧ r'.costMax ≤ r.costMax := by
  have hok : ((gaStart .localOnly shortConf smallDraws).toOption.any fun r =>
      decide (r.1.gen ≤ shortConf.maxGen) &&
      ((gaRound .localOnly shortConf r.1 r.2).toOption.any fun r' =>
        decide (r'.1.report.rows.length = 2) &&
        decide (∀ i < shortConf.nPops, 0 ≤ (r'.1.pop.gene i).score))) = true := by decide +kernel
  obtain ⟨⟨s, ds⟩, hstart, hnext⟩ := exists_ok_of_any hok
  rw [Bool.and_eq_true, decide_eq_true_eq] at hnext
  obtain ⟨⟨s', ds'⟩, hround, hlast⟩ := exists_ok_of_any hnext.2
  rw [Bool.and_eq_true, decide_eq_true_eq, decide_eq_true_eq] at hlast
  have hat : AtLoop .localOnly shortConf 1 s' := .round (.start ⟨_, _, hstart⟩) hnext.1 ⟨_, _, hround⟩
  exact ⟨s', hat, hlast.1, report_improves hat (by decide) (by decide +kernel) hlast.2⟩

end MutualEdge
