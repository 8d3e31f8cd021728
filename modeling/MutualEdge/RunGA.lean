import MutualEdge.Breakdown
import MutualEdge.Counts
import MutualEdge.DeadEnds
import MutualEdge.Report

/-! The loop of `run_GA` with its generation counter and the rows it leaves in `report.txt`.

    The counter is an `unsigned` that starts at 1 and is incremented before each report, so the row of
    a generation `gen` shows the population after `gen - 1` crossovers. `AtLoop k s` says that a run is
    in `s` at the head of the `while` loop after `k` crossovers. -/

namespace MutualEdge
open Checks Choice

/-! ### The loop -/

/-- `#define N_REPORTS 1000` -/
def nReports : ℕ := 1000

/-- The static variables of `report.c`: `n_report_intervals` and the rows written so far. -/
structure Report where
  nReportIntervals : ℕ := 0
  rows : List Row := []

/-- `add_report`; `init_report` has opened the file, or ended the process. -/
def addReport (cfg : Config) (p : Pop) (gen : ℕ) (r : Report) : Except Halt Report :=
  if r.nReportIntervals = 0 then do
    let n := cfg.maxGen / nReports
    let row ← reportRow cfg p gen
    return { nReportIntervals := if n = 0 then 1 else n, rows := r.rows ++ [row] }
  else if gen % r.nReportIntervals ≠ 0 ∧ gen ≠ cfg.maxGen then return r
  else do
    let row ← reportRow cfg p gen
    return { r with rows := r.rows ++ [row] }

structure GaState where
  gen : ℕ
  pop : Pop
  report : Report

/-- `run_GA` up to the head of its loop. -/
def gaStart (mode : Mode) (cfg : Config) : Rand GaState := do
  let p ← initPopulations mode cfg
  let r ← addReport cfg p 1 {}
  return ⟨1, p, r⟩

/-- The body of the loop. -/
def gaRound (mode : Mode) (cfg : Config) (s : GaState) : Rand GaState := do
  let p ← crossover mode cfg s.pop
  let gen := u32 (s.gen + 1)
  let r ← addReport cfg p gen s.report
  return ⟨gen, p, r⟩

/-- A run is at the head of the loop after `k` crossovers. It goes on while `gen <= max_gen`. -/
inductive AtLoop (mode : Mode) (cfg : Config) : ℕ → GaState → Prop where
  | start {s} (h : Returns (gaStart mode cfg) s) : AtLoop mode cfg 0 s
  | round {k s s'} (h : AtLoop mode cfg k s) (hgen : s.gen ≤ cfg.maxGen)
      (hs : Returns (gaRound mode cfg s) s') : AtLoop mode cfg (k + 1) s'

/-! ### What the report should be -/

/-- After `max_gen` crossovers and not before the loop is left, the rows are in the order of their
    generations, and the last row is that of the population the run ends with. -/
structure FinalReport (mode : Mode) (cfg : Config) (s : GaState) : Prop where
  goesOn : ∀ k s', AtLoop mode cfg k s' → k < cfg.maxGen → s'.gen ≤ cfg.maxGen
  stops : cfg.maxGen < s.gen
  increasing : s.report.rows.Pairwise fun r r' => r.gen < r'.gen
  last : ∃ row, reportRow cfg s.pop s.gen = .ok row ∧ s.report.rows.getLast? = some row

/-- The distance between two rows. -/
def reportInterval (cfg : Config) : ℕ := max 1 (cfg.maxGen / nReports)

/-- The generations after the first that get a row. -/
def Reported (cfg : Config) (gen : ℕ) : Prop := reportInterval cfg ∣ gen ∨ gen = cfg.maxGen

instance (cfg : Config) : DecidablePred (Reported cfg) :=
  fun _ => inferInstanceAs (Decidable (_ ∨ _))

section Loop
variable {mode : Mode} {cfg : Config}

theorem reportRow_gen {p : Pop} {gen : ℕ} {row : Row} (h : reportRow cfg p gen = .ok row) :
    row.gen = gen := by
  obtain ⟨_, _, h⟩ := bind_ok.mp h
  obtain ⟨_, _, h⟩ := bind_ok.mp h
  obtain ⟨_, _, h⟩ := bind_ok.mp h
  obtain ⟨_, _, h⟩ := bind_ok.mp h
  rw [← pure_ok.mp h]

/-- The first call sets the interval and writes a row. -/
theorem addReport_first {p : Pop} {gen : ℕ} {r : Report} (h : addReport cfg p gen {} = .ok r) :
    ∃ row, reportRow cfg p gen = .ok row ∧ r = ⟨reportInterval cfg, [row]⟩ := by
  rw [addReport, if_pos rfl] at h
  obtain ⟨row, hrow, h⟩ := bind_ok.mp h
  refine ⟨row, hrow, ?_⟩
  rw [← pure_ok.mp h, reportInterval, List.nil_append]
  rcases Nat.eq_zero_or_pos (cfg.maxGen / nReports) with h0 | hpos
  · rw [if_pos h0, h0]
    rfl
  · rw [if_neg hpos.ne', max_eq_right hpos]

/-- A later call writes a row at the generations that get one. -/
theorem addReport_later {p : Pop} {gen : ℕ} {r r' : Report}
    (hr : r.nReportIntervals = reportInterval cfg) (h : addReport cfg p gen r = .ok r') :
    (Reported cfg gen ∧ ∃ row, reportRow cfg p gen = .ok row ∧
      r' = { r with rows := r.rows ++ [row] }) ∨ (¬ Reported cfg gen ∧ r' = r) := by
  have hpos : ¬ r.nReportIntervals = 0 := by
    rw [hr, reportInterval]
    omega
  rw [addReport, if_neg hpos] at h
  by_cases hgen : Reported cfg gen
  · have htest : ¬ (gen % r.nReportIntervals ≠ 0 ∧ gen ≠ cfg.maxGen) := by
      rw [hr]
      rintro ⟨hmod, hmax⟩
      rcases hgen with hdvd | hmax'
      · exact hmod (Nat.mod_eq_zero_of_dvd hdvd)
      · exact hmax hmax'
    rw [if_neg htest] at h
    obtain ⟨row, hrow, h⟩ := bind_ok.mp h
    exact .inl ⟨hgen, row, hrow, (pure_ok.mp h).symm⟩
  · have htest : gen % r.nReportIntervals ≠ 0 ∧ gen ≠ cfg.maxGen := by
      rw [hr]
      exact ⟨fun hmod => hgen (.inl (Nat.dvd_of_mod_eq_zero hmod)), fun hmax => hgen (.inr hmax)⟩
    rw [if_pos htest] at h
    exact .inr ⟨hgen, (pure_ok.mp h).symm⟩

/-- What holds at the head of the loop after `k` crossovers, as long as the counter has not wrapped:
    the rows are those of the generations up to `k + 1` that get one. -/
structure LoopInv (cfg : Config) (k : ℕ) (s : GaState) : Prop where
  interval : s.report.nReportIntervals = reportInterval cfg
  gens : s.report.rows.map Row.gen =
    1 :: (List.range' 2 k).filter fun gen => Reported cfg gen
  last : k = 0 ∨ Reported cfg (k + 1) → ∃ row, reportRow cfg s.pop (k + 1) = .ok row ∧
    s.report.rows.getLast? = some row

/-- The counter is one ahead of the crossovers, in 32 bits. -/
theorem AtLoop.gen_eq {k : ℕ} {s : GaState} (h : AtLoop mode cfg k s) : s.gen = u32 (k + 1) := by
  induction h with
  | start h =>
    obtain ⟨p, _, h⟩ := h.bind
    obtain ⟨r, _, h⟩ := h.bind
    obtain rfl := returns_pure.mp h
    rfl
  | @round k s s' h hgen hs ih =>
    obtain ⟨p, _, hs⟩ := hs.bind
    obtain ⟨r, _, hs⟩ := hs.bind
    obtain rfl := returns_pure.mp hs
    show u32 (s.gen + 1) = u32 (k + 1 + 1)
    rw [ih, u32, u32, u32, Nat.mod_add_mod]

/-- At the head of the loop the population is between two crossovers. -/
theorem AtLoop.gaInv {k : ℕ} {s : GaState} (h : AtLoop mode cfg k s) :
    GaInv mode cfg (.boundary, s.pop) := by
  induction h with
  | start h =>
    obtain ⟨p, hp, h⟩ := h.bind
    obtain ⟨r, _, h⟩ := h.bind
    obtain rfl := returns_pure.mp h
    exact initPopulations_gaInv hp
  | @round k s s' h hgen hs ih =>
    obtain ⟨p, hp, hs⟩ := hs.bind
    obtain ⟨r, _, hs⟩ := hs.bind
    obtain rfl := returns_pure.mp hs
    exact crossover_gaInv ih hp

theorem AtLoop.inv {k : ℕ} {s : GaState} (h : AtLoop mode cfg k s) (hk : k + 1 < 2 ^ 32) :
    LoopInv cfg k s := by
  induction h with
  | start h =>
    obtain ⟨p, _, h⟩ := h.bind
    obtain ⟨r, hr, h⟩ := h.bind
    obtain rfl := returns_pure.mp h
    obtain ⟨row, hrow, rfl⟩ := addReport_first (returns_lift.mp hr)
    exact ⟨rfl, by simp [reportRow_gen hrow], fun _ => ⟨row, hrow, rfl⟩⟩
  | @round k s s' h hgen hs ih =>
    have hinv := ih (by omega)
    have hcounter := h.gen_eq
    obtain ⟨p, _, hs⟩ := hs.bind
    obtain ⟨r, hr, hs⟩ := hs.bind
    obtain rfl := returns_pure.mp hs
    have hnext : u32 (s.gen + 1) = k + 1 + 1 := by
      rw [hcounter, u32, u32, Nat.mod_add_mod]
      exact Nat.mod_eq_of_lt hk
    have hsplit : List.range' 2 (k + 1) = List.range' 2 k ++ [k + 1 + 1] := by
      rw [List.range'_concat]
      congr 2
      omega
    rw [hnext] at hr
    rcases addReport_later hinv.interval (returns_lift.mp hr) with
      ⟨hrep, row, hrow, rfl⟩ | ⟨hskip, rfl⟩
    · refine ⟨hinv.interval, ?_, fun _ => ⟨row, hrow, by simp⟩⟩
      rw [List.map_append, hinv.gens, hsplit, List.filter_append]
      simp [reportRow_gen hrow, hrep]
    · refine ⟨hinv.interval, ?_, fun hrep => absurd hrep (by simpa using hskip)⟩
      rw [hinv.gens, hsplit, List.filter_append]
      simp [hskip]

/-- The generation numbers of the rows increase. -/
theorem LoopInv.increasing {k : ℕ} {s : GaState} (h : LoopInv cfg k s) :
    s.report.rows.Pairwise fun r r' => r.gen < r'.gen := by
  rw [← List.pairwise_map (f := Row.gen) (R := (· < ·)), h.gens, List.pairwise_cons]
  refine ⟨fun gen hgen => ?_, (List.pairwise_lt_range').filter _⟩
  have hmem := List.mem_range'_1.mp (List.mem_of_mem_filter hgen)
  omega

/-- The final population has a row only if the generation behind the last one gets one. -/
theorem AtLoop.dvd_of_last {s : GaState} (h : AtLoop mode cfg cfg.maxGen s) (hmax : 1 ≤ cfg.maxGen)
    (hnowrap : cfg.maxGen + 1 < 2 ^ 32)
    (hlast : ∃ row, reportRow cfg s.pop s.gen = .ok row ∧ s.report.rows.getLast? = some row) :
    reportInterval cfg ∣ cfg.maxGen + 1 := by
  obtain ⟨row, hrow, hlast⟩ := hlast
  have hgen : row.gen = cfg.maxGen + 1 := by
    rw [reportRow_gen hrow, h.gen_eq]
    exact u32_of_lt hnowrap
  have hmem : cfg.maxGen + 1 ∈ s.report.rows.map Row.gen :=
    List.mem_map.mpr ⟨row, List.mem_of_getLast? hlast, hgen⟩
  rw [(h.inv hnowrap).gens, List.mem_cons] at hmem
  rcases hmem with h1 | hmem
  · omega
  · rcases of_decide_eq_true (List.mem_filter.mp hmem).2 with hdvd | hlt
    · exact hdvd
    · omega

/-- In the run of a search that has made its last crossover: the loop ends and the last row is that of
    the final population exactly if the counter does not wrap and the generation behind the last one
    gets a row. -/
theorem finalReport_iff {s : GaState} (hmax : 1 ≤ cfg.maxGen) (hu : cfg.maxGen < 2 ^ 32)
    (h : AtLoop mode cfg cfg.maxGen s) : FinalReport mode cfg s ↔
      cfg.maxGen + 1 < 2 ^ 32 ∧ reportInterval cfg ∣ cfg.maxGen + 1 := by
  constructor
  · intro hfinal
    have hnowrap : cfg.maxGen + 1 < 2 ^ 32 := by
      by_contra hwrap
      have hstops := hfinal.stops
      rw [h.gen_eq, show cfg.maxGen + 1 = 2 ^ 32 by omega, u32, Nat.mod_self] at hstops
      exact absurd hstops (Nat.not_lt_zero _)
    exact ⟨hnowrap, h.dvd_of_last hmax hnowrap hfinal.last⟩
  · rintro ⟨hnowrap, hdvd⟩
    have hinv := h.inv hnowrap
    have hgen : s.gen = cfg.maxGen + 1 := by
      rw [h.gen_eq]
      exact u32_of_lt hnowrap
    refine ⟨?_, by omega, hinv.increasing, ?_⟩
    · intro k s' hs' hk
      rw [hs'.gen_eq, u32_of_lt (by omega)]
      exact hk
    · rw [hgen]
      exact hinv.last (.inr (.inl hdvd))

/-! ### Runs of any length -/

theorem addReport_isOk {p : Pop} (hinv : GaInv mode cfg (.boundary, p)) (hn : 0 < cfg.nPops)
    (gen : ℕ) (r : Report) : ∃ r', addReport cfg p gen r = .ok r' := by
  obtain ⟨row, hrow⟩ := reportRow_isOk hinv hn gen
  unfold addReport
  split
  · exact ⟨_, bind_ok.mpr ⟨row, hrow, rfl⟩⟩
  · split
    · exact ⟨r, rfl⟩
    · exact ⟨_, bind_ok.mpr ⟨row, hrow, rfl⟩⟩

/-- With twins in front there is a run of every number of crossovers up to `max_gen`. -/
theorem exists_atLoop (hn : 3 ≤ cfg.nPops) (hn' : cfg.nPops ≤ 16383) (ht : 2 ≤ cfg.nTasks)
    (ht' : cfg.nTasks < 2 ^ 32) (hmax : cfg.maxGen < 2 ^ 32) {s : GaState}
    (hs : Returns (gaStart .localOnly cfg) s) (hlead : TwinsLead s.pop) {k : ℕ}
    (hk : k ≤ cfg.maxGen) : ∃ s', AtLoop .localOnly cfg k s' ∧ TwinsLead s'.pop := by
  induction k with
  | zero => exact ⟨s, .start hs, hlead⟩
  | succ k ih =>
    obtain ⟨t, hat, hlead⟩ := ih (by omega)
    have hgen : t.gen ≤ cfg.maxGen := by
      rw [hat.gen_eq, u32_of_lt (by omega)]
      exact hk
    have hinv := hat.gaInv
    obtain ⟨ds, p, hp, hlead'⟩ := twinsLead_crossover hn hn' ht ht' hinv hlead
    obtain ⟨r, hr⟩ := addReport_isOk (crossover_gaInv hinv hp.returns) (by omega) (u32 (t.gen + 1))
      t.report
    have hround : Reads (gaRound .localOnly cfg t) ds ⟨u32 (t.gen + 1), p, r⟩ :=
      hp.bind_nil ((Reads.lift hr).bind_nil (Reads.pure _))
    exact ⟨_, .round hat hgen hround.returns, hlead'⟩

end Loop

/-- `smallConf` with another number of generations. -/
def gensConf (maxGen : ℕ) : Config := { smallConf with maxGen := maxGen }

theorem gensConf_accepted (maxGen : ℕ) : Accepted (gensConf maxGen) := by
  obtain ⟨sections, h⟩ := smallConf_accepted
  refine ⟨sections ++ [.genetic [⟨"", some ⟨maxGen, 3, 2, 3 / 2⟩⟩]], ?_⟩
  rw [parseConf, List.foldlM_append]
  exact bind_ok.mpr ⟨smallConf, h, rfl⟩

/-- A start with three equal genes. -/
theorem gensConf_starts (maxGen : ℕ) :
    ∃ s, Returns (gaStart .localOnly (gensConf maxGen)) s ∧ TwinsLead s.pop := by
  have hsame : initPopulations .localOnly (gensConf maxGen) = initPopulations .localOnly smallConf := rfl
  have hok : ((initPopulations .localOnly smallConf (List.replicate 18 0)).toOption.any fun r =>
      decide ((r.1.genes.map fun g => (g.taskattrsMem.attrs, g.taskattrsCpufreq.attrs)) =
        List.replicate 3 ([0, 0], [0, 0]))) = true := by decide +kernel
  obtain ⟨⟨p, ds⟩, hrun, hgenes⟩ := exists_ok_of_any hok
  have hp : Returns (initPopulations .localOnly (gensConf maxGen)) p := ⟨_, ds, hsame ▸ hrun⟩
  have hinv := initPopulations_gaInv hp
  obtain ⟨r, hr⟩ := addReport_isOk hinv (Nat.zero_lt_succ 2) 1 {}
  have hstart : gaStart .localOnly (gensConf maxGen) (List.replicate 18 0) = .ok (⟨1, p, r⟩, ds) := by
    rw [gaStart, hsame, bind_run hrun, hr]
    rfl
  exact ⟨_, ⟨_, ds, hstart⟩, twinsLead_of_alike hinv (Nat.one_lt_succ_succ 1)
    (of_decide_eq_true hgenes)⟩

/-- Runs of all numbers of crossovers. -/
theorem gensConf_runs (maxGen : ℕ) (h : maxGen < 2 ^ 32) :
    ∃ s, AtLoop .localOnly (gensConf maxGen) maxGen s := by
  obtain ⟨s, hs, hlead⟩ := gensConf_starts maxGen
  have hn : (gensConf maxGen).nPops = 3 := rfl
  have ht : (gensConf maxGen).nTasks = 2 := rfl
  obtain ⟨s', hs', _⟩ := exists_atLoop hn.ge (by omega) ht.ge (by omega) h hs hlead le_rfl
  exact ⟨s', hs'⟩

theorem finalReport_gensConf : ∃ s, AtLoop .localOnly (gensConf 1999) 1999 s ∧
    FinalReport .localOnly (gensConf 1999) s := by
  obtain ⟨s, hs⟩ := gensConf_runs 1999 (by decide)
  exact ⟨s, hs, (finalReport_iff (by decide) (by decide) hs).mpr ⟨by decide, by decide⟩⟩

/-- With two thousand generations there is a row at every second one and at number 2000, which shows
    the population before the last crossover; the final one has number 2001 and gets no row. -/
theorem finalReport_fails : Accepted (gensConf 2000) ∧
    (∃ s, AtLoop .localOnly (gensConf 2000) 2000 s ∧ s.gen = 2001 ∧
      (s.report.rows.map Row.gen).getLast? = some 2000 ∧
      ¬ FinalReport .localOnly (gensConf 2000) s) ∧
    ¬ ∀ cfg s, Accepted cfg → 1 ≤ cfg.maxGen → cfg.maxGen < 2 ^ 32 →
      AtLoop .localOnly cfg cfg.maxGen s → FinalReport .localOnly cfg s := by
  obtain ⟨s, hs⟩ := gensConf_runs 2000 (by decide)
  have hnot : ¬ FinalReport .localOnly (gensConf 2000) s := fun h =>
    absurd (hs.dvd_of_last (by decide) (by decide) h.last) (by decide)
  have hgens : (s.report.rows.map Row.gen).getLast? = some 2000 := by
    rw [(hs.inv (by decide)).gens]
    decide +kernel
  exact ⟨gensConf_accepted 2000, ⟨s, hs, hs.gen_eq, hgens, hnot⟩,
    fun h => hnot (h _ s (gensConf_accepted 2000) (by decide) (by decide) hs)⟩

end MutualEdge
