import MutualEdge.GaInvariant
import MutualEdge.Lib.Outcome
import MutualEdge.Selection

/-! Why a run stops: the reasons each part of the program can give for not returning.

    `E` collects reasons. That the draws are used up is one throughout; a remainder by zero, an
    evaluation that ends the process and the others are asked for where they can come up. -/

namespace MutualEdge
open Checks Choice LinkRing

/-! ### Draws -/

section Draws
variable {cfg : Config} {E : Halt → Prop} (hs : E .starved)
include hs

theorem fails_getRandExcept {maxValue : ℕ} (hz : maxValue = 0 → E .sigfpe) (exValue : ℕ) :
    Fails (getRandExcept maxValue exValue) E := by
  refine Fails.retry hs fun d e h => ?_
  rcases bind_error.mp h with h | ⟨v, _, h⟩
  · rw [getRandOf] at h
    split at h
    · rename_i h0
      rw [← Except.error.inj h]
      exact hz h0
    · cases h
  · cases h

theorem fails_drawAttrs {maxValue n : ℕ} (hz : 0 < n → maxValue = 0 → E .sigfpe) :
    Fails (drawAttrs maxValue n) E := by
  induction n with
  | zero => exact Fails.pure []
  | succ n ih =>
    refine (fails_getRand hs (hz n.succ_pos)).bind fun _ _ => ?_
    exact (ih fun _ => hz n.succ_pos).bind fun _ _ => Fails.pure _

theorem fails_assignTaskattrs {n maxValue : ℕ} (hz : 0 < n → maxValue = 0 → E .sigfpe)
    (t : Taskattrs) : Fails (assignTaskattrs n maxValue t) E :=
  (fails_drawAttrs hs hz).bind fun _ _ => Fails.pure _

theorem fails_assignGene
    (hz : 0 < cfg.nTasks → cfg.nMems = 0 ∨ cfg.nCpufreqs = 0 ∨ cfg.nClouds = 0 → E .sigfpe)
    (g : Gene) : Fails (assignGene cfg g) E := by
  refine (fails_assignTaskattrs hs (fun ht h => hz ht (.inl h)) _).bind fun _ _ => ?_
  refine (fails_assignTaskattrs hs (fun ht h => hz ht (.inr (.inl h))) _).bind fun _ _ => ?_
  exact (fails_assignTaskattrs hs (fun ht h => hz ht (.inr (.inr h))) _).bind fun _ _ => Fails.pure _

theorem fails_balanceMemTypes (hz : cfg.nMems = 0 → E .sigfpe) (g : Gene) :
    Fails (balanceMemTypes cfg g) E := by
  refine Fails.bind ?_ fun _ _ => Fails.pure _
  unfold balanceTaskattrs
  dsimp only
  split
  · rename_i hpos
    refine (fails_getRand hs fun h0 => absurd h0 (Nat.ne_of_gt hpos)).bind fun _ _ => ?_
    exact (fails_getRandExcept hs hz _).bind fun _ _ => Fails.pure _
  · exact Fails.pure _

theorem fails_lowerUtilizationByAttr {n : ℕ} (hz : n = 0 → E .sigfpe) (t : Taskattrs) :
    Fails (lowerUtilizationByAttr n t) E := by
  refine (fails_getRand hs hz).bind fun idxOrg _ => ?_
  split
  · exact Fails.pure _
  · exact Fails.pure _

omit hs in
theorem fails_lowerEither {first second : Gene → Rand (Bool × Gene)}
    (h1 : ∀ g, Fails (first g) E) (h2 : ∀ g, Fails (second g) E) (g : Gene) :
    Fails (lowerEither first second g) E := by
  refine (h1 g).bind fun r _ => ?_
  split
  · exact Fails.pure _
  · exact (h2 _).bind fun _ _ => Fails.pure _

theorem fails_lowerUtilization
    (hz : cfg.nTasks = 0 ∨ cfg.nCpufreqs + cfg.nOffloadingratios = 0 → E .sigfpe) (g : Gene) :
    Fails (lowerUtilization cfg g) E := by
  have hcpufreq : ∀ g, Fails (lowerCpufreq cfg g) E := fun g =>
    (fails_lowerUtilizationByAttr hs (fun h => hz (.inl h)) _).bind fun _ _ => Fails.pure _
  have hratio : ∀ g, Fails (lowerOffloadingratio cfg g) E := fun g =>
    (fails_lowerUtilizationByAttr hs (fun h => hz (.inl h)) _).bind fun _ _ => Fails.pure _
  refine (fails_getRand hs fun h => hz (.inr h)).bind fun r _ => ?_
  split
  · exact fails_lowerEither hcpufreq hratio g
  · exact fails_lowerEither hratio hcpufreq g

end Draws

/-! ### Evaluations -/

/-- Task `i` of the gene overruns its period. -/
def Gene.Overruns (cfg : Config) (g : Gene) (i : ℕ) : Prop :=
  MutualEdge.Overruns cfg i (g.taskattrsMem.attr i) (g.taskattrsCpufreq.attr i)

/-- The message for it. -/
def Gene.periodExceeded (cfg : Config) (g : Gene) (i : ℕ) : Halt :=
  MutualEdge.periodExceeded cfg i (g.taskattrsMem.attr i) (g.taskattrsCpufreq.attr i)

section Evaluations
variable {mode : Mode} {cfg : Config} {g : Gene}

/-- An evaluation returns if no task overruns its period and there is a level to be idle at, and names
    the first task that does. -/
theorem checkUtilpower_spec (mode : Mode) (cfg : Config) (g : Gene) :
    ((∀ i < cfg.nTasks, ¬ g.Overruns cfg i) → (∃ r, checkUtilpower mode cfg g = .ok r) ∨
        cfg.nCpufreqs = 0 ∧ checkUtilpower mode cfg g = .error .memoryFault) ∧
      ∀ i < cfg.nTasks, g.Overruns cfg i → (∀ j < i, ¬ g.Overruns cfg j) →
        checkUtilpower mode cfg g = .error (g.periodExceeded cfg i) := by
  obtain ⟨hok, herr⟩ := @foldlM_range_first Halt Tally (fun t i => do
      let e ← getTaskUtilpower mode cfg i (g.taskattrsMem.attr i) (g.taskattrsCloud.attr i)
        (g.taskattrsCpufreq.attr i) (g.taskattrsOffloadingratio.attr i)
      return Tally.addTask cfg g t i e)
    (fun i => g.Overruns cfg i) (fun i => g.periodExceeded cfg i)
    (fun t i hi => bind_error.mpr (.inl (if_pos hi)))
    (fun t i hi => ⟨_, bind_ok.mpr ⟨_, if_neg hi, rfl⟩⟩) cfg.nTasks {}
  refine ⟨fun h => ?_, fun i hi hbad hfirst => bind_error.mpr (.inl (herr i hi hbad hfirst))⟩
  obtain ⟨t, ht⟩ := hok h
  have ht : tally mode cfg g = .ok t := ht
  unfold checkUtilpower
  rw [ht]
  by_cases htable : t.Idle ∧ cfg.nCpufreqs = 0
  · exact .inr ⟨htable.2, bind_error.mpr (.inr ⟨t, rfl, if_pos htable⟩)⟩
  · by_cases hcut : t.Within cfg
    · exact .inl ⟨_, bind_ok.mpr ⟨t, rfl, (if_neg htable).trans (if_pos hcut)⟩⟩
    · exact .inl ⟨_, bind_ok.mpr ⟨t, rfl, (if_neg htable).trans (if_neg hcut)⟩⟩

theorem exists_first {P : ℕ → Prop} {i : ℕ} (h : P i) : ∃ j ≤ i, P j ∧ ∀ k < j, ¬ P k := by
  classical
  have hex : ∃ j, P j := ⟨i, h⟩
  exact ⟨Nat.find hex, Nat.find_min' hex h, Nat.find_spec hex, fun k hk => Nat.find_min hex hk⟩

/-- An evaluation ends the process only for a task that overruns its period, or at an empty table of
    levels. -/
theorem checkUtilpower_error {e : Halt} (h : checkUtilpower mode cfg g = .error e) :
    (∃ i < cfg.nTasks, g.Overruns cfg i ∧ e = g.periodExceeded cfg i) ∨
      cfg.nCpufreqs = 0 ∧ e = .memoryFault := by
  obtain ⟨hok, herr⟩ := checkUtilpower_spec mode cfg g
  by_cases hall : ∀ i < cfg.nTasks, ¬ g.Overruns cfg i
  · rcases hok hall with ⟨r, hr⟩ | ⟨htable, hr⟩
    · rw [hr] at h
      cases h
    · rw [hr] at h
      exact .inr ⟨htable, (Except.error.inj h).symm⟩
  · push Not at hall
    obtain ⟨i, hi, hbad⟩ := hall
    obtain ⟨j, hj, hjbad, hfirst⟩ := exists_first (P := fun i => g.Overruns cfg i) hbad
    have hlt : j < cfg.nTasks := Nat.lt_of_le_of_lt hj hi
    rw [herr j hlt hjbad hfirst] at h
    exact .inl ⟨j, hlt, hjbad, (Except.error.inj h).symm⟩

theorem checkUtilpower_isOk_iff (mode : Mode) (hf : 0 < cfg.nCpufreqs) :
    (∃ r, checkUtilpower mode cfg g = .ok r) ↔ ∀ i < cfg.nTasks, ¬ g.Overruns cfg i := by
  obtain ⟨hok, herr⟩ := checkUtilpower_spec mode cfg g
  refine ⟨?_, fun h => (hok h).resolve_right fun hno => by omega⟩
  rintro ⟨r, hr⟩ i hi hbad
  obtain ⟨j, hj, hjbad, hfirst⟩ := exists_first (P := fun i => g.Overruns cfg i) hbad
  rw [herr j (Nat.lt_of_le_of_lt hj hi) hjbad hfirst] at hr
  cases hr

/-! Without a task. -/

/-- Without a task no memory is used and nothing utilised. -/
theorem checkMemusage_of_no_task (h0 : cfg.nTasks = 0) (g : Gene) : checkMemusage cfg g = true := by
  have hzero : ∀ i, (List.replicate maxMems (0 : ℚ)).getD i 0 = 0 := by
    intro i
    rcases Nat.lt_or_ge i maxMems with h | h
    · rw [List.getD_eq_getElem _ _ (by simpa using h), List.getElem_replicate]
    · rw [List.getD_eq_default _ _ (by simpa using h)]
  rw [checkMemusage, memUsed, h0, List.range_zero, List.foldl_nil, List.all_eq_true]
  intro i _
  rw [hzero, Bool.not_eq_true', decide_eq_false_iff_not, not_lt]
  exact_mod_cast Nat.zero_le _

theorem checkUtilpower_of_no_task (mode : Mode) (h0 : cfg.nTasks = 0) (hf : 0 < cfg.nCpufreqs)
    (g : Gene) : ∃ g', checkUtilpower mode cfg g = .ok (decide (0 ≤ cfg.cutoff), g') := by
  have hno : ∀ i < cfg.nTasks, ¬ g.Overruns cfg i := fun i hi => by omega
  obtain ⟨⟨b, g'⟩, hg'⟩ := (checkUtilpower_isOk_iff mode hf).mpr hno
  have hwithin : (tallied mode cfg g).Within cfg ↔ 0 ≤ cfg.cutoff := by
    rw [tallied, h0]
    exact and_iff_right rfl
  refine ⟨g', ?_⟩
  rw [hg', (checkUtilpower_ok hg').1, decide_eq_decide.mpr hwithin]

/-- With nothing at all the process ends where the idle level is read. -/
theorem checkUtilpower_of_empty (mode : Mode) (h0 : cfg.nTasks = 0) (hf : cfg.nCpufreqs = 0)
    (g : Gene) : checkUtilpower mode cfg g = .error .memoryFault := by
  have ht : tally mode cfg g = .ok {} := by
    rw [tally, h0]
    rfl
  refine bind_error.mpr (.inr ⟨{}, ht, if_pos ⟨⟨rfl, ?_, rfl⟩, hf⟩⟩)
  norm_num

end Evaluations

/-! ### Lists -/

theorem sortGeneBy_error {key : Gene → ℚ} {p : Pop} {r : Links ℕ} {i : ℕ} {e : Halt}
    (h : sortGeneBy key p r i = .error e) : e = .endless := by
  unfold sortGeneBy at h
  dsimp only at h
  split at h
  · cases h
  · cases h
  · exact (Except.error.inj h).symm

/-- Sorting a gene in fails only if a list does not lead back to its head. -/
theorem sortGene_error {p : Pop} {i : ℕ} {e : Halt} (h : sortGene p i = .error e) :
    e = .endless := by
  rcases bind_error.mp h with h | ⟨_, _, h⟩
  · rcases bind_error.mp h with h | ⟨_, _, h⟩
    · exact sortGeneBy_error h
    · cases h
  · rcases bind_error.mp h with h | ⟨_, _, h⟩
    · rcases bind_error.mp h with h | ⟨_, _, h⟩
      · exact sortGeneBy_error h
      · cases h
    · rcases bind_error.mp h with h | ⟨_, _, h⟩
      · exact sortGeneBy_error h
      · cases h

/-- Selecting a gene stops with an empty range of draws, a position out of range, or lists that are not
    lists. -/
theorem selectGeneOf_reasons {cfg : Config} {p : Pop} {r : ℕ} {e : Halt}
    (h : selectGeneOf cfg p r = .error e) :
    e = .sigfpe ∨ e = .assertFailed ∨ e = .wildPointer ∨ e = .endless := by
  rcases bind_error.mp h with h | ⟨position, _, h⟩
  · rcases bind_error.mp h with h | ⟨alpha, _, h⟩
    · rw [getRandOf] at h
      split at h
      · exact .inl (Except.error.inj h).symm
      · cases h
    · dsimp only at h
      split at h
      · cases h
      · exact .inr (.inl (Except.error.inj h).symm)
  · split at h
    · cases h
    · split at h
      · cases h
      · exact .inr (.inr (.inl (Except.error.inj h).symm))
    · exact .inr (.inr (.inr (Except.error.inj h).symm))

/-! ### Rounds -/

section Rounds
variable {mode : Mode} {cfg : Config} {E : Halt → Prop}

/-- A round of `init_gene` stops in a draw, in the evaluation of a gene that fits into the memory, or
    in sorting. -/
theorem fails_initTry (hs : E .starved) {k : ℕ} {p : Pop} (hz : cfg.nMems = 0 → E .sigfpe)
    (hz' : cfg.nTasks = 0 ∨ cfg.nCpufreqs + cfg.nOffloadingratios = 0 → E .sigfpe)
    (heval : checkMemusage cfg (p.gene k) = true →
      ∀ e, checkUtilpower mode cfg (p.gene k) = .error e → E e)
    (hsort : ∀ g, checkUtilpower mode cfg (p.gene k) = .ok (true, g) →
      ∀ e, sortGene ((p.initLists k).setGene k g) k = .error e → E e) :
    Fails (initTry mode cfg k p) E := by
  rw [initTry]
  dsimp only
  split
  · exact (fails_balanceMemTypes hs hz _).bind fun _ _ => Fails.pure _
  · rename_i hcheck
    refine (Fails.lift (heval (Bool.eq_true_of_not_eq_false hcheck))).bind fun r hr => ?_
    obtain ⟨b, g⟩ := r
    cases b with
    | true => exact (Fails.lift (hsort g (returns_lift.mp hr))).bind fun _ _ => Fails.pure _
    | false => exact (fails_lowerUtilization hs hz' _).bind fun _ _ => Fails.pure _

/-- `do_crossover` stops with a point behind the tasks, in the evaluation of a child that fits into the
    memory, or in sorting. -/
theorem doCrossover_reasons {p : Pop} {w g1 g2 kr kc km : ℕ} {e : Halt}
    (h : doCrossover mode cfg p w g1 g2 kr kc km = .error e) :
    e = .memoryFault ∨ e = .endless ∨
      let p' := p.setGene w (inheritGene cfg (p.gene w) (p.gene g1) (p.gene g2) kr kc km)
      checkMemusage cfg (p'.gene w) = true ∧ checkUtilpower mode cfg (p'.gene w) = .error e := by
  rw [doCrossover] at h
  split at h
  · exact .inl (Except.error.inj h).symm
  · dsimp only at h
    split at h
    · cases h
    · rename_i hcheck
      rcases bind_error.mp h with h | ⟨r, _, h⟩
      · exact .inr (.inr ⟨Bool.eq_true_of_not_eq_false hcheck, h⟩)
      · split at h
        · cases h
        · split at h
          · cases h
          · rcases bind_error.mp h with h | ⟨_, _, h⟩
            · exact .inr (.inl (sortGene_error h))
            · cases h

end Rounds

end MutualEdge
