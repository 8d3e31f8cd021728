import MutualEdge.Completeness
import MutualEdge.GeneWise
import MutualEdge.Lib.Streams
import MutualEdge.Moduli
import MutualEdge.Ratios

/-! Whether `init_gene` comes to an end.

    Its loop is bounded, but `balance_mem_types` draws a memory type other than `max_type` until it gets
    one. With a single memory type there is none: if the tasks do not fit into it, the first gene is
    drawn for ever. Otherwise every call ends wherever the draws keep offering every memory type. -/

namespace MutualEdge
open Checks Choice Doubles

/-- The call of `get_rand_except` in `balance_mem_types`, if there is one, has a value to return. -/
def CanBalance (cfg : Config) (g : Gene) : Prop :=
  checkMemusage cfg g = false → 0 < g.taskattrsMem.count g.taskattrsMem.maxType →
    ∃ v < cfg.nMems, v ≠ g.taskattrsMem.maxType

/-- Wherever `init_gene` balances memory types it can, and on every stream of draws that keeps offering
    every memory type it inserts its gene or ends the process for one of the reasons `E`. -/
structure InitEnds (mode : Mode) (cfg : Config) (E : ℕ → Halt → Prop) : Prop where
  admissible : ∀ k p, (gaSystem mode cfg).Reachable (.trying k, p) → CanBalance cfg (p.gene k)
  ends : ∀ k p, (gaSystem mode cfg).Reachable (.fresh k, p) → k < cfg.nPops →
    ∀ s, Fair cfg.nMems s → Finishes s (initGene mode cfg k p) (fun _ => True) (E k)

/-- The FATAL behind the tries. -/
def GivesUp (k : ℕ) (e : Halt) : Prop := ∃ q, e = utilizationTooHigh k q

/-- A FATAL: that one, or the one in the evaluation of a gene. -/
def GivesUpOrOverruns (k : ℕ) (e : Halt) : Prop := GivesUp k e ∨ PeriodFatal e

/-- What the tasks of a fresh gene hold in memory, added up in doubles: all of them have the ratio at
    index `0`. -/
def localDemand (cfg : Config) : ℚ :=
  let localShare := Binary64.nearest (1.0 - Binary64.nearest (cfg.offloadingratio 0))
  (List.range cfg.nTasks).foldl (fun u i =>
    Binary64.nearest (u + Binary64.nearest (getTaskMemreq cfg i * localShare))) 0

/-- There is something to draw and evaluate: a task and no empty table, or no task, a cutoff that is not
    negative and a level to be idle at. -/
def Startable (cfg : Config) : Prop :=
  (cfg.nTasks = 0 ∧ 0 ≤ cfg.cutoff ∧ 0 < cfg.nCpufreqs) ∨
    (0 < cfg.nTasks ∧ 0 < cfg.nMems ∧ 0 < cfg.nClouds)

theorem Startable.cpufreqs_pos {cfg : Config} (hcfg : Accepted cfg) (h : Startable cfg) :
    0 < cfg.nCpufreqs := by
  rcases h with ⟨_, _, hf⟩ | ⟨ht, _⟩
  · exact hf
  · exact hcfg.cpufreqs_pos ht

theorem not_givesUpOrOverruns {k : ℕ} {e : Halt} (h : ∀ n fmt args, e ≠ .fatal n fmt args) :
    ¬ GivesUpOrOverruns k e := by
  rintro (⟨q, hq⟩ | hover)
  · exact h _ _ _ hq
  · exact not_periodFatal h hover

/-- There is a second memory type, or no need for one. -/
def Balanceable (cfg : Config) : Prop :=
  cfg.nMems ≠ 1 ∨ cfg.nTasks % 2 ^ 32 = 0 ∨ localDemand cfg ≤ (cfg.mem 0).maxCapacity

instance (cfg : Config) : Decidable (Balanceable cfg) := inferInstanceAs (Decidable (_ ∨ _ ∨ _))

/-! ### A single memory type -/

/-- Attributes of a single type, counted. -/
structure OneType (n : ℕ) (t : Taskattrs) : Prop where
  within : Within n 1 t.attrs
  maxType : t.maxType = 0
  count : t.count 0 = u32 n

/-- Counting tasks of type `0` on top of a counter. -/
theorem foldl_countAttr_zeros {l : List ℕ} (hl : ∀ a ∈ l, a < 1) {t : Taskattrs} {c : ℕ} {cs : List ℕ}
    (ht : t.nTasksPerType = u32 c :: cs) (hmax : t.maxType = 0) :
    (l.foldl countAttr t).maxType = 0 ∧ (l.foldl countAttr t).count 0 = u32 (c + l.length) := by
  induction l generalizing t c with
  | nil =>
    rw [Taskattrs.count, List.foldl_nil, ht]
    exact ⟨hmax, rfl⟩
  | cons a l ih =>
    obtain rfl : a = 0 := Nat.lt_one_iff.mp (hl a List.mem_cons_self)
    have hstep : countAttr t 0 = { t with nTasksPerType := u32 (c + 1) :: cs } := by
      have hmod : t.nTasksPerType.modify 0 (fun n => u32 (n + 1)) = u32 (c + 1) :: cs := by
        rw [ht, List.modify_zero_cons, u32, u32, u32, Nat.mod_add_mod]
      unfold countAttr
      rw [hmod]
      dsimp only
      rw [hmax, if_neg (Nat.lt_irrefl _)]
    have hrest := ih (fun b hb => hl b (List.mem_cons_of_mem _ hb)) (t := countAttr t 0) (c := c + 1)
      (by rw [hstep]) (by rw [hstep, hmax])
    rwa [Nat.add_assoc, Nat.add_comm 1, ← List.length_cons] at hrest

theorem setupTaskattrs_oneType {n : ℕ} {t : Taskattrs} (h : Within n 1 t.attrs) :
    OneType n (setupTaskattrs t) := by
  have hfold := foldl_countAttr_zeros h.lt (c := 0)
    (t := { t with nTasksPerType := List.replicate maxAttrtypes 0, maxType := 0 }) rfl rfl
  rw [Nat.zero_add, h.length] at hfold
  exact ⟨by simpa using h, hfold.1, hfold.2⟩

/-- There is nothing to balance with, so balancing only returns when it has nothing to do. -/
theorem OneType.balance {n : ℕ} {t t' : Taskattrs} (h : OneType n t)
    (hr : Returns (balanceTaskattrs 1 t) t') : u32 n = 0 ∧ t' = t := by
  unfold balanceTaskattrs at hr
  dsimp only at hr
  rw [h.maxType, h.count] at hr
  split at hr
  · obtain ⟨_, _, hr⟩ := hr.bind
    obtain ⟨v, hv, _⟩ := hr.bind
    have hspec := getRandExcept_spec hv
    omega
  · rename_i h0
    exact ⟨Nat.eq_zero_of_not_pos h0, (returns_pure.mp hr).symm⟩

section OneType
variable {mode : Mode} {cfg : Config}

/-- With one memory type no operation of a run changes its counter. -/
theorem oneType_kept (h1 : cfg.nMems = 1) :
    Kept mode cfg fun g => OneType cfg.nTasks g.taskattrsMem where
  assign {g g'} h := by
    obtain ⟨mem, hm, h⟩ := h.bind
    obtain ⟨cpufreq, _, h⟩ := h.bind
    obtain ⟨cloud, _, h⟩ := h.bind
    obtain rfl := returns_pure.mp h
    obtain ⟨attrs, hattrs, hm⟩ := hm.bind
    obtain rfl := returns_pure.mp hm
    exact setupTaskattrs_oneType (h1 ▸ drawAttrs_within hattrs)
  balance {g g'} hg h := by
    obtain ⟨t, ht, h⟩ := h.bind
    obtain rfl := returns_pure.mp h
    rw [h1] at ht
    rwa [(hg.balance ht).2]
  eval {g b g'} hg h := by
    rw [(checkUtilpower_ok h).2]
    exact hg
  lower {g g'} hg h := by
    rw [(lowerUtilization_cases h).mem]
    exact hg
  inherit {newborn gene1 gene2 kr kc km} _ hg1 hg2 _ _ hm :=
    setupTaskattrs_oneType (hg1.within.splice hg2.within hm)

/-- A gene fits into the only memory type if the tasks do. -/
theorem checkMemusage_oneType (h1 : cfg.nMems = 1) {g : Gene} (hg : g.Shaped cfg) :
    checkMemusage cfg g = true ↔ localDemand cfg ≤ (cfg.mem 0).maxCapacity := by
  have hused : (memUsed Binary64.nearest cfg g).getD 0 0 = localDemand cfg := by
    rw [memUsed_getD Binary64.nearest cfg g (by decide), memHeld, localDemand]
    refine List.foldl_ext _ _ _ fun u i hi => ?_
    have hattr := hg.mem.getD_lt (List.mem_range.mp hi)
    rw [if_pos (show g.taskattrsMem.attr i = 0 by unfold Taskattrs.attr; omega), memDemand,
      hg.ratio_attr]
  rw [checkMemusage, h1, List.range_one, List.all_cons, List.all_nil, Bool.and_true, hused,
    Bool.not_eq_true', decide_eq_false_iff_not, not_lt]

end OneType

/-! ### Draws that go on -/

section Finishes
variable {cfg : Config} {s : ℕ → ℕ} {E : Halt → Prop}

theorem finishes_getRand {maxValue : ℕ} (h : 0 < maxValue) :
    Finishes s (getRand maxValue) (fun v => v < maxValue) E := by
  refine Finishes.next.bind fun r _ _ => Finishes.lift (fun v hv => getRandOf_lt hv) fun e he => ?_
  rw [getRandOf_of_pos h] at he
  cases he

/-- Some value other than the excluded one comes up. -/
theorem finishes_getRandExcept {maxValue exValue : ℕ} (hs : Fair maxValue s)
    (h : ∃ v < maxValue, v ≠ exValue) :
    Finishes s (getRandExcept maxValue exValue) (fun _ => True) E := by
  obtain ⟨v, hv, hne⟩ := h
  have hpos : 0 < maxValue := Nat.zero_lt_of_lt hv
  refine Finishes.retry (fun i => ?_) (fun _ _ _ => trivial) fun d e he => ?_
  · obtain ⟨k, hk, hsk⟩ := hs v hv i
    refine ⟨k, hk, fun hnone => ?_⟩
    obtain ⟨w, hw, hnone⟩ := bind_ok.mp hnone
    rw [getRandOf_of_pos hpos, Except.ok.injEq] at hw
    rw [← hw, hsk, if_pos hne] at hnone
    cases pure_ok.mp hnone
  · rcases bind_error.mp he with he | ⟨_, _, he⟩
    · rw [getRandOf_of_pos hpos] at he
      cases he
    · cases he

theorem finishes_drawAttrs {maxValue n : ℕ} (h : 0 < n → 0 < maxValue) :
    Finishes s (drawAttrs maxValue n) (fun _ => True) E := by
  induction n with
  | zero => exact Finishes.pure trivial
  | succ n ih =>
    refine (finishes_getRand (h n.succ_pos)).bind fun _ _ _ => ?_
    exact (ih fun _ => h n.succ_pos).bind fun _ _ _ => Finishes.pure trivial

theorem finishes_assignGene (hm : 0 < cfg.nTasks → 0 < cfg.nMems)
    (hf : 0 < cfg.nTasks → 0 < cfg.nCpufreqs) (hc : 0 < cfg.nTasks → 0 < cfg.nClouds) (g : Gene) :
    Finishes s (assignGene cfg g) (fun _ => True) E := by
  have hattrs : ∀ {maxValue : ℕ} {t : Taskattrs}, (0 < cfg.nTasks → 0 < maxValue) →
      Finishes s (assignTaskattrs cfg.nTasks maxValue t) (fun _ => True) E := fun h =>
    (finishes_drawAttrs h).bind fun _ _ _ => Finishes.pure trivial
  refine (hattrs hm).bind fun _ _ _ => (hattrs hf).bind fun _ _ _ => (hattrs hc).bind fun _ _ _ => ?_
  exact Finishes.pure trivial

theorem finishes_balanceMemTypes (hs : Fair cfg.nMems s) {g : Gene}
    (h : 0 < g.taskattrsMem.count g.taskattrsMem.maxType →
      ∃ v < cfg.nMems, v ≠ g.taskattrsMem.maxType) :
    Finishes s (balanceMemTypes cfg g) (fun _ => True) E := by
  refine Finishes.bind (P := fun _ => True) ?_ fun _ _ _ => Finishes.pure trivial
  unfold balanceTaskattrs
  dsimp only
  split
  · rename_i hpos
    refine (finishes_getRand hpos).bind fun _ _ _ => ?_
    exact (finishes_getRandExcept hs (h hpos)).bind fun _ _ _ => Finishes.pure trivial
  · exact Finishes.pure trivial

theorem finishes_lowerUtilizationByAttr {n : ℕ} (hn : 0 < n) (t : Taskattrs) :
    Finishes s (lowerUtilizationByAttr n t) (fun _ => True) E := by
  refine (finishes_getRand hn).bind fun idxOrg _ _ => ?_
  split
  · exact Finishes.pure trivial
  · exact Finishes.pure trivial

theorem finishes_lowerEither {first second : Gene → Rand (Bool × Gene)}
    (h1 : ∀ g, Finishes s (first g) (fun _ => True) E)
    (h2 : ∀ g, Finishes s (second g) (fun _ => True) E) (g : Gene) :
    Finishes s (lowerEither first second g) (fun _ => True) E := by
  refine (h1 g).bind fun r _ _ => ?_
  split
  · exact Finishes.pure trivial
  · exact (h2 _).bind fun _ _ _ => Finishes.pure trivial

theorem finishes_lowerUtilization (ht : 0 < cfg.nTasks) (hf : 0 < cfg.nCpufreqs) (g : Gene) :
    Finishes s (lowerUtilization cfg g) (fun _ => True) E := by
  have hcpufreq : ∀ g, Finishes s (lowerCpufreq cfg g) (fun _ => True) E := fun _ =>
    (finishes_lowerUtilizationByAttr ht _).bind fun _ _ _ => Finishes.pure trivial
  have hratio : ∀ g, Finishes s (lowerOffloadingratio cfg g) (fun _ => True) E := fun _ =>
    (finishes_lowerUtilizationByAttr ht _).bind fun _ _ _ => Finishes.pure trivial
  refine (finishes_getRand (by omega)).bind fun r _ _ => ?_
  split
  · exact finishes_lowerEither hcpufreq hratio g
  · exact finishes_lowerEither hratio hcpufreq g

end Finishes

/-! ### Initialisation -/

section Init
variable {mode : Mode} {cfg : Config}

/-- A round of `init_gene` that can balance comes to an end. -/
theorem finishes_initTry {s : ℕ → ℕ} {E : Halt → Prop} (hcfg : Accepted cfg) (hd : Startable cfg)
    (hE : NoneOverruns cfg ∨ ∀ e, PeriodFatal e → E e) (hs : Fair cfg.nMems s) {k : ℕ} {p : Pop}
    (hinv : GaInv mode cfg (.trying k, p)) (hcan : CanBalance cfg (p.gene k)) :
    Finishes s (initTry mode cfg k p) (fun _ => True) E := by
  have hgene : (p.initLists k).gene k = p.gene k := rfl
  rw [initTry]
  dsimp only
  rw [hgene]
  split
  · rename_i hcheck
    exact (finishes_balanceMemTypes hs (hcan hcheck)).bind fun _ _ _ => Finishes.pure trivial
  · rename_i hcheck
    have hm := Bool.eq_true_of_not_eq_false hcheck
    refine Finishes.bind (P := fun r => checkUtilpower mode cfg (p.gene k) = .ok r)
      (Finishes.lift (fun _ hr => hr) ?_) ?_
    · intro e he
      rcases checkUtilpower_error he with ⟨i, hi, hbad, rfl⟩ | ⟨hf, _⟩
      · rcases hE with hnone | hE
        · exact absurd hbad (hnone _ (hinv.inWork k rfl).2 hm i hi)
        · exact hE _ (periodFatal_periodExceeded _ _)
      · exact absurd hf (Nat.ne_of_gt (hd.cpufreqs_pos hcfg))
    · intro r hr _
      split
      · obtain ⟨q, hq⟩ := sortGene_ready hinv r.2
        rw [hq]
        exact (Finishes.lift (P := fun _ => True) (fun _ _ => trivial) (by simp)).bind
          fun _ _ _ => Finishes.pure trivial
      · rename_i hfalse
        have ht : 0 < cfg.nTasks := by
          rcases hd with ⟨h0, hcut, hf⟩ | ⟨ht, _⟩
          · -- without a task the evaluation accepts
            obtain ⟨g', hg'⟩ := checkUtilpower_of_no_task mode h0 hf (p.gene k)
            rw [hr, Except.ok.injEq] at hg'
            rw [hg', decide_eq_true hcut] at hfalse
            exact absurd rfl hfalse
          · exact ht
        exact (finishes_lowerUtilization ht (hcfg.cpufreqs_pos ht) _).bind
          fun _ _ _ => Finishes.pure trivial

/-- Balancing a single memory type that the tasks do not fit into: no draws end the round. -/
theorem initTry_starves (mode : Mode) (hn : 0 < cfg.nPops) (ht : 0 < cfg.nTasks) (hf : 0 < cfg.nCpufreqs)
    (h : ¬ Balanceable cfg) {g : Gene} (hg : Returns (assignGene cfg ((emptyPop cfg.nPops).gene 0)) g) :
    Fails (initTry mode cfg 0 ((emptyPop cfg.nPops).setGene 0 g)) (· = .starved) ∧
      ∀ r, ¬ Returns (initTry mode cfg 0 ((emptyPop cfg.nPops).setGene 0 g)) r := by
  unfold Balanceable at h
  push Not at h
  obtain ⟨h1, hmod, hover⟩ := h
  have hinv : GaInv mode cfg (.trying 0, (emptyPop cfg.nPops).setGene 0 g) := gaInv_init.assign hn hg
  have hlen := hinv.inWork_lt (w := 0) rfl
  have hgene : ((emptyPop cfg.nPops).setGene 0 g).gene 0 = g :=
    Pop.gene_setGene_self (by simpa [emptyPop] using hn) g
  have hnofit : ¬ checkMemusage cfg (((emptyPop cfg.nPops).setGene 0 g).gene 0) = true := fun hm =>
    absurd ((checkMemusage_oneType h1 (hinv.inWork 0 rfl).2).mp hm) (not_le.mpr hover)
  have hkept : Kept mode cfg fun g => OneType cfg.nTasks g.taskattrsMem := oneType_kept h1
  have hone : OneType cfg.nTasks g.taskattrsMem := hkept.assign hg
  refine ⟨fails_initTry (E := (· = .starved)) rfl (by omega) (by omega)
    (fun hm => absurd hm hnofit) ?_, ?_⟩
  · intro g' _ e he
    obtain ⟨q, hq⟩ := sortGene_ready hinv g'
    rw [hq] at he
    cases he
  · rintro ⟨done, q⟩ hr
    rcases initTry_cases hlen hr with ⟨g', _, hbal, _⟩ | ⟨_, _, hm, _⟩
    · obtain ⟨t, ht, _⟩ := hbal.bind
      rw [hgene, h1] at ht
      exact hmod (hone.balance ht).1
    · exact hnofit hm

/-- So the first gene is drawn for ever. -/
theorem initGene_starves (mode : Mode) (hcfg : Accepted cfg) (hn : 0 < cfg.nPops) (hc : 0 < cfg.nClouds)
    (h : ¬ Balanceable cfg) (ds : List ℕ) :
    initGene mode cfg 0 (emptyPop cfg.nPops) ds = .error .starved := by
  have hbal := h
  unfold Balanceable at hbal
  push Not at hbal
  obtain ⟨h1, hmod, _⟩ := hbal
  have ht : 0 < cfg.nTasks := Nat.pos_of_ne_zero fun h0 => hmod (by rw [h0]; rfl)
  have hf := hcfg.cpufreqs_pos ht
  have hfails : Fails (initGene mode cfg 0 (emptyPop cfg.nPops)) (· = .starved) ∧
      ∀ p, ¬ Returns (initGene mode cfg 0 (emptyPop cfg.nPops)) p := by
    refine ⟨?_, ?_⟩
    · refine Fails.bind (fails_assignGene (E := (· = .starved)) rfl (fun _ h => ?_) _) fun g hg => ?_
      · omega
      · obtain ⟨hfail, hnever⟩ := initTry_starves mode hn ht hf h hg
        exact hfail.bind fun r hr => absurd hr (hnever r)
    · intro p hp
      obtain ⟨g, hg, hp⟩ := hp.bind
      obtain ⟨r, hr, _⟩ := hp.bind
      exact (initTry_starves mode hn ht hf h hg).2 r hr
  cases hrun : initGene mode cfg 0 (emptyPop cfg.nPops) ds with
  | ok r => exact absurd ⟨ds, r.2, hrun⟩ (hfails.2 r.1)
  | error e => rw [hfails.1 ds e hrun]

/-- With nothing to draw for and no level to be idle at, the first evaluation ends the process. -/
theorem initGene_faults (mode : Mode) (h0 : cfg.nTasks = 0) (hf : cfg.nCpufreqs = 0) :
    Stops (initGene mode cfg 0 (emptyPop cfg.nPops)) [] .memoryFault := by
  have hnil : ∀ bound, Within cfg.nTasks bound [] := fun _ => ⟨h0.symm, by simp⟩
  obtain ⟨g, hg, _⟩ := assignGene_reads (hnil _) (hnil _) (hnil _) ((emptyPop cfg.nPops).gene 0)
  have htry : Stops (initTry mode cfg 0 ((emptyPop cfg.nPops).setGene 0 g)) [] .memoryFault := by
    rw [initTry]
    dsimp only
    rw [if_neg (by rw [checkMemusage_of_no_task h0]; simp), checkUtilpower_of_empty mode h0 hf]
    exact (Stops.lift rfl).bind _
  exact hg.bind_stops htry.attempts

/-- Where draws from an empty table come first, or nothing can be balanced, `init_gene` does not end as
    it should. -/
theorem InitEnds.startable {E : ℕ → Halt → Prop} (hcfg : Accepted cfg) (h : InitEnds mode cfg E)
    (hn : 0 < cfg.nPops) (hE : ∀ e, E 0 e → e ≠ .sigfpe ∧ e ≠ .memoryFault ∧ e ≠ .starved) :
    Startable cfg ∧ Balanceable cfg := by
  have hnot : ∀ {ds e}, Stops (initGene mode cfg 0 (emptyPop cfg.nPops)) ds e → E 0 e := by
    intro ds e hds
    have hfin := h.ends 0 (emptyPop cfg.nPops) (.of_init _ rfl) hn _
      ((fair_id cfg.nMems).startingWith ds)
    exact Finishes.stops (E := E 0) id hfin hds
  have hd : InitDrawable cfg := by
    by_contra hd
    obtain ⟨ds, hds⟩ := initGene_stops mode hcfg hd
    exact (hE _ (hnot hds)).1 rfl
  have hstart : Startable cfg := by
    rcases hd with ⟨h0, hcut⟩ | htables
    · rcases Nat.eq_zero_or_pos cfg.nCpufreqs with hf | hf
      · exact absurd rfl (hE _ (hnot (initGene_faults mode h0 hf))).2.1
      · exact .inl ⟨h0, hcut.resolve_right (Nat.ne_of_gt hf), hf⟩
    · exact .inr htables
  refine ⟨hstart, ?_⟩
  by_contra hbal
  have hclouds : 0 < cfg.nClouds := by
    rcases hstart with ⟨h0, _⟩ | ⟨_, _, hc⟩
    · exact absurd (.inr (.inl (by rw [h0]; rfl))) hbal
    · exact hc
  exact (hE _ (@hnot [] _ fun rest => initGene_starves mode hcfg hn hclouds hbal _)).2.2 rfl

/-- Where they do not, it does, if ending in the evaluation of a gene is as it should be or does not
    happen. -/
theorem InitEnds.of_startable {E : ℕ → Halt → Prop} (hcfg : Accepted cfg) (hd : Startable cfg)
    (hbal : Balanceable cfg) (hgives : ∀ k e, GivesUp k e → E k e)
    (hE : NoneOverruns cfg ∨ ∀ k e, PeriodFatal e → E k e) : InitEnds mode cfg E := by
  have hadm : ∀ k p, (gaSystem mode cfg).Reachable (.trying k, p) → CanBalance cfg (p.gene k) := by
    intro k p hp hm hpos
    have hinv := reachable_gaInv hp
    have hshaped := (hinv.inWork k rfl).2
    by_cases h1 : cfg.nMems = 1
    · rcases hbal.resolve_left (not_not.mpr h1) with hmod | hfit
      · have hone := (oneType_kept h1).reachable hp k (.inr rfl)
        rw [hone.maxType, hone.count, u32, hmod] at hpos
        exact absurd hpos (Nat.lt_irrefl 0)
      · rw [(checkMemusage_oneType h1 hshaped).mpr hfit] at hm
        cases hm
    · rcases hd with ⟨h0, _⟩ | ⟨_, hmems, _⟩
      · rw [checkMemusage_of_no_task h0] at hm
        cases hm
      · by_cases hzero : (p.gene k).taskattrsMem.maxType = 0
        · exact ⟨1, by omega, by omega⟩
        · exact ⟨0, by omega, Ne.symm hzero⟩
  refine ⟨hadm, fun k p hp hk s hs => ?_⟩
  refine Finishes.bind (finishes_assignGene ?_ ?_ ?_ _) fun g _ hg => ?_
  · exact fun ht => (hd.resolve_left fun h0 => by omega).2.1
  · exact hcfg.cpufreqs_pos
  · exact fun ht => (hd.resolve_left fun h0 => by omega).2.2
  · refine Finishes.attempts (I := fun p => (gaSystem mode cfg).Reachable (.trying k, p))
      (fun q => hgives k _ ⟨q, rfl⟩) ?_ ?_ ?_
    · intro q hq
      exact finishes_initTry hcfg hd (hE.imp_right fun h => h k) hs (reachable_gaInv hq) (hadm k q hq)
    · intro q q' hq hr
      exact hq.steps (.single (.repair hr))
    · exact hp.steps (.single (.assign hk hg))

theorem InitEnds.of_no_pops {E : ℕ → Halt → Prop} (h0 : cfg.nPops = 0) : InitEnds mode cfg E := by
  refine ⟨fun k p hp => ?_, fun k p _ hk => absurd hk (by omega)⟩
  have hk := ((reachable_gaInv hp).inWork k rfl).1
  omega

end Init

/-- `smallConf` with tasks that need more memory than its only memory type has. -/
def overConf : Config :=
  smallConfOf [⟨1, 1000, 4000, 6000, 1 / 2, 500, 100, 100, 0⟩,
    ⟨2, 2000, 8000, 8000, 1 / 4, 500, 100, 100, 0⟩] [0]

theorem overConf_accepted : Accepted overConf :=
  ⟨smallFile [⟨"1000 4000 6000 0.5 500 100 100 0", some ⟨0, 1000, 4000, 6000, 1 / 2, 500, 100, 100, 0⟩⟩,
    ⟨"2000 8000 8000 0.25 500 100 100 0", some ⟨0, 2000, 8000, 8000, 1 / 4, 500, 100, 100, 0⟩⟩]
    [⟨"0", some 0⟩], by decide +kernel⟩

end MutualEdge
