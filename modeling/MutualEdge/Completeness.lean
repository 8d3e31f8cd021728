import Mathlib.Algebra.BigOperators.Group.List.Basic
import Mathlib.Algebra.Order.BigOperators.Group.Finset
import Mathlib.Data.Nat.ModEq
import Mathlib.Tactic.Linarith
import Mathlib.Tactic.Positivity
import MutualEdge.Overruns

/-! What the repairs of `init_gene` find.

    Once the memory types are in order, every failed round lowers one frequency attribute by one, which
    never raises the utilisation. The loop therefore ends, after at most one round more than there is to
    lower, at attributes within the cutoff whenever the fastest ones are. -/

namespace MutualEdge
open Checks Choice Doubles

/-! ### One repair -/

/-- Exactly one of the first `n` attributes is lowered, by one. -/
def LowersOne (n : ℕ) (attrs attrs' : List ℕ) : Prop :=
  ∃ i < n, 0 < attrs.getD i 0 ∧ attrs' = attrs.set i (attrs.getD i 0 - 1)

theorem LowersOne.le {n : ℕ} {l l' : List ℕ} (h : LowersOne n l l') (j : ℕ) :
    l'.getD j 0 ≤ l.getD j 0 := by
  obtain ⟨i, _, _, rfl⟩ := h
  rcases Nat.lt_or_ge j l.length with hj | hj
  · rw [List.getD_eq_getElem _ _ (by simpa using hj), List.getElem_set]
    split
    · rename_i hij
      rw [hij]
      exact Nat.sub_le _ _
    · rw [List.getD_eq_getElem _ _ hj]
  · rw [List.getD_eq_default _ _ (by simpa using hj)]
    exact Nat.zero_le _

/-- There is one less to lower. -/
theorem LowersOne.sum {n : ℕ} {l l' : List ℕ} (h : LowersOne n l l') : l'.sum + 1 = l.sum := by
  obtain ⟨i, _, hpos, rfl⟩ := h
  have hi : i < l.length := by
    by_contra hge
    rw [List.getD_eq_default _ _ (not_lt.mp hge)] at hpos
    exact absurd hpos (Nat.lt_irrefl 0)
  rw [List.getD_eq_getElem _ _ hi] at hpos ⊢
  have hsplit : l.sum = (l.take i).sum + (l[i] + (l.drop (i + 1)).sum) := by
    rw [← List.sum_cons, ← List.drop_eq_getElem_cons hi, ← List.sum_append, List.take_append_drop]
  rw [List.sum_set, if_pos hi, hsplit]
  omega

/-- A scan that finds nothing has seen only zeroes. -/
theorem scanPositive_none {attrs : List ℕ} {n idxOrg k idx : ℕ} (hk : k ≤ n) (hidx : idx < n)
    (horg : (idx + k) % n = idxOrg) (h : scanPositive attrs n idxOrg k idx = none) :
    ∀ j < k, attrs.getD ((idx + j) % n) 0 = 0 := by
  induction k generalizing idx with
  | zero => exact fun j hj => absurd hj (Nat.not_lt_zero j)
  | succ k ih =>
    have hn : 0 < n := Nat.zero_lt_of_lt hidx
    rw [scanPositive] at h
    split at h
    · cases h
    · rename_i hzero
      have hidx0 : attrs.getD ((idx + 0) % n) 0 = 0 := by
        rw [Nat.add_zero, Nat.mod_eq_of_lt hidx]
        omega
      have hshift : ∀ j, ((idx + 1) % n + j) % n = (idx + (j + 1)) % n := by
        intro j
        rw [Nat.mod_add_mod, Nat.add_assoc, Nat.add_comm 1 j]
      intro j hj
      cases j with
      | zero => exact hidx0
      | succ j =>
        dsimp only at h
        split at h
        · -- the scan is back at its start, so this was the last index
          rename_i hback
          have hmod : (idx + 1 + k) % n = (idx + 1 + 0) % n := by
            rw [Nat.add_zero, hback, ← horg, Nat.add_assoc, Nat.add_comm 1 k]
          have hk0 : k % n = 0 % n := Nat.ModEq.add_left_cancel' (idx + 1) hmod
          rw [Nat.mod_eq_of_lt (by omega), Nat.zero_mod] at hk0
          omega
        · rw [← hshift j]
          exact ih (by omega) (Nat.mod_lt _ hn) ((hshift k).trans horg) h j (by omega)

theorem scanPositive_lt {attrs : List ℕ} {n idxOrg k idx i : ℕ} (hidx : idx < n)
    (h : scanPositive attrs n idxOrg k idx = some i) : i < n := by
  induction k generalizing idx with
  | zero => cases h
  | succ k ih =>
    rw [scanPositive] at h
    split at h
    · exact Option.some.inj h ▸ hidx
    · dsimp only at h
      split at h
      · cases h
      · exact ih (Nat.mod_lt _ (Nat.zero_lt_of_lt hidx)) h

/-- Wherever it starts, the scan goes round all the tasks. -/
theorem scanPositive_complete {attrs : List ℕ} {n idxOrg : ℕ} (hidx : idxOrg < n)
    (h : scanPositive attrs n idxOrg n idxOrg = none) {i : ℕ} (hi : i < n) :
    attrs.getD i 0 = 0 := by
  have hround : (idxOrg + (i + (n - idxOrg)) % n) % n = i := by
    rw [Nat.add_mod_mod, show idxOrg + (i + (n - idxOrg)) = i + n by omega, Nat.add_mod_right,
      Nat.mod_eq_of_lt hi]
  have hzero := scanPositive_none le_rfl hidx (by rw [Nat.add_mod_right, Nat.mod_eq_of_lt hidx]) h
    _ (Nat.mod_lt (i + (n - idxOrg)) (Nat.zero_lt_of_lt hi))
  rwa [hround] at hzero

/-- `lower_utilization_by_attr` lowers one attribute by one unless there is none to lower. -/
theorem lowerUtilizationByAttr_cases {n : ℕ} {t t' : Taskattrs} {b : Bool}
    (h : Returns (lowerUtilizationByAttr n t) (b, t')) :
    (b = true ∧ LowersOne n t.attrs t'.attrs) ∨ (b = false ∧ t' = t ∧ ∀ i < n, t.attr i = 0) := by
  obtain ⟨idxOrg, hidx, h⟩ := h.bind
  have hlt := getRand_lt hidx
  split at h
  · rename_i i hi
    obtain ⟨rfl, rfl⟩ := Prod.mk.inj (returns_pure.mp h)
    exact .inl ⟨rfl, i, scanPositive_lt hlt hi, scanPositive_pos hi, rfl⟩
  · rename_i hnone
    obtain ⟨rfl, rfl⟩ := Prod.mk.inj (returns_pure.mp h)
    exact .inr ⟨rfl, rfl, fun i hi => scanPositive_complete hlt hnone hi⟩

/-- What `lower_utilization` does to a gene. -/
inductive Lowering (cfg : Config) (g : Gene) : Gene → Prop where
  | cpufreq {t : Taskattrs} (h : LowersOne cfg.nTasks g.taskattrsCpufreq.attrs t.attrs) :
      Lowering cfg g { g with taskattrsCpufreq := t }
  | ratio {t : Taskattrs} (h : LowersOne cfg.nTasks g.taskattrsOffloadingratio.attrs t.attrs) :
      Lowering cfg g { g with taskattrsOffloadingratio := t }
  | none (hf : ∀ i < cfg.nTasks, g.taskattrsCpufreq.attr i = 0)
      (hr : ∀ i < cfg.nTasks, g.taskattrsOffloadingratio.attr i = 0) : Lowering cfg g g

section Repair
variable {cfg : Config} {g g' : Gene}

theorem lowerCpufreq_cases {b : Bool} (h : Returns (lowerCpufreq cfg g) (b, g')) :
    (b = true ∧ Lowering cfg g g') ∨
      (b = false ∧ g' = g ∧ ∀ i < cfg.nTasks, g.taskattrsCpufreq.attr i = 0) := by
  obtain ⟨⟨c, t⟩, ht, h⟩ := h.bind
  obtain ⟨rfl, rfl⟩ := Prod.mk.inj (returns_pure.mp h)
  rcases lowerUtilizationByAttr_cases ht with ⟨rfl, hone⟩ | ⟨rfl, rfl, hzero⟩
  · exact .inl ⟨rfl, .cpufreq hone⟩
  · exact .inr ⟨rfl, rfl, hzero⟩

theorem lowerOffloadingratio_cases {b : Bool} (h : Returns (lowerOffloadingratio cfg g) (b, g')) :
    (b = true ∧ Lowering cfg g g') ∨
      (b = false ∧ g' = g ∧ ∀ i < cfg.nTasks, g.taskattrsOffloadingratio.attr i = 0) := by
  obtain ⟨⟨c, t⟩, ht, h⟩ := h.bind
  obtain ⟨rfl, rfl⟩ := Prod.mk.inj (returns_pure.mp h)
  rcases lowerUtilizationByAttr_cases ht with ⟨rfl, hone⟩ | ⟨rfl, rfl, hzero⟩
  · exact .inl ⟨rfl, .ratio hone⟩
  · exact .inr ⟨rfl, rfl, hzero⟩

/-- Lowering by the one and else by the other does nothing only if both find nothing. -/
theorem lowerEither_cases {L : Gene → Prop} {P Q : Prop} {first second : Gene → Rand (Bool × Gene)}
    (h1 : ∀ {b g₁}, Returns (first g) (b, g₁) → (b = true ∧ L g₁) ∨ (b = false ∧ g₁ = g ∧ P))
    (h2 : ∀ {b g₂}, Returns (second g) (b, g₂) → (b = true ∧ L g₂) ∨ (b = false ∧ g₂ = g ∧ Q))
    (hnone : P → Q → L g) (h : Returns (lowerEither first second g) g') : L g' := by
  obtain ⟨⟨b, g₁⟩, hfirst, hrest⟩ := h.bind
  rcases h1 hfirst with ⟨rfl, hlow⟩ | ⟨rfl, hself, hP⟩
  · rw [if_pos rfl] at hrest
    exact returns_pure.mp hrest ▸ hlow
  · rw [if_neg Bool.false_ne_true] at hrest
    obtain ⟨⟨b, g₂⟩, hsecond, hend⟩ := hrest.bind
    rw [← returns_pure.mp hend]
    rcases h2 (hself ▸ hsecond) with ⟨_, hlow⟩ | ⟨_, hself', hQ⟩
    · exact hlow
    · exact hself' ▸ hnone hP hQ

/-- In either order, and from any start, something is lowered unless there is nothing to lower. -/
theorem lowerUtilization_cases (h : Returns (lowerUtilization cfg g) g') : Lowering cfg g g' := by
  obtain ⟨r, _, h⟩ := h.bind
  split at h
  · exact lowerEither_cases lowerCpufreq_cases lowerOffloadingratio_cases .none h
  · exact lowerEither_cases lowerOffloadingratio_cases lowerCpufreq_cases
      (fun hr hf => .none hf hr) h

end Repair

/-! ### Utilisation -/

/-- What task `i` asks of the CPU at scale `1`, as a share of its period. -/
def taskLoad (mode : Mode) (cfg : Config) (i memType : ℕ) : ℚ :=
  match mode with
  | .localOnly =>
    (cfg.task i).wcet * (1 / (cfg.mem memType).wcetScale) / (cfg.task i).period
  | .offloadingOnly => netcomtime cfg i / (cfg.task i).period

/-- The utilisation `check_utilpower` sums up. -/
def Gene.utilNew (mode : Mode) (cfg : Config) (g : Gene) : ℚ := (tallied mode cfg g).utilNew

/-- The gene with every task at the fastest level. -/
def Gene.fastest (cfg : Config) (g : Gene) : Gene :=
  { g with taskattrsCpufreq :=
      setupTaskattrs { g.taskattrsCpufreq with attrs := List.replicate cfg.nTasks 0 } }

section Utilisation
variable {mode : Mode} {cfg : Config} {g g' : Gene}

theorem taskEval_util (mode : Mode) (cfg : Config) (i m c f : ℕ) :
    (taskEval mode cfg i m c f).util =
      1 / (cfg.cpufreq f).wcetScale * taskLoad mode cfg i m := by
  cases mode with
  | localOnly =>
    simp only [taskEval, Mode.realOffloading, wcetScaled, taskLoad]
    norm_num
    ring
  | offloadingOnly =>
    simp only [taskEval, Mode.realOffloading, wcetScaled, taskLoad]
    norm_num
    ring

theorem utilNew_eq (mode : Mode) (cfg : Config) (g : Gene) : g.utilNew mode cfg =
    ∑ i ∈ Finset.range cfg.nTasks, 1 / (cfg.cpufreq (g.taskattrsCpufreq.attr i)).wcetScale *
      taskLoad mode cfg i (g.taskattrsMem.attr i) := by
  rw [Gene.utilNew, tallied_utilNew]
  exact Finset.sum_congr rfl fun i _ => taskEval_util mode cfg i _ _ _

theorem attr_replicate (n i : ℕ) : (List.replicate n 0).getD i 0 = 0 := by
  rcases Nat.lt_or_ge i n with hi | hi <;> simp [hi]

theorem fastest_attr (cfg : Config) (g : Gene) (i : ℕ) :
    (g.fastest cfg).taskattrsCpufreq.attr i = 0 := by
  rw [Gene.fastest, Taskattrs.attr, setupTaskattrs_attrs]
  exact attr_replicate cfg.nTasks i

/-- Levels are in the order of decreasing scale. -/
theorem wcetScale_le (hdec : cfg.cpufreqs.Pairwise fun f g => g.wcetScale ≤ f.wcetScale) {f f' : ℕ}
    (hle : f ≤ f') (hf' : f' < cfg.nCpufreqs) :
    (cfg.cpufreq f').wcetScale ≤ (cfg.cpufreq f).wcetScale := by
  rcases Nat.lt_or_eq_of_le hle with hlt | rfl
  · have hf'' : f' < cfg.cpufreqs.length := hf'
    have hf : f < cfg.cpufreqs.length := Nat.lt_trans hlt hf''
    rw [Config.cpufreq, Config.cpufreq, List.getD_eq_getElem _ _ hf, List.getD_eq_getElem _ _ hf'']
    exact List.pairwise_iff_getElem.mp hdec f f' hf hf'' hlt
  · exact le_rfl

/-- The attributes of the gene select rows of the tables. -/
structure Gene.InRows (cfg : Config) (g : Gene) : Prop where
  mem : ∀ i < cfg.nTasks, g.taskattrsMem.attr i < cfg.nMems
  cpufreq : ∀ i < cfg.nTasks, g.taskattrsCpufreq.attr i < cfg.nCpufreqs

theorem Gene.Shaped.inRows (h : g.Shaped cfg) : g.InRows cfg :=
  ⟨fun _ hi => h.mem.getD_lt hi, fun _ hi => h.cpufreq.getD_lt hi⟩

section Meeting
variable (hdec : cfg.cpufreqs.Pairwise fun f g => g.wcetScale ≤ f.wcetScale)
  (hmeets : ∀ i < cfg.nTasks, ∀ m < cfg.nMems, ∀ f < cfg.nCpufreqs, Meets cfg i m f)
include hdec hmeets

/-- Faster levels do not raise the utilisation. -/
theorem utilNew_le (hg : g.InRows cfg)
    (hmem : ∀ i < cfg.nTasks, g'.taskattrsMem.attr i = g.taskattrsMem.attr i)
    (hle : ∀ i < cfg.nTasks, g'.taskattrsCpufreq.attr i ≤ g.taskattrsCpufreq.attr i) :
    g'.utilNew mode cfg ≤ g.utilNew mode cfg := by
  rw [utilNew_eq, utilNew_eq]
  refine Finset.sum_le_sum fun i hi => ?_
  have hi := Finset.mem_range.mp hi
  have hmeet := hmeets i hi _ (hg.mem i hi) _ (hg.cpufreq i hi)
  have hload : 0 ≤ taskLoad mode cfg i (g.taskattrsMem.attr i) := by
    have hscale := hmeet.mem
    cases mode with
    | localOnly =>
      unfold taskLoad
      positivity
    | offloadingOnly =>
      unfold taskLoad netcomtime
      positivity
  rw [hmem i hi]
  refine mul_le_mul_of_nonneg_right ?_ hload
  exact one_div_le_one_div_of_le hmeet.cpufreq (wcetScale_le hdec (hle i hi) (hg.cpufreq i hi))

theorem fastest_utilNew_le (hg : g.InRows cfg) :
    (g.fastest cfg).utilNew mode cfg ≤ g.utilNew mode cfg := by
  refine utilNew_le hdec hmeets hg (fun _ _ => rfl) fun i _ => ?_
  rw [fastest_attr]
  exact Nat.zero_le _

/-- Lowering never raises the utilisation. -/
theorem Lowering.utilNew_le (hg : g.InRows cfg) (h : Lowering cfg g g') :
    g'.utilNew mode cfg ≤ g.utilNew mode cfg := by
  refine MutualEdge.utilNew_le hdec hmeets hg ?_ ?_
  · intro i _
    cases h <;> rfl
  · intro i _
    cases h with
    | cpufreq hone => exact hone.le i
    | ratio _ => exact le_rfl
    | none _ _ => exact le_rfl

omit hdec in
/-- No scale is zero, so the utilisation is a number. -/
theorem within_iff (hg : g.InRows cfg) :
    (tallied mode cfg g).Within cfg ↔ g.utilNew mode cfg ≤ cfg.cutoff := by
  refine and_iff_right ?_
  rw [tallied_utilKind, Kind.sum_eq_number]
  intro i hi
  have hmeet := hmeets i hi _ (hg.mem i hi) _ (hg.cpufreq i hi)
  exact utilKind_eq_number.mpr ⟨hmeet.cpufreq.ne', hmeet.mem.ne'⟩

end Meeting
end Utilisation

/-! ### Rounds -/

section Rounds
variable {mode : Mode} {cfg : Config}

theorem takes_getRand {maxValue : ℕ} (h : 0 < maxValue) :
    Takes .starved (getRand maxValue) 1 fun _ => True :=
  Takes.next.bind fun r _ => Takes.lift (getRandOf_of_pos h r) trivial

theorem takes_lowerUtilizationByAttr {n : ℕ} (hn : 0 < n) (t : Taskattrs) :
    Takes .starved (lowerUtilizationByAttr n t) 1 fun _ => True := by
  refine (takes_getRand hn).bind (m := 0) fun idxOrg _ => ?_
  split
  · exact Takes.pure trivial
  · exact Takes.pure trivial

theorem takes_lowerEither {first second : Gene → Rand (Bool × Gene)}
    (h1 : ∀ g, Takes .starved (first g) 1 fun _ => True)
    (h2 : ∀ g, Takes .starved (second g) 1 fun _ => True) (g : Gene) :
    Takes .starved (lowerEither first second g) 2 fun _ => True := by
  refine (h1 g).bind (m := 1) fun r _ => ?_
  split
  · exact (Takes.pure trivial).mono (Nat.zero_le 1) fun _ h => h
  · exact (h2 r.2).bind (m := 0) fun _ _ => Takes.pure trivial

/-- A repair takes at most three draws: the kind of attribute, a start, and another one. -/
theorem takes_lowerUtilization (ht : 0 < cfg.nTasks) (hf : 0 < cfg.nCpufreqs) (g : Gene) :
    Takes .starved (lowerUtilization cfg g) 3 fun g' => Lowering cfg g g' := by
  have hcpufreq : ∀ g, Takes .starved (lowerCpufreq cfg g) 1 fun _ => True := fun _ =>
    (takes_lowerUtilizationByAttr ht _).bind (m := 0) fun _ _ => Takes.pure trivial
  have hratio : ∀ g, Takes .starved (lowerOffloadingratio cfg g) 1 fun _ => True := fun _ =>
    (takes_lowerUtilizationByAttr ht _).bind (m := 0) fun _ _ => Takes.pure trivial
  have htakes : Takes .starved (lowerUtilization cfg g) 3 fun _ => True := by
    refine (takes_getRand (by omega)).bind (m := 2) fun r _ => ?_
    split
    · exact takes_lowerEither hcpufreq hratio g
    · exact takes_lowerEither hratio hcpufreq g
  exact htakes.returns.mono le_rfl fun g' h => lowerUtilization_cases h.2

/-- Where `init_gene` is: at work on gene `k`, whose memory types are still those of `g₀` and fit. -/
structure Repairing (mode : Mode) (cfg : Config) (g₀ : Gene) (k : ℕ) (p : Pop) : Prop where
  inv : GaInv mode cfg (.trying k, p)
  mem : (p.gene k).taskattrsMem.attrs = g₀.taskattrsMem.attrs
  fits : checkMemusage cfg (p.gene k) = true

theorem Repairing.shaped {g₀ : Gene} {k : ℕ} {p : Pop} (h : Repairing mode cfg g₀ k p) :
    (p.gene k).Shaped cfg := (h.inv.inWork k rfl).2

theorem Lowering.mem {g g' : Gene} (h : Lowering cfg g g') : g'.taskattrsMem = g.taskattrsMem := by
  cases h <;> rfl

/-- With every task local, it is a level that is lowered, unless they are all at the fastest. -/
theorem Lowering.cpufreq_of_shaped {g g' : Gene} (hg : g.Shaped cfg) (h : Lowering cfg g g') :
    LowersOne cfg.nTasks g.taskattrsCpufreq.attrs g'.taskattrsCpufreq.attrs ∨
      g.taskattrsCpufreq.attrs.sum = 0 := by
  cases h with
  | cpufreq hone => exact .inl hone
  | ratio hone =>
    obtain ⟨i, _, hpos, _⟩ := hone
    rw [hg.ratio, attr_replicate] at hpos
    exact absurd hpos (Nat.lt_irrefl 0)
  | none hf _ =>
    refine .inr (List.sum_eq_zero fun a ha => ?_)
    obtain ⟨i, hi, rfl⟩ := List.getElem_of_mem ha
    have hzero := hf i (by rw [← hg.cpufreq.length]; exact hi)
    rwa [Taskattrs.attr, List.getD_eq_getElem _ _ hi] at hzero

/-- A failed round leaves the memory in order and lowers one level, unless they are all at the
    fastest. -/
theorem Repairing.step {g₀ : Gene} {k : ℕ} {p p' : Pop} (h : Repairing mode cfg g₀ k p)
    (hr : Returns (initTry mode cfg k p) (false, p')) : Repairing mode cfg g₀ k p' ∧
      (LowersOne cfg.nTasks (p.gene k).taskattrsCpufreq.attrs (p'.gene k).taskattrsCpufreq.attrs ∨
        (p.gene k).taskattrsCpufreq.attrs.sum = 0) := by
  have hlen : k < p.genes.length := h.inv.inWork_lt rfl
  have hinv : GaInv mode cfg (.trying k, p') := gaInv_step h.inv (.repair hr)
  rcases initTry_cases hlen hr with ⟨g, hm, -, -, -⟩ | ⟨b, g, -, heval, hcase⟩
  · rw [h.fits] at hm
    cases hm
  rcases hcase with ⟨-, hfalse, -⟩ | ⟨g', hret, -, rfl⟩
  · cases hfalse
  have hself : ((p.initLists k).setGene k g').gene k = g' :=
    Pop.gene_setGene_self (by simpa using hlen) g'
  have hshaped' := (hinv.inWork k rfl).2
  have hlow := lowerUtilization_cases hret
  -- the evaluation has left the attributes alone
  have hg := (checkUtilpower_ok heval).2
  have hmem : g'.taskattrsMem.attrs = (p.gene k).taskattrsMem.attrs := by rw [hlow.mem, hg]
  have hf : g.taskattrsCpufreq = (p.gene k).taskattrsCpufreq := by rw [hg]
  have hone := hlow.cpufreq_of_shaped (checkUtilpower_shaped h.shaped heval)
  rw [hself] at hshaped' ⊢
  rw [hf] at hone
  refine ⟨⟨hinv, by rw [hself, hmem, h.mem], ?_⟩, hone⟩
  rw [hself, checkMemusage_congr hmem (by rw [hshaped'.ratio, h.shaped.ratio])]
  exact h.fits

/-- With the levels at the fastest, the gene is the fastest with its memory types. -/
theorem Repairing.fastest {g₀ : Gene} {k : ℕ} {p : Pop} (h : Repairing mode cfg g₀ k p) :
    ((p.gene k).fastest cfg).utilNew mode cfg = (g₀.fastest cfg).utilNew mode cfg := by
  rw [utilNew_eq, utilNew_eq]
  refine Finset.sum_congr rfl fun i _ => ?_
  have hmem : ((p.gene k).fastest cfg).taskattrsMem.attr i = (g₀.fastest cfg).taskattrsMem.attr i := by
    unfold Gene.fastest Taskattrs.attr
    rw [h.mem]
  rw [fastest_attr, fastest_attr, hmem]

theorem utilNew_of_sum_zero {g : Gene} (hsum : g.taskattrsCpufreq.attrs.sum = 0) :
    g.utilNew mode cfg = (g.fastest cfg).utilNew mode cfg := by
  rw [utilNew_eq, utilNew_eq]
  refine Finset.sum_congr rfl fun i _ => ?_
  have hzero : g.taskattrsCpufreq.attr i = 0 := by
    rw [Taskattrs.attr]
    rcases Nat.lt_or_ge i g.taskattrsCpufreq.attrs.length with hi | hi
    · rw [List.getD_eq_getElem _ _ hi]
      exact List.sum_eq_zero_iff.mp hsum _ (List.getElem_mem hi)
    · exact List.getD_eq_default _ _ hi
  rw [fastest_attr, hzero]
  rfl

section Loop
variable (hdec : cfg.cpufreqs.Pairwise fun f g => g.wcetScale ≤ f.wcetScale)
  (hmeets : ∀ i < cfg.nTasks, ∀ m < cfg.nMems, ∀ f < cfg.nCpufreqs, Meets cfg i m f)
include hmeets

/-- No evaluation of the loop ends the process. -/
theorem Repairing.evaluates (hf : 0 < cfg.nCpufreqs) {g₀ : Gene} {k : ℕ} {p : Pop}
    (h : Repairing mode cfg g₀ k p) : ∃ g, checkUtilpower mode cfg (p.gene k) =
      .ok (decide ((p.gene k).utilNew mode cfg ≤ cfg.cutoff), g) := by
  have hnone := noneOverruns_of_meets hmeets (p.gene k) h.shaped h.fits
  obtain ⟨⟨b, g⟩, hr⟩ := (checkUtilpower_isOk_iff mode hf).mpr hnone
  rw [(checkUtilpower_ok hr).1, decide_eq_decide.mpr (within_iff hmeets h.shaped.inRows)] at hr
  exact ⟨g, hr⟩

/-- Over the cutoff, a round is a repair. -/
theorem Repairing.repairs (ht : 0 < cfg.nTasks) (hf : 0 < cfg.nCpufreqs) {g₀ : Gene} {k : ℕ}
    {p : Pop} (h : Repairing mode cfg g₀ k p)
    (hcut : ¬ (p.gene k).utilNew mode cfg ≤ cfg.cutoff) :
    Takes .starved (initTry mode cfg k p) 3 fun r => r.1 = false ∧
      Returns (initTry mode cfg k p) (false, r.2) := by
  obtain ⟨g, hg⟩ := h.evaluates hmeets hf
  rw [decide_eq_false hcut] at hg
  have hgene : (p.initLists k).gene k = p.gene k := rfl
  have htakes : Takes .starved (initTry mode cfg k p) 3 fun r => r.1 = false := by
    rw [initTry]
    dsimp only
    rw [hgene, if_neg (by rw [h.fits]; simp)]
    refine (Takes.lift hg rfl (P := fun r => r = (false, g))).bind (m := 3) ?_
    rintro _ rfl
    exact (takes_lowerUtilization ht hf _).bind (m := 0) fun _ _ => Takes.pure rfl
  refine htakes.returns.mono le_rfl ?_
  rintro ⟨b, q⟩ ⟨rfl, hret⟩
  exact ⟨rfl, hret⟩

/-- A loop with one round more than there is to lower returns, if the fastest levels are within the
    cutoff: each failed round lowers one. -/
theorem Repairing.takes (ht : 0 < cfg.nTasks) (hf : 0 < cfg.nCpufreqs) {g₀ : Gene} {k : ℕ}
    (hfast : (g₀.fastest cfg).utilNew mode cfg ≤ cfg.cutoff) {steps : ℕ} {p : Pop}
    (h : Repairing mode cfg g₀ k p) (hsteps : (p.gene k).taskattrsCpufreq.attrs.sum = steps) :
    Takes .starved (attempts (utilizationTooHigh k) (initTry mode cfg k) (steps + 1) p) (3 * steps)
      fun _ => True := by
  induction steps generalizing p with
  | zero =>
    obtain ⟨g, hg⟩ := h.evaluates hmeets hf
    rw [decide_eq_true (by rw [utilNew_of_sum_zero hsteps, h.fastest]; exact hfast)] at hg
    obtain ⟨q, hq⟩ := initTry_reads h.inv h.fits hg
    exact Takes.reads hq.attempts trivial
  | succ steps ih =>
    by_cases hcut : (p.gene k).utilNew mode cfg ≤ cfg.cutoff
    · obtain ⟨g, hg⟩ := h.evaluates hmeets hf
      rw [decide_eq_true hcut] at hg
      obtain ⟨q, hq⟩ := initTry_reads h.inv h.fits hg
      exact (Takes.reads hq.attempts trivial).mono (Nat.zero_le _) fun _ h => h
    · refine (h.repairs hmeets ht hf hcut).bind (m := 3 * steps) ?_ |>.mono (by omega) fun _ h => h
      rintro ⟨b, q⟩ ⟨rfl, hret⟩
      obtain ⟨hq, hone⟩ := h.step hret
      rcases hone with hone | hzero
      · have hsum := hone.sum
        exact ih hq (by omega)
      · omega

/-- So it does not give up. -/
theorem Repairing.not_givesUp (ht : 0 < cfg.nTasks) (hf : 0 < cfg.nCpufreqs) {g₀ : Gene} {k : ℕ}
    (hfast : (g₀.fastest cfg).utilNew mode cfg ≤ cfg.cutoff) {steps : ℕ} {p q : Pop}
    (h : Repairing mode cfg g₀ k p) (hsteps : (p.gene k).taskattrsCpufreq.attrs.sum = steps)
    (ds : List ℕ) : attempts (utilizationTooHigh k) (initTry mode cfg k) (steps + 1) p ds ≠
      .error (utilizationTooHigh k q) := by
  intro hq
  rcases h.takes hmeets ht hf hfast hsteps ds with ⟨_, _, hok, _⟩ | ⟨hstarved, _⟩
  · rw [hok] at hq
    cases hq
  · rw [hstarved] at hq
    cases hq

/-- And more tries than that make no difference. -/
theorem Repairing.attempts_eq (ht : 0 < cfg.nTasks) (hf : 0 < cfg.nCpufreqs) {g₀ : Gene} {k : ℕ}
    (hfast : (g₀.fastest cfg).utilNew mode cfg ≤ cfg.cutoff) {steps n : ℕ} {p : Pop}
    (h : Repairing mode cfg g₀ k p) (hsteps : (p.gene k).taskattrsCpufreq.attrs.sum = steps)
    (hn : steps < n) (ds : List ℕ) :
    attempts (utilizationTooHigh k) (initTry mode cfg k) n p ds =
      attempts (utilizationTooHigh k) (initTry mode cfg k) (steps + 1) p ds := by
  obtain ⟨m, rfl⟩ : ∃ m, n = steps + 1 + m := ⟨n - (steps + 1), by omega⟩
  exact attempts_more (fun q => h.not_givesUp hmeets ht hf hfast hsteps ds) m

include hdec

/-- What the loop returns is within the cutoff, and so are the fastest levels. -/
theorem Repairing.fastest_le {failed : Pop → Halt} {n : ℕ} {g₀ : Gene} {k : ℕ} {p p' : Pop}
    (h : Repairing mode cfg g₀ k p) (hr : Returns (attempts failed (initTry mode cfg k) n p) p') :
    (g₀.fastest cfg).utilNew mode cfg ≤ cfg.cutoff := by
  obtain ⟨q, hsteps, hq⟩ := hr.attempts
  have hrep : Repairing mode cfg g₀ k q := by
    clear hq
    induction hsteps with
    | refl => exact h
    | tail _ hlast ih => exact (ih.step hlast).1
  rcases initTry_cases (hrep.inv.inWork_lt rfl) hq with ⟨_, _, _, hfalse, _⟩ | ⟨b, g, _, heval, hcase⟩
  · cases hfalse
  rcases hcase with ⟨rfl, -, -⟩ | ⟨_, _, hfalse, _⟩
  · have hcut : (q.gene k).utilNew mode cfg ≤ cfg.cutoff :=
      (within_iff hmeets hrep.shaped.inRows).mp (of_decide_eq_true (checkUtilpower_ok heval).1.symm)
    rw [← hrep.fastest]
    exact (fastest_utilNew_le hdec hmeets hrep.shaped.inRows).trans hcut
  · cases hfalse

end Loop

end Rounds

/-! ### Initialisation -/

/-- What is promised of `init_gene` on gene `k` for the draws `ds`, of which it spends those before
    `rest` on the attributes of `g`. -/
structure InitComplete (mode : Mode) (cfg : Config) (k : ℕ) (p : Pop) (ds : List ℕ) (g : Gene)
    (rest : List ℕ) : Prop where
  /-- With three draws for every level to lower, it succeeds exactly if the fastest levels do. -/
  succeeds : 3 * g.taskattrsCpufreq.attrs.sum ≤ rest.length →
    ((∃ p' rest', initGene mode cfg k p ds = .ok (p', rest')) ↔
      (g.fastest cfg).utilNew mode cfg ≤ cfg.cutoff)
  /-- It does so within one iteration more than there are levels to lower. -/
  within : ∀ p' rest', initGene mode cfg k p ds = .ok (p', rest') →
    attempts (utilizationTooHigh k) (initTry mode cfg k) (1 + g.taskattrsCpufreq.attrs.sum)
      (p.setGene k g) rest = .ok (p', rest')
  few : 1 + g.taskattrsCpufreq.attrs.sum ≤ 801 ∧ 801 < maxTry
  /-- Else it asks for more draws, or gives up because even the fastest levels are over the cutoff. -/
  stops : ∀ e, initGene mode cfg k p ds = .error e → e = .starved ∨
    (∃ q, e = utilizationTooHigh k q) ∧ cfg.cutoff < (g.fastest cfg).utilNew mode cfg

/-- What is promised of `lower_utilization`. -/
structure LowersUtilization (mode : Mode) (cfg : Config) (g g' : Gene) : Prop where
  le : g'.utilNew mode cfg ≤ g.utilNew mode cfg
  /-- One level or one ratio is lowered by one, and nothing else changes. -/
  lowers : (∃ i < cfg.nTasks, 0 < g.taskattrsCpufreq.attr i) →
    (∃ t, LowersOne cfg.nTasks g.taskattrsCpufreq.attrs t.attrs ∧
      g' = { g with taskattrsCpufreq := t }) ∨
    ∃ t, LowersOne cfg.nTasks g.taskattrsOffloadingratio.attrs t.attrs ∧
      g' = { g with taskattrsOffloadingratio := t }

section Init
variable {mode : Mode} {cfg : Config}

theorem lowersUtilization
    (hdec : cfg.cpufreqs.Pairwise fun f g => g.wcetScale ≤ f.wcetScale)
    (hmeets : ∀ i < cfg.nTasks, ∀ m < cfg.nMems, ∀ f < cfg.nCpufreqs, Meets cfg i m f) {g g' : Gene}
    (hg : g.InRows cfg) (h : Returns (lowerUtilization cfg g) g') :
    LowersUtilization mode cfg g g' := by
  have hlow := lowerUtilization_cases h
  refine ⟨hlow.utilNew_le hdec hmeets hg, ?_⟩
  rintro ⟨i, hi, hpos⟩
  cases hlow with
  | cpufreq hone => exact .inl ⟨_, hone, rfl⟩
  | ratio hone => exact .inr ⟨_, hone, rfl⟩
  | none hf _ => exact absurd (hf i hi) (Nat.ne_of_gt hpos)

theorem sum_attrs_le {n bound : ℕ} {attrs : List ℕ} (h : Within n bound attrs) :
    attrs.sum ≤ n * (bound - 1) := by
  have hle : ∀ a ∈ attrs, a ≤ bound - 1 := fun a ha => Nat.le_sub_one_of_lt (h.lt a ha)
  simpa [h.length] using List.sum_le_card_nsmul attrs (bound - 1) hle

/-- Every reason for `init_gene` not to return, with tasks that meet their periods. -/
theorem initGene_reasons {k : ℕ} {p : Pop} (ht : 0 < cfg.nTasks) (hf : 0 < cfg.nCpufreqs)
    (hmeets : ∀ i < cfg.nTasks, ∀ m < cfg.nMems, ∀ f < cfg.nCpufreqs, Meets cfg i m f) {g : Gene}
    (h : Repairing mode cfg g k p) {n : ℕ} :
    Fails (attempts (utilizationTooHigh k) (initTry mode cfg k) n p) fun e =>
      e = .starved ∨ ∃ q, e = utilizationTooHigh k q := by
  refine Fails.attempts (I := fun p => Repairing mode cfg g k p) (fun q => .inr ⟨q, rfl⟩) ?_ ?_ h
  · intro q hq
    have hm : 0 < cfg.nMems := Nat.zero_lt_of_lt (hq.shaped.mem.getD_lt ht)
    refine fails_initTry (.inl rfl) (by omega) (by omega) ?_ ?_
    · intro _ e he
      obtain ⟨g', hg'⟩ := hq.evaluates hmeets hf
      rw [hg'] at he
      cases he
    · intro g' _ e he
      obtain ⟨q', hq'⟩ := sortGene_ready hq.inv g'
      rw [hq'] at he
      cases he
  · exact fun q q' hq hr => (hq.step hr).1

/-- With every task meeting its period at every level and memory type, whatever is drawn: once the
    memory types fit, `init_gene` succeeds exactly if the fastest levels are within the cutoff, and in
    time; every repair lowers one attribute by one and does not raise the utilisation. -/
theorem initGene_complete (ht : 1 ≤ cfg.nTasks) (ht' : cfg.nTasks ≤ maxTasks)
    (hf : 1 ≤ cfg.nCpufreqs) (hf' : cfg.nCpufreqs ≤ maxCpuFreqs)
    (hdec : cfg.cpufreqs.Pairwise fun f g => g.wcetScale ≤ f.wcetScale)
    (hmeets : ∀ i < cfg.nTasks, ∀ m < cfg.nMems, ∀ f < cfg.nCpufreqs, Meets cfg i m f) :
    (∀ {k p}, (gaSystem mode cfg).Reachable (.fresh k, p) → k < cfg.nPops → ∀ {ds g rest},
      assignGene cfg (p.gene k) ds = .ok (g, rest) → checkMemusage cfg g = true →
        InitComplete mode cfg k p ds g rest) ∧
    ∀ g g' : Gene, g.InRows cfg → Returns (lowerUtilization cfg g) g' →
      LowersUtilization mode cfg g g' := by
  refine ⟨?_, fun g g' hg h => lowersUtilization hdec hmeets hg h⟩
  intro k p hp hk ds g rest hassign hm
  have hinv := reachable_gaInv hp
  have hret : Returns (assignGene cfg (p.gene k)) g := ⟨ds, rest, hassign⟩
  have hlen : k < p.genes.length := by
    rw [hinv.size]
    exact hk
  have hgene : (p.setGene k g).gene k = g := Pop.gene_setGene_self hlen g
  have hrep : Repairing mode cfg g k (p.setGene k g) :=
    ⟨hinv.assign hk hret, by rw [hgene], by rw [hgene, hm]⟩
  have hrun : initGene mode cfg k p ds =
      attempts (utilizationTooHigh k) (initTry mode cfg k) maxTry (p.setGene k g) rest :=
    bind_run hassign
  have hsum : g.taskattrsCpufreq.attrs.sum ≤ 800 := by
    calc g.taskattrsCpufreq.attrs.sum ≤ cfg.nTasks * (cfg.nCpufreqs - 1) :=
        sum_attrs_le (assignGene_shaped hret).cpufreq
      _ ≤ 200 * 4 := Nat.mul_le_mul ht' (Nat.sub_le_sub_right hf' 1)
  have hgene' : ((p.setGene k g).gene k).taskattrsCpufreq.attrs.sum = g.taskattrsCpufreq.attrs.sum := by
    rw [hgene]
  have hfast : (g.fastest cfg).utilNew mode cfg ≤ cfg.cutoff →
      attempts (utilizationTooHigh k) (initTry mode cfg k) maxTry (p.setGene k g) rest =
        attempts (utilizationTooHigh k) (initTry mode cfg k) (g.taskattrsCpufreq.attrs.sum + 1)
          (p.setGene k g) rest := fun hle =>
    hrep.attempts_eq hmeets ht hf hle hgene' (by unfold maxTry; omega) rest
  have hok : ∀ p' rest', initGene mode cfg k p ds = .ok (p', rest') →
      (g.fastest cfg).utilNew mode cfg ≤ cfg.cutoff :=
    fun p' rest' h => hrep.fastest_le hdec hmeets ⟨rest, rest', hrun.symm.trans h⟩
  refine ⟨?_, ?_, ⟨by omega, by decide⟩, ?_⟩
  · refine fun hdraws => ⟨fun ⟨p', rest', h⟩ => hok p' rest' h, fun hle => ?_⟩
    rw [hrun, hfast hle]
    rcases hrep.takes hmeets ht hf hle hgene' rest with ⟨p', rest', h, _⟩ | ⟨_, hfew⟩
    · exact ⟨p', rest', h⟩
    · omega
  · intro p' rest' h
    rw [Nat.add_comm, ← hfast (hok p' rest' h), ← hrun, h]
  · intro e he
    rw [hrun] at he
    rcases initGene_reasons ht hf hmeets hrep rest e he with rfl | ⟨q, rfl⟩
    · exact .inl rfl
    · refine .inr ⟨⟨q, rfl⟩, not_le.mp fun hle => ?_⟩
      rw [hfast hle] at he
      exact hrep.not_givesUp hmeets ht hf hle hgene' rest he

end Init

/-- `smallConf` with a cutoff that not both tasks can meet at the slower level. -/
def thriftyConf : Config := { smallConf with cutoff := 3 / 4 }

/-- The gene with both tasks at the slower level. -/
def slowGene : Gene := { zeroGene with taskattrsCpufreq := ⟨[1, 1], [0, 2, 0, 0, 0], 1⟩ }

theorem thriftyConf_meets : ∀ i < thriftyConf.nTasks, ∀ m < thriftyConf.nMems,
    ∀ f < thriftyConf.nCpufreqs, Meets thriftyConf i m f := by decide +kernel

/-- Its repairs succeed, from the ratio branch and from the second task on. -/
theorem initGene_complete_thriftyConf : ∃ p' rest',
    initGene .localOnly thriftyConf 0 (emptyPop 3) [0, 0, 1, 1, 0, 0, 2, 1, 1, 0, 0, 0] =
      .ok (p', rest') := by
  have hassign : assignGene thriftyConf ((emptyPop 3).gene 0) [0, 0, 1, 1, 0, 0, 2, 1, 1, 0, 0, 0] =
      .ok (slowGene, [2, 1, 1, 0, 0, 0]) := ok_of_toOption (by decide +kernel)
  have hcomplete := (@initGene_complete .localOnly thriftyConf (by decide) (by decide) (by decide)
    (by decide) (by decide +kernel) thriftyConf_meets).1
    (System.Reachable.of_init _ rfl) (by decide) hassign (by decide +kernel)
  exact (hcomplete.succeeds (by decide)).mpr (by decide +kernel)

end MutualEdge
