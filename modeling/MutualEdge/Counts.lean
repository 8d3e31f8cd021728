import MutualEdge.Draws
import MutualEdge.GeneWise
import MutualEdge.Generations
import MutualEdge.Lib.Histogram

/-! The counters of `taskattrs_t`.

    `setup_taskattrs` recounts from scratch; `balance_mem_types` and `lower_utilization_by_attr` move
    one task from one counter to another. `Counted` is what all of them maintain: the counters are the
    histogram of the attributes and `max_type` is a type that occurs. The decrements then never meet a
    zero, and the scan of `balance_mem_types` finds the occurrence it looks for.

    `AfterOp` lists the calls a run makes; `attributes_counted` is about every one of them. -/

namespace MutualEdge
open Choice

/-- `n` attributes below `bound`, counted exactly, with a `max_type` that occurs among them. -/
structure Taskattrs.Counted (n bound : ℕ) (t : Taskattrs) : Prop where
  within : Within n bound t.attrs
  counts : t.nTasksPerType = histogram maxAttrtypes t.attrs
  max_pos : 0 < t.count t.maxType

namespace Taskattrs.Counted

variable {n bound : ℕ} {t : Taskattrs}

theorem maxType_lt (h : t.Counted n bound) : t.maxType < maxAttrtypes := by
  have hpos := h.max_pos
  rw [Taskattrs.count, h.counts] at hpos
  exact histogram.lt_of_getD_pos hpos

theorem count_maxType (h : t.Counted n bound) : t.count t.maxType = t.attrs.count t.maxType := by
  rw [Taskattrs.count, h.counts, histogram.getD h.maxType_lt]

theorem sum (h : t.Counted n bound) (hb : bound ≤ maxAttrtypes) : t.nTasksPerType.sum = n := by
  rw [h.counts, histogram.sum fun a ha => Nat.lt_of_lt_of_le (h.within.lt a ha) hb,
    h.within.length]

end Taskattrs.Counted

/-! ### Counting from scratch -/

theorem u32_of_lt {n : ℕ} (h : n < 2 ^ 32) : u32 n = n := Nat.mod_eq_of_lt h

/-- A counter is no larger than the number of attributes. -/
theorem bin_lt {l : List ℕ} (hlen : l.length + 1 < 2 ^ 32) {k i : ℕ}
    (hi : i < (histogram k l).length) : (histogram k l)[i] + 1 < 2 ^ 32 := by
  rw [histogram.getElem]
  have hle : l.count i ≤ l.length := List.count_le_length
  omega

theorem modify_u32_succ {l : List ℕ} (hlen : l.length + 1 < 2 ^ 32) (k a : ℕ) :
    ((histogram k l).modify a fun n => u32 (n + 1)) = histogram k (l ++ [a]) := by
  rw [histogram.snoc]
  refine List.ext_getElem (by simp) fun i hi _ => ?_
  have hi : i < (histogram k l).length := by simpa using hi
  rw [List.getElem_modify, List.getElem_modify, u32_of_lt (bin_lt hlen hi)]

/-- One round of the loop of `setup_taskattrs`, after the attributes `l`. -/
theorem countAttr_counts {t : Taskattrs} {l : List ℕ} {a : ℕ} (ha : a < maxAttrtypes)
    (hlen : l.length + 1 < 2 ^ 32) (ht : t.nTasksPerType = histogram maxAttrtypes l) :
    (countAttr t a).nTasksPerType = histogram maxAttrtypes (l ++ [a]) ∧
      0 < (countAttr t a).count (countAttr t a).maxType := by
  have hcounts := modify_u32_succ hlen maxAttrtypes a
  have hpos : 0 < (histogram maxAttrtypes (l ++ [a])).getD a 0 := by
    rw [histogram.getD ha]
    simp
  unfold countAttr
  simp only [ht, hcounts, Taskattrs.count]
  split
  · exact ⟨rfl, hpos⟩
  · exact ⟨rfl, by simp only; omega⟩

theorem foldl_countAttr_counts {l l' : List ℕ} {t : Taskattrs} (hlt : ∀ a ∈ l', a < maxAttrtypes)
    (hlen : l.length + l'.length < 2 ^ 32) (ht : t.nTasksPerType = histogram maxAttrtypes l)
    (hpos : l ≠ [] → 0 < t.count t.maxType) :
    (l'.foldl countAttr t).nTasksPerType = histogram maxAttrtypes (l ++ l') ∧
      (l ++ l' ≠ [] → 0 < (l'.foldl countAttr t).count (l'.foldl countAttr t).maxType) := by
  induction l' generalizing l t with
  | nil => simpa using And.intro ht hpos
  | cons a l' ih =>
    rw [List.length_cons] at hlen
    obtain ⟨hcounts, hmax⟩ := countAttr_counts (hlt a List.mem_cons_self) (by omega) ht
    have hrest := ih (l := l ++ [a]) (fun b hb => hlt b (List.mem_cons_of_mem _ hb))
      (by simp; omega) hcounts fun _ => hmax
    simpa using hrest

/-- `setup_taskattrs` counts whatever attributes it finds. -/
theorem setupTaskattrs_counted {n bound : ℕ} {t : Taskattrs} (h : Within n bound t.attrs)
    (hb : bound ≤ maxAttrtypes) (hn : 0 < n) (hn' : n + 1 < 2 ^ 32) :
    (setupTaskattrs t).Counted n bound := by
  have hne : t.attrs ≠ [] := by
    rw [← List.length_pos_iff, h.length]
    exact hn
  obtain ⟨hcounts, hpos⟩ := foldl_countAttr_counts (l := [])
    (t := { t with nTasksPerType := List.replicate maxAttrtypes 0, maxType := 0 })
    (fun a ha => Nat.lt_of_lt_of_le (h.lt a ha) hb) (by simpa [h.length] using Nat.lt_of_succ_lt hn')
    (histogram.nil _).symm (by simp)
  refine ⟨by simpa using h, ?_, hpos (by simpa using hne)⟩
  rw [setupTaskattrs_attrs]
  exact hcounts

theorem assignTaskattrs_counted {n maxValue : ℕ} {t t' : Taskattrs} (hb : maxValue ≤ maxAttrtypes)
    (hn : 0 < n) (hn' : n + 1 < 2 ^ 32) (h : Returns (assignTaskattrs n maxValue t) t') :
    t'.Counted n maxValue := by
  obtain ⟨attrs, ha, h⟩ := h.bind
  obtain rfl := returns_pure.mp h
  exact setupTaskattrs_counted (drawAttrs_within ha) hb hn hn'

theorem inheritValues_counted {n bound k : ℕ} {t t1 t2 : Taskattrs} (h1 : Within n bound t1.attrs)
    (h2 : Within n bound t2.attrs) (hb : bound ≤ maxAttrtypes) (hn : 0 < n) (hn' : n + 1 < 2 ^ 32)
    (hk : k ≤ n) : (inheritValues n t t1 t2 k).Counted n bound :=
  setupTaskattrs_counted (h1.splice h2 hk) hb hn hn'

/-! ### Moving one task -/

/-- With a positive source no counter wraps. -/
theorem moveCount_eq {l : List ℕ} (hlen : l.length + 1 < 2 ^ 32) {k i src : ℕ} (hi : i < l.length)
    (hsrc : l[i] = src) (dst : ℕ) : moveCount (histogram k l) src dst = histogram k (l.set i dst) := by
  have hpos : 0 < l.count src := List.count_pos_iff.mpr (hsrc ▸ List.getElem_mem hi)
  rw [histogram.set hi hsrc]
  unfold moveCount
  refine List.ext_getElem (by simp) fun j hj _ => ?_
  have hlt := bin_lt hlen (show j < (histogram k l).length by simpa using hj)
  simp only [List.getElem_modify, histogram.getElem] at hlt ⊢
  by_cases hs : src = j
  · subst hs
    have hpred : u32 (l.count src + (2 ^ 32 - 1)) = l.count src - 1 := by
      unfold u32
      omega
    rw [if_pos rfl, if_pos rfl, hpred, u32_of_lt (by omega)]
  · rw [if_neg hs, if_neg hs, u32_of_lt hlt]

/-- Overwriting one attribute, moving it in the counters and comparing the new type with `max_type`. -/
theorem Taskattrs.Counted.move {n bound : ℕ} {t : Taskattrs} (h : t.Counted n bound)
    (hb : bound ≤ maxAttrtypes) (hn : n + 1 < 2 ^ 32) {i src dst : ℕ} (hi : i < n)
    (hsrc : t.attr i = src) (hdst : dst < bound) :
    let counts := moveCount t.nTasksPerType src dst
    Taskattrs.Counted n bound
      { attrs := t.attrs.set i dst
        nTasksPerType := counts
        maxType := if counts.getD t.maxType 0 < counts.getD dst 0 then dst else t.maxType } := by
  have hi' : i < t.attrs.length := by rw [h.within.length]; exact hi
  have hsrc' : t.attrs[i] = src := by rw [← hsrc, Taskattrs.attr, List.getD_eq_getElem _ _ hi']
  have hcounts : moveCount t.nTasksPerType src dst = histogram maxAttrtypes (t.attrs.set i dst) := by
    rw [h.counts, moveCount_eq (by rw [h.within.length]; exact hn) hi' hsrc']
  have hmem : dst ∈ t.attrs.set i dst := List.mem_set hi' dst
  have hpos : 0 < (histogram maxAttrtypes (t.attrs.set i dst)).getD dst 0 := by
    rw [histogram.getD (by omega)]
    exact List.count_pos_iff.mpr hmem
  refine ⟨h.within.set i hdst, hcounts, ?_⟩
  rw [hcounts]
  unfold Taskattrs.count
  simp only
  split
  · exact hpos
  · omega

/-- The scan of `balance_mem_types` stops at the occurrence it was asked for. -/
theorem nthOfType_spec {type : ℕ} {l : List ℕ} {idx : ℕ} (h : idx < l.count type) :
    nthOfType type l idx < l.length ∧ l.getD (nthOfType type l idx) 0 = type := by
  induction l generalizing idx with
  | nil => cases h
  | cons a l ih =>
    unfold nthOfType
    rw [List.length_cons]
    by_cases ha : a = type
    · rw [if_pos ha]
      cases idx with
      | zero => simpa using ha
      | succ idx =>
        rw [ha, List.count_cons_self] at h
        obtain ⟨hlt, hget⟩ := ih (Nat.lt_of_succ_lt_succ h)
        exact ⟨by simpa using hlt, by simpa using hget⟩
    · rw [if_neg ha]
      rw [List.count_cons_of_ne ha] at h
      obtain ⟨hlt, hget⟩ := ih h
      exact ⟨by simpa using hlt, by simpa using hget⟩

/-- Every draw below the counter of `max_type` leads the scan to a task of that type. -/
theorem Taskattrs.Counted.scan {n bound : ℕ} {t : Taskattrs} (h : t.Counted n bound) {idx : ℕ}
    (hidx : idx < t.count t.maxType) :
    nthOfType t.maxType t.attrs idx < n ∧ t.attr (nthOfType t.maxType t.attrs idx) = t.maxType := by
  rw [h.count_maxType] at hidx
  rw [← h.within.length]
  exact nthOfType_spec hidx

theorem balanceTaskattrs_counted {n nMems : ℕ} {t t' : Taskattrs} (ht : t.Counted n nMems)
    (hb : nMems ≤ maxAttrtypes) (hn : n + 1 < 2 ^ 32) (h : Returns (balanceTaskattrs nMems t) t') :
    t'.Counted n nMems := by
  unfold balanceTaskattrs at h
  dsimp only at h
  rw [if_pos ht.max_pos] at h
  obtain ⟨idx, hidx, h⟩ := h.bind
  obtain ⟨typeNew, hnew, h⟩ := h.bind
  obtain rfl := returns_pure.mp h
  obtain ⟨hi, hattr⟩ := ht.scan (getRand_lt hidx)
  exact ht.move hb hn hi hattr (getRandExcept_spec hnew).1

theorem lowerUtilizationByAttr_counted {n bound : ℕ} {t t' : Taskattrs} {b : Bool}
    (ht : t.Counted n bound) (hb : bound ≤ maxAttrtypes) (hn : n + 1 < 2 ^ 32)
    (h : Returns (lowerUtilizationByAttr n t) (b, t')) : t'.Counted n bound := by
  obtain ⟨idxOrg, _, h⟩ := h.bind
  split at h
  · rename_i i hi
    have heq := returns_pure.mp h
    simp only [Prod.mk.injEq] at heq
    rw [← heq.2]
    have hpos := scanPositive_pos hi
    have hlt : i < n := by
      by_contra hge
      rw [List.getD_eq_default _ _ (by rw [ht.within.length]; omega)] at hpos
      omega
    have hbound := ht.within.getD_lt hlt
    exact ht.move hb hn hlt rfl (by unfold Taskattrs.attr; omega)
  · have heq := returns_pure.mp h
    simp only [Prod.mk.injEq] at heq
    exact heq.2 ▸ ht

/-! ### The four attributes of a gene -/

inductive Attr where | mem | cpufreq | cloud | ratio
  deriving DecidableEq

def Gene.taskattrs (g : Gene) : Attr → Taskattrs
  | .mem => g.taskattrsMem
  | .cpufreq => g.taskattrsCpufreq
  | .cloud => g.taskattrsCloud
  | .ratio => g.taskattrsOffloadingratio

/-- How many values the attribute has. Without any ratio configured the index `0` is still written. -/
def Config.types (cfg : Config) : Attr → ℕ
  | .mem => cfg.nMems
  | .cpufreq => cfg.nCpufreqs
  | .cloud => cfg.nClouds
  | .ratio => max 1 cfg.nOffloadingratios

def Gene.Counted (cfg : Config) (g : Gene) : Prop :=
  ∀ a, (g.taskattrs a).Counted cfg.nTasks (cfg.types a)

/-- The results of the attribute operations of a run. -/
inductive AfterOp (mode : Mode) (cfg : Config) : Attr → Taskattrs → Prop where
  | assign {a k p t} (ha : a ≠ .ratio) (hr : (gaSystem mode cfg).Reachable (.fresh k, p))
      (hk : k < cfg.nPops)
      (h : Returns (assignTaskattrs cfg.nTasks (cfg.types a) ((p.gene k).taskattrs a)) t) :
      AfterOp mode cfg a t
  | setup {k p} (hr : (gaSystem mode cfg).Reachable (.fresh k, p)) (hk : k < cfg.nPops) :
      AfterOp mode cfg .ratio (setupTaskattrs
        { (p.gene k).taskattrsOffloadingratio with attrs := List.replicate cfg.nTasks 0 })
  | balance {k p t} (hr : (gaSystem mode cfg).Reachable (.trying k, p))
      (hm : checkMemusage cfg (p.gene k) = false)
      (h : Returns (balanceTaskattrs cfg.nMems (p.gene k).taskattrsMem) t) :
      AfterOp mode cfg .mem t
  | lower {a k p g b t} (ha : a = .cpufreq ∨ a = .ratio)
      (hr : (gaSystem mode cfg).Reachable (.trying k, p))
      (hm : checkMemusage cfg (p.gene k) = true)
      (he : checkUtilpower mode cfg (p.gene k) = .ok (false, g))
      (h : Returns (lowerUtilizationByAttr cfg.nTasks (g.taskattrs a)) (b, t)) :
      AfterOp mode cfg a t
  | inherit {a newborn p gene1 gene2 k} (ha : a ≠ .cloud)
      (hr : (gaSystem mode cfg).Reachable (.breeding newborn, p))
      (h1 : Returns (selectGene cfg p) gene1) (h2 : Returns (selectOther cfg p gene1) gene2)
      (hk : Returns (drawCrosspt cfg) k) :
      AfterOp mode cfg a (inheritValues cfg.nTasks ((p.gene newborn).taskattrs a)
        ((p.gene gene1).taskattrs a) ((p.gene gene2).taskattrs a) k)

/-- The indices with which evaluating task `i` of a gene enters the tables. -/
structure InTables (cfg : Config) (g : Gene) (i : ℕ) : Prop where
  tasks : i < maxTasks
  networks : i < maxNetworks
  netCommanders : i < maxNetcommanders
  memUsed : g.taskattrsMem.attr i < maxMems
  offloadingratios : g.taskattrsOffloadingratio.attr i < maxOffloadingRatios
  mems : g.taskattrsMem.attr i < cfg.mems.length
  clouds : g.taskattrsCloud.attr i < cfg.clouds.length
  cpufreqs : g.taskattrsCpufreq.attr i < cfg.cpufreqs.length
  V : g.taskattrsCpufreq.attr i < V.length
  F : g.taskattrsCpufreq.attr i < F.length
  S : g.taskattrsCpufreq.attr i < S.length

section Runs
variable {mode : Mode} {cfg : Config}

theorem Accepted.types_le (hacc : Accepted cfg) (a : Attr) : cfg.types a ≤ maxAttrtypes := by
  have hwf := hacc.wellFormed
  cases a with
  | mem => exact hwf.mems_length
  | cpufreq => exact hwf.cpufreqs_length
  | cloud => exact hwf.clouds_length
  | ratio => exact Nat.max_le.mpr ⟨by decide, hwf.ratios_length⟩

/-- An operation on one attribute leaves the other three as they are. -/
theorem Gene.Counted.replace {g g' : Gene} (hg : g.Counted cfg) (a : Attr)
    (ha : (g'.taskattrs a).Counted cfg.nTasks (cfg.types a))
    (hother : ∀ b, b ≠ a → g'.taskattrs b = g.taskattrs b) : g'.Counted cfg := by
  intro b
  by_cases hb : b = a
  · subst hb
    exact ha
  · rw [hother b hb]
    exact hg b

theorem nTasks_lt (hmax : cfg.nTasks ≤ maxTasks) : cfg.nTasks + 1 < 2 ^ 32 :=
  Nat.lt_of_le_of_lt (Nat.succ_le_succ hmax) (by decide)

section Counted
variable (hacc : Accepted cfg) (hmax : cfg.nTasks ≤ maxTasks)
include hacc hmax

theorem lowerCpufreq_counted {g g' : Gene} {b : Bool} (hg : g.Counted cfg)
    (h : Returns (lowerCpufreq cfg g) (b, g')) : g'.Counted cfg := by
  obtain ⟨⟨c, t⟩, ht, h⟩ := h.bind
  have heq := returns_pure.mp h
  simp only [Prod.mk.injEq] at heq
  obtain ⟨rfl, rfl⟩ := heq
  refine hg.replace .cpufreq ?_ fun b hb => ?_
  · exact lowerUtilizationByAttr_counted (hg .cpufreq) (hacc.types_le .cpufreq) (nTasks_lt hmax) ht
  · cases b <;> first | rfl | exact absurd rfl hb

theorem lowerOffloadingratio_counted {g g' : Gene} {b : Bool} (hg : g.Counted cfg)
    (h : Returns (lowerOffloadingratio cfg g) (b, g')) : g'.Counted cfg := by
  obtain ⟨⟨c, t⟩, ht, h⟩ := h.bind
  have heq := returns_pure.mp h
  simp only [Prod.mk.injEq] at heq
  obtain ⟨rfl, rfl⟩ := heq
  refine hg.replace .ratio ?_ fun b hb => ?_
  · exact lowerUtilizationByAttr_counted (hg .ratio) (hacc.types_le .ratio) (nTasks_lt hmax) ht
  · cases b <;> first | rfl | exact absurd rfl hb

/-- Exact attributes stay within every table. -/
theorem Gene.Counted.inTables {g : Gene} (hg : g.Counted cfg) {i : ℕ} (hi : i < cfg.nTasks) :
    InTables cfg g i := by
  have hmem := (hg .mem).within.getD_lt hi
  have hcpufreq := (hg .cpufreq).within.getD_lt hi
  have hratio := (hg .ratio).within.getD_lt hi
  have hcpufreq' := Nat.lt_of_lt_of_le hcpufreq (hacc.types_le .cpufreq)
  have hi' := Nat.lt_of_lt_of_le hi hmax
  exact ⟨hi', hi', hi', Nat.lt_of_lt_of_le hmem (hacc.types_le .mem),
    Nat.lt_of_lt_of_le hratio (hacc.types_le .ratio), hmem, (hg .cloud).within.getD_lt hi, hcpufreq,
    hcpufreq', hcpufreq', hcpufreq'⟩

variable (hn : 1 ≤ cfg.nTasks)
include hn

theorem zeroRatios_counted (t : Taskattrs) :
    (setupTaskattrs { t with attrs := List.replicate cfg.nTasks 0 }).Counted cfg.nTasks
      (cfg.types .ratio) := by
  refine setupTaskattrs_counted ⟨by simp, ?_⟩ (hacc.types_le .ratio) hn (nTasks_lt hmax)
  intro a ha
  rw [List.eq_of_mem_replicate ha]
  exact Nat.lt_of_lt_of_le Nat.one_pos (Nat.le_max_left _ _)

theorem assignGene_counted {g g' : Gene} (h : Returns (assignGene cfg g) g') : g'.Counted cfg := by
  obtain ⟨mem, hm, h⟩ := h.bind
  obtain ⟨cpufreq, hf, h⟩ := h.bind
  obtain ⟨cloud, hc, h⟩ := h.bind
  obtain rfl := returns_pure.mp h
  intro a
  cases a with
  | mem => exact assignTaskattrs_counted (hacc.types_le .mem) hn (nTasks_lt hmax) hm
  | cpufreq => exact assignTaskattrs_counted (hacc.types_le .cpufreq) hn (nTasks_lt hmax) hf
  | cloud => exact assignTaskattrs_counted (hacc.types_le .cloud) hn (nTasks_lt hmax) hc
  | ratio => exact zeroRatios_counted hacc hmax hn _

/-- Every operation of a run keeps the counters of all four attributes exact. -/
theorem counted_kept : Kept mode cfg (Gene.Counted cfg) where
  assign h := assignGene_counted hacc hmax hn h
  balance {g g'} hg h := by
    obtain ⟨t, ht, h⟩ := h.bind
    obtain rfl := returns_pure.mp h
    refine hg.replace .mem ?_ fun b hb => ?_
    · exact balanceTaskattrs_counted (hg .mem) (hacc.types_le .mem) (nTasks_lt hmax) ht
    · cases b <;> first | rfl | exact absurd rfl hb
  eval {g b g'} hg h := by
    rw [(checkUtilpower_ok h).2]
    intro a
    cases a with
    | mem => exact hg .mem
    | cpufreq => exact hg .cpufreq
    | cloud => exact hg .cloud
    | ratio => exact hg .ratio
  lower {g g'} hg h := by
    obtain ⟨r, _, h⟩ := h.bind
    split at h
    · exact lowerEither_kept (fun _ _ _ => lowerCpufreq_counted hacc hmax)
        (fun _ _ _ => lowerOffloadingratio_counted hacc hmax) hg h
    · exact lowerEither_kept (fun _ _ _ => lowerOffloadingratio_counted hacc hmax)
        (fun _ _ _ => lowerCpufreq_counted hacc hmax) hg h
  inherit {newborn gene1 gene2 kr kc km} h h1 h2 hr hc hm := by
    intro a
    cases a with
    | mem =>
      exact inheritValues_counted (h1 .mem).within (h2 .mem).within (hacc.types_le .mem) hn
        (nTasks_lt hmax) hm
    | cpufreq =>
      exact inheritValues_counted (h1 .cpufreq).within (h2 .cpufreq).within
        (hacc.types_le .cpufreq) hn (nTasks_lt hmax) hc
    | cloud => exact h .cloud
    | ratio =>
      exact inheritValues_counted (h1 .ratio).within (h2 .ratio).within
        (hacc.types_le .ratio) hn (nTasks_lt hmax) hr

/-- After every attribute operation of a run the counters are exact. -/
theorem AfterOp.counted {a : Attr} {t : Taskattrs} (h : AfterOp mode cfg a t) :
    t.Counted cfg.nTasks (cfg.types a) := by
  have hkept : Kept mode cfg (Gene.Counted cfg) := counted_kept hacc hmax hn
  cases h with
  | assign ha hr hk h => exact assignTaskattrs_counted (hacc.types_le a) hn (nTasks_lt hmax) h
  | setup hr hk => exact zeroRatios_counted hacc hmax hn _
  | balance hr hm h =>
    exact balanceTaskattrs_counted (hkept.reachable hr _ (.inr rfl) .mem) (hacc.types_le .mem)
      (nTasks_lt hmax) h
  | lower ha hr hm he h =>
    exact lowerUtilizationByAttr_counted (hkept.eval (hkept.reachable hr _ (.inr rfl)) he a)
      (hacc.types_le a) (nTasks_lt hmax) h
  | inherit ha hr h1 h2 hk =>
    obtain ⟨hm1, hm2, _⟩ := (reachable_gaInv hr).parents h1 h2
    exact inheritValues_counted (hkept.reachable hr _ (.inl hm1) a).within
      (hkept.reachable hr _ (.inl hm2) a).within (hacc.types_le a) hn (nTasks_lt hmax)
      (drawCrosspt_le hn hk)

/-- In a run over a file whose tasks fit the table, every operation on attributes leaves them in range
    and counted exactly, with a `max_type` that occurs; so does every gene of the run, on which the
    scan for a task of `max_type` stops at one and every table is entered within its bounds. -/
theorem attributes_counted :
    (∀ a t, AfterOp mode cfg a t →
      t.Counted cfg.nTasks (cfg.types a) ∧ t.nTasksPerType.sum = cfg.nTasks) ∧
    ∀ g, InRun mode cfg g →
      (∀ a, (g.taskattrs a).Counted cfg.nTasks (cfg.types a) ∧
        (g.taskattrs a).nTasksPerType.sum = cfg.nTasks) ∧
      (∀ idx < g.taskattrsMem.count g.taskattrsMem.maxType,
        let i := nthOfType g.taskattrsMem.maxType g.taskattrsMem.attrs idx
        i < cfg.nTasks ∧ g.taskattrsMem.attr i = g.taskattrsMem.maxType) ∧
      ∀ i < cfg.nTasks, InTables cfg g i := by
  refine ⟨?_, ?_⟩
  · intro a t h
    have hc := h.counted hacc hmax hn
    exact ⟨hc, hc.sum (hacc.types_le a)⟩
  · intro g h
    have hg : g.Counted cfg := (counted_kept hacc hmax hn).inRun h
    exact ⟨fun a => ⟨hg a, (hg a).sum (hacc.types_le a)⟩, fun idx hidx => (hg .mem).scan hidx,
      fun i hi => hg.inTables hacc hmax hi⟩

end Counted

/-- `smallConf` with a second memory type. -/
def dualConf : Config :=
  { smallConf with mems := smallConf.mems ++ [⟨"nvram", 20000, 1 / 2, 1 / 200, 0⟩] }

theorem dualConf_accepted : Accepted dualConf := by
  obtain ⟨sections, hs⟩ := smallConf_accepted
  refine ⟨sections ++ [.mem [⟨"nvram 20000 0.5 0.005 0", some ⟨"nvram", 20000, 1 / 2, 1 / 200, 0⟩⟩]],
    ?_⟩
  rw [parseConf, List.foldlM_append]
  exact Checks.bind_ok.mpr ⟨smallConf, hs, by decide +kernel⟩

/-- The first gene of a run on `dualConf` when every draw is `0`. -/
theorem zeroGene_inRun : InRun .localOnly dualConf zeroGene :=
  InRun.first (by decide) ⟨List.replicate 6 0, [], by decide +kernel⟩

theorem attributes_counted_dualConf :
    zeroGene.taskattrsMem.Counted 2 2 ∧ InTables dualConf zeroGene 1 := by
  obtain ⟨hcounted, _, htables⟩ := (attributes_counted dualConf_accepted (by decide) (by decide)).2
    zeroGene zeroGene_inRun
  exact ⟨(hcounted .mem).1, htables 1 (by decide)⟩

end Runs

end MutualEdge
