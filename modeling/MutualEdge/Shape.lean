import Mathlib.Data.List.GetD
import MutualEdge.Evolve

/-! Well-shaped genes: attribute arrays of one byte per task, every byte an index into its table, and
    every task local.

    `init_gene` builds such a gene and every later operation on attributes keeps it one: repairs draw
    below the table length or lower a positive attribute, crossover splices two parents, and nothing
    ever raises an offloading ratio from the index `0` that `init_gene` writes. -/

namespace MutualEdge
open Choice

/-- `n` attributes below `bound`. -/
structure Within (n bound : ℕ) (attrs : List ℕ) : Prop where
  length : attrs.length = n
  lt : ∀ a ∈ attrs, a < bound

structure Gene.Shaped (cfg : Config) (g : Gene) : Prop where
  mem : Within cfg.nTasks cfg.nMems g.taskattrsMem.attrs
  cpufreq : Within cfg.nTasks cfg.nCpufreqs g.taskattrsCpufreq.attrs
  cloud : Within cfg.nTasks cfg.nClouds g.taskattrsCloud.attrs
  ratio : g.taskattrsOffloadingratio.attrs = List.replicate cfg.nTasks 0

namespace Within

variable {n bound : ℕ} {attrs : List ℕ}

theorem getD_lt (h : Within n bound attrs) {i : ℕ} (hi : i < n) : attrs.getD i 0 < bound := by
  have hlen : i < attrs.length := by rw [h.length]; exact hi
  rw [List.getD_eq_getElem _ _ hlen]
  exact h.lt _ (List.getElem_mem hlen)

theorem set (h : Within n bound attrs) (i : ℕ) {v : ℕ} (hv : v < bound) :
    Within n bound (attrs.set i v) := by
  refine ⟨by rw [List.length_set, h.length], ?_⟩
  intro a ha
  rcases List.mem_or_eq_of_mem_set ha with ha | rfl
  · exact h.lt a ha
  · exact hv

/-- Splicing two parents at a point behind no task keeps the shape. -/
theorem splice {attrs' : List ℕ} (h : Within n bound attrs) (h' : Within n bound attrs') {k : ℕ}
    (hk : k ≤ n) : Within n bound (attrs.take k ++ (attrs'.drop k).take (n - k)) := by
  refine ⟨?_, ?_⟩
  · rw [List.length_append, List.length_take, List.length_take, List.length_drop, h.length,
      h'.length]
    omega
  · intro a ha
    rcases List.mem_append.mp ha with ha | ha
    · exact h.lt a (List.mem_of_mem_take ha)
    · exact h'.lt a (List.mem_of_mem_drop (List.mem_of_mem_take ha))

end Within

/-! ### The attribute operations -/

theorem foldl_countAttr_attrs (l : List ℕ) (t : Taskattrs) :
    (l.foldl countAttr t).attrs = t.attrs := by
  induction l generalizing t with
  | nil => rfl
  | cons a l ih =>
    rw [List.foldl_cons, ih]
    unfold countAttr
    dsimp only
    split <;> rfl

/-- Recounting does not touch the attributes. -/
@[simp] theorem setupTaskattrs_attrs (t : Taskattrs) : (setupTaskattrs t).attrs = t.attrs :=
  foldl_countAttr_attrs _ _

theorem drawAttrs_within {maxValue n : ℕ} {attrs : List ℕ}
    (h : Returns (drawAttrs maxValue n) attrs) : Within n maxValue attrs := by
  induction n generalizing attrs with
  | zero =>
    obtain rfl := returns_pure.mp h
    exact ⟨rfl, by simp⟩
  | succ n ih =>
    obtain ⟨a, ha, h⟩ := h.bind
    obtain ⟨l, hl, h⟩ := h.bind
    obtain rfl := returns_pure.mp h
    have hw := ih hl
    refine ⟨by rw [List.length_cons, hw.length], ?_⟩
    intro b hb
    rcases List.mem_cons.mp hb with rfl | hb
    · exact getRand_lt ha
    · exact hw.lt b hb

theorem assignTaskattrs_within {n maxValue : ℕ} {t t' : Taskattrs}
    (h : Returns (assignTaskattrs n maxValue t) t') : Within n maxValue t'.attrs := by
  obtain ⟨attrs, ha, h⟩ := h.bind
  obtain rfl := returns_pure.mp h
  simpa using drawAttrs_within ha

theorem assignGene_shaped {cfg : Config} {g g' : Gene} (h : Returns (assignGene cfg g) g') :
    g'.Shaped cfg := by
  obtain ⟨mem, hm, h⟩ := h.bind
  obtain ⟨cpufreq, hf, h⟩ := h.bind
  obtain ⟨cloud, hc, h⟩ := h.bind
  obtain rfl := returns_pure.mp h
  exact ⟨assignTaskattrs_within hm, assignTaskattrs_within hf, assignTaskattrs_within hc, by simp⟩

theorem balanceTaskattrs_within {n nMems : ℕ} {t t' : Taskattrs} (ht : Within n nMems t.attrs)
    (h : Returns (balanceTaskattrs nMems t) t') : Within n nMems t'.attrs := by
  unfold balanceTaskattrs at h
  dsimp only at h
  split at h
  · obtain ⟨idx, _, h⟩ := h.bind
    obtain ⟨type, htype, h⟩ := h.bind
    obtain rfl := returns_pure.mp h
    exact ht.set _ (getRandExcept_spec htype).1
  · obtain rfl := returns_pure.mp h
    exact ht

theorem balanceMemTypes_shaped {cfg : Config} {g g' : Gene} (hg : g.Shaped cfg)
    (h : Returns (balanceMemTypes cfg g) g') : g'.Shaped cfg := by
  obtain ⟨t, ht, h⟩ := h.bind
  obtain rfl := returns_pure.mp h
  exact ⟨balanceTaskattrs_within hg.mem ht, hg.cpufreq, hg.cloud, hg.ratio⟩

/-- The scan only stops at a positive attribute. -/
theorem scanPositive_pos {attrs : List ℕ} {n idxOrg k idx i : ℕ}
    (h : scanPositive attrs n idxOrg k idx = some i) : 0 < attrs.getD i 0 := by
  induction k generalizing idx with
  | zero => cases h
  | succ k ih =>
    unfold scanPositive at h
    split at h
    · rename_i hpos
      obtain rfl := Option.some.inj h
      exact hpos
    · dsimp only at h
      split at h
      · simp at h
      · exact ih h

/-- An attribute array of zeroes is not lowered. -/
theorem lowerUtilizationByAttr_zero {n m : ℕ} {t t' : Taskattrs} {b : Bool}
    (ht : t.attrs = List.replicate m 0) (h : Returns (lowerUtilizationByAttr n t) (b, t')) :
    b = false ∧ t' = t := by
  obtain ⟨idx, _, h⟩ := h.bind
  split at h
  · rename_i i hi
    have hpos := scanPositive_pos hi
    rw [ht] at hpos
    rcases Nat.lt_or_ge i m with him | him <;> simp [him] at hpos
  · have heq := returns_pure.mp h
    simp only [Prod.mk.injEq] at heq
    exact ⟨heq.1.symm, heq.2.symm⟩

theorem lowerUtilizationByAttr_within {n bound : ℕ} {t t' : Taskattrs} {b : Bool}
    (ht : Within n bound t.attrs) (h : Returns (lowerUtilizationByAttr n t) (b, t')) :
    Within n bound t'.attrs := by
  obtain ⟨idx, _, h⟩ := h.bind
  split at h
  · rename_i i hi
    have heq := returns_pure.mp h
    simp only [Prod.mk.injEq] at heq
    rw [← heq.2]
    have hpos := scanPositive_pos hi
    have hlt : i < n := by
      by_contra hge
      rw [List.getD_eq_default _ _ (by rw [ht.length]; omega)] at hpos
      omega
    have hbound := ht.getD_lt hlt
    refine ht.set i ?_
    unfold Taskattrs.attr
    omega
  · have heq := returns_pure.mp h
    simp only [Prod.mk.injEq] at heq
    exact heq.2 ▸ ht

theorem lowerCpufreq_shaped {cfg : Config} {g g' : Gene} {b : Bool} (hg : g.Shaped cfg)
    (h : Returns (lowerCpufreq cfg g) (b, g')) : g'.Shaped cfg := by
  obtain ⟨⟨c, t⟩, ht, h⟩ := h.bind
  have heq := returns_pure.mp h
  simp only [Prod.mk.injEq] at heq
  obtain ⟨rfl, rfl⟩ := heq
  exact ⟨hg.mem, lowerUtilizationByAttr_within hg.cpufreq ht, hg.cloud, hg.ratio⟩

/-- With every ratio at index `0` there is nothing to lower. -/
theorem lowerOffloadingratio_shaped {cfg : Config} {g g' : Gene} {b : Bool} (hg : g.Shaped cfg)
    (h : Returns (lowerOffloadingratio cfg g) (b, g')) : b = false ∧ g' = g := by
  obtain ⟨⟨c, t⟩, ht, h⟩ := h.bind
  obtain ⟨rfl, rfl⟩ := lowerUtilizationByAttr_zero hg.ratio ht
  have heq := returns_pure.mp h
  simp only [Prod.mk.injEq] at heq
  exact ⟨heq.1.symm, heq.2.symm⟩

/-- What both ways of lowering keep is kept by lowering in either order. -/
theorem lowerEither_kept {P : Gene → Prop} {first second : Gene → Rand (Bool × Gene)}
    (hf : ∀ g b g', P g → Returns (first g) (b, g') → P g')
    (hs : ∀ g b g', P g → Returns (second g) (b, g') → P g') {g g' : Gene}
    (hg : P g) (h : Returns (lowerEither first second g) g') : P g' := by
  obtain ⟨⟨b, g₁⟩, h1, h⟩ := h.bind
  have hg₁ := hf g b g₁ hg h1
  dsimp only at h
  split at h
  · obtain rfl := returns_pure.mp h
    exact hg₁
  · obtain ⟨⟨b', g₂⟩, h2, h⟩ := h.bind
    obtain rfl := returns_pure.mp h
    exact hs g₁ b' g₂ hg₁ h2

theorem lowerUtilization_shaped {cfg : Config} {g g' : Gene} (hg : g.Shaped cfg)
    (h : Returns (lowerUtilization cfg g) g') : g'.Shaped cfg := by
  have hf : ∀ g b g', g.Shaped cfg → Returns (lowerCpufreq cfg g) (b, g') → g'.Shaped cfg :=
    fun _ _ _ hg h => lowerCpufreq_shaped hg h
  have hr : ∀ g b g', g.Shaped cfg → Returns (lowerOffloadingratio cfg g) (b, g') →
      g'.Shaped cfg := by
    intro g b g' hg h
    rw [(lowerOffloadingratio_shaped hg h).2]
    exact hg
  obtain ⟨r, _, h⟩ := h.bind
  split at h
  · exact lowerEither_kept hf hr hg h
  · exact lowerEither_kept hr hf hg h

theorem inheritGene_shaped {cfg : Config} {newborn gene1 gene2 : Gene} (h : newborn.Shaped cfg)
    (h1 : gene1.Shaped cfg) (h2 : gene2.Shaped cfg) {kr kc km : ℕ} (hr : kr ≤ cfg.nTasks)
    (hc : kc ≤ cfg.nTasks) (hm : km ≤ cfg.nTasks) :
    (inheritGene cfg newborn gene1 gene2 kr kc km).Shaped cfg := by
  refine ⟨?_, ?_, h.cloud, ?_⟩
  · simpa [inheritGene, inheritValues] using h1.mem.splice h2.mem hm
  · simpa [inheritGene, inheritValues] using h1.cpufreq.splice h2.cpufreq hc
  · simp [inheritGene, inheritValues, h1.ratio, h2.ratio, hr]

/-- A well-shaped gene has every task local. -/
theorem Gene.Shaped.offloads {cfg : Config} {g : Gene} (h : g.Shaped cfg) (i : ℕ) :
    g.offloads i = false := by
  unfold Gene.offloads Taskattrs.attr
  rw [h.ratio]
  rcases Nat.lt_or_ge i cfg.nTasks with hi | hi <;> simp [hi]

end MutualEdge
