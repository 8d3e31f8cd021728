import MutualEdge.InitRuns
import MutualEdge.Selection

/-! Parent selection as a function of `n_pops`: when the loop that looks for a second parent can end,
    and how often each rank is drawn.

    `kvalue` inverts `2 k (k + 1)` at `alpha n_pops`, in 32-bit arithmetic: `radicand` says what is left
    of the product. The places of the list are counted from the best gene; the draws whose position is
    behind the list select its last place. -/

namespace MutualEdge
open Checks Choice LinkRing

/-- `kvalue` of `select_position` for the draw `alpha`. -/
def kvalue (nPops alpha : ℕ) : ℕ := (Nat.sqrt (1 + u32 (u32 (8 * alpha) * nPops) / M) - 1) / 2

/-- The place of the list that a draw selects while one gene is off it. -/
def selectedPlace (nPops alpha : ℕ) : ℕ := min (nPops - kvalue nPops alpha - 1) (nPops - 2)

/-- The two best and the other ranks are told apart. -/
def TellsApart (nPops : ℕ) : Prop := nPops % 2 ^ 30 ∉ [0, 1, 2, 2 ^ 29, 2 ^ 30 - 1]

instance (nPops : ℕ) : Decidable (TellsApart nPops) := inferInstanceAs (Decidable (_ ∉ _))

section Positions
variable {n alpha : ℕ}

theorem selectMax_eq (n : ℕ) : selectMax n = 2 * ((n + 1) % 2 ^ 30) := by
  unfold selectMax u32 M
  omega

/-- The number under the root, less one: three of the 32 bits are lost to the factor `8`. -/
theorem radicand (n alpha : ℕ) : u32 (u32 (8 * alpha) * n) / M = 2 * (alpha * n % 2 ^ 29) := by
  have hwrap : u32 (u32 (8 * alpha) * n) = 8 * (alpha * n % 2 ^ 29) := by
    unfold u32
    rw [Nat.mul_mod, Nat.mod_mod, ← Nat.mul_mod, Nat.mul_assoc, show 2 ^ 32 = 8 * 2 ^ 29 by norm_num,
      Nat.mul_mod_mul_left]
  rw [hwrap, M]
  omega

/-- `k` is reached from `2 k (k + 1)` on. -/
theorem le_kvalue {k : ℕ} (hk : 0 < k) : k ≤ kvalue n alpha ↔ 2 * k * (k + 1) ≤ alpha * n % 2 ^ 29 := by
  have hroot : k ≤ kvalue n alpha ↔ 2 * k + 1 ≤ Nat.sqrt (1 + 2 * (alpha * n % 2 ^ 29)) := by
    rw [kvalue, radicand]
    omega
  rw [hroot, Nat.le_sqrt]
  have hsq : (2 * k + 1) * (2 * k + 1) = 2 * (2 * k * (k + 1)) + 1 := by ring
  omega

theorem kvalue_lt_two_pow : kvalue n alpha < 16384 := by
  by_contra h
  have hle := (le_kvalue (by norm_num)).mp (not_lt.mp h)
  have hlt : alpha * n % 2 ^ 29 < 2 ^ 29 := Nat.mod_lt _ (by norm_num)
  omega

/-- The assertion of `select_position` holds. -/
theorem kvalue_lt (hn : 0 < n) (ha : alpha < selectMax n) : kvalue n alpha < n := by
  rcases Nat.lt_or_ge 16383 n with hbig | hsmall
  · exact Nat.lt_of_lt_of_le kvalue_lt_two_pow hbig
  · by_contra h
    have hle := (le_kvalue hn).mp (not_lt.mp h)
    rw [selectMax_eq, Nat.mod_eq_of_lt (by omega)] at ha
    have hprod : alpha * n ≤ (2 * n + 1) * n := Nat.mul_le_mul_right n (by omega)
    have hmod : alpha * n % 2 ^ 29 ≤ alpha * n := Nat.mod_le _ _
    have hsq : 2 * n * (n + 1) = (2 * n + 1) * n + n := by ring
    omega

theorem selectPosition_kvalue (hn : 0 < n) (hm : 0 < selectMax n) (r : ℕ) :
    selectPosition n r = .ok (n - kvalue n (r % selectMax n) - 1) := by
  have hlt := kvalue_lt hn (Nat.mod_lt r hm)
  refine bind_ok.mpr ⟨r % selectMax n, getRandOf_of_pos hm r, ?_⟩
  dsimp only
  rw [← kvalue, if_pos hlt]
  rfl

/-- The draw `0` selects the last place. -/
theorem kvalue_zero (n : ℕ) : kvalue n 0 = 0 := by
  by_contra h
  have hle := (le_kvalue Nat.one_pos).mp (Nat.pos_of_ne_zero h)
  simp at hle

theorem exists_two_le_kvalue_iff :
    (∃ alpha < selectMax n, 2 ≤ kvalue n alpha) ↔ TellsApart n := by
  have hk : ∀ alpha, 2 ≤ kvalue n alpha ↔ 12 ≤ alpha * n % 2 ^ 29 := fun _ => le_kvalue Nat.two_pos
  simp only [TellsApart, List.mem_cons, List.not_mem_nil, or_false, not_or, selectMax_eq, hk]
  have hmul : ∀ alpha, alpha * n % 2 ^ 29 = alpha * (n % 2 ^ 29) % 2 ^ 29 :=
    fun alpha => (Nat.mul_mod_mod alpha n (2 ^ 29)).symm
  constructor
  · rintro ⟨alpha, hlt, hle⟩
    rw [hmul] at hle
    refine ⟨fun h => ?_, fun h => ?_, fun h => ?_, fun h => ?_, fun h => ?_⟩
    · rw [show n % 2 ^ 29 = 0 by omega, Nat.mul_zero, Nat.zero_mod] at hle
      omega
    · rw [show n % 2 ^ 29 = 1 by omega] at hle
      omega
    · rw [show n % 2 ^ 29 = 2 by omega] at hle
      omega
    · rw [show n % 2 ^ 29 = 0 by omega, Nat.mul_zero, Nat.zero_mod] at hle
      omega
    · omega
  · rintro ⟨h0, h1, h2, h29, hmax⟩
    by_cases hbig : 12 ≤ n % 2 ^ 29
    · exact ⟨1, by omega, by rwa [Nat.one_mul]⟩
    · by_cases hhalf : n % 2 ^ 30 < 2 ^ 29
      · exact ⟨4, by omega, by omega⟩
      · refine ⟨12, by omega, ?_⟩
        rw [hmul, Nat.mod_eq_of_lt (by omega)]
        omega

/-- Two draws can select different places exactly when some draw leaves the last one. -/
theorem twoDrawable_iff : TwoDrawable n ↔ TellsApart n := by
  rw [← exists_two_le_kvalue_iff]
  constructor
  · rintro ⟨p1, p2, ⟨r1, h1⟩, ⟨r2, h2⟩, hne⟩
    have hpos : 0 < n ∧ 0 < selectMax n := by
      constructor
      · rcases Nat.eq_zero_or_pos n with rfl | h
        · omega
        · exact h
      · rcases Nat.eq_zero_or_pos (selectMax n) with h0 | h
        · rw [selectPosition_max_zero h0] at h1
          cases h1
        · exact h
    obtain ⟨hn, hm⟩ := hpos
    rw [selectPosition_kvalue hn hm] at h1 h2
    obtain rfl := Except.ok.inj h1
    obtain rfl := Except.ok.inj h2
    by_contra hno
    push Not at hno
    have hk1 := hno _ (Nat.mod_lt r1 hm)
    have hk2 := hno _ (Nat.mod_lt r2 hm)
    omega
  · rintro ⟨alpha, ha, hk⟩
    have hn : 0 < n := by
      rcases Nat.eq_zero_or_pos n with rfl | h
      · have hle := (le_kvalue Nat.two_pos).mp hk
        simp at hle
      · exact h
    have hm : 0 < selectMax n := Nat.zero_lt_of_lt ha
    have hlt := kvalue_lt hn ha
    refine ⟨_, _, ⟨0, selectPosition_kvalue hn hm 0⟩, ⟨alpha, selectPosition_kvalue hn hm alpha⟩, ?_⟩
    rw [Nat.zero_mod, Nat.mod_eq_of_lt ha, kvalue_zero]
    omega

end Positions

/-! ### Two parents -/

/-- At a call of `crossover`: the newborn is a gene of the population, and however many attempts have
    failed, every draw makes `select_gene` return another gene of the score list, and for every gene it
    can have returned first some draw makes it return a different one. -/
def SelectionCanEnd (mode : Mode) (cfg : Config) (p : Pop) : Prop :=
  ∃ b q, getNewborn p = .ok (b, q) ∧ b < cfg.nPops ∧
    ∀ q', Relation.ReflTransGen (fun a a' => Returns (attempt mode cfg b a) (false, a')) q q' →
      (∀ r, ∃ i, selectGeneOf cfg q' r = .ok i ∧ i < cfg.nPops ∧ i ≠ b ∧ OnList q'.genesByScore i) ∧
      ∀ g1, Returns (selectGene cfg q') g1 → ∃ r g2, selectGeneOf cfg q' r = .ok g2 ∧ g2 ≠ g1

section Selection
variable {mode : Mode} {cfg : Config} {b : ℕ} {p : Pop} {l : List ℕ}

theorem GaInv.attempts {q q' : Pop} (h : GaInv mode cfg (.breeding b, q))
    (hsteps : Relation.ReflTransGen
      (fun a a' => Returns (MutualEdge.attempt mode cfg b a) (false, a')) q q') :
    GaInv mode cfg (.breeding b, q') := by
  induction hsteps with
  | refl => exact h
  | tail _ hstep ih => exact gaInv_step ih (.reject hstep)

/-- Different places of the list hold different genes. -/
theorem Selects.place_inj (h : Selects cfg b p l) (hne : l ≠ []) {p1 p2 : ℕ} :
    l.getD (min p1 (cfg.nPops - 2)) 0 = l.getD (min p2 (cfg.nPops - 2)) 0 ↔
      min p1 (cfg.nPops - 2) = min p2 (cfg.nPops - 2) := by
  have hlen := h.length
  have hpos := List.length_pos_iff.mpr hne
  rw [List.getD_eq_getElem _ _ (by omega), List.getD_eq_getElem _ _ (by omega),
    h.nodup.getElem_inj_iff]

/-- What a list of at least two genes selects, whatever is drawn. -/
theorem Selects.all (h : Selects cfg b p l) (hn : 2 ≤ cfg.nPops) (hm : 0 < selectMax cfg.nPops)
    (r : ℕ) : ∃ i ∈ l, selectGeneOf cfg p r = .ok i := by
  have hlen := h.length
  have hne : l ≠ [] := List.length_pos_iff.mp (by omega)
  refine ⟨_, ?_, (h.selects r _).mpr ⟨hne, _, selectPosition_kvalue (by omega) hm r, rfl⟩⟩
  rw [List.getD_eq_getElem _ _ (by omega)]
  exact List.getElem_mem _

theorem Selects.other (h : Selects cfg b p l) (h2 : TwoDrawable cfg.nPops) {g1 : ℕ}
    (h1 : Returns (selectGene cfg p) g1) : ∃ r g2, selectGeneOf cfg p r = .ok g2 ∧ g2 ≠ g1 := by
  obtain ⟨r1, hr1⟩ := returns_selectGene.mp h1
  obtain ⟨hne, p1, hp1, rfl⟩ := (h.selects r1 g1).mp hr1
  obtain ⟨q1, q2, ⟨r, hr⟩, ⟨r', hr'⟩, hdiff⟩ := h2
  by_cases heq : min q1 (cfg.nPops - 2) = min p1 (cfg.nPops - 2)
  · refine ⟨r', _, (h.selects r' _).mpr ⟨hne, q2, hr', rfl⟩, fun hcon => ?_⟩
    exact hdiff (heq.trans ((h.place_inj hne).mp hcon).symm)
  · exact ⟨r, _, (h.selects r _).mpr ⟨hne, q1, hr, rfl⟩, fun hcon => heq ((h.place_inj hne).mp hcon)⟩

theorem TellsApart.three_le {n : ℕ} (h : TellsApart n) : 3 ≤ n ∧ 0 < selectMax n := by
  simp only [TellsApart, List.mem_cons, List.not_mem_nil, or_false, not_or] at h
  rw [selectMax_eq]
  omega

/-- A selection that can end tells places apart. -/
theorem SelectionCanEnd.tellsApart (hinv : GaInv mode cfg (.boundary, p))
    (h : SelectionCanEnd mode cfg p) : TellsApart cfg.nPops := by
  obtain ⟨b, q, hb, _, hall⟩ := h
  obtain ⟨hgenuine, hother⟩ := hall q .refl
  obtain ⟨l, hl⟩ := (hinv.remove hb).selects
  obtain ⟨g1, hg1, _⟩ := hgenuine 0
  obtain ⟨r, g2, hg2, hne⟩ := hother g1 (returns_selectGene.mpr ⟨0, hg1⟩)
  obtain ⟨_, p1, hp1, rfl⟩ := (hl.selects 0 g1).mp hg1
  obtain ⟨_, p2, hp2, rfl⟩ := (hl.selects r g2).mp hg2
  exact twoDrawable_iff.mp ⟨p1, p2, ⟨0, hp1⟩, ⟨r, hp2⟩, fun heq => hne (by rw [heq])⟩

theorem TellsApart.selectionCanEnd (htells : TellsApart cfg.nPops)
    (hinv : GaInv mode cfg (.boundary, p)) : SelectionCanEnd mode cfg p := by
  obtain ⟨h3, hm⟩ := htells.three_le
  have hne : List.range cfg.nPops ≠ [] := by
    rw [Ne, List.range_eq_nil]
    omega
  obtain ⟨b, _, hlast, _⟩ := hinv.listed.byScore.last hne
  have hb : getNewborn p = .ok (b, p.delLists b) := by rw [getNewborn, hlast]
  have hbreed := hinv.remove hb
  refine ⟨b, _, hb, (hbreed.inWork b rfl).1, fun q' hq' => ?_⟩
  have hinv' := hbreed.attempts hq'
  obtain ⟨l, hl⟩ := hinv'.selects
  refine ⟨fun r => ?_, fun g1 hg1 => hl.other (twoDrawable_iff.mpr htells) hg1⟩
  obtain ⟨i, hi, hr⟩ := hl.all (by omega) hm r
  have hmem := hl.perm.mem_iff.mp hi
  exact ⟨i, hr, hinv'.bounds i hmem, ne_inWork rfl hmem, l, hl.holds, hi⟩

end Selection

/-- In every population that a call of `crossover` can meet, the selection of parents can end if and
    only if `n_pops` modulo `2 ^ 30` is none of `0`, `1`, `2`, `2 ^ 29` and `2 ^ 30 - 1`. -/
theorem selectionCanEnd_iff {mode : Mode} {cfg : Config} {p : Pop}
    (h : (gaSystem mode cfg).Reachable (.boundary, p)) :
    SelectionCanEnd mode cfg p ↔ TellsApart cfg.nPops :=
  ⟨fun hend => hend.tellsApart (reachable_gaInv h), fun htells =>
    htells.selectionCanEnd (reachable_gaInv h)⟩

theorem selectionCanEnd_smallConf : ∃ p, SelectionCanEnd .localOnly smallConf p := by
  obtain ⟨p, hp⟩ := smallConf_returns
  exact ⟨p, (selectionCanEnd_iff (evolve_reachable hp)).mpr (by decide)⟩

/-- `smallConf` with another size of the population. -/
def popsConf (nPops : ℕ) : Config := { smallConf with nPops := nPops }

theorem popsConf_accepted (nPops : ℕ) : Accepted (popsConf nPops) := by
  obtain ⟨sections, h⟩ := smallConf_accepted
  refine ⟨sections ++ [.genetic [⟨"", some ⟨1000, nPops, 2, 3 / 2⟩⟩]], ?_⟩
  rw [parseConf, List.foldlM_append]
  exact bind_ok.mpr ⟨smallConf, h, rfl⟩

/-- A run on `popsConf` sets up its population, whatever the size. -/
theorem popsConf_returns (nPops : ℕ) :
    ∃ p, Returns (evolve .localOnly (popsConf nPops) 0) p := by
  obtain ⟨p, hp⟩ := smallConf_returns
  obtain ⟨g, hs, hm, hu⟩ := (evolve_gaInv hp).feasible (by decide)
  have hf : Feasible .localOnly (popsConf nPops) :=
    ⟨g, ⟨hs.mem, hs.cpufreq, hs.cloud, hs.ratio⟩, hm, hu⟩
  obtain ⟨ds, q, hq⟩ := initGenes_reads hf gaInv_init (Nat.zero_add (popsConf nPops).nPops)
  exact ⟨q, (hq.bind_nil (Reads.pure q)).returns⟩

/-- With two genes the first parent is the only gene on the list and no draw returns another. -/
theorem selectionCanEnd_fails : Accepted (popsConf 2) ∧
    ∃ p, Returns (evolve .localOnly (popsConf 2) 0) p ∧
      ¬ SelectionCanEnd .localOnly (popsConf 2) p := by
  obtain ⟨p, hp⟩ := popsConf_returns 2
  refine ⟨popsConf_accepted 2, p, hp, fun h => ?_⟩
  exact absurd (h.tellsApart (evolve_gaInv hp)) (by decide)

/-! ### Ranks -/

/-- How many of the draws of `select_position` make `select_gene` return gene `i`. -/
def timesSelected (cfg : Config) (p : Pop) (i : ℕ) : ℕ :=
  (List.range (selectMax cfg.nPops)).countP fun alpha => decide (selectGeneOf cfg p alpha = .ok i)

/-- No gene on the score list is excluded, and a better place is never drawn less often. -/
structure FairSelection (cfg : Config) (p : Pop) : Prop where
  none_excluded : ∀ l, Holds p.genesByScore l → ∀ i ∈ l, 0 < timesSelected cfg p i
  better_first : ∀ l, Holds p.genesByScore l →
    l.Pairwise fun i j => timesSelected cfg p j ≤ timesSelected cfg p i

/-- How many draws select place `k`. -/
def timesPlaced (nPops k : ℕ) : ℕ :=
  (List.range (selectMax nPops)).countP fun alpha => decide (selectedPlace nPops alpha = k)

def FairPlaces (nPops : ℕ) : Prop :=
  (∀ k < nPops - 1, 0 < timesPlaced nPops k) ∧
    ∀ k < nPops - 1, ∀ j < k, timesPlaced nPops k ≤ timesPlaced nPops j

instance (nPops : ℕ) : Decidable (FairPlaces nPops) := inferInstanceAs (Decidable (_ ∧ _))

/-- From 24 genes on some place is not drawn: the third from last, or, with more than the root can
    reach, the first. -/
theorem exists_never_placed {n : ℕ} (hn : 24 ≤ n) : ∃ k < n - 1, timesPlaced n k = 0 := by
  simp only [timesPlaced, List.countP_eq_zero, List.mem_range, decide_eq_true_eq]
  rcases Nat.lt_or_ge n 16385 with hsmall | hbig
  · refine ⟨n - 3, by omega, fun alpha ha hplace => ?_⟩
    have h2 : 2 ≤ kvalue n alpha := by
      unfold selectedPlace at hplace
      omega
    have hle := (le_kvalue Nat.two_pos).mp h2
    -- a product that is not small is already twice what the next value of `k` needs
    have hge : 24 ≤ alpha * n % 2 ^ 29 := by
      rw [selectMax_eq, Nat.mod_eq_of_lt (by omega)] at ha
      rcases Nat.lt_or_ge n 16384 with h | h
      · have hlt : alpha * n < 2 ^ 29 :=
          calc alpha * n ≤ 32767 * 16383 := Nat.mul_le_mul (by omega) (by omega)
            _ < 2 ^ 29 := by norm_num
        rw [Nat.mod_eq_of_lt hlt] at hle ⊢
        have hpos : 1 ≤ alpha := by
          by_contra h0
          rw [show alpha = 0 by omega, Nat.zero_mul] at hle
          omega
        calc 24 ≤ 1 * n := by omega
          _ ≤ alpha * n := Nat.mul_le_mul_right n hpos
      · obtain rfl : n = 16384 := by omega
        omega
    have h3 : 3 ≤ kvalue n alpha := (le_kvalue (by norm_num)).mpr hge
    unfold selectedPlace at hplace
    omega
  · refine ⟨0, by omega, fun alpha _ hplace => ?_⟩
    have hlt : kvalue n alpha < 16384 := kvalue_lt_two_pow
    unfold selectedPlace at hplace
    omega

theorem fairPlaces_small : ∀ n < 24, 3 ≤ n → (FairPlaces n ↔ n ∈ [3, 4, 6, 7]) := by
  decide +kernel

theorem fairPlaces_iff {n : ℕ} (h3 : 3 ≤ n) : FairPlaces n ↔ n ∈ [3, 4, 6, 7] := by
  rcases Nat.lt_or_ge n 24 with hsmall | hbig
  · exact fairPlaces_small n hsmall h3
  · obtain ⟨k, hk, hzero⟩ := exists_never_placed hbig
    constructor
    · intro h
      have hpos := h.1 k hk
      omega
    · intro h
      simp only [List.mem_cons, List.not_mem_nil, or_false] at h
      omega

section Fair
variable {mode : Mode} {cfg : Config} {b : ℕ} {p : Pop} {l : List ℕ}

/-- A gene is selected as often as its place. -/
theorem Selects.timesSelected (h : Selects cfg b p l) (hn : 2 ≤ cfg.nPops) {k : ℕ}
    (hk : k < cfg.nPops - 1) :
    timesSelected cfg p (l.getD k 0) = timesPlaced cfg.nPops k := by
  have hlen := h.length
  have hne : l ≠ [] := List.length_pos_iff.mp (by omega)
  refine List.countP_congr fun alpha ha => ?_
  have hlt := List.mem_range.mp ha
  have hm : 0 < selectMax cfg.nPops := Nat.zero_lt_of_lt hlt
  have hmin : min k (cfg.nPops - 2) = k := by omega
  rw [decide_eq_true_eq, decide_eq_true_eq, h.selects, selectPosition_kvalue (by omega) hm,
    Nat.mod_eq_of_lt hlt]
  constructor
  · rintro ⟨_, position, hpos, hget⟩
    obtain rfl := Except.ok.inj hpos
    rw [← hmin, h.place_inj hne, hmin] at hget
    exact hget
  · intro hplace
    refine ⟨hne, _, rfl, ?_⟩
    rw [← hplace]
    rfl

theorem Selects.fair_iff (h : Selects cfg b p l) (hn : 2 ≤ cfg.nPops) :
    FairSelection cfg p ↔ FairPlaces cfg.nPops := by
  have hlen := h.length
  have hgene : ∀ {k}, (hk : k < l.length) → l[k] = l.getD k 0 :=
    fun hk => (List.getD_eq_getElem l 0 hk).symm
  constructor
  · rintro ⟨hnone, hbetter⟩
    refine ⟨fun k hk => ?_, fun k hk j hj => ?_⟩
    · have hkl : k < l.length := by omega
      rw [← h.timesSelected hn hk, ← hgene hkl]
      exact hnone l h.holds _ (List.getElem_mem hkl)
    · have hkl : k < l.length := by omega
      have hpair := List.pairwise_iff_getElem.mp (hbetter l h.holds) j k (by omega) hkl hj
      rwa [hgene, hgene, h.timesSelected hn hk, h.timesSelected hn (by omega)] at hpair
  · rintro ⟨hnone, hbetter⟩
    refine ⟨fun l' hl' i hi => ?_, fun l' hl' => ?_⟩
    · obtain rfl := h.holds.unique hl'
      obtain ⟨k, hk, rfl⟩ := List.getElem_of_mem hi
      rw [hgene hk, h.timesSelected hn (by omega)]
      exact hnone k (by omega)
    · obtain rfl := h.holds.unique hl'
      refine List.pairwise_iff_getElem.mpr fun j k hj hk hjk => ?_
      rw [hgene hj, hgene hk, h.timesSelected hn (by omega), h.timesSelected hn (by omega)]
      exact hbetter k (by omega) j hjk

end Fair

/-- During a crossover of at least three genes, rank selection excludes no gene and favours better
    ranks if and only if there are 3, 4, 6 or 7 of them. -/
theorem fairSelection_iff {mode : Mode} {cfg : Config} {b : ℕ} {p : Pop} (h3 : 3 ≤ cfg.nPops)
    (h : (gaSystem mode cfg).Reachable (.breeding b, p)) :
    FairSelection cfg p ↔ cfg.nPops ∈ [3, 4, 6, 7] := by
  obtain ⟨l, hl⟩ := (reachable_gaInv h).selects
  rw [hl.fair_iff (by omega), fairPlaces_iff h3]

/-- The population of a first crossover. -/
theorem popsConf_breeding {nPops : ℕ} (hn : 0 < nPops) : ∃ b p,
    (gaSystem .localOnly (popsConf nPops)).Reachable (.breeding b, p) := by
  obtain ⟨p, hp⟩ := popsConf_returns nPops
  have hne : List.range (popsConf nPops).nPops ≠ [] := by
    rw [Ne, List.range_eq_nil]
    exact Nat.ne_of_gt hn
  obtain ⟨b, _, hlast, _⟩ := (evolve_gaInv hp).listed.byScore.last hne
  have hb : getNewborn p = .ok (b, p.delLists b) := by rw [getNewborn, hlast]
  have hstep : (gaSystem .localOnly (popsConf nPops)).step (.boundary, p) (.breeding b, p.delLists b) :=
    GaStep.remove hb
  exact ⟨b, _, (evolve_reachable hp).steps (.single hstep)⟩

theorem fairSelection_popsConf : ∃ p, FairSelection (popsConf 7) p := by
  obtain ⟨b, p, h⟩ := popsConf_breeding (show 0 < 7 by decide)
  exact ⟨p, (fairSelection_iff (by decide) h).mpr (by decide)⟩

/-- With a hundred genes some gene is never selected. -/
theorem fairSelection_fails : Accepted (popsConf 100) ∧ ∃ b p,
    (gaSystem .localOnly (popsConf 100)).Reachable (.breeding b, p) ∧
      ¬ FairSelection (popsConf 100) p := by
  obtain ⟨b, p, h⟩ := popsConf_breeding (show 0 < 100 by decide)
  obtain ⟨l, hl⟩ := (reachable_gaInv h).selects
  obtain ⟨k, hk, hzero⟩ := exists_never_placed (show 24 ≤ (popsConf 100).nPops by decide)
  refine ⟨popsConf_accepted 100, b, p, h, fun hfair => ?_⟩
  have hpos := ((hl.fair_iff (by decide)).mp hfair).1 k hk
  omega

/-! ### Positions -/

/-- While `M * (n_pops + 1)` is below `2 ^ 32`, no draw makes the assertion of `select_position` fail or
    the position underflow, and during every crossover of at least two genes `select_gene` returns a
    gene of the list for it. -/
theorem selectPosition_sound {mode : Mode} {cfg : Config} (hn : 1 ≤ cfg.nPops)
    (hfit : M * (cfg.nPops + 1) < 2 ^ 32) :
    (∀ alpha < M * (cfg.nPops + 1) / 2, kvalue cfg.nPops alpha < cfg.nPops ∧
      ∃ position, selectPosition cfg.nPops alpha = .ok position ∧
        position + kvalue cfg.nPops alpha + 1 = cfg.nPops) ∧
    (2 ≤ cfg.nPops → ∀ b p, (gaSystem mode cfg).Reachable (.breeding b, p) →
      ∃ l, Holds p.genesByScore l ∧ l.Perm ((List.range cfg.nPops).erase b) ∧
        ∀ alpha < M * (cfg.nPops + 1) / 2, ∃ i ∈ l, selectGeneOf cfg p alpha = .ok i) := by
  have hmax : selectMax cfg.nPops = M * (cfg.nPops + 1) / 2 := by
    unfold M at hfit ⊢
    rw [selectMax_eq]
    omega
  have hpos : 0 < selectMax cfg.nPops := by
    rw [hmax, M]
    omega
  rw [← hmax]
  refine ⟨fun alpha ha => ?_, fun h2 b p h => ?_⟩
  · have hlt := kvalue_lt hn ha
    refine ⟨hlt, _, selectPosition_kvalue hn hpos alpha, ?_⟩
    rw [Nat.mod_eq_of_lt ha]
    omega
  · obtain ⟨l, hl⟩ := (reachable_gaInv h).selects
    exact ⟨l, hl.holds, hl.perm, fun alpha _ => hl.all h2 hpos alpha⟩

theorem selectPosition_sound_popsConf : ∃ b p l, Holds p.genesByScore l ∧
    l.Perm ((List.range 5).erase b) ∧
    ∀ alpha < 12, ∃ i ∈ l, selectGeneOf (popsConf 5) p alpha = .ok i := by
  obtain ⟨b, p, h⟩ := popsConf_breeding (show 0 < 5 by decide)
  have hsound := @selectPosition_sound .localOnly (popsConf 5) (by decide) (by decide)
  obtain ⟨l, hl, hperm, hall⟩ := hsound.2 (by decide) b p h
  exact ⟨b, p, l, hl, hperm, hall⟩

end MutualEdge
