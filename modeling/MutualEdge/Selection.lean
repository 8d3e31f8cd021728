import Mathlib.Tactic.Linarith
import Mathlib.Tactic.Ring
import MutualEdge.Draws

/-! Which parents `select_gene` can draw.

    After `get_newborn` the score list has `n_pops - 1` entries. A drawn position below its length
    selects the gene there, any other the last one. -/

namespace MutualEdge
open Checks Choice LinkRing

/-- `max` of `select_position`. -/
def selectMax (nPops : ℕ) : ℕ := u32 (M * u32 (nPops + 1)) / 2

/-- Some result of `rand()` makes `select_position` return the position. -/
def Drawable (nPops position : ℕ) : Prop := ∃ r, selectPosition nPops r = .ok position

/-- Two draws can select different parents among the genes that `get_newborn` leaves. -/
def TwoDrawable (nPops : ℕ) : Prop :=
  ∃ p1 p2, Drawable nPops p1 ∧ Drawable nPops p2 ∧ min p1 (nPops - 2) ≠ min p2 (nPops - 2)

theorem selectPosition_error {nPops r : ℕ} (hm : 0 < selectMax nPops) {e : Halt}
    (h : selectPosition nPops r = .error e) : e ≠ .sigfpe := by
  rcases bind_error.mp h with h | ⟨alpha, _, h⟩
  · rw [show getRandOf r (u32 (M * u32 (nPops + 1)) / 2) = _ from getRandOf_of_pos hm r] at h
    cases h
  · dsimp only at h
    split at h
    · cases h
    · obtain rfl := Except.error.inj h
      simp

theorem selectPosition_max_zero {nPops : ℕ} (h0 : selectMax nPops = 0) (r : ℕ) :
    selectPosition nPops r = .error .sigfpe := by
  have hr : getRandOf r (selectMax nPops) = .error .sigfpe := by rw [getRandOf, if_pos h0]
  exact bind_error.mpr (.inl hr)

/-- Without a wrap-around the drawn position is one place from the end for each `k` with
    `2 k (k + 1)` up to `alpha n_pops`. -/
theorem selectPosition_eq {nPops alpha k : ℕ} (hn : nPops ≤ 16383) (ha : alpha < 2 * (nPops + 1))
    (hk : k < nPops) (hs : Nat.sqrt (1 + 2 * alpha * nPops) = 2 * k + 1 ∨
      Nat.sqrt (1 + 2 * alpha * nPops) = 2 * k + 2) :
    selectPosition nPops alpha = .ok (nPops - k - 1) := by
  have hmax : u32 (M * u32 (nPops + 1)) / 2 = 2 * (nPops + 1) := by
    unfold u32 M
    omega
  have h8 : u32 (8 * alpha) = 8 * alpha := by
    unfold u32
    omega
  have hprod : 8 * alpha * nPops < 2 ^ 32 :=
    calc 8 * alpha * nPops ≤ 8 * (2 * (16383 + 1) - 1) * 16383 :=
          Nat.mul_le_mul (Nat.mul_le_mul_left 8 (by omega)) hn
      _ < 2 ^ 32 := by decide
  have hdiv : u32 (8 * alpha * nPops) / M = 2 * alpha * nPops := by
    rw [u32, Nat.mod_eq_of_lt hprod, show 8 * alpha * nPops = M * (2 * alpha * nPops) by
      unfold M; ring, Nat.mul_div_cancel_left _ (by decide)]
  have hkv : (Nat.sqrt (1 + 2 * alpha * nPops) - 1) / 2 = k := by omega
  unfold selectPosition
  rw [hmax]
  refine bind_ok.mpr ⟨alpha, ?_, ?_⟩
  · rw [getRandOf_of_pos (by omega), Nat.mod_eq_of_lt ha]
  dsimp only
  rw [h8, hdiv, hkv, if_pos hk]
  rfl

/-- The two genes of best score can be drawn. -/
theorem drawable_first_two {nPops : ℕ} (h3 : 3 ≤ nPops) (hn : nPops ≤ 16383) :
    Drawable nPops 0 ∧ Drawable nPops 1 := by
  obtain ⟨m, rfl⟩ := Nat.exists_eq_add_of_le' h3
  refine ⟨⟨2 * m + 7, ?_⟩, ⟨2 * m + 3, ?_⟩⟩
  · have hs : 2 * (m + 2) + 2 = Nat.sqrt (1 + 2 * (2 * m + 7) * (m + 3)) :=
      Nat.eq_sqrt.mpr ⟨by nlinarith, by nlinarith⟩
    rw [selectPosition_eq hn (by omega) (by omega) (.inr hs.symm)]
    congr 1
    omega
  · have hs : 2 * (m + 1) + 2 = Nat.sqrt (1 + 2 * (2 * m + 3) * (m + 3)) :=
      Nat.eq_sqrt.mpr ⟨by nlinarith, by nlinarith⟩
    rw [selectPosition_eq hn (by omega) (by omega) (.inr hs.symm)]
    congr 1
    omega

theorem getD_getLast {l : List ℕ} (hne : l ≠ []) (k : ℕ) :
    l.getD k (l.getLast hne) = l.getD (min k (l.length - 1)) 0 := by
  have hpos := List.length_pos_iff.mpr hne
  by_cases hk : k < l.length
  · rw [Nat.min_eq_left (by omega), List.getD_eq_getElem _ _ hk, List.getD_eq_getElem _ _ hk]
  · rw [Nat.min_eq_right (by omega), List.getD_eq_default _ _ (by omega),
      List.getD_eq_getElem _ _ (by omega), List.getLast_eq_getElem]

/-- The score list while a crossover is at work, and the gene each position selects from it. -/
structure Selects (cfg : Config) (b : ℕ) (p : Pop) (l : List ℕ) : Prop where
  holds : Holds p.genesByScore l
  perm : l.Perm (members cfg (.breeding b))
  nodup : l.Nodup
  length : l.length = cfg.nPops - 1
  selects : ∀ r i, selectGeneOf cfg p r = .ok i ↔
    l ≠ [] ∧ ∃ position, selectPosition cfg.nPops r = .ok position ∧
      l.getD (min position (cfg.nPops - 2)) 0 = i

section Breeding
variable {mode : Mode} {cfg : Config} {b : ℕ} {p : Pop}

/-- What a list of the remaining genes selects. -/
theorem GaInv.selects_of_holds (h : GaInv mode cfg (.breeding b, p)) {l : List ℕ}
    (hl : Holds p.genesByScore l) (hp : l.Perm (members cfg (.breeding b))) :
    Selects cfg b p l := by
  have hb : b ∈ List.range cfg.nPops := List.mem_range.mpr (h.inWork b rfl).1
  have hlen : l.length = cfg.nPops - 1 := by
    rw [hp.length_eq]
    simp [members, List.length_erase_of_mem hb]
  refine ⟨hl, hp, hp.nodup_iff.mpr (members_nodup cfg _), hlen, ?_⟩
  intro r i
  constructor
  · intro hr
    have hne : l ≠ [] := by
      have hmem := hp.mem_iff.mpr (selectGeneOf_mem h.listed h.members_length hr)
      exact List.ne_nil_of_mem hmem
    rw [selectGeneOf_eq hl (by rw [hp.length_eq]; exact h.members_length) hne] at hr
    obtain ⟨position, hpos, hr⟩ := bind_ok.mp hr
    rw [getD_getLast hne, hlen] at hr
    exact ⟨hne, position, hpos, pure_ok.mp hr⟩
  · rintro ⟨hne, position, hpos, rfl⟩
    rw [selectGeneOf_eq hl (by rw [hp.length_eq]; exact h.members_length) hne]
    refine bind_ok.mpr ⟨position, hpos, ?_⟩
    rw [getD_getLast hne, hlen]
    rfl

theorem GaInv.selects (h : GaInv mode cfg (.breeding b, p)) : ∃ l, Selects cfg b p l := by
  obtain ⟨l, hl, hp, _⟩ := h.listed.byScore
  exact ⟨l, h.selects_of_holds hl hp⟩

theorem selectGene_reads {r i : ℕ} (h : selectGeneOf cfg p r = .ok i) :
    Reads (selectGene cfg p) [r] i := (Reads.next _ r).bind_nil (Reads.lift h)

theorem selectOther_reads {r gene1 i : ℕ} (h : selectGeneOf cfg p r = .ok i) (hne : i ≠ gene1) :
    Reads (selectOther cfg p gene1) [r] i := by
  refine Reads.retry (bind_ok.mpr ⟨i, h, ?_⟩)
  rw [if_pos hne]
  rfl

theorem returns_selectGene {i : ℕ} :
    Returns (selectGene cfg p) i ↔ ∃ r, selectGeneOf cfg p r = .ok i := by
  constructor
  · intro h
    obtain ⟨r, _, h⟩ := h.bind
    exact ⟨r, returns_lift.mp h⟩
  · rintro ⟨r, hr⟩
    exact (selectGene_reads hr).returns

/-- A second parent that differs from the first was drawn at another place. -/
theorem Selects.twoDrawable {l : List ℕ} (h : Selects cfg b p l) {g1 g2 : ℕ}
    (h1 : Returns (selectGene cfg p) g1) (h2 : Returns (selectOther cfg p g1) g2) :
    TwoDrawable cfg.nPops := by
  obtain ⟨r1, hr1⟩ := returns_selectGene.mp h1
  obtain ⟨r2, hr2⟩ := h2.retry
  obtain ⟨j, hj, hr2⟩ := bind_ok.mp hr2
  rw [pure_ok, Option.ite_none_right_eq_some] at hr2
  obtain ⟨_, p1, hp1, hget1⟩ := (h.selects r1 g1).mp hr1
  obtain ⟨_, p2, hp2, hget2⟩ := (h.selects r2 j).mp hj
  refine ⟨p1, p2, ⟨r1, hp1⟩, ⟨r2, hp2⟩, ?_⟩
  intro heq
  exact hr2.1 (by rw [← hget1, ← hget2, heq])

end Breeding

end MutualEdge
