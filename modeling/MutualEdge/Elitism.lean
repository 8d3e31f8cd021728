import MutualEdge.DeadEnds
import MutualEdge.Export
import MutualEdge.Ranking

/-! What a run exports is the best it has seen.

    A gene that passes both checks may be inserted, be rejected for its score, or be inserted and be
    replaced later. `History` collects all of them along a run. Some listed gene scores no more than any
    of them, since a rejected child is beaten by a parent on the lists and only the last gene of the
    score list is ever replaced. -/

namespace MutualEdge
open Checks Choice LinkRing

/-- The gene passes both checks in the step: `init_gene` inserts it, or it is a child that `crossover`
    inserts, or a feasible one that it rejects. -/
inductive Tests (mode : Mode) (cfg : Config) : Phase × Pop → Phase × Pop → Gene → Prop where
  | place {k p p'} : Tests mode cfg (.trying k, p) (.fresh (k + 1), p') (p'.gene k)
  | accept {b p p'} : Tests mode cfg (.breeding b, p) (.boundary, p') (p'.gene b)
  | reject {b p p'} (h : (p'.gene b).Valid mode cfg) :
      Tests mode cfg (.breeding b, p) (.breeding b, p') (p'.gene b)

/-- A run to a state, with the genes that have passed both checks. -/
inductive History (mode : Mode) (cfg : Config) : Set Gene → Phase × Pop → Prop where
  | start : History mode cfg ∅ (.fresh 0, emptyPop cfg.nPops)
  | step {T s s'} (h : History mode cfg T s) (hs : GaStep mode cfg s s') :
      History mode cfg (T ∪ {g | Tests mode cfg s s' g}) s'

section History
variable {mode : Mode} {cfg : Config}

theorem History.reachable {T : Set Gene} {s : Phase × Pop} (h : History mode cfg T s) :
    (gaSystem mode cfg).Reachable s := by
  induction h with
  | start => exact .of_init _ rfl
  | step _ hs ih => exact ih.steps (.single hs)

/-- Every reachable state has a history. -/
theorem exists_history {s : Phase × Pop} (h : (gaSystem mode cfg).Reachable s) :
    ∃ T, History mode cfg T s := by
  obtain ⟨s₀, rfl, hr⟩ := h
  induction hr with
  | refl => exact ⟨∅, .start⟩
  | tail _ hs ih =>
    obtain ⟨T, hT⟩ := ih
    exact ⟨_, hT.step hs⟩

/-- A feasible child is rejected only for a score above that of one of its parents. -/
theorem rejected_beaten {b : ℕ} {p p' : Pop} (hinv : GaInv mode cfg (.breeding b, p))
    (h : Returns (attempt mode cfg b p) (false, p')) (hv : (p'.gene b).Valid mode cfg) :
    ∃ i ∈ members cfg (.breeding b), (p.gene i).score ≤ (p'.gene b).score := by
  obtain ⟨g1, g2, kr, kc, km, hsel1, hsel2, -, h⟩ := attempt_returns h
  obtain ⟨h1, h2, _⟩ := hinv.parents hsel1 hsel2
  have hlen : b < p.genes.length := hinv.inWork_lt rfl
  obtain ⟨⟨hr, hc, hm⟩, hcase⟩ := doCrossover_cases hlen (ne_inWork rfl h1) (ne_inWork rfl h2) h
  set child := inheritGene cfg (p.gene b) (p.gene g1) (p.gene g2) kr kc km with hchild
  -- what is left in the newborn's place is the child with other cached fields
  have hleft : ∃ c : Cached, p'.gene b = { child with toCached := c } := by
    rcases hcase with ⟨-, rfl⟩ | ⟨d, g, heval, ⟨-, rfl⟩ | ⟨-, hd, -⟩⟩
    · exact ⟨child.toCached, Pop.gene_setGene_self hlen _⟩
    · exact ⟨_, (Pop.gene_setGene_self hlen _).trans (checkUtilpower_ok heval).2⟩
    · cases hd
  obtain ⟨c, hc'⟩ := hleft
  have hmem : checkMemusage cfg child = true := by
    have hv' := hv.memory
    rw [hc'] at hv'
    exact hv'
  have heval : checkUtilpower mode cfg child = .ok (true, p'.gene b) := by
    have hv' := hv.fresh child.toCached
    rwa [hc'] at hv' ⊢
  have hnot : ¬ Breeds mode cfg p b g1 g2 kr kc km := by
    intro hb
    obtain ⟨q, hq⟩ := (doCrossover_true_iff hinv h1 h2 hr hc hm).mpr hb
    cases h.symm.trans hq
  by_contra hall
  push Not at hall
  exact hnot ⟨hmem, _, heval, (not_more_iff hinv h1 h2 h1 hr hc hm heval).mpr (hall g1 h1).le,
    (not_more_iff hinv h1 h2 h2 hr hc hm heval).mpr (hall g2 h2).le⟩

/-- What has passed both checks is valid. -/
theorem History.evaluated {T : Set Gene} {s : Phase × Pop} (h : History mode cfg T s) :
    ∀ g ∈ T, g.Valid mode cfg ∧ g.Shaped cfg := by
  induction h with
  | start => exact fun g hg => absurd hg (Set.notMem_empty g)
  | step h hs ih =>
    have hinv := reachable_gaInv h.reachable
    have hinv' := gaInv_step hinv hs
    rintro g (hg | hg)
    · exact ih g hg
    · cases hg with
      | place =>
        exact ⟨hinv'.valid _ List.self_mem_range_succ, hinv'.shaped _ List.self_mem_range_succ⟩
      | accept =>
        have hb := List.mem_range.mpr (hinv.inWork _ rfl).1
        exact ⟨hinv'.valid _ hb, hinv'.shaped _ hb⟩
      | reject hv => exact ⟨hv, (hinv'.inWork _ rfl).2⟩

theorem History.scoreKind {T : Set Gene} {s : Phase × Pop} (h : History mode cfg T s)
    (hpriced : cfg.Priced) {g : Gene} (hg : g ∈ T) : g.scoreKind = .number :=
  ((h.evaluated g hg).1.scoreKind (h.evaluated g hg).2).mpr hpriced

/-- Every gene tested so far is matched by a listed one, and every listed one has been tested. A
    population of one is left without a gene to match while its only gene is bred anew. -/
structure Elitist (cfg : Config) (T : Set Gene) (s : Phase × Pop) : Prop where
  matched : ∀ g ∈ T, (∃ i ∈ members cfg s.1, (s.2.gene i).score ≤ g.score) ∨
    ∃ b, s.1 = .breeding b ∧ members cfg s.1 = []
  tested : ∀ i ∈ members cfg s.1, s.2.gene i ∈ T

/-- A step that keeps the members and tests genes that a member matches. -/
theorem Elitist.keep {T T' : Set Gene} {phase phase' : Phase} {p p' : Pop}
    (h : Elitist cfg T (phase, p)) (hm : members cfg phase' = members cfg phase)
    (hp : ∀ b, phase = .breeding b → phase' = .breeding b)
    (hframe : ∀ i ∈ members cfg phase, p'.gene i = p.gene i)
    (hT : ∀ g ∈ T', ∃ i ∈ members cfg phase, (p.gene i).score ≤ g.score) :
    Elitist cfg (T ∪ T') (phase', p') := by
  have hlisted : ∀ g : Gene, (∃ i ∈ members cfg phase, (p.gene i).score ≤ g.score) →
      ∃ i ∈ members cfg phase', (p'.gene i).score ≤ g.score := by
    rintro g ⟨i, hi, hle⟩
    exact ⟨i, hm ▸ hi, (hframe i hi).symm ▸ hle⟩
  refine ⟨?_, fun i hi => ?_⟩
  · rintro g (hg | hg)
    · rcases h.matched g hg with hold | ⟨b, hb, hnil⟩
      · exact .inl (hlisted g hold)
      · exact .inr ⟨b, hp b hb, hm.trans hnil⟩
    · exact .inl (hlisted g (hT g hg))
  · have hi' : i ∈ members cfg phase := hm ▸ hi
    rw [show (phase', p').2.gene i = p.gene i from hframe i hi']
    exact .inl (h.tested i hi')

/-- A step that adds a tested gene to the members. -/
theorem Elitist.add {T : Set Gene} {phase phase' : Phase} {p p' : Pop} {w : ℕ}
    (h : Elitist cfg T (phase, p)) (hm : (w :: members cfg phase).Perm (members cfg phase'))
    (hsome : ∀ b, phase = .breeding b → members cfg phase ≠ [])
    (hframe : ∀ i ∈ members cfg phase, p'.gene i = p.gene i) {T' : Set Gene}
    (hT : ∀ g, g ∈ T' ↔ g = p'.gene w) : Elitist cfg (T ∪ T') (phase', p') := by
  refine ⟨?_, fun i hi => ?_⟩
  · rintro g (hg | hg)
    · rcases h.matched g hg with ⟨i, hi, hle⟩ | ⟨b, hb, hnil⟩
      · exact .inl ⟨i, hm.mem_iff.mp (List.mem_cons_of_mem w hi), (hframe i hi).symm ▸ hle⟩
      · exact absurd hnil (hsome b hb)
    · obtain rfl := (hT g).mp hg
      exact .inl ⟨w, hm.mem_iff.mp List.mem_cons_self, le_rfl⟩
  · rcases List.mem_cons.mp (hm.mem_iff.mpr hi) with rfl | hi
    · exact .inr ((hT _).mpr rfl)
    · rw [show (phase', p').2.gene i = p.gene i from hframe i hi]
      exact .inl (h.tested i hi)

theorem Elitist.step {T : Set Gene} {s s' : Phase × Pop} (hinv : GaInv mode cfg s)
    (h : Elitist cfg T s) (hs : GaStep mode cfg s s') :
    Elitist cfg (T ∪ {g | Tests mode cfg s s' g}) s' := by
  have hframe : ∀ i ∈ members cfg s.1, s'.2.gene i = s.2.gene i := fun i hi => gaStep_frame hinv hs hi
  cases hs with
  | assign hk hg => exact h.keep rfl (by simp) hframe fun g hg => by cases hg
  | repair hr => exact h.keep rfl (by simp) hframe fun g hg => by cases hg
  | populated => exact h.keep rfl (by simp) hframe fun g hg => by cases hg
  | place hr =>
    refine h.add (range_succ_perm _) (by simp) hframe fun g => ⟨fun hg => ?_, ?_⟩
    · cases hg
      rfl
    · rintro rfl
      exact .place
  | @remove p p' b hb =>
    obtain ⟨rfl, l, _, hp, hsorted⟩ := getNewborn_spec hinv hb
    have hb' : b ∈ List.range cfg.nPops := hp.mem_iff.mp (by simp)
    refine ⟨?_, fun i hi => .inl (h.tested i (List.mem_of_mem_erase hi))⟩
    rintro g (hg | hg)
    · obtain ⟨i, hi, hle⟩ := (h.matched g hg).resolve_right (by simp)
      rcases List.eq_nil_or_concat l with rfl | ⟨l', j, rfl⟩
      · -- the only gene has been taken off the lists
        refine .inr ⟨b, rfl, ?_⟩
        have hlen := hp.length_eq
        rw [members, ← List.length_eq_zero_iff, List.length_erase_of_mem hb', ← hlen]
        rfl
      · refine .inl ?_
        by_cases hib : i = b
        · -- the gene taken off is no better than another one
          subst hib
          rw [List.concat_eq_append] at hp hsorted
          have hle' := (List.pairwise_append.mp hsorted).2.2 j (by simp) i (by simp)
          have hj : j ∈ List.range cfg.nPops := hp.mem_iff.mp (by simp)
          have hji : j ≠ i := by
            rintro rfl
            have hnd := hp.nodup_iff.mpr List.nodup_range
            exact (List.nodup_append.mp hnd).2.2 j (by simp) j (by simp) rfl
          exact ⟨j, (List.mem_erase_of_ne hji).mpr hj, hle'.trans hle⟩
        · exact ⟨i, (List.mem_erase_of_ne hib).mpr hi, hle⟩
    · cases hg
  | reject hr =>
    refine h.keep rfl (fun _ hb => hb) hframe fun g hg => ?_
    cases hg with
    | reject hv => exact rejected_beaten hinv hr hv
  | @accept b p p' hr =>
    obtain ⟨_, _, hg1⟩ := hinv.attempt hr
    obtain ⟨g1, hm1, _⟩ := hg1 rfl
    have hmem := List.mem_range.mpr (hinv.inWork b rfl).1
    refine h.add (List.perm_cons_erase hmem).symm (fun _ _ => List.ne_nil_of_mem hm1) hframe
      fun g => ⟨fun hg => ?_, ?_⟩
    · cases hg
      rfl
    · rintro rfl
      exact .accept

theorem History.elitist {T : Set Gene} {s : Phase × Pop} (h : History mode cfg T s) :
    Elitist cfg T s := by
  induction h with
  | start => exact ⟨fun _ hg => absurd hg (Set.notMem_empty _), by simp [members]⟩
  | step h hs ih => exact ih.step (reachable_gaInv h.reachable) hs

/-- Between two generations the gene of best score scores no more than any gene that has passed both
    checks so far, whether it was kept, replaced or rejected, and is one of them. -/
theorem History.best {T : Set Gene} {p : Pop} {i : ℕ} (h : History mode cfg T (.boundary, p))
    (hi : p.genesByScore.next none = some i) : p.gene i ∈ T ∧ ∀ g ∈ T, (p.gene i).score ≤ g.score := by
  have hinv := reachable_gaInv h.reachable
  have hlt := head_lt hinv hi
  obtain ⟨_, _, best, _, hends⟩ := exists_ends hinv (Nat.zero_lt_of_lt hlt)
  obtain rfl : i = best := Option.some.inj (hi.symm.trans hends.is_best)
  refine ⟨h.elitist.tested i (List.mem_range.mpr hlt), fun g hg => ?_⟩
  obtain ⟨j, hj, hle⟩ := (h.elitist.matched g hg).resolve_right (by simp)
  exact (hends.scoreMin j (List.mem_range.mp hj)).trans hle

end History

end MutualEdge
