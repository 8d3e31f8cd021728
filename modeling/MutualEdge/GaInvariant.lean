import MutualEdge.Rounds

/-! The invariant of the genetic algorithm.

    In every state a run passes through, the three lists hold exactly the genes placed so far (all of
    them but the newborn while a crossover is at work), every listed gene is valid and well shaped,
    and the gene in work is on no list. One lemma for each kind of round; `reachable_gaInv` for whole
    runs. -/

namespace MutualEdge
open Choice LinkRing

/-- The genes that are on the lists. -/
def members (cfg : Config) : Phase → List ℕ
  | .fresh k => List.range k
  | .trying k => List.range k
  | .boundary => List.range cfg.nPops
  | .breeding newborn => (List.range cfg.nPops).erase newborn

/-- The gene a retry loop works on. -/
def Phase.inWork : Phase → Option ℕ
  | .fresh _ => none
  | .trying k => some k
  | .boundary => none
  | .breeding newborn => some newborn

structure GaInv (mode : Mode) (cfg : Config) (s : Phase × Pop) : Prop where
  size : s.2.genes.length = cfg.nPops
  bounds : ∀ i ∈ members cfg s.1, i < cfg.nPops
  listed : Listed s.2 (members cfg s.1)
  shaped : ∀ i ∈ members cfg s.1, (s.2.gene i).Shaped cfg
  valid : ∀ i ∈ members cfg s.1, (s.2.gene i).Valid mode cfg
  inWork : ∀ w ∈ s.1.inWork, w < cfg.nPops ∧ (s.2.gene w).Shaped cfg
  unlisted : ∀ w, s.1 = .breeding w → Unlisted s.2 w

theorem members_nodup (cfg : Config) (phase : Phase) : (members cfg phase).Nodup := by
  cases phase with
  | fresh k => exact List.nodup_range
  | trying k => exact List.nodup_range
  | boundary => exact List.nodup_range
  | breeding newborn => exact List.nodup_range.erase newborn

/-- The gene in work is not a member. -/
theorem inWork_not_mem {cfg : Config} {phase : Phase} {w : ℕ} (h : w ∈ phase.inWork) :
    w ∉ members cfg phase := by
  cases phase with
  | fresh k => simp [Phase.inWork] at h
  | trying k =>
    obtain rfl : k = w := by simpa [Phase.inWork] using h
    simp [members]
  | boundary => simp [Phase.inWork] at h
  | breeding newborn =>
    obtain rfl : newborn = w := by simpa [Phase.inWork] using h
    exact List.nodup_range.not_mem_erase

theorem ne_inWork {cfg : Config} {phase : Phase} {w i : ℕ} (h : w ∈ phase.inWork)
    (hi : i ∈ members cfg phase) : i ≠ w := by
  rintro rfl
  exact inWork_not_mem h hi

theorem range_succ_perm (k : ℕ) : (k :: List.range k).Perm (List.range (k + 1)) := by
  rw [List.range_succ]
  exact (List.perm_append_singleton k _).symm

section Steps
variable {mode : Mode} {cfg : Config}

theorem GaInv.inWork_lt {s : Phase × Pop} (h : GaInv mode cfg s) {w : ℕ} (hw : w ∈ s.1.inWork) :
    w < s.2.genes.length := by
  rw [h.size]
  exact (h.inWork w hw).1

theorem GaInv.members_length {s : Phase × Pop} (h : GaInv mode cfg s) :
    (members cfg s.1).length ≤ s.2.genes.length := by
  rw [h.size]
  have hsub : members cfg s.1 ⊆ List.range cfg.nPops :=
    fun i hi => List.mem_range.mpr (h.bounds i hi)
  simpa using ((members_nodup cfg s.1).subperm hsub).length_le

/-- The parents of a crossover are two genes on the lists. -/
theorem GaInv.parents {s : Phase × Pop} (h : GaInv mode cfg s) {g1 g2 : ℕ}
    (h1 : Returns (selectGene cfg s.2) g1) (h2 : Returns (selectOther cfg s.2 g1) g2) :
    g1 ∈ members cfg s.1 ∧ g2 ∈ members cfg s.1 ∧ g2 ≠ g1 :=
  ⟨selectGene_mem h.listed h.members_length h1, selectOther_mem h.listed h.members_length h2⟩

/-- After a round every gene then listed is valid and well shaped. -/
theorem Round.all {members : List ℕ} {w : ℕ} {p p' : Pop} {done : Bool}
    (h : Round mode cfg members w p p' done) (hw : w ∉ members)
    (hs : ∀ i ∈ members, (p.gene i).Shaped cfg) (hv : ∀ i ∈ members, (p.gene i).Valid mode cfg) :
    ∀ i ∈ (if done then w :: members else members),
      (p'.gene i).Shaped cfg ∧ (p'.gene i).Valid mode cfg := by
  have hold : ∀ i ∈ members, (p'.gene i).Shaped cfg ∧ (p'.gene i).Valid mode cfg := by
    intro i hi
    have hne : i ≠ w := by
      rintro rfl
      exact hw hi
    rw [h.others i hne]
    exact ⟨hs i hi, hv i hi⟩
  intro i hi
  cases done with
  | false => exact hold i hi
  | true =>
    rcases List.mem_cons.mp hi with rfl | hi
    · exact ⟨h.shaped, h.valid rfl⟩
    · exact hold i hi

/-- A failed round keeps the invariant in its phase. -/
theorem GaInv.round_false {phase : Phase} {p p' : Pop} {w : ℕ} (h : GaInv mode cfg (phase, p))
    (hw : w ∈ phase.inWork) (hr : Round mode cfg (members cfg phase) w p p' false)
    (hu : phase = .breeding w → Unlisted p' w) : GaInv mode cfg (phase, p') where
  size := hr.size.trans h.size
  bounds := h.bounds
  listed := hr.listed
  shaped i hi := (hr.all (inWork_not_mem hw) h.shaped h.valid i hi).1
  valid i hi := (hr.all (inWork_not_mem hw) h.shaped h.valid i hi).2
  inWork w' hw' := by
    obtain rfl := Option.mem_unique hw hw'
    exact ⟨(h.inWork w hw).1, hr.shaped⟩
  unlisted w' hp := by
    obtain rfl := Option.mem_unique hw (by rw [show phase = _ from hp]; rfl : w' ∈ phase.inWork)
    exact hu hp

/-- A successful round leads to a phase whose members include the gene it worked on. -/
theorem GaInv.round_true {phase phase' : Phase} {p p' : Pop} {w : ℕ}
    (h : GaInv mode cfg (phase, p)) (hw : w ∈ phase.inWork)
    (hr : Round mode cfg (members cfg phase) w p p' true)
    (hm : (w :: members cfg phase).Perm (members cfg phase')) (hnone : phase'.inWork = none) :
    GaInv mode cfg (phase', p') := by
  have hall := hr.all (inWork_not_mem hw) h.shaped h.valid
  refine ⟨hr.size.trans h.size, ?_, hr.listed.perm hm, ?_, ?_, ?_, ?_⟩
  · intro i hi
    rcases List.mem_cons.mp (hm.mem_iff.mpr hi) with rfl | hi
    · exact (h.inWork i hw).1
    · exact h.bounds i hi
  · exact fun i hi => (hall i (hm.mem_iff.mpr hi)).1
  · exact fun i hi => (hall i (hm.mem_iff.mpr hi)).2
  · intro w' hw'
    simp [hnone] at hw'
  · rintro w' rfl
    simp [Phase.inWork] at hnone

theorem gaInv_init : GaInv mode cfg (.fresh 0, emptyPop cfg.nPops) where
  size := by simp [emptyPop]
  bounds := by simp [members]
  listed :=
    ⟨⟨[], listHead_holds, .nil, .nil⟩, ⟨[], listHead_holds, .nil, .nil⟩,
      ⟨[], listHead_holds, .nil, .nil⟩⟩
  shaped := by simp [members]
  valid := by simp [members]
  inWork := by simp [Phase.inWork]
  unlisted := by simp

/-! ### What the single steps keep -/

theorem GaInv.assign {k : ℕ} {p : Pop} {g : Gene} (h : GaInv mode cfg (.fresh k, p))
    (hk : k < cfg.nPops) (hg : Returns (assignGene cfg (p.gene k)) g) :
    GaInv mode cfg (.trying k, p.setGene k g) := by
  have hlen : k < p.genes.length := by rw [h.size]; exact hk
  have hnot : k ∉ List.range k := by simp
  have hgene : ∀ i ∈ List.range k, (p.setGene k g).gene i = p.gene i := by
    intro i hi
    exact p.gene_setGene_ne (by rintro rfl; exact hnot hi) g
  refine ⟨by simpa using h.size, h.bounds, h.listed.setGene hnot g, ?_, ?_, ?_, by simp⟩
  · intro i hi
    simp only [hgene i hi]
    exact h.shaped i hi
  · intro i hi
    simp only [hgene i hi]
    exact h.valid i hi
  · intro w hw
    obtain rfl : k = w := by simpa [Phase.inWork] using hw
    refine ⟨hk, ?_⟩
    simp only [Pop.gene_setGene_self hlen]
    exact assignGene_shaped hg

theorem GaInv.initTry {k : ℕ} {p p' : Pop} {done : Bool} (h : GaInv mode cfg (.trying k, p))
    (hr : Returns (initTry mode cfg k p) (done, p')) :
    Round mode cfg (List.range k) k p p' done := by
  exact initTry_round h.listed (by simp) (h.inWork_lt rfl) h.members_length (h.inWork k rfl).2 hr

/-- `get_newborn` takes the last gene of the score list, one of maximal score, off the lists. -/
theorem getNewborn_spec {p p' : Pop} {b : ℕ} (h : GaInv mode cfg (.boundary, p))
    (hb : getNewborn p = .ok (b, p')) :
    p' = p.delLists b ∧ ∃ l, Holds p.genesByScore (l ++ [b]) ∧
      (l ++ [b]).Perm (List.range cfg.nPops) ∧
      Ordered.ByKey (fun i => (p.gene i).score) (l ++ [b]) := by
  obtain ⟨l, hl, hp, hs⟩ := h.listed.byScore
  unfold getNewborn at hb
  rcases List.eq_nil_or_concat l with rfl | ⟨l, a, rfl⟩
  · have hprev : p.genesByScore.prev none = none := hl.path.2
    simp [hprev] at hb
  · rw [List.concat_eq_append] at hl hp hs
    have hprev : p.genesByScore.prev none = some a := hl.prev_sentinel
    simp only [hprev, Except.ok.injEq, Prod.mk.injEq] at hb
    obtain ⟨rfl, rfl⟩ := hb
    exact ⟨rfl, l, hl, hp, hs⟩

theorem GaInv.remove {b : ℕ} {p p' : Pop} (h : GaInv mode cfg (.boundary, p))
    (hb : getNewborn p = .ok (b, p')) : GaInv mode cfg (.breeding b, p') := by
  obtain ⟨rfl, l, _, hp, _⟩ := getNewborn_spec h hb
  have hmem : b ∈ List.range cfg.nPops := hp.mem_iff.mp (by simp)
  obtain ⟨hlisted, hun⟩ := h.listed.delLists hmem
  have hsub : ∀ i ∈ (List.range cfg.nPops).erase b, i ∈ List.range cfg.nPops :=
    fun i hi => List.mem_of_mem_erase hi
  refine ⟨h.size, fun i hi => h.bounds i (hsub i hi), hlisted,
    fun i hi => h.shaped i (hsub i hi), fun i hi => h.valid i (hsub i hi), ?_, ?_⟩
  · intro w hw
    obtain rfl : b = w := by simpa [Phase.inWork] using hw
    exact ⟨h.bounds b hmem, h.shaped b hmem⟩
  · intro w hw
    obtain rfl : b = w := by simpa using hw
    exact hun

theorem GaInv.attempt {b : ℕ} {p p' : Pop} {done : Bool} (h : GaInv mode cfg (.breeding b, p))
    (hr : Returns (attempt mode cfg b p) (done, p')) :
    Round mode cfg (members cfg (.breeding b)) b p p' done ∧ (done = false → Unlisted p' b) ∧
      (done = true → ∃ g1 ∈ members cfg (.breeding b), ∃ g2 ∈ members cfg (.breeding b), g1 ≠ g2 ∧
        (p'.gene b).score ≤ (p.gene g1).score ∧ (p'.gene b).score ≤ (p.gene g2).score) := by
  exact attempt_round h.listed (h.unlisted b rfl) (inWork_not_mem rfl) (h.inWork_lt rfl)
    h.members_length h.shaped (h.inWork b rfl).2 hr

/-- Every step of a run keeps the invariant. -/
theorem gaInv_step {s s' : Phase × Pop} (h : GaInv mode cfg s) (hs : GaStep mode cfg s s') :
    GaInv mode cfg s' := by
  cases hs with
  | assign hk hg => exact h.assign hk hg
  | repair hr => exact h.round_false rfl (h.initTry hr) (by simp)
  | place hr => exact h.round_true rfl (h.initTry hr) (range_succ_perm _) rfl
  | populated => exact ⟨h.size, h.bounds, h.listed, h.shaped, h.valid, by simp [Phase.inWork],
      by simp⟩
  | remove hb => exact h.remove hb
  | reject hr =>
    obtain ⟨hround, hun, _⟩ := h.attempt hr
    exact h.round_false rfl hround fun _ => hun rfl
  | accept hr =>
    have hmem := List.mem_range.mpr (h.inWork _ rfl).1
    exact h.round_true rfl (h.attempt hr).1 (List.perm_cons_erase hmem).symm rfl

/-- The invariant holds in every state of every run. -/
theorem reachable_gaInv {s : Phase × Pop} (h : (gaSystem mode cfg).Reachable s) :
    GaInv mode cfg s := by
  refine (gaSystem mode cfg).invariant ?_ (fun _ _ hs hstep => gaInv_step hs hstep) h
  rintro s rfl
  exact gaInv_init

/-- No step rewrites a gene that is on the lists. -/
theorem gaStep_frame {s s' : Phase × Pop} (h : GaInv mode cfg s) (hs : GaStep mode cfg s s') {i : ℕ}
    (hi : i ∈ members cfg s.1) : s'.2.gene i = s.2.gene i := by
  have hne : ∀ {w : ℕ}, w ∈ s.1.inWork → i ≠ w := fun hw => ne_inWork hw hi
  cases hs with
  | assign hk hg =>
    refine Pop.gene_setGene_ne _ ?_ _
    rintro rfl
    simp [members] at hi
  | repair hr => exact (h.initTry hr).others i (hne rfl)
  | place hr => exact (h.initTry hr).others i (hne rfl)
  | populated => rfl
  | remove hb =>
    obtain ⟨rfl, _⟩ := getNewborn_spec h hb
    rfl
  | reject hr => exact (h.attempt hr).1.others i (hne rfl)
  | accept hr => exact (h.attempt hr).1.others i (hne rfl)

/-! ### The genes of a run -/

/-- The genes of a run: those on the lists or in work in some state, and the child a crossover is about
    to check. -/
inductive InRun (mode : Mode) (cfg : Config) : Gene → Prop where
  | held {phase p i} (h : (gaSystem mode cfg).Reachable (phase, p))
      (hi : i ∈ members cfg phase ∨ i ∈ phase.inWork) : InRun mode cfg (p.gene i)
  | child {newborn p gene1 gene2 kr kc km}
      (h : (gaSystem mode cfg).Reachable (.breeding newborn, p))
      (h1 : Returns (selectGene cfg p) gene1) (h2 : Returns (selectOther cfg p gene1) gene2)
      (hpts : kr ≤ cfg.nTasks ∧ kc ≤ cfg.nTasks ∧ km ≤ cfg.nTasks) :
      InRun mode cfg (inheritGene cfg (p.gene newborn) (p.gene gene1) (p.gene gene2) kr kc km)

/-- Every gene of every run is well shaped. -/
theorem InRun.shaped {g : Gene} (h : InRun mode cfg g) : g.Shaped cfg := by
  cases h with
  | held h hi =>
    rcases hi with hi | hi
    · exact (reachable_gaInv h).shaped _ hi
    · exact ((reachable_gaInv h).inWork _ hi).2
  | child h h1 h2 hpts =>
    have hinv := reachable_gaInv h
    obtain ⟨hm1, hm2, _⟩ := hinv.parents h1 h2
    exact inheritGene_shaped (hinv.inWork _ rfl).2 (hinv.shaped _ hm1) (hinv.shaped _ hm2) hpts.1
      hpts.2.1 hpts.2.2

/-- Without a population there is no gene. -/
theorem InRun.pops_pos {g : Gene} (h : InRun mode cfg g) : 0 < cfg.nPops := by
  cases h with
  | held h hi =>
    rcases hi with hi | hi
    · exact Nat.zero_lt_of_lt ((reachable_gaInv h).bounds _ hi)
    · exact Nat.zero_lt_of_lt ((reachable_gaInv h).inWork _ hi).1
  | child h _ _ _ => exact Nat.zero_lt_of_lt ((reachable_gaInv h).inWork _ rfl).1

/-- Whatever `init_gene` draws for the first gene is a gene of a run. -/
theorem InRun.first {g : Gene} (hn : 0 < cfg.nPops) (h : Returns (assignGene cfg {}) g) :
    InRun mode cfg g := by
  have hlen : 0 < (emptyPop cfg.nPops).genes.length := by simpa [emptyPop] using hn
  have hempty : (emptyPop cfg.nPops).gene 0 = {} := by simp [emptyPop, Pop.gene, hn]
  have hstep : (gaSystem mode cfg).step (.fresh 0, emptyPop cfg.nPops)
      (.trying 0, (emptyPop cfg.nPops).setGene 0 g) := GaStep.assign hn (hempty ▸ h)
  rw [← Pop.gene_setGene_self hlen g]
  exact .held ((System.Reachable.of_init _ rfl).steps (.single hstep)) (.inr rfl)

end Steps

end MutualEdge
