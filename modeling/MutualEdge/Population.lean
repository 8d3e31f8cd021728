import Mathlib.Algebra.Order.Field.Rat
import MutualEdge.EcmList
import MutualEdge.Gene
import MutualEdge.Lib.Ordered

/-! The population: the gene array and the three lists threaded through it.

    Genes are known by their index in the array. The `sort_gene_*` functions are one search and one
    insertion over a key; `Listed` says what the three lists hold, and `sortGene_listed` that sorting
    a gene that is on no list puts it on all three, in order. -/

namespace MutualEdge
open Checks LinkRing Ordered

structure Pop where
  genes : List Gene
  genesByUtil : Links ℕ
  genesByPower : Links ℕ
  genesByScore : Links ℕ

namespace Pop

def gene (p : Pop) (i : ℕ) : Gene := p.genes.getD i {}

def setGene (p : Pop) (i : ℕ) (g : Gene) : Pop := { p with genes := p.genes.set i g }

/-- `INIT_LIST_HEAD` of the three links of a gene. -/
def initLists (p : Pop) (i : ℕ) : Pop :=
  { p with
    genesByUtil := initListHead p.genesByUtil (some i)
    genesByPower := initListHead p.genesByPower (some i)
    genesByScore := initListHead p.genesByScore (some i) }

/-- `list_del_init` of the three links of a gene. -/
def delLists (p : Pop) (i : ℕ) : Pop :=
  { p with
    genesByUtil := listDelInit p.genesByUtil (some i)
    genesByPower := listDelInit p.genesByPower (some i)
    genesByScore := listDelInit p.genesByScore (some i) }

@[simp] theorem genes_setGene_length (p : Pop) (i : ℕ) (g : Gene) :
    (p.setGene i g).genes.length = p.genes.length := by simp [setGene]

theorem gene_setGene_self {p : Pop} {i : ℕ} (h : i < p.genes.length) (g : Gene) :
    (p.setGene i g).gene i = g := by simp [setGene, gene, h]

theorem gene_setGene_ne (p : Pop) {i j : ℕ} (h : j ≠ i) (g : Gene) :
    (p.setGene i g).gene j = p.gene j := by simp [setGene, gene, List.getElem?_set_ne h.symm]

@[simp] theorem setGene_setGene (p : Pop) (i : ℕ) (g g' : Gene) :
    (p.setGene i g).setGene i g' = p.setGene i g' := by simp [setGene]

@[simp] theorem gene_initLists (p : Pop) (i j : ℕ) : (p.initLists i).gene j = p.gene j := rfl
@[simp] theorem gene_delLists (p : Pop) (i j : ℕ) : (p.delLists i).gene j = p.gene j := rfl
@[simp] theorem genes_initLists (p : Pop) (i : ℕ) : (p.initLists i).genes = p.genes := rfl
@[simp] theorem genes_delLists (p : Pop) (i : ℕ) : (p.delLists i).genes = p.genes := rfl

end Pop

/-! ### Sorting a gene in -/

/-- The function the three `sort_gene_*` share: take the gene off the list, look for the first gene
    with a larger key, link the gene in before it, or at the tail when there is none. -/
def sortGeneBy (key : Gene → ℚ) (p : Pop) (r : Links ℕ) (i : ℕ) : Except Halt (Links ℕ) :=
  let r := listDelInit r (some i)
  match listForEach r (p.genes.length + 1) (fun (_ : Unit) j =>
      if key (p.gene i) < key (p.gene j) then .error j else .ok ()) () with
  | some (.error j) => .ok (listAddTail r (some i) (some j))
  | some (.ok _) => .ok (listAddTail r (some i) none)
  | none => .error .endless

def sortGeneUtil (p : Pop) (i : ℕ) : Except Halt Pop := do
  let r ← sortGeneBy (fun g => g.util) p p.genesByUtil i
  return { p with genesByUtil := r }

def sortGenePower (p : Pop) (i : ℕ) : Except Halt Pop := do
  let r ← sortGeneBy (fun g => g.power) p p.genesByPower i
  return { p with genesByPower := r }

def sortGeneScore (p : Pop) (i : ℕ) : Except Halt Pop := do
  let r ← sortGeneBy (fun g => g.score) p p.genesByScore i
  return { p with genesByScore := r }

def sortGene (p : Pop) (i : ℕ) : Except Halt Pop := do
  let p ← sortGeneUtil p i
  let p ← sortGenePower p i
  sortGeneScore p i

/-! ### What the lists hold -/

/-- The ring holds exactly the members, each once, and their keys do not decrease. -/
def ListedBy (key : ℕ → ℚ) (r : Links ℕ) (members : List ℕ) : Prop :=
  ∃ l, Holds r l ∧ l.Perm members ∧ ByKey key l

/-- All three lists hold exactly the members, each in the order of its key. -/
structure Listed (p : Pop) (members : List ℕ) : Prop where
  byUtil : ListedBy (fun i => (p.gene i).util) p.genesByUtil members
  byPower : ListedBy (fun i => (p.gene i).power) p.genesByPower members
  byScore : ListedBy (fun i => (p.gene i).score) p.genesByScore members

/-- A gene on none of the lists, its links closed on themselves. -/
structure Unlisted (p : Pop) (i : ℕ) : Prop where
  byUtil : Isolated p.genesByUtil i
  byPower : Isolated p.genesByPower i
  byScore : Isolated p.genesByScore i

theorem ListedBy.congr {key key' : ℕ → ℚ} {r : Links ℕ} {members : List ℕ}
    (h : ListedBy key r members) (hk : ∀ i ∈ members, key' i = key i) : ListedBy key' r members := by
  obtain ⟨l, hl, hp, hs⟩ := h
  refine ⟨l, hl, hp, hs.imp_of_mem ?_⟩
  intro a b ha hb hab
  rwa [hk a (hp.mem_iff.mp ha), hk b (hp.mem_iff.mp hb)]

theorem ListedBy.perm {key : ℕ → ℚ} {r : Links ℕ} {m m' : List ℕ} (h : ListedBy key r m)
    (hm : m.Perm m') : ListedBy key r m' := by
  obtain ⟨l, hl, hp, hs⟩ := h
  exact ⟨l, hl, hp.trans hm, hs⟩

theorem Listed.perm {p : Pop} {m m' : List ℕ} (h : Listed p m) (hm : m.Perm m') : Listed p m' :=
  ⟨h.byUtil.perm hm, h.byPower.perm hm, h.byScore.perm hm⟩

/-- Rewriting a gene that is not listed leaves the lists as they are. -/
theorem Listed.setGene {p : Pop} {members : List ℕ} (h : Listed p members) {i : ℕ}
    (hi : i ∉ members) (g : Gene) : Listed (p.setGene i g) members := by
  have hg : ∀ j ∈ members, (p.setGene i g).gene j = p.gene j := by
    intro j hj
    refine p.gene_setGene_ne ?_ g
    rintro rfl
    exact hi hj
  exact ⟨h.byUtil.congr fun j hj => by rw [hg j hj], h.byPower.congr fun j hj => by rw [hg j hj],
    h.byScore.congr fun j hj => by rw [hg j hj]⟩

theorem Unlisted.setGene {p : Pop} {i : ℕ} (h : Unlisted p i) (j : ℕ) (g : Gene) :
    Unlisted (p.setGene j g) i :=
  ⟨h.byUtil, h.byPower, h.byScore⟩

theorem ListedBy.initListHead {key : ℕ → ℚ} {r : Links ℕ} {members : List ℕ}
    (h : ListedBy key r members) {i : ℕ} (hi : i ∉ members) :
    ListedBy key (initListHead r (some i)) members := by
  obtain ⟨l, hl, hp, hs⟩ := h
  exact ⟨l, initListHead_holds hl fun hm => hi (hp.mem_iff.mp hm), hp, hs⟩

theorem Listed.initLists {p : Pop} {members : List ℕ} (h : Listed p members) {i : ℕ}
    (hi : i ∉ members) : Listed (p.initLists i) members ∧ Unlisted (p.initLists i) i :=
  ⟨⟨h.byUtil.initListHead hi, h.byPower.initListHead hi, h.byScore.initListHead hi⟩,
    ⟨initListHead_isolated _ i, initListHead_isolated _ i, initListHead_isolated _ i⟩⟩

theorem ListedBy.delInit {key : ℕ → ℚ} {r : Links ℕ} {members : List ℕ}
    (h : ListedBy key r members) {i : ℕ} (hi : i ∈ members) :
    ListedBy key (listDelInit r (some i)) (members.erase i) := by
  obtain ⟨l, hl, hp, hs⟩ := h
  obtain ⟨l₁, l₂, hsplit⟩ := List.append_of_mem (hp.mem_iff.mpr hi)
  subst hsplit
  refine ⟨l₁ ++ l₂, listDelInit_holds hl, ?_, ?_⟩
  · have hperm : (i :: (l₁ ++ l₂)).Perm members := List.perm_middle.symm.trans hp
    exact List.perm_cons i |>.mp (hperm.trans (List.perm_cons_erase hi))
  · exact hs.sublist ((List.sublist_cons_self i l₂).append_left l₁)

/-- Taking a gene off the lists leaves the others on them, in order. -/
theorem Listed.delLists {p : Pop} {members : List ℕ} (h : Listed p members) {i : ℕ}
    (hi : i ∈ members) :
    Listed (p.delLists i) (members.erase i) ∧ Unlisted (p.delLists i) i :=
  ⟨⟨h.byUtil.delInit hi, h.byPower.delInit hi, h.byScore.delInit hi⟩,
    ⟨listDelInit_removes _ i, listDelInit_removes _ i, listDelInit_removes _ i⟩⟩

/-! ### What sorting does -/

/-- Sorting an isolated gene in is the insertion by key. -/
theorem sortGeneBy_holds (key : Gene → ℚ) {p : Pop} {r : Links ℕ} {l : List ℕ} {i : ℕ}
    (hl : Holds r l) (hi : i ∉ l) (hiso : Isolated r i) (hlen : l.length ≤ p.genes.length) :
    ∃ r', sortGeneBy key p r i = .ok r' ∧ Holds r' (insertKey (fun i => key (p.gene i)) i l) := by
  have hbody : (fun (_ : Unit) j => if key (p.gene i) < key (p.gene j) then Except.error j
      else Except.ok ()) = beats (fun i => key (p.gene i)) i := rfl
  simp only [sortGeneBy, listDelInit_isolated hiso, hbody,
    listForEach_eq hl (Nat.lt_succ_of_le hlen)]
  cases hsearch : l.foldlM (beats (fun i => key (p.gene i)) i) () with
  | error j =>
    obtain ⟨l₁, l₂, rfl, hins⟩ := search_eq_some _ hsearch
    exact ⟨_, rfl, hins ▸ listAddTail_entry hl hi⟩
  | ok _ =>
    have hins := search_eq_none _ hsearch
    exact ⟨_, rfl, hins ▸ listAddTail_head hl hi⟩

/-- Sorting an isolated gene in puts it on the list, which stays in order. -/
theorem sortGeneBy_listed (key : Gene → ℚ) {p : Pop} {r : Links ℕ} {members : List ℕ} {i : ℕ}
    (h : ListedBy (fun i => key (p.gene i)) r members) (hi : i ∉ members) (hiso : Isolated r i)
    (hlen : members.length ≤ p.genes.length) :
    ∃ r', sortGeneBy key p r i = .ok r' ∧ ListedBy (fun i => key (p.gene i)) r' (i :: members) := by
  obtain ⟨l, hl, hp, hs⟩ := h
  obtain ⟨r', hr', hl'⟩ := sortGeneBy_holds key hl (fun hm => hi (hp.mem_iff.mp hm)) hiso
    (by rw [hp.length_eq]; exact hlen)
  exact ⟨r', hr', _, hl', (insertKey_perm _ i l).trans (hp.cons i), byKey_insertKey _ i hs⟩

/-- Sorting a gene that is on no list succeeds, puts it on all three in order and rewrites no
    gene. -/
theorem sortGene_listed {p : Pop} {members : List ℕ} {i : ℕ} (h : Listed p members)
    (hi : i ∉ members) (hu : Unlisted p i) (hlen : members.length ≤ p.genes.length) :
    ∃ p', sortGene p i = .ok p' ∧ p'.genes = p.genes ∧ Listed p' (i :: members) := by
  obtain ⟨ru, hru, hlu⟩ := sortGeneBy_listed (fun g => g.util) h.byUtil hi hu.byUtil hlen
  obtain ⟨rp, hrp, hlp⟩ := sortGeneBy_listed (fun g => g.power)
    (p := { p with genesByUtil := ru }) h.byPower hi hu.byPower hlen
  obtain ⟨rs, hrs, hls⟩ := sortGeneBy_listed (fun g => g.score)
    (p := { p with genesByUtil := ru, genesByPower := rp }) h.byScore hi hu.byScore hlen
  refine ⟨{ p with genesByUtil := ru, genesByPower := rp, genesByScore := rs }, ?_, rfl,
    ⟨hlu, hlp, hls⟩⟩
  simp only [sortGene, sortGeneUtil, sortGenePower, sortGeneScore, hru, bind, Except.bind, pure,
    Except.pure]
  rw [hrp]
  simp only
  rw [hrs]

/-- Sorting a gene in inserts it by its score into the score list. -/
theorem sortGene_byScore {p p' : Pop} {l : List ℕ} {i : ℕ} (hl : Holds p.genesByScore l) (hi : i ∉ l)
    (hu : Unlisted p i) (hlen : l.length ≤ p.genes.length) (h : sortGene p i = .ok p') :
    Holds p'.genesByScore (insertKey (fun i => (p.gene i).score) i l) := by
  obtain ⟨q, hq, h⟩ := bind_ok.mp h
  obtain ⟨q', hq', h⟩ := bind_ok.mp h
  obtain ⟨ru, _, hq⟩ := bind_ok.mp hq
  obtain ⟨rp, _, hq'⟩ := bind_ok.mp hq'
  obtain ⟨rs, hrs, h⟩ := bind_ok.mp h
  obtain rfl := pure_ok.mp hq
  obtain rfl := pure_ok.mp hq'
  obtain rfl := pure_ok.mp h
  obtain ⟨rs', hrs', hl'⟩ := sortGeneBy_holds (fun g => g.score)
    (p := { p with genesByUtil := ru, genesByPower := rp }) hl hi hu.byScore hlen
  obtain rfl := Except.ok.inj (hrs'.symm.trans hrs)
  exact hl'

end MutualEdge
