import Mathlib.Data.List.Sort
import Mathlib.Tactic.Common

/-! Lists kept in the order of a key.

    An element goes in before the first one with a strictly larger key, so equal keys stay in order of
    arrival. The insertion keeps the order (`pairwise_insertKey`), it is what a linear search for that
    element computes (`search_eq_some`, `search_eq_none`), and replacing the largest key by one that is
    no larger lowers the sorted vector of keys pointwise (`forall₂_replaceMax`). -/

namespace Ordered

variable {α κ : Type} [LinearOrder κ] (key : α → κ)

/-- Insert before the first element with a strictly larger key. -/
def insertKey (a : α) (l : List α) : List α := l.orderedInsert (fun a b => key a < key b) a

/-- The keys do not decrease along the list. -/
def ByKey (l : List α) : Prop := l.Pairwise fun a b => key a ≤ key b

/-- One comparison of the linear search for the place of `a`: stop at a larger key. -/
def beats (a : α) (_ : Unit) (b : α) : Except α Unit := if key a < key b then .error b else .ok ()

theorem insertKey_perm (a : α) (l : List α) : (insertKey key a l).Perm (a :: l) :=
  List.perm_orderedInsert _ a l

theorem mem_insertKey {a b : α} {l : List α} : b ∈ insertKey key a l ↔ b = a ∨ b ∈ l :=
  List.mem_orderedInsert _

/-- The insertion keeps the order. -/
theorem byKey_insertKey (a : α) {l : List α} (h : ByKey key l) : ByKey key (insertKey key a l) := by
  induction l with
  | nil => exact List.pairwise_singleton _ a
  | cons b l ih =>
    have hl := List.pairwise_cons.mp h
    unfold insertKey
    rw [List.orderedInsert_cons]
    by_cases hab : key a < key b
    · rw [if_pos hab]
      refine List.pairwise_cons.mpr ⟨?_, h⟩
      intro c hc
      rcases List.mem_cons.mp hc with rfl | hc
      · exact hab.le
      · exact hab.le.trans (hl.1 c hc)
    · rw [if_neg hab]
      refine List.pairwise_cons.mpr ⟨?_, ih hl.2⟩
      intro c hc
      rcases (mem_insertKey key).mp hc with rfl | hc
      · exact not_lt.mp hab
      · exact hl.1 c hc

/-- The search that stops at `b` has found the place where the insertion puts `a`. -/
theorem search_eq_some {a b : α} {l : List α} (h : l.foldlM (beats key a) () = .error b) :
    ∃ l₁ l₂, l = l₁ ++ b :: l₂ ∧ insertKey key a l = l₁ ++ a :: b :: l₂ := by
  induction l with
  | nil => simp [pure, Except.pure] at h
  | cons c l ih =>
    rw [List.foldlM_cons] at h
    unfold insertKey
    rw [List.orderedInsert_cons]
    by_cases hac : key a < key c
    · simp only [beats, hac, if_true, bind, Except.bind, Except.error.injEq] at h
      subst h
      exact ⟨[], l, rfl, if_pos hac⟩
    · simp only [beats, hac, if_false, bind, Except.bind] at h
      obtain ⟨l₁, l₂, hl, hi⟩ := ih h
      refine ⟨c :: l₁, l₂, by rw [hl, List.cons_append], ?_⟩
      rw [if_neg hac, List.cons_append]
      exact congrArg (c :: ·) hi

/-- The search that runs through has found that `a` goes to the tail. -/
theorem search_eq_none {a : α} {l : List α} (h : l.foldlM (beats key a) () = .ok ()) :
    insertKey key a l = l ++ [a] := by
  induction l with
  | nil => rfl
  | cons c l ih =>
    rw [List.foldlM_cons] at h
    unfold insertKey
    rw [List.orderedInsert_cons]
    by_cases hac : key a < key c
    · simp [beats, hac, bind, Except.bind] at h
    · simp only [beats, hac, if_false, bind, Except.bind] at h
      rw [if_neg hac, List.cons_append]
      exact congrArg (c :: ·) (ih h)

/-! ### Sorted vectors of keys -/

/-- Dropping the first of an ordered list lowers nothing. -/
theorem forall₂_shift {l : List κ} {b m : κ} (h : (b :: l ++ [m]).Pairwise (· ≤ ·)) :
    List.Forall₂ (· ≤ ·) (b :: l) (l ++ [m]) := by
  induction l generalizing b with
  | nil =>
    have hbm : b ≤ m := by simpa using h
    exact .cons hbm .nil
  | cons c l ih =>
    have hb := List.pairwise_cons.mp h
    exact .cons (hb.1 c (by simp)) (ih hb.2)

/-- Replacing the last of an ordered vector by something no larger lowers the vector pointwise. -/
theorem forall₂_replaceMax {x m : κ} (hx : x ≤ m) {l : List κ}
    (h : (l ++ [m]).Pairwise (· ≤ ·)) : List.Forall₂ (· ≤ ·) (insertKey id x l) (l ++ [m]) := by
  induction l with
  | nil => exact .cons hx .nil
  | cons b l ih =>
    unfold insertKey
    rw [List.orderedInsert_cons]
    by_cases hxb : x < b
    · rw [if_pos (show id x < id b from hxb)]
      exact .cons hxb.le (forall₂_shift h)
    · rw [if_neg (show ¬ id x < id b from hxb)]
      exact .cons le_rfl (ih (List.pairwise_cons.mp h).2)

/-- The sorted vector of the keys of `l`. -/
def sortedKeys (l : List α) : List κ := (l.map key).insertionSort (· ≤ ·)

/-- Reading off the keys of a list in key order gives the sorted vector of any permutation of it. -/
theorem sortedKeys_eq {l l' : List α} (hp : l.Perm l') (hs : ByKey key l) :
    sortedKeys key l' = l.map key := by
  refine List.Perm.eq_of_pairwise' (r := (· ≤ ·)) (List.pairwise_insertionSort _ _) ?_ ?_
  · exact List.pairwise_map.mpr hs
  · exact (List.perm_insertionSort _ _).trans (hp.map key).symm

theorem map_insertKey (a : α) (l : List α) :
    (insertKey key a l).map key = insertKey id (key a) (l.map key) :=
  List.map_orderedInsert _ _ _ _ _ (fun _ _ => Iff.rfl) (fun _ _ => Iff.rfl)

/-- Among its equals an element goes to the end. -/
theorem insertKey_replicate (a : α) (n : ℕ) :
    insertKey key a (List.replicate n a) = List.replicate (n + 1) a := by
  induction n with
  | zero => rfl
  | succ n ih =>
    rw [List.replicate_succ, insertKey, List.orderedInsert_cons, if_neg (lt_irrefl _)]
    exact congrArg (a :: ·) ih

/-- Inserting an element that stands for another one inserts that one. -/
theorem map_insertKey_comp {β : Type} (f : β → α) (b : β) (l : List β) :
    (insertKey (fun b => key (f b)) b l).map f = insertKey key (f b) (l.map f) :=
  List.map_orderedInsert _ _ _ _ _ (fun _ _ => Iff.rfl) (fun _ _ => Iff.rfl)

/-- Related lists whose elements have the same keys take a new pair at the same place. -/
theorem forall₂_insertKey {β : Type} {R : α → β → Prop} {key' : β → κ}
    (hkey : ∀ a b, R a b → key' b = key a) {a : α} {b : β} (h : R a b) {l : List α} {l' : List β}
    (hl : List.Forall₂ R l l') : List.Forall₂ R (insertKey key a l) (insertKey key' b l') := by
  unfold insertKey
  induction hl with
  | nil => exact .cons h .nil
  | @cons c d l l' hcd hl ih =>
    rw [List.orderedInsert_cons, List.orderedInsert_cons, hkey a b h, hkey c d hcd]
    split
    · exact .cons h (.cons hcd hl)
    · exact .cons hcd ih

end Ordered
