import Mathlib.Data.List.Sort
import MutualEdge.Lib.LinkRing

/-! The intrusive list of `ecm_list.h`.

    Every `struct list_head` is a node with a forward and a backward link; `none` stands for the head
    declared with `LIST_HEAD`, `some a` for the member embedded in the structure `a` (`list_entry`
    maps the one to the other). The operations are the header's pointer writes in the header's order;
    each has one lemma that says what it does to the list the ring holds. -/

namespace MutualEdge
open LinkRing

variable {α : Type} [DecidableEq α]

def setNext (r : Links α) (n v : Option α) : Links α := { r with next := Function.update r.next n v }
def setPrev (r : Links α) (n v : Option α) : Links α := { r with prev := Function.update r.prev n v }

/-- `LIST_HEAD(name)`: the head points at itself. Nodes that `INIT_LIST_HEAD` has not reached yet
    are never followed; they get links to themselves as well. -/
def listHead : Links α := ⟨id, id⟩

/-- `INIT_LIST_HEAD(ptr)` -/
def initListHead (r : Links α) (ptr : Option α) : Links α := setPrev (setNext r ptr ptr) ptr ptr

/-- `__list_add(lnew, prev, next)` -/
def listAddRaw (r : Links α) (lnew prev next : Option α) : Links α :=
  setNext (setPrev (setNext (setPrev r next lnew) lnew next) lnew prev) prev lnew

/-- `list_add_tail(lnew, head)` -/
def listAddTail (r : Links α) (lnew head : Option α) : Links α :=
  listAddRaw r lnew (r.prev head) head

/-- `__list_del(prev, next)` -/
def listDelRaw (r : Links α) (prev next : Option α) : Links α :=
  setNext (setPrev r next prev) prev next

/-- `list_del_init(entry)` -/
def listDelInit (r : Links α) (entry : Option α) : Links α :=
  initListHead (listDelRaw r (r.prev entry) (r.next entry)) entry

/-- `list_for_each(pos, head)`: visit the nodes after the head until the head comes round again. -/
def listForEach {σ β : Type} (r : Links α) (fuel : ℕ) (body : σ → α → Except β σ) (s : σ) :
    Option (Except β σ) :=
  forEach r body fuel (r.next none) s

/-! ### What the operations do to the list held -/

omit [DecidableEq α] in
theorem listHead_holds : Holds (listHead : Links α) [] := ⟨List.nodup_nil, rfl, rfl⟩

theorem initListHead_isolated (r : Links α) (a : α) : Isolated (initListHead r (some a)) a := by
  simp [Isolated, initListHead, setNext, setPrev]

theorem initListHead_holds {r : Links α} {l : List α} (h : Holds r l) {a : α} (ha : a ∉ l) :
    Holds (initListHead r (some a)) l := by
  have hne : ∀ n ∈ (none : Option α) :: l.map some, n ≠ some a := by
    rintro n hn rfl
    exact ha (by simpa using hn)
  refine h.frame ?_ ?_ <;> intro n hn <;> simp [initListHead, setNext, setPrev, hne n hn]

/-- Deleting a node that is on no list changes nothing. -/
theorem listDelInit_isolated {r : Links α} {a : α} (h : Isolated r a) :
    listDelInit r (some a) = r := by
  obtain ⟨hn, hp⟩ := h
  have hnext : Function.update r.next (some a) (some a) = r.next := by
    rw [Function.update_eq_self_iff, hn]
  have hprev : Function.update r.prev (some a) (some a) = r.prev := by
    rw [Function.update_eq_self_iff, hp]
  simp [listDelInit, listDelRaw, initListHead, setNext, setPrev, hn, hp, hnext, hprev]

theorem listDelInit_removes (r : Links α) (a : α) : Isolated (listDelInit r (some a)) a :=
  initListHead_isolated _ a

omit [DecidableEq α] in
/-- The neighbours of an entry of a ring are other nodes. -/
theorem neighbours_ne {r : Links α} {a : α} {l₁ l₂ : List α} (h : Holds r (l₁ ++ a :: l₂)) :
    r.prev (some a) ≠ some a ∧ r.next (some a) ≠ some a := by
  have hpost := ((path_append r none l₁ a l₂ none).mp h.path).2
  refine ⟨(h.around.1 a (by simp)).symm, ?_⟩
  match l₂, hpost with
  | [], hpost => rw [hpost.1]; simp
  | b :: l₂, hpost =>
    rw [hpost.1]
    simpa using h.around.2.2 b (by simp)

theorem listDelInit_holds {r : Links α} {a : α} {l₁ l₂ : List α} (h : Holds r (l₁ ++ a :: l₂)) :
    Holds (listDelInit r (some a)) (l₁ ++ l₂) := by
  obtain ⟨hp, hn⟩ := neighbours_ne h
  refine h.remove ?_ ?_ ?_ ?_
  · simp [listDelInit, listDelRaw, initListHead, setNext, setPrev, hp]
  · simp [listDelInit, listDelRaw, initListHead, setNext, setPrev, hn]
  · intro n h1 h2
    simp [listDelInit, listDelRaw, initListHead, setNext, setPrev, h1, h2]
  · intro n h1 h2
    simp [listDelInit, listDelRaw, initListHead, setNext, setPrev, h1, h2]

/-- `list_add_tail` before an entry inserts there. -/
theorem listAddTail_entry {r : Links α} {a b : α} {l₁ l₂ : List α}
    (h : Holds r (l₁ ++ b :: l₂)) (ha : a ∉ l₁ ++ b :: l₂) :
    Holds (listAddTail r (some a) (some b)) (l₁ ++ a :: b :: l₂) := by
  have hab : a ≠ b := by rintro rfl; simp at ha
  have hpa : r.prev (some b) ≠ some a := by
    intro he
    rcases (((path_append r none l₁ b l₂ none).mp h.path).1).prev_mem with ⟨_, hnone⟩ | hin
    · simp [he] at hnone
    · rw [he] at hin
      exact ha (List.mem_append_left _ (by simpa using hin))
  refine h.insertBefore ha ?_ ?_ ?_ ?_ ?_ ?_
  · simp [listAddTail, listAddRaw, setNext, setPrev]
  · simp [listAddTail, listAddRaw, setNext, setPrev]
  · simp [listAddTail, listAddRaw, setNext, setPrev, hpa.symm]
  · simp [listAddTail, listAddRaw, setNext, setPrev, hab.symm]
  · intro n h1 h2
    simp [listAddTail, listAddRaw, setNext, setPrev, h1, h2]
  · intro n h1 h2
    simp [listAddTail, listAddRaw, setNext, setPrev, h1, h2]

/-- `list_add_tail` before the head inserts at the tail. -/
theorem listAddTail_head {r : Links α} {a : α} {l : List α} (h : Holds r l) (ha : a ∉ l) :
    Holds (listAddTail r (some a) none) (l ++ [a]) := by
  have hpa : r.prev none ≠ some a := by
    intro he
    rcases h.path.prev_mem with ⟨_, hnone⟩ | hin
    · simp [he] at hnone
    · rw [he] at hin
      exact ha (by simpa using hin)
  refine h.insertTail ha ?_ ?_ ?_ ?_ ?_ ?_
  · simp [listAddTail, listAddRaw, setNext, setPrev]
  · simp [listAddTail, listAddRaw, setNext, setPrev]
  · simp [listAddTail, listAddRaw, setNext, setPrev, hpa.symm]
  · simp [listAddTail, listAddRaw, setNext, setPrev]
  · intro n h1 h2
    simp [listAddTail, listAddRaw, setNext, setPrev, h1, h2]
  · intro n h1 h2
    simp [listAddTail, listAddRaw, setNext, setPrev, h1, h2]

omit [DecidableEq α] in
/-- A walk with room for every entry folds the body over the list held. -/
theorem listForEach_eq {σ β : Type} {r : Links α} {l : List α} (h : Holds r l) {fuel : ℕ}
    (hf : l.length < fuel) (body : σ → α → Except β σ) (s : σ) :
    listForEach r fuel body s = some (l.foldlM body s) :=
  h.path.forEach body s hf

end MutualEdge
