import Mathlib.Data.List.Basic
import Mathlib.Data.List.Nodup
import Mathlib.Data.Option.Basic
import Mathlib.Tactic.Common

/-! Circular doubly linked lists with a sentinel.

    A ring is a pair of link functions over nodes; `none` is the sentinel (the list head) and
    `some a` the node embedded in `a`. `Path r x l y` says that from node `x` the links lead through
    exactly the entries `l` to node `y`, forwards and backwards; a ring that holds `l` is a path from
    the sentinel to itself. The edits are stated for any two link functions that differ only where an
    insertion or a removal writes, so a concrete sequence of pointer writes only has to be compared
    pointwise.

        sentinel ⇄ a₁ ⇄ a₂ ⇄ … ⇄ aₙ ⇄ sentinel -/

namespace LinkRing

variable {α σ β : Type}

/-- Forward and backward links of every node. -/
structure Links (α : Type) where
  next : Option α → Option α
  prev : Option α → Option α

/-- From `x` the links lead through the entries `l` to `y`, both ways. -/
def Path (r : Links α) : Option α → List α → Option α → Prop
  | x, [], y => r.next x = y ∧ r.prev y = x
  | x, a :: l, y => r.next x = some a ∧ r.prev (some a) = x ∧ Path r (some a) l y

/-- The ring holds exactly the entries `l`, in this order. -/
structure Holds (r : Links α) (l : List α) : Prop where
  nodup : l.Nodup
  path : Path r none l none

/-- A node linked only to itself. -/
def Isolated (r : Links α) (a : α) : Prop := r.next (some a) = some a ∧ r.prev (some a) = some a

/-! ### Paths -/

/-- A path through `a` is a path to `a` followed by a path from `a`. -/
theorem path_append (r : Links α) (x : Option α) (l₁ : List α) (a : α) (l₂ : List α)
    (y : Option α) :
    Path r x (l₁ ++ a :: l₂) y ↔ Path r x l₁ (some a) ∧ Path r (some a) l₂ y := by
  induction l₁ generalizing x with
  | nil => simp only [List.nil_append, Path, and_assoc]
  | cons b l₁ ih =>
    simp only [List.cons_append, Path, ih (some b), and_assoc]

/-- A path reads the forward links of its nodes but the last and the backward links of its nodes
    but the first. -/
theorem Path.frame {r r' : Links α} : ∀ {x : Option α} {l : List α} {y : Option α}, Path r x l y →
    (∀ n ∈ x :: l.map some, r'.next n = r.next n) → (∀ n ∈ l.map some ++ [y], r'.prev n = r.prev n) →
    Path r' x l y
  | x, [], y, h, hn, hp => ⟨(hn x (by simp)).trans h.1, (hp y (by simp)).trans h.2⟩
  | x, a :: l, y, ⟨h1, h2, h3⟩, hn, hp => by
    refine ⟨(hn x (by simp)).trans h1, (hp (some a) (by simp)).trans h2, h3.frame ?_ ?_⟩
    · intro n hmem
      exact hn n (List.mem_cons_of_mem _ hmem)
    · intro n hmem
      exact hp n (List.mem_cons_of_mem _ hmem)

/-- The frame rule for a path between an entry and the sentinel, entry by entry. -/
theorem Path.frame_entries {r r' : Links α} {b : α} {l : List α} (h : Path r (some b) l none)
    (hn : ∀ c ∈ b :: l, r'.next (some c) = r.next (some c))
    (hp : ∀ c ∈ l, r'.prev (some c) = r.prev (some c)) (hs : r'.prev none = r.prev none) :
    Path r' (some b) l none := by
  refine h.frame ?_ ?_
  · intro n hmem
    obtain ⟨c, hc, rfl⟩ := List.mem_map.mp (show n ∈ (b :: l).map some from hmem)
    exact hn c hc
  · intro n hmem
    rcases List.mem_append.mp hmem with hin | hin
    · obtain ⟨c, hc, rfl⟩ := List.mem_map.mp hin
      exact hp c hc
    · rw [List.mem_singleton.mp hin, hs]

/-- The node before the end of a path is one of the path's nodes, and an entry when there is one. -/
theorem Path.prev_mem {r : Links α} : ∀ {x : Option α} {l : List α} {y : Option α}, Path r x l y →
    (l = [] ∧ r.prev y = x) ∨ r.prev y ∈ l.map some
  | _, [], _, h => Or.inl ⟨rfl, h.2⟩
  | _, a :: l, _, ⟨_, _, h⟩ => by
    rcases h.prev_mem with ⟨rfl, he⟩ | hmem
    · exact Or.inr (by simp [he])
    · exact Or.inr (List.mem_cons_of_mem _ hmem)

/-- Redirecting the last link of a path moves its end and keeps its entries. -/
theorem Path.retarget {r r' : Links α} {y z : Option α} : ∀ {x : Option α} {l : List α},
    Path r x l y → (x :: l.map some).Nodup → r'.next (r.prev y) = z → r'.prev z = r.prev y →
    (∀ n ∈ x :: l.map some, n ≠ r.prev y → r'.next n = r.next n) →
    (∀ a ∈ l, r'.prev (some a) = r.prev (some a)) → Path r' x l z
  | x, [], h, _, hz, hzp, _, _ => by
    rw [h.2] at hz hzp
    exact ⟨hz, hzp⟩
  | x, a :: l, ⟨h1, h2, h3⟩, hd, hz, hzp, hn, hp => by
    have hx : x ≠ r.prev y := by
      rintro rfl
      have hmem : r.prev y ∈ (a :: l).map some := by
        rcases h3.prev_mem with ⟨rfl, he⟩ | hmem
        · simp [he]
        · exact List.mem_cons_of_mem _ hmem
      exact (List.nodup_cons.mp hd).1 hmem
    refine ⟨(hn x (by simp) hx).trans h1, (hp a (by simp)).trans h2, ?_⟩
    refine h3.retarget (List.nodup_cons.mp hd).2 hz hzp ?_ ?_
    · intro n hmem hne
      exact hn n (List.mem_cons_of_mem _ hmem) hne
    · intro b hb
      exact hp b (List.mem_cons_of_mem _ hb)

/-! ### Reading a ring -/

theorem Holds.next_sentinel {r : Links α} {a : α} {l : List α} (h : Holds r (a :: l)) :
    r.next none = some a := h.path.1

theorem Holds.prev_sentinel {r : Links α} {a : α} {l : List α} (h : Holds r (l ++ [a])) :
    r.prev none = some a :=
  ((path_append r none l a [] none).mp h.path).2.2

/-- A ring determines the list it holds. -/
theorem Path.unique {r : Links α} : ∀ {x : Option α} {l l' : List α}, Path r x l none →
    Path r x l' none → l = l'
  | _, [], [], _, _ => rfl
  | _, [], _ :: _, h, h' => by
    have := h.1.symm.trans h'.1
    simp at this
  | _, _ :: _, [], h, h' => by
    have := h'.1.symm.trans h.1
    simp at this
  | _, a :: l, b :: l', ⟨h, _, ht⟩, ⟨h', _, ht'⟩ => by
    obtain rfl : a = b := Option.some.inj (h.symm.trans h')
    rw [ht.unique ht']

theorem Holds.unique {r : Links α} {l l' : List α} (h : Holds r l) (h' : Holds r l') : l = l' :=
  h.path.unique h'.path

/-- Iterate over the nodes from `pos` until the sentinel, threading a state; the body ends the
    iteration early with `.error`. The first argument bounds the number of nodes visited. -/
def forEach (r : Links α) (body : σ → α → Except β σ) : ℕ → Option α → σ → Option (Except β σ)
  | 0, _, _ => none
  | _ + 1, none, s => some (.ok s)
  | k + 1, some a, s =>
    match body s a with
    | .error b => some (.error b)
    | .ok s' => forEach r body k (r.next (some a)) s'

/-- On a path to the sentinel the iteration is the monadic fold over the entries. -/
theorem Path.forEach {r : Links α} (body : σ → α → Except β σ) : ∀ {x : Option α} {l : List α}
    {k : ℕ} (s : σ), Path r x l none → l.length < k →
    LinkRing.forEach r body k (r.next x) s = some (l.foldlM body s)
  | x, [], k + 1, s, h, _ => by
    rw [h.1]; rfl
  | x, a :: l, k + 1, s, ⟨h1, _, h3⟩, hk => by
    rw [h1, LinkRing.forEach, List.foldlM_cons]
    cases hb : body s a with
    | error b => rfl
    | ok s' =>
      exact h3.forEach body s' (by simpa using hk)

/-! ### Edits -/

/-- Around an entry: no node from it on is the one before it, and it occurs once. -/
theorem Holds.around {r : Links α} {b : α} {l₁ l₂ : List α} (h : Holds r (l₁ ++ b :: l₂)) :
    (∀ c ∈ b :: l₂, some c ≠ r.prev (some b)) ∧ (∀ c ∈ l₁, c ≠ b) ∧ (∀ c ∈ l₂, c ≠ b) := by
  have hnd := List.nodup_append.mp h.nodup
  have hpre := ((path_append r none l₁ b l₂ none).mp h.path).1
  refine ⟨?_, ?_, ?_⟩
  · intro c hc he
    rcases hpre.prev_mem with ⟨_, hnone⟩ | hin
    · simp [← he] at hnone
    · rw [← he] at hin
      exact hnd.2.2 c (by simpa using hin) c hc rfl
  · intro c hc
    exact hnd.2.2 c hc b (by simp)
  · rintro c hc rfl
    exact (List.nodup_cons.mp hnd.2.1).1 hc

/-- The sentinel and distinct entries are distinct nodes. -/
theorem nodup_nodes {l : List α} (h : l.Nodup) : ((none : Option α) :: l.map some).Nodup :=
  List.nodup_cons.mpr ⟨by simp, h.map (Option.some_injective α)⟩

/-- Link the node `a` in before `y`: `a` goes to the end of the path that leads to `y`. -/
theorem Path.insertBefore {r r' : Links α} {a : α} {l : List α} {y : Option α}
    (h : Path r none l y) (hl : l.Nodup) (ha : a ∉ l) (hyl : ∀ c ∈ l, some c ≠ y)
    (hpa : r'.next (r.prev y) = some a) (hap : r'.prev (some a) = r.prev y)
    (hay : r'.next (some a) = y) (hya : r'.prev y = some a)
    (hn : ∀ n, n ≠ r.prev y → n ≠ some a → r'.next n = r.next n)
    (hp : ∀ n, n ≠ y → n ≠ some a → r'.prev n = r.prev n) : Path r' none (l ++ [a]) y := by
  rw [path_append]
  refine ⟨h.retarget (nodup_nodes hl) hpa hap ?_ ?_, hay, hya⟩
  · intro n hmem hne
    refine hn n hne ?_
    rintro rfl
    simp [ha] at hmem
  · intro c hc
    refine hp (some c) (hyl c hc) ?_
    intro he
    exact ha (Option.some.inj he ▸ hc)

/-- Insert `a` before the entry `b`. -/
theorem Holds.insertBefore {r r' : Links α} {a b : α} {l₁ l₂ : List α}
    (h : Holds r (l₁ ++ b :: l₂)) (ha : a ∉ l₁ ++ b :: l₂)
    (hpa : r'.next (r.prev (some b)) = some a) (hap : r'.prev (some a) = r.prev (some b))
    (hay : r'.next (some a) = some b) (hya : r'.prev (some b) = some a)
    (hn : ∀ n, n ≠ r.prev (some b) → n ≠ some a → r'.next n = r.next n)
    (hp : ∀ n, n ≠ some b → n ≠ some a → r'.prev n = r.prev n) :
    Holds r' (l₁ ++ a :: b :: l₂) := by
  obtain ⟨hpre, hpost⟩ := (path_append r none l₁ b l₂ none).mp h.path
  obtain ⟨hprev, hbl₁, hbl₂⟩ := h.around
  have hne : ∀ c ∈ l₁ ++ b :: l₂, c ≠ a := fun c hc he => ha (he ▸ hc)
  refine ⟨?_, ?_⟩
  · have hperm : (l₁ ++ a :: b :: l₂).Perm (a :: (l₁ ++ b :: l₂)) := List.perm_middle
    exact hperm.nodup_iff.mpr (List.nodup_cons.mpr ⟨ha, h.nodup⟩)
  · have hsplit := path_append r' none (l₁ ++ [a]) b l₂ none
    rw [List.append_assoc, List.singleton_append] at hsplit
    refine hsplit.mpr ⟨?_, hpost.frame_entries ?_ ?_ (hp none (by simp) (by simp))⟩
    · exact hpre.insertBefore (List.nodup_append.mp h.nodup).1 (fun hm => ha (by simp [hm]))
        (fun c hc => by simpa using hbl₁ c hc) hpa hap hay hya hn hp
    · intro c hc
      exact hn (some c) (hprev c hc) (by simpa using hne c (by simp [List.mem_cons.mp hc]))
    · intro c hc
      exact hp (some c) (by simpa using hbl₂ c hc) (by simpa using hne c (by simp [hc]))

/-- Insert `a` before the sentinel: at the tail. -/
theorem Holds.insertTail {r r' : Links α} {a : α} {l : List α} (h : Holds r l) (ha : a ∉ l)
    (hpa : r'.next (r.prev none) = some a) (hap : r'.prev (some a) = r.prev none)
    (hay : r'.next (some a) = none) (hya : r'.prev none = some a)
    (hn : ∀ n, n ≠ r.prev none → n ≠ some a → r'.next n = r.next n)
    (hp : ∀ n, n ≠ none → n ≠ some a → r'.prev n = r.prev n) : Holds r' (l ++ [a]) := by
  refine ⟨?_, h.path.insertBefore h.nodup ha (by simp) hpa hap hay hya hn hp⟩
  have hperm : (l ++ [a]).Perm (a :: l) := List.perm_append_singleton a l
  exact hperm.nodup_iff.mpr (List.nodup_cons.mpr ⟨ha, h.nodup⟩)

/-- Unlink `a`: its two neighbours point at each other. -/
theorem Holds.remove {r r' : Links α} {a : α} {l₁ l₂ : List α} (h : Holds r (l₁ ++ a :: l₂))
    (hpn : r'.next (r.prev (some a)) = r.next (some a))
    (hnp : r'.prev (r.next (some a)) = r.prev (some a))
    (hn : ∀ n, n ≠ r.prev (some a) → n ≠ some a → r'.next n = r.next n)
    (hp : ∀ n, n ≠ r.next (some a) → n ≠ some a → r'.prev n = r.prev n) :
    Holds r' (l₁ ++ l₂) := by
  obtain ⟨hpre, hpost⟩ := (path_append r none l₁ a l₂ none).mp h.path
  obtain ⟨hprev, hal₁, hal₂⟩ := h.around
  have hnd : (l₁ ++ l₂).Nodup :=
    (List.nodup_cons.mp ((List.perm_middle (a := a)).nodup_iff.mp h.nodup)).2
  have hnd' := List.nodup_append.mp hnd
  have hnext : ∀ n ∈ none :: l₁.map some, n ≠ r.prev (some a) → r'.next n = r.next n := by
    intro n hmem hne
    refine hn n hne ?_
    rintro rfl
    exact hal₁ a (by simpa using hmem) rfl
  refine ⟨hnd, ?_⟩
  match l₂, hpost with
  | [], hpost =>
    rw [hpost.1] at hpn hnp hp
    rw [List.append_nil]
    exact hpre.retarget (nodup_nodes hnd'.1) hpn hnp hnext
      fun c hc => hp (some c) (by simp) (by simpa using hal₁ c hc)
  | b :: l₂, ⟨hab, _, hrest⟩ =>
    rw [hab] at hpn hnp hp
    rw [path_append]
    refine ⟨hpre.retarget (nodup_nodes hnd'.1) hpn hnp hnext ?_,
      hrest.frame_entries ?_ ?_ (hp none (by simp) (by simp))⟩
    · intro c hc
      exact hp (some c) (by simpa using hnd'.2.2 c hc b (by simp)) (by simpa using hal₁ c hc)
    · intro c hc
      exact hn (some c) (hprev c (List.mem_cons_of_mem _ hc)) (by simpa using hal₂ c hc)
    · intro c hc
      refine hp (some c) ?_ (by simpa using hal₂ c (List.mem_cons_of_mem _ hc))
      rintro he
      exact (List.nodup_cons.mp hnd'.2.1).1 (Option.some.inj he ▸ hc)

/-- Changing links at and around nodes outside the ring leaves it as it is. -/
theorem Holds.frame {r r' : Links α} {l : List α} (h : Holds r l)
    (hn : ∀ n ∈ none :: l.map some, r'.next n = r.next n)
    (hp : ∀ n ∈ none :: l.map some, r'.prev n = r.prev n) : Holds r' l := by
  refine ⟨h.nodup, h.path.frame hn ?_⟩
  intro n hmem
  exact hp n (by simpa [or_comm] using hmem)

end LinkRing
