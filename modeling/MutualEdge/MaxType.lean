import MutualEdge.Counts
import MutualEdge.Lib.Argmax

/-! `max_type`, maintained and recounted.

    `setup_taskattrs` finds a type with the largest count; `balance_mem_types` and
    `lower_utilization_by_attr` move one task and compare the remembered type with the one that gained
    it. `Op` is one such call with what it drew. The remembered type stays one of the largest as long as
    no call takes a task from it while a third type is as populated and the gaining one is not next. -/

namespace MutualEdge
open Argmax Checks Choice

/-- A call on a `taskattrs_t` with its draws: the number of the task that changes and its new type, or
    the index the scan starts from. -/
inductive Op where
  | balance (idxChanged typeNew : ℕ)
  | lower (idxOrg : ℕ)

/-- The task that a call changes and its new type. -/
def Op.change (n : ℕ) (t : Taskattrs) : Op → Option (ℕ × ℕ)
  | .balance idxChanged typeNew =>
    if 0 < t.count t.maxType then some (nthOfType t.maxType t.attrs idxChanged, typeNew) else none
  | .lower idxOrg => (scanPositive t.attrs n idxOrg n idxOrg).map fun idx => (idx, t.attr idx - 1)

/-- Overwrite the attribute of task `i`, move the task in the counters, compare. -/
def changed (t : Taskattrs) (i dst : ℕ) : Taskattrs :=
  let counts := moveCount t.nTasksPerType (t.attr i) dst
  { attrs := t.attrs.set i dst
    nTasksPerType := counts
    maxType := if counts.getD t.maxType 0 < counts.getD dst 0 then dst else t.maxType }

def Op.apply (n : ℕ) (t : Taskattrs) (op : Op) : Taskattrs :=
  match op.change n t with
  | some (i, dst) => changed t i dst
  | none => t

/-- The draws are values that the calls of `get_rand` can return. -/
def Op.Drawn (n bound : ℕ) (t : Taskattrs) : Op → Prop
  | .balance idxChanged typeNew => 0 < t.count t.maxType →
    idxChanged < t.count t.maxType ∧ typeNew < bound ∧ typeNew ≠ t.maxType
  | .lower idxOrg => idxOrg < n

/-- `max_type` denotes a type with the largest count, as it does when counted anew. -/
structure MaxExact (t : Taskattrs) : Prop where
  largest : ∀ type, t.count type ≤ t.count t.maxType
  recounted : t.count t.maxType = (setupTaskattrs t).count (setupTaskattrs t).maxType

/-- The call does not take a task from `max_type` while a third type has as many tasks and the type
    that gains it has not at least one less. -/
def Op.Safe (n : ℕ) (t : Taskattrs) (op : Op) : Prop :=
  ∀ i dst, op.change n t = some (i, dst) → t.attr i = t.maxType → ∀ type, type ≠ t.maxType →
    type ≠ dst → t.count type = t.count t.maxType → t.count t.maxType ≤ t.count dst + 1

/-- Something holds before every call of a sequence. -/
def Along (n : ℕ) (P : Taskattrs → Op → Prop) : Taskattrs → List Op → Prop
  | _, [] => True
  | t, op :: ops => P t op ∧ Along n P (op.apply n t) ops

/-- Something holds of every value a sequence of calls passes through. -/
def Throughout (n : ℕ) (P : Taskattrs → Prop) : Taskattrs → List Op → Prop
  | t, [] => P t
  | t, op :: ops => P t ∧ Throughout n P (op.apply n t) ops

section Counters
variable {n bound : ℕ} {t : Taskattrs}

theorem Taskattrs.Counted.count_eq (h : t.Counted n bound) (hb : bound ≤ maxAttrtypes) (type : ℕ) :
    t.count type = t.attrs.count type := by
  rw [Taskattrs.count, h.counts]
  rcases Nat.lt_or_ge type maxAttrtypes with hlt | hge
  · exact histogram.getD hlt _
  · rw [List.getD_eq_default _ _ (by simpa using hge), List.count_eq_zero.mpr]
    intro hmem
    have hlt := h.within.lt type hmem
    omega

/-- A call that changes a task changes one within the arrays, to another type of the table. -/
theorem Op.change_spec (ht : t.Counted n bound) {op : Op} (hd : op.Drawn n bound t) {i dst : ℕ}
    (h : op.change n t = some (i, dst)) : i < n ∧ dst < bound ∧ t.attr i ≠ dst := by
  cases op with
  | balance idxChanged typeNew =>
    rw [Op.change, if_pos ht.max_pos, Option.some.injEq, Prod.mk.injEq] at h
    obtain ⟨rfl, rfl⟩ := h
    obtain ⟨hidx, hlt, hne⟩ := hd ht.max_pos
    obtain ⟨hi, hattr⟩ := ht.scan hidx
    exact ⟨hi, hlt, by rw [hattr]; exact hne.symm⟩
  | lower idxOrg =>
    obtain ⟨idx, hidx, heq⟩ := Option.map_eq_some_iff.mp h
    obtain ⟨rfl, rfl⟩ := Prod.mk.inj heq
    have hpos := scanPositive_pos hidx
    have hi : idx < n := by
      by_contra hge
      rw [List.getD_eq_default _ _ (by rw [ht.within.length]; omega)] at hpos
      omega
    have hbound := ht.within.getD_lt hi
    unfold Taskattrs.attr
    exact ⟨hi, by omega, by omega⟩

/-- The counters after a change are those of a move. -/
theorem count_changed (ht : t.Counted n bound) (hb : bound ≤ maxAttrtypes) (hn : n + 1 < 2 ^ 32)
    {i dst : ℕ} (hi : i < n) (hdst : dst < bound) (hne : t.attr i ≠ dst) :
    (changed t i dst).Counted n bound ∧ (changed t i dst).count = move t.count (t.attr i) dst ∧
      (changed t i dst).maxType = follow (move t.count (t.attr i) dst) t.maxType dst := by
  have hc : (changed t i dst).Counted n bound := ht.move hb hn hi rfl hdst
  have hi' : i < t.attrs.length := by rw [ht.within.length]; exact hi
  have hattr : t.attrs[i] = t.attr i := by rw [Taskattrs.attr, List.getD_eq_getElem _ _ hi']
  have hcount : (changed t i dst).count = move t.count (t.attr i) dst := by
    funext type
    rw [hc.count_eq hb, changed, List.count_set hi', hattr, move, ht.count_eq hb]
    simp only [beq_iff_eq, eq_comm (b := type)]
    by_cases hs : type = t.attr i
    · rw [if_pos hs, if_neg (by rw [hs]; exact hne), if_neg (by rw [hs]; exact hne), if_pos hs,
        Nat.add_zero]
    · by_cases hd : type = dst
      · rw [if_neg hs, if_pos hd, if_pos hd, Nat.sub_zero]
      · rw [if_neg hs, if_neg hd, if_neg hd, if_neg hs, Nat.sub_zero, Nat.add_zero]
  exact ⟨hc, hcount, by rw [follow, ← hcount]; rfl⟩

/-- One round of the loop of `setup_taskattrs` is a gain. -/
theorem countAttr_gain {l : List ℕ} {a : ℕ} (ha : a < maxAttrtypes) (hlen : l.length + 1 < 2 ^ 32)
    (ht : t.nTasksPerType = histogram maxAttrtypes l) :
    (countAttr t a).nTasksPerType = histogram maxAttrtypes (l ++ [a]) ∧
      (countAttr t a).count = gain t.count a ∧
      (countAttr t a).maxType = follow (gain t.count a) t.maxType a := by
  have hcounts := (countAttr_counts ha hlen ht).1
  have hgain : (countAttr t a).count = gain t.count a := by
    funext type
    rw [Taskattrs.count, hcounts, gain, Taskattrs.count, ht]
    rcases Nat.lt_or_ge type maxAttrtypes with hlt | hge
    · rw [histogram.getD hlt, histogram.getD hlt, List.count_append, List.count_singleton]
      simp only [beq_iff_eq, eq_comm (a := a)]
      split <;> rfl
    · rw [List.getD_eq_default _ _ (by simpa using hge), List.getD_eq_default _ _ (by simpa using hge),
        if_neg (by omega)]
  refine ⟨hcounts, hgain, ?_⟩
  have hinc : ({ t with nTasksPerType := t.nTasksPerType.modify a fun n => u32 (n + 1) } :
      Taskattrs).count = gain t.count a := by
    rw [← hgain]
    funext type
    unfold countAttr
    dsimp only
    split <;> rfl
  unfold countAttr follow
  dsimp only
  rw [hinc]
  split <;> rfl

theorem foldl_countAttr_largest {l l' : List ℕ} (hlt : ∀ a ∈ l', a < maxAttrtypes)
    (hlen : l.length + l'.length < 2 ^ 32) (ht : t.nTasksPerType = histogram maxAttrtypes l)
    (h : Largest t.count t.maxType) :
    Largest (l'.foldl countAttr t).count (l'.foldl countAttr t).maxType := by
  induction l' generalizing l t with
  | nil => exact h
  | cons a l' ih =>
    rw [List.length_cons] at hlen
    obtain ⟨hcounts, hgain, hmax⟩ := countAttr_gain (hlt a List.mem_cons_self) (by omega) ht
    refine ih (l := l ++ [a]) (fun b hb => hlt b (List.mem_cons_of_mem _ hb)) ?_ hcounts ?_
    · rw [List.length_append, List.length_singleton]
      omega
    · rw [hgain, hmax]
      exact largest_gain h a

/-- `setup_taskattrs` finds a type with the largest count. -/
theorem setupTaskattrs_largest (h : Within n bound t.attrs) (hb : bound ≤ maxAttrtypes)
    (hn : n + 1 < 2 ^ 32) : Largest (setupTaskattrs t).count (setupTaskattrs t).maxType := by
  refine foldl_countAttr_largest (l := []) (fun a ha => Nat.lt_of_lt_of_le (h.lt a ha) hb) ?_
    (histogram.nil _).symm ?_
  · rw [List.length_nil, h.length]
    omega
  · intro type
    unfold Taskattrs.count
    rcases Nat.lt_or_ge type maxAttrtypes with hlt | hge
    · rw [List.getD_eq_getElem _ _ (by simpa using hlt), List.getElem_replicate]
      exact Nat.zero_le _
    · rw [List.getD_eq_default _ _ (by simpa using hge)]
      exact Nat.zero_le _

theorem Taskattrs.Counted.maxExact_iff (h : t.Counted n bound) (hb : bound ≤ maxAttrtypes)
    (hn : n + 1 < 2 ^ 32) : MaxExact t ↔ Largest t.count t.maxType := by
  refine ⟨fun hexact => hexact.largest, fun hlarge => ⟨hlarge, ?_⟩⟩
  have hpos : 0 < n := by
    rw [← h.within.length, List.length_pos_iff]
    intro hnil
    have hmax := h.max_pos
    rw [h.count_eq hb, hnil] at hmax
    cases hmax
  have hs := setupTaskattrs_counted h.within hb hpos hn
  have hcount : (setupTaskattrs t).count = t.count := by
    funext type
    rw [hs.count_eq hb, h.count_eq hb, setupTaskattrs_attrs]
  have hsetup := setupTaskattrs_largest h.within hb hn
  rw [hcount] at hsetup ⊢
  exact Nat.le_antisymm (hsetup _) (hlarge _)

end Counters

/-! ### Calls -/

section Calls
variable {n bound : ℕ} {t : Taskattrs}

/-- Counted attributes, or none at all. -/
def Sound (n bound : ℕ) (t : Taskattrs) : Prop :=
  t.Counted n bound ∨ n = 0 ∧ t = {}

theorem sound_setup (h : Within n bound t.attrs) (hb : bound ≤ maxAttrtypes) (hn : n + 1 < 2 ^ 32) :
    Sound n bound (setupTaskattrs t) ∧ MaxExact (setupTaskattrs t) := by
  rcases Nat.eq_zero_or_pos n with rfl | hpos
  · have hempty : setupTaskattrs t = {} := by
      rw [setupTaskattrs, List.length_eq_zero_iff.mp h.length]
      rfl
    rw [hempty]
    exact ⟨.inr ⟨rfl, rfl⟩, fun type => by simp [Taskattrs.count], rfl⟩
  · have hc := setupTaskattrs_counted h hb hpos hn
    exact ⟨.inl hc, (hc.maxExact_iff hb hn).mpr (setupTaskattrs_largest h hb hn)⟩

/-- A call keeps `max_type` exact if and only if it is safe. -/
theorem Op.apply_maxExact (hb : bound ≤ maxAttrtypes) (hn : n + 1 < 2 ^ 32) {op : Op}
    (ht : Sound n bound t) (hexact : MaxExact t) (hd : op.Drawn n bound t) :
    Sound n bound (op.apply n t) ∧ (MaxExact (op.apply n t) ↔ op.Safe n t) := by
  cases hchange : op.change n t with
  | none =>
    have hself : op.apply n t = t := by rw [Op.apply, hchange]
    rw [hself]
    refine ⟨ht, fun _ i dst h => ?_, fun _ => hexact⟩
    rw [hchange] at h
    cases h
  | some move =>
    obtain ⟨i, dst⟩ := move
    have hself : op.apply n t = changed t i dst := by rw [Op.apply, hchange]
    rcases ht with ht | ⟨rfl, rfl⟩
    · obtain ⟨hi, hdst, hne⟩ := op.change_spec ht hd hchange
      obtain ⟨hc, hcount, hmax⟩ := count_changed ht hb hn hi hdst hne
      have hlarge : Largest t.count t.maxType := hexact.largest
      rw [hself, hc.maxExact_iff hb hn, hcount, hmax, largest_move_iff hlarge hne]
      refine ⟨.inl hc, fun h i' dst' h' hsrc type htype => ?_, fun hsafe hsrc => ?_⟩
      · rw [hchange, Option.some.injEq, Prod.mk.injEq] at h'
        obtain ⟨rfl, rfl⟩ := h'
        rw [← hsrc] at htype ⊢
        exact h hsrc type htype
      · have h := hsafe i dst hchange hsrc
        rwa [← hsrc] at h
    · -- without tasks there is nothing to change
      cases op with
      | balance idxChanged typeNew => cases hchange
      | lower idxOrg => exact absurd hd (Nat.not_lt_zero idxOrg)

theorem maxExact_throughout_iff (hb : bound ≤ maxAttrtypes) (hn : n + 1 < 2 ^ 32) {ops : List Op}
    (ht : Sound n bound t) (hexact : MaxExact t)
    (hd : Along n (fun t op => op.Drawn n bound t) t ops) :
    Throughout n MaxExact t ops ↔ Along n (fun t op => op.Safe n t) t ops := by
  induction ops generalizing t with
  | nil => exact ⟨fun _ => trivial, fun _ => hexact⟩
  | cons op ops ih =>
    obtain ⟨hsound, hsafe⟩ := op.apply_maxExact hb hn ht hexact hd.1
    constructor
    · rintro ⟨_, hrest⟩
      have hnext : MaxExact (op.apply n t) := by
        cases ops with
        | nil => exact hrest
        | cons op' ops => exact hrest.1
      exact ⟨hsafe.mp hnext, (ih hsound hnext hd.2).mp hrest⟩
    · rintro ⟨hop, hrest⟩
      exact ⟨hexact, (ih hsound (hsafe.mpr hop) hd.2).mpr hrest⟩

/-- The calls of `balance_mem_types` are those of `Op`. -/
theorem balanceTaskattrs_returns_iff (ht : t.Counted n bound) {t' : Taskattrs} :
    Returns (balanceTaskattrs bound t) t' ↔ ∃ idxChanged typeNew,
      (Op.balance idxChanged typeNew).Drawn n bound t ∧
        t' = (Op.balance idxChanged typeNew).apply n t := by
  have happly : ∀ idxChanged typeNew, idxChanged < t.count t.maxType →
      (Op.balance idxChanged typeNew).apply n t =
        { attrs := t.attrs.set (nthOfType t.maxType t.attrs idxChanged) typeNew
          nTasksPerType := moveCount t.nTasksPerType t.maxType typeNew
          maxType := if (moveCount t.nTasksPerType t.maxType typeNew).getD t.maxType 0 <
              (moveCount t.nTasksPerType t.maxType typeNew).getD typeNew 0 then typeNew
            else t.maxType } := by
    intro idxChanged typeNew hidx
    rw [Op.apply, Op.change, if_pos ht.max_pos]
    dsimp only [changed]
    rw [(ht.scan hidx).2]
  unfold balanceTaskattrs
  dsimp only
  rw [if_pos ht.max_pos]
  constructor
  · intro h
    obtain ⟨idxChanged, hidx, h⟩ := h.bind
    obtain ⟨typeNew, hnew, h⟩ := h.bind
    have hlt := getRand_lt hidx
    refine ⟨idxChanged, typeNew, fun _ => ⟨hlt, getRandExcept_spec hnew⟩, ?_⟩
    rw [happly _ _ hlt, returns_pure.mp h]
  · rintro ⟨idxChanged, typeNew, hd, rfl⟩
    obtain ⟨hidx, hlt, hne⟩ := hd ht.max_pos
    have hnew : Reads (getRandExcept bound t.maxType) [typeNew] typeNew := by
      refine Reads.retry (bind_ok.mpr ⟨typeNew, ?_, ?_⟩)
      · rw [getRandOf_of_pos (Nat.zero_lt_of_lt hlt), Nat.mod_eq_of_lt hlt]
      · rw [if_pos hne]
        rfl
    rw [happly _ _ hidx]
    refine ((getRand_reads hidx).bind (hnew.bind_nil ?_)).returns
    exact Reads.pure _

/-- So are those of `lower_utilization_by_attr`. -/
theorem lowerUtilizationByAttr_returns_iff {b : Bool} {t' : Taskattrs} :
    Returns (lowerUtilizationByAttr n t) (b, t') ↔ ∃ idxOrg, (Op.lower idxOrg).Drawn n bound t ∧
      t' = (Op.lower idxOrg).apply n t ∧ b = ((Op.lower idxOrg).change n t).isSome := by
  constructor
  · intro h
    obtain ⟨idxOrg, hidx, h⟩ := h.bind
    refine ⟨idxOrg, getRand_lt hidx, ?_⟩
    rw [Op.apply, Op.change]
    split at h
    · rename_i idx hscan
      obtain ⟨rfl, rfl⟩ := Prod.mk.inj (returns_pure.mp h)
      rw [hscan]
      exact ⟨rfl, rfl⟩
    · rename_i hscan
      obtain ⟨rfl, rfl⟩ := Prod.mk.inj (returns_pure.mp h)
      rw [hscan]
      exact ⟨rfl, rfl⟩
  · rintro ⟨idxOrg, hidx, rfl, rfl⟩
    refine ((getRand_reads hidx).bind_nil ?_).returns
    rw [Op.apply, Op.change]
    cases scanPositive t.attrs n idxOrg n idxOrg with
    | some idx => exact Reads.pure _
    | none => exact Reads.pure _

end Calls

/-- From `setup_taskattrs` on, through any sequence of calls with any draws, `max_type` denotes a type
    with the largest count in every state, as a recount would, if and only if every call is safe. -/
theorem maxType_exact_iff {n bound : ℕ} {t : Taskattrs} (h : Within n bound t.attrs)
    (hb : bound ≤ maxAttrtypes) (hn : n + 1 < 2 ^ 32) {ops : List Op}
    (hd : Along n (fun t op => op.Drawn n bound t) (setupTaskattrs t) ops) :
    Throughout n MaxExact (setupTaskattrs t) ops ↔
      Along n (fun t op => op.Safe n t) (setupTaskattrs t) ops := by
  obtain ⟨hsound, hexact⟩ := sound_setup h hb hn
  exact maxExact_throughout_iff hb hn hsound hexact hd

/-- Four tasks of two types, half of them each. -/
def halvedTaskattrs : Taskattrs := { attrs := [0, 0, 1, 1] }

theorem halvedTaskattrs_within : Within 4 3 halvedTaskattrs.attrs := ⟨rfl, by decide⟩

/-- With two types nothing is lost: the second task gets the type `1`, which is remembered, or one of the
    others is lowered. -/
theorem maxType_exact_halvedTaskattrs :
    (∃ t, Returns (balanceTaskattrs 3 (setupTaskattrs halvedTaskattrs)) t ∧ MaxExact t) ∧
    ∃ t, Returns (lowerUtilizationByAttr 4 (setupTaskattrs halvedTaskattrs)) (true, t) ∧ MaxExact t := by
  have hc : (setupTaskattrs halvedTaskattrs).Counted 4 3 :=
    setupTaskattrs_counted halvedTaskattrs_within (by decide) (by decide) (by decide)
  have hexact : ∀ op : Op, op.Drawn 4 3 (setupTaskattrs halvedTaskattrs) →
      op.Safe 4 (setupTaskattrs halvedTaskattrs) →
      MaxExact (op.apply 4 (setupTaskattrs halvedTaskattrs)) := by
    intro op hd hsafe
    have hdrawn : Along 4 (fun t op => op.Drawn 4 3 t) (setupTaskattrs halvedTaskattrs) [op] :=
      ⟨hd, trivial⟩
    exact ((maxType_exact_iff halvedTaskattrs_within (by decide) (by decide) hdrawn).mpr
      ⟨hsafe, trivial⟩).2
  constructor
  · have hd : (Op.balance 1 1).Drawn 4 3 (setupTaskattrs halvedTaskattrs) := fun _ => by decide
    refine ⟨_, (balanceTaskattrs_returns_iff hc).mpr ⟨1, 1, hd, rfl⟩, hexact _ hd ?_⟩
    intro i dst hchange _ type h0 h1 hcount
    obtain ⟨rfl, rfl⟩ : 1 = i ∧ 1 = dst := Prod.mk.inj (Option.some.inj hchange)
    decide
  · have hd : (Op.lower 0).Drawn 4 3 (setupTaskattrs halvedTaskattrs) := Nat.zero_lt_succ 3
    refine ⟨_, lowerUtilizationByAttr_returns_iff.mpr ⟨0, hd, rfl, rfl⟩, hexact _ hd ?_⟩
    intro i dst hchange hsrc
    obtain ⟨rfl, rfl⟩ : 2 = i ∧ 0 = dst := Prod.mk.inj (Option.some.inj hchange)
    exact absurd hsrc (by decide)

/-- A third type gains a task of the first, and the second has the most tasks unnoticed. -/
theorem maxType_exact_fails : Within 4 3 halvedTaskattrs.attrs ∧
    ∃ t', Returns (balanceTaskattrs 3 (setupTaskattrs halvedTaskattrs)) t' ∧
      t'.count t'.maxType < t'.count 1 := by
  have hc : (setupTaskattrs halvedTaskattrs).Counted 4 3 :=
    setupTaskattrs_counted halvedTaskattrs_within (by decide) (by decide) (by decide)
  exact ⟨halvedTaskattrs_within, _, (balanceTaskattrs_returns_iff hc).mpr
    ⟨0, 2, fun _ => by decide, rfl⟩, by decide⟩

end MutualEdge
