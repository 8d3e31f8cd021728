import Mathlib.Algebra.BigOperators.Ring.Finset
import MutualEdge.Parameters

/-! How close the generated tasks come to what was asked for.

    `gen_task` sums up what it draws: `util_sum_cpu` and `memreq_total`. Each period and each memory
    request is drawn around the quotient that would be exact, by less than a half of it in either
    direction, and so the sums stay near their targets whatever is drawn. Doubles are exact rationals
    here. -/

namespace MutualEdge.Gasgen
open Choice

/-! ### The sums -/

theorem foldl_utilSumCpu (ts : List Task) (s : ℚ) :
    ts.foldl (fun sum t => sum + (t.wcet / t.period : ℚ)) s =
      s + (ts.map fun t => (t.wcet / t.period : ℚ)).sum := by
  induction ts generalizing s with
  | nil => exact (add_zero s).symm
  | cons t ts ih => rw [List.foldl_cons, ih, List.map_cons, List.sum_cons, add_assoc]

theorem utilSumCpu_eq (ts : List Task) :
    utilSumCpu ts = (ts.map fun t => (t.wcet / t.period : ℚ)).sum := by
  rw [utilSumCpu, foldl_utilSumCpu, zero_add]

theorem foldl_memreqTotal (ts : List Task) {s : ℕ} (hs : s < 2 ^ 32) :
    ts.foldl (fun total t => u32 (total + t.memreq)) s = u32 (s + (ts.map fun t => t.memreq).sum) := by
  induction ts generalizing s with
  | nil => exact (Nat.mod_eq_of_lt hs).symm
  | cons t ts ih =>
    rw [List.foldl_cons, ih (u32_lt _), List.map_cons, List.sum_cons, ← Nat.add_assoc, u32, u32, u32,
      Nat.mod_add_mod]

theorem memreqTotal_eq {ts : List Task} (h : (ts.map fun t => t.memreq).sum < 2 ^ 32) :
    memreqTotal ts = (ts.map fun t => t.memreq).sum := by
  rw [memreqTotal, foldl_memreqTotal ts (by norm_num), Nat.zero_add, u32, Nat.mod_eq_of_lt h]

/-! ### One draw -/

/-- A number drawn around `x` is more than a half and less than three halves of it. -/
theorem Around.near {M : Machine} {x : ℚ} {v : ℕ} (h0 : 0 ≤ x) (hx : 3 * x ≤ 2 ^ 33)
    (h : Around (M.toUnsigned (some x)) v) : x < 2 * v ∧ 2 * (v : ℚ) < 3 * x := by
  rw [M.truncates x (by linarith) (by linarith)] at h
  obtain ⟨n, hn⟩ : ∃ n, n = ⌊x⌋₊ := ⟨_, rfl⟩
  have hlow : (n : ℚ) ≤ x := hn ▸ Nat.floor_le h0
  have hhigh : x < n + 1 := hn ▸ Nat.lt_floor_add_one x
  have hwrap : 3 * n ≤ 2 ^ 33 := by
    have hcast : ((3 * n : ℕ) : ℚ) ≤ ((2 ^ 33 : ℕ) : ℚ) := by
      push_cast
      linarith
    exact Nat.cast_le.mp hcast
  rw [← hn] at h
  obtain ⟨up, hup, down, hdown, hv⟩ := h
  have hsum : v + down = n + up := by
    rw [hv]
    unfold u32
    omega
  have habove : ((n + 1 : ℕ) : ℚ) ≤ ((2 * v : ℕ) : ℚ) := Nat.cast_le.mpr (by omega)
  have hbelow : ((2 * v : ℕ) : ℚ) < ((3 * n : ℕ) : ℚ) := Nat.cast_lt.mpr (by omega)
  push_cast at habove hbelow
  constructor
  · linarith
  · linarith

/-! ### All draws -/

/-- Parameters whose periods and memory requests stay within 32 bits. -/
structure Moderate (c : Conf) (utilMem : ℚ) : Prop where
  tasks : 0 < c.gentask.nTasksTarget
  util : 0 < c.gentask.utilCpu
  wcet : Draws c.gentask.wcetMin c.gentask.wcetMax
  wcet_lt : c.gentask.wcetMax < 2 ^ 32
  periods : 3 * (c.gentask.wcetMax * c.gentask.nTasksTarget : ℚ) ≤ 2 ^ 33 * c.gentask.utilCpu
  mem : getMemUtil id c = some utilMem
  mem_nonneg : 0 ≤ utilMem
  memreqs : 3 * (c.gentask.memTotal * utilMem : ℚ) < 2 ^ 33

section Targets
variable {M : Machine} {c : Conf} {utilMem : ℚ} {t : Task}

theorem utilCpu1task_id : utilCpu1task id c = c.gentask.utilCpu / c.gentask.nTasksTarget := rfl

theorem Moderate.tasks_pos (h : Moderate c utilMem) : (0 : ℚ) < c.gentask.nTasksTarget :=
  Nat.cast_pos.mpr h.tasks

theorem Moderate.utilCpu1task_pos (h : Moderate c utilMem) : 0 < utilCpu1task id c :=
  div_pos h.util h.tasks_pos

theorem Moderate.nsmul_utilCpu1task (h : Moderate c utilMem) :
    c.gentask.nTasksTarget • utilCpu1task id c = c.gentask.utilCpu := by
  rw [nsmul_eq_mul, utilCpu1task_id, mul_div_cancel₀ _ h.tasks_pos.ne']

/-- The utilisation of a task against its share. -/
theorem Moderate.period (h : Moderate c utilMem) (ht : Generated id M c t) :
    2 / 3 * utilCpu1task id c ≤ (t.wcet / t.period : ℚ) ∧ (t.wcet / t.period : ℚ) ≤ 2 * utilCpu1task id c := by
  have hpos := h.utilCpu1task_pos
  have hwcet : (t.wcet : ℚ) ≤ c.gentask.wcetMax :=
    Nat.cast_le.mpr (h.wcet.between h.wcet_lt ht.wcet).2
  have hreal : durationReal id c t.wcet = some (t.wcet / utilCpu1task id c) := if_neg hpos.ne'
  have hsize : 3 * (t.wcet / utilCpu1task id c) ≤ 2 ^ 33 := by
    have hle : (3 * (t.wcet * c.gentask.nTasksTarget) : ℚ) ≤ 2 ^ 33 * c.gentask.utilCpu := by
      refine le_trans ?_ h.periods
      have hmul := mul_le_mul_of_nonneg_right hwcet h.tasks_pos.le
      linarith
    rw [utilCpu1task_id, div_div_eq_mul_div, ← mul_div_assoc]
    exact (div_le_iff₀ h.util).mpr hle
  have hperiod := ht.period
  rw [hreal] at hperiod
  obtain ⟨hlow, hhigh⟩ := hperiod.near (div_nonneg (Nat.cast_nonneg _) hpos.le) hsize
  have hper : (0 : ℚ) < t.period := by
    have hnonneg : (0 : ℚ) ≤ t.wcet / utilCpu1task id c := div_nonneg (Nat.cast_nonneg _) hpos.le
    linarith
  rw [div_lt_iff₀ hpos] at hlow
  rw [← mul_div_assoc, lt_div_iff₀ hpos] at hhigh
  constructor
  · rw [le_div_iff₀ hper]
    linarith
  · rw [div_le_iff₀ hper]
    linarith

/-- The memory request of a task against its share. -/
theorem Moderate.memreq (h : Moderate c utilMem) (ht : Generated id M c t) :
    c.gentask.memTotal * utilMem / c.gentask.nTasksTarget / 2 ≤ (t.memreq : ℚ) ∧
      (t.memreq : ℚ) ≤ 3 / 2 * (c.gentask.memTotal * utilMem / c.gentask.nTasksTarget) := by
  have hone : (1 : ℚ) ≤ c.gentask.nTasksTarget := Nat.one_le_cast.mpr h.tasks
  have hnonneg : (0 : ℚ) ≤ c.gentask.memTotal * utilMem := mul_nonneg (Nat.cast_nonneg _) h.mem_nonneg
  have hreal : memreqReal id c = some (c.gentask.memTotal * utilMem / c.gentask.nTasksTarget) := by
    rw [memreqReal, utilMem1task, h.mem, mul_div_assoc]
    rfl
  have hshare := div_le_self hnonneg hone
  have hmemreq := ht.memreq
  rw [memreq1task, hreal] at hmemreq
  obtain ⟨hlow, hhigh⟩ :=
    hmemreq.near (div_nonneg hnonneg h.tasks_pos.le) (by linarith [h.memreqs])
  constructor
  · linarith
  · linarith

/-- The tasks that gasgen draws use between two thirds of the CPU utilisation asked for and twice as
    much, and ask for between a half and one and a half of the memory meant for them. -/
theorem genTask_onTarget (h : Moderate c utilMem) (M : Machine) : Below randBound (genTask id M c) fun ts =>
    (2 / 3 * c.gentask.utilCpu ≤ utilSumCpu ts ∧ utilSumCpu ts ≤ 2 * c.gentask.utilCpu) ∧
    (c.gentask.memTotal * utilMem / 2 ≤ (memreqTotal ts : ℚ) ∧
      (memreqTotal ts : ℚ) ≤ 3 / 2 * (c.gentask.memTotal * utilMem)) := by
  refine below_genTask.mono ?_
  rintro ts ⟨hlen, hgen⟩
  have hn := h.tasks_pos
  constructor
  · have hall : ∀ u ∈ ts.map fun t => (t.wcet / t.period : ℚ),
        2 / 3 * utilCpu1task id c ≤ u ∧ u ≤ 2 * utilCpu1task id c := by
      intro u hu
      obtain ⟨t, ht, rfl⟩ := List.mem_map.mp hu
      exact h.period (hgen t ht)
    have hlow := List.card_nsmul_le_sum _ _ fun u hu => (hall u hu).1
    have hhigh := List.sum_le_card_nsmul _ _ fun u hu => (hall u hu).2
    have hshare := h.nsmul_utilCpu1task
    rw [List.length_map, hlen, nsmul_eq_mul] at hlow hhigh
    rw [nsmul_eq_mul] at hshare
    rw [utilSumCpu_eq]
    constructor
    · linarith
    · linarith
  · have hall : ∀ m ∈ ts.map fun t => (t.memreq : ℚ),
        c.gentask.memTotal * utilMem / c.gentask.nTasksTarget / 2 ≤ m ∧
          m ≤ 3 / 2 * (c.gentask.memTotal * utilMem / c.gentask.nTasksTarget) := by
      intro m hm
      obtain ⟨t, ht, rfl⟩ := List.mem_map.mp hm
      exact h.memreq (hgen t ht)
    have hlow := List.card_nsmul_le_sum _ _ fun m hm => (hall m hm).1
    have hhigh := List.sum_le_card_nsmul _ _ fun m hm => (hall m hm).2
    have hshare : (c.gentask.nTasksTarget : ℚ) *
        (c.gentask.memTotal * utilMem / c.gentask.nTasksTarget) = c.gentask.memTotal * utilMem :=
      mul_div_cancel₀ _ hn.ne'
    rw [List.length_map, hlen, nsmul_eq_mul] at hlow hhigh
    have hcast : (((ts.map fun t => t.memreq).sum : ℕ) : ℚ) = (ts.map fun t => (t.memreq : ℚ)).sum := by
      rw [Nat.cast_list_sum, List.map_map]
      rfl
    -- the sum stays within 32 bits
    have hsmall : (ts.map fun t => t.memreq).sum < 2 ^ 32 := by
      have hlt : (((ts.map fun t => t.memreq).sum : ℕ) : ℚ) < ((2 ^ 32 : ℕ) : ℚ) := by
        rw [hcast]
        push_cast
        linarith [h.memreqs]
      exact Nat.cast_lt.mp hlt
    rw [memreqTotal_eq hsmall, hcast]
    constructor
    · linarith
    · linarith

end Targets

theorem genTask_onTarget_fairConf : Below randBound (genTask id leastMachine fairConf) fun ts =>
    (2 / 3 * (1 / 2) ≤ utilSumCpu ts ∧ utilSumCpu ts ≤ 2 * (1 / 2)) ∧
    (1000 * 1 / 2 ≤ (memreqTotal ts : ℚ) ∧ (memreqTotal ts : ℚ) ≤ 3 / 2 * (1000 * 1)) := by
  have hmem : getMemUtil id fairConf = some 1 := by decide +kernel
  refine genTask_onTarget ⟨by decide, ?_, by decide, by decide, ?_, hmem, zero_le_one, ?_⟩ leastMachine
  all_goals norm_num [fairConf]

end MutualEdge.Gasgen
