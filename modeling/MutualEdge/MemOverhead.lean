import MutualEdge.GenTask

/-! How much memory a utilisation costs: `get_mem_util` and `get_util_overhead_bymem` of `gen_task.c`,
    with doubles as exact rationals.

    The one fills the memory types in their order until the overheads of the filled ones make up the
    utilisation left to the memory, the last of them in part; the other adds the overheads of what is
    filled. -/

namespace MutualEdge.Gasgen
open Checks

section Inverse
variable {nMems per : ℕ} {mems : List Mem}

/-- No memory costs nothing. -/
theorem utilOverhead_zero (hper : 0 < per) (hs : ∀ m ∈ mems, 0 < m.wcetScale) (o : ℚ) :
    utilOverhead per mems 0 o = some o := by
  cases mems with
  | nil => rfl
  | cons m mems =>
    rw [utilOverhead, if_neg (hs m List.mem_cons_self).ne', if_pos hper]
    simp

/-- Without room every type counts as filled. -/
theorem utilOverhead_no_room (hs : ∀ m ∈ mems, 0 < m.wcetScale) (k : ℕ) (o : ℚ) :
    utilOverhead 0 mems k o = some (o + (mems.map overhead).sum) := by
  induction mems generalizing k o with
  | nil => simp [utilOverhead]
  | cons m mems ih =>
    rw [utilOverhead, if_neg (hs m List.mem_cons_self).ne', if_neg (Nat.not_lt_zero k),
      ih fun m' hm' => hs m' (List.mem_cons_of_mem _ hm'), List.map_cons, List.sum_cons, add_assoc]

theorem memUtil_cons {m : Mem} (hm : m.wcetScale ≠ 0) (u utilMem : ℚ) :
    memUtil id nMems (m :: mems) u utilMem =
      if u ≤ 0 then utilMem
      else if overhead m < u then memUtil id nMems mems (u - overhead m) (utilMem + 1 / nMems)
      else utilMem + 1 / nMems * u / overhead m := by
  simp only [memUtil, id_eq, if_neg hm]
  norm_num [overhead]

/-- `get_mem_util` fills `x` of the types for the utilisation `u`, and `get_util_overhead_bymem` finds
    that utilisation in what is filled. -/
structure Fills (nMems per : ℕ) (mems : List Mem) (u x : ℚ) : Prop where
  nonneg : 0 ≤ x
  le : x ≤ mems.length
  filled : ∀ utilMem, memUtil id nMems mems u utilMem = utilMem + x / nMems
  back : ∀ k : ℕ, (k : ℚ) = per * x → ∀ o, utilOverhead per mems k o = some (o + u)

/-- Nothing is left for the types. -/
theorem fills_none (hper : 0 < per) (hs : ∀ m ∈ mems, 0 < m.wcetScale) :
    Fills nMems per mems 0 0 := by
  refine ⟨le_rfl, by simp, fun utilMem => ?_, fun k hk o => ?_⟩
  · rw [zero_div, add_zero]
    cases mems with
    | nil => rfl
    | cons m mems => rw [memUtil_cons (hs m List.mem_cons_self).ne', if_pos le_rfl]
  · rw [mul_zero] at hk
    rw [Nat.cast_eq_zero.mp hk, utilOverhead_zero hper hs, add_zero]

/-- The first type is filled. -/
theorem Fills.cons {m : Mem} (hm : 0 < m.wcetScale) {u x : ℚ} (hu : 0 < u) (hfull : overhead m < u)
    (h : Fills nMems per mems (u - overhead m) x) : Fills nMems per (m :: mems) u (x + 1) := by
  refine ⟨by linarith [h.nonneg], ?_, fun utilMem => ?_, fun k hk o => ?_⟩
  · rw [List.length_cons]
    push_cast
    linarith [h.le]
  · rw [memUtil_cons hm.ne', if_neg (not_le.mpr hu), if_pos hfull, h.filled]
    ring
  · have hle : per ≤ k := by
      have hge : (per : ℚ) ≤ k := by
        rw [hk]
        exact le_mul_of_one_le_right (Nat.cast_nonneg _) (by linarith [h.nonneg])
      exact_mod_cast hge
    have hk' : ((k - per : ℕ) : ℚ) = per * x := by
      rw [Nat.cast_sub hle, hk]
      ring
    rw [utilOverhead, if_neg hm.ne', if_neg (not_lt.mpr hle), h.back _ hk']
    congr 1
    ring

/-- The first type is filled in part, or just filled. -/
theorem fills_part (hper : 0 < per) {m : Mem} (hs : ∀ m' ∈ m :: mems, 0 < m'.wcetScale) {u : ℚ}
    (hu : 0 < u) (hpart : u ≤ overhead m) : Fills nMems per (m :: mems) u (u / overhead m) := by
  have hm := (hs m List.mem_cons_self).ne'
  have hpos : 0 < overhead m := hu.trans_le hpart
  have hx1 : u / overhead m ≤ 1 := (div_le_one hpos).mpr hpart
  refine ⟨div_nonneg hu.le hpos.le, ?_, fun utilMem => ?_, fun k hk o => ?_⟩
  · rw [List.length_cons]
    push_cast
    linarith [(Nat.cast_nonneg mems.length : (0 : ℚ) ≤ mems.length)]
  · rw [memUtil_cons hm, if_neg (not_le.mpr hu), if_neg (not_lt.mpr hpart)]
    ring
  · rw [utilOverhead, if_neg hm]
    by_cases hlt : k < per
    · rw [if_pos hlt, hk]
      congr 2
      field_simp
    · -- all of the type is used, and nothing of the next one
      have hperQ : (0 : ℚ) < per := by exact_mod_cast hper
      have hge : (per : ℚ) ≤ per * (u / overhead m) := by
        rw [← hk]
        exact_mod_cast not_lt.mp hlt
      have hx : u / overhead m = 1 := le_antisymm hx1 ((le_mul_iff_one_le_right hperQ).mp hge)
      rw [hx, mul_one, Nat.cast_inj] at hk
      rw [if_neg hlt, hk, Nat.sub_self, (div_eq_one_iff_eq hpos.ne').mp hx]
      exact utilOverhead_zero hper (fun m' hm' => hs m' (List.mem_cons_of_mem _ hm')) _

/-- Whatever utilisation the types can cost, some of them are filled for it. -/
theorem exists_fills (nMems : ℕ) (hper : 0 < per) (hs : ∀ m ∈ mems, 0 < m.wcetScale) {u : ℚ}
    (h0 : 0 ≤ u) (hu : u ≤ (mems.map overhead).sum) : ∃ x, Fills nMems per mems u x := by
  induction mems generalizing u with
  | nil =>
    obtain rfl : u = 0 := le_antisymm hu h0
    exact ⟨0, fills_none hper hs⟩
  | cons m mems ih =>
    have hs' : ∀ m' ∈ mems, 0 < m'.wcetScale := fun m' hm' => hs m' (List.mem_cons_of_mem _ hm')
    rw [List.map_cons, List.sum_cons] at hu
    rcases h0.eq_or_lt with rfl | hpos
    · exact ⟨0, fills_none hper hs⟩
    · by_cases hfull : overhead m < u
      · obtain ⟨x, hx⟩ := ih hs' (u := u - overhead m) (by linarith) (by linarith)
        exact ⟨x + 1, hx.cons (hs m List.mem_cons_self) hpos hfull⟩
      · exact ⟨_, fills_part hper hs hpos (not_lt.mp hfull)⟩

end Inverse

/-- What a memory section has to be like: the first type is the fastest. -/
structure Scaled (mems : List Mem) : Prop where
  range : ∀ m ∈ mems, 0 < m.wcetScale ∧ m.wcetScale ≤ 1
  first : ∀ m ∈ mems.head?, m.wcetScale = 1

section Conf
variable {c : Conf} {m : Mem} {mems : List Mem} {per : ℕ} {x : ℚ}

theorem nMems_cons (hmems : c.tables.mems = m :: mems) : c.tables.nMems = mems.length + 1 := by
  rw [Config.nMems, hmems, List.length_cons]

/-- What is filled behind the first type, and the first type. -/
theorem getMemUtil_fills (hmems : c.tables.mems = m :: mems)
    (h : Fills c.tables.nMems per mems (c.gentask.utilTarget - c.gentask.utilCpu) x) :
    getMemUtil id c = some ((1 + x) / c.tables.nMems) := by
  rw [getMemUtil, if_neg (by rw [nMems_cons hmems]; omega), hmems, List.tail_cons]
  simp only [id_eq, h.filled]
  congr 1
  norm_num
  ring

theorem Fills.range {u : ℚ} (h : Fills c.tables.nMems per mems u x)
    (hmems : c.tables.mems = m :: mems) :
    1 / c.tables.nMems ≤ (1 + x) / (c.tables.nMems : ℚ) ∧ (1 + x) / (c.tables.nMems : ℚ) ≤ 1 := by
  have hpos : (0 : ℚ) < c.tables.nMems := by
    rw [nMems_cons hmems]
    positivity
  refine ⟨?_, ?_⟩
  · rw [div_le_div_iff_of_pos_right hpos]
    linarith [h.nonneg]
  · rw [div_le_one hpos, nMems_cons hmems]
    push_cast
    linarith [h.le]

/-- A use of the filled types costs the utilisation they were filled for. -/
theorem Fills.overhead_eq {u : ℚ} (h : Fills c.tables.nMems per mems u x)
    (hmems : c.tables.mems = m :: mems) (hm : m.wcetScale = 1)
    (hper : c.gentask.memTotal = c.tables.nMems * per) {k : ℕ}
    (hk : c.gentask.memTotal * ((1 + x) / c.tables.nMems) = k) :
    getUtilOverheadBymem c k = .ok (some u) := by
  have hn : 0 < c.tables.nMems := by
    rw [nMems_cons hmems]
    omega
  have hnQ : (c.tables.nMems : ℚ) ≠ 0 := by exact_mod_cast hn.ne'
  have hkx : (k : ℚ) = per * x + per := by
    rw [← hk, hper]
    push_cast
    field_simp
    ring
  have hle : per ≤ k := by
    have hge : (per : ℚ) ≤ k := by
      rw [hkx]
      linarith [mul_nonneg (Nat.cast_nonneg (α := ℚ) per) h.nonneg]
    exact_mod_cast hge
  have hrest : ((k - per : ℕ) : ℚ) = per * x := by
    rw [Nat.cast_sub hle, hkx]
    ring
  rw [getUtilOverheadBymem, if_neg hn.ne', hper, Nat.mul_div_cancel_left _ hn, hmems, utilOverhead,
    if_neg (by rw [hm]; norm_num), if_neg (not_lt.mpr hle), h.back _ hrest, overhead, hm]
  norm_num

/-- The two functions are inverse to each other. For at least one memory type, scales above 0 and up to
    1, the first of them 1, a total memory that the number of types divides and a difference of the
    utilisations that is not negative and no more than all types cost, the share of the memory lies
    between that of one type and 1. If the total is positive, a use of that share of it costs the
    difference; if it is 0, it costs what all types cost. -/
theorem memOverhead_inverse (hn : 1 ≤ c.tables.nMems) (hs : Scaled c.tables.mems)
    (hdvd : c.tables.nMems ∣ c.gentask.memTotal) (hle : c.gentask.utilCpu ≤ c.gentask.utilTarget)
    (hsum : c.gentask.utilTarget - c.gentask.utilCpu ≤ (c.tables.mems.map overhead).sum) :
    ∃ u, getMemUtil id c = some u ∧ 1 / c.tables.nMems ≤ u ∧ u ≤ 1 ∧
      ∀ k : ℕ, c.gentask.memTotal * u = k →
        getUtilOverheadBymem c k = .ok (some (if 0 < c.gentask.memTotal
          then c.gentask.utilTarget - c.gentask.utilCpu else (c.tables.mems.map overhead).sum)) := by
  obtain ⟨m, mems, hmems⟩ := List.exists_cons_of_length_pos hn
  obtain ⟨per, hper⟩ := hdvd
  have hm : m.wcetScale = 1 := hs.first m (by rw [hmems]; rfl)
  have hpos : ∀ m' ∈ c.tables.mems, 0 < m'.wcetScale := fun m' hm' => (hs.range m' hm').1
  have htail : ∀ m' ∈ mems, 0 < m'.wcetScale := fun m' hm' => hpos m' (by simp [hmems, hm'])
  have hu : c.gentask.utilTarget - c.gentask.utilCpu ≤ (mems.map overhead).sum := by
    rw [hmems, List.map_cons, List.sum_cons, overhead, hm] at hsum
    norm_num at hsum
    linarith
  rcases Nat.eq_zero_or_pos per with rfl | hperpos
  · -- there is no memory to use
    rw [Nat.mul_zero] at hper
    obtain ⟨x, hx⟩ := exists_fills c.tables.nMems Nat.one_pos htail (by linarith) hu
    obtain ⟨hlow, hhigh⟩ := hx.range hmems
    refine ⟨_, getMemUtil_fills hmems hx, hlow, hhigh, fun k _ => ?_⟩
    rw [getUtilOverheadBymem, if_neg (by omega), hper, Nat.zero_div, utilOverhead_no_room hpos,
      if_neg (lt_irrefl 0), zero_add]
  · obtain ⟨x, hx⟩ := exists_fills c.tables.nMems hperpos htail (by linarith) hu
    obtain ⟨hlow, hhigh⟩ := hx.range hmems
    refine ⟨_, getMemUtil_fills hmems hx, hlow, hhigh, fun k hk => ?_⟩
    rw [hx.overhead_eq hmems hm hper hk, if_pos (by rw [hper]; exact Nat.mul_pos hn hperpos)]

end Conf

/-- Two memory types of which the second doubles the execution times, and a utilisation of one half to
    be made up by the memory. -/
def twoMemsConf (memTotal : ℕ) : Conf where
  tables := { mems := [⟨"dram", 1000, 1, 1 / 100, 1 / 1000⟩, ⟨"nvram", 1000, 1 / 2, 1 / 100, 1 / 1000⟩] }
  gentask := { memTotal, utilCpu := 1 / 2, utilTarget := 1, nTasksTarget := 2 }

theorem twoMemsConf_scaled (memTotal : ℕ) : Scaled (twoMemsConf memTotal).tables.mems := by
  refine ⟨fun m hm => ?_, fun m hm => ?_⟩
  · simp only [twoMemsConf, List.mem_cons, List.not_mem_nil, or_false] at hm
    rcases hm with rfl | rfl
    · norm_num
    · norm_num
  · obtain rfl := Option.some.inj hm
    rfl

/-- Three quarters of the memory cost one half. -/
theorem memOverhead_inverse_twoMems : getMemUtil id (twoMemsConf 1000) = some (3 / 4) ∧
    getUtilOverheadBymem (twoMemsConf 1000) 750 = .ok (some (1 / 2)) := by
  obtain ⟨u, hu, _, _, hback⟩ := @memOverhead_inverse (twoMemsConf 1000) (by decide)
    (twoMemsConf_scaled 1000) (by decide) (by decide +kernel) (by decide +kernel)
  have hmem : getMemUtil id (twoMemsConf 1000) = some (3 / 4) := by decide +kernel
  obtain rfl := Option.some.inj (hu.symm.trans hmem)
  refine ⟨hmem, (hback 750 (by norm_num [twoMemsConf])).trans ?_⟩
  decide +kernel

/-- Without memory its use costs what both types cost, and not one half. -/
theorem memOverhead_fails : Scaled (twoMemsConf 0).tables.mems ∧
    (twoMemsConf 0).tables.nMems ∣ (twoMemsConf 0).gentask.memTotal ∧
    (twoMemsConf 0).gentask.utilCpu ≤ (twoMemsConf 0).gentask.utilTarget ∧
    (twoMemsConf 0).gentask.utilTarget - (twoMemsConf 0).gentask.utilCpu ≤
      ((twoMemsConf 0).tables.mems.map overhead).sum ∧
    getMemUtil id (twoMemsConf 0) = some (3 / 4) ∧
    getUtilOverheadBymem (twoMemsConf 0) 0 = .ok (some 1) ∧
    (twoMemsConf 0).gentask.utilTarget - (twoMemsConf 0).gentask.utilCpu ≠ 1 := by
  refine ⟨twoMemsConf_scaled 0, by decide, by decide +kernel, by decide +kernel, by decide +kernel,
    by decide +kernel, by decide +kernel⟩

end MutualEdge.Gasgen
