import MutualEdge.Draws
import MutualEdge.Gasgen
import MutualEdge.Lib.Outcome
import MutualEdge.Lib.Printf

/-! `gen_task.c`: the tasks that gasgen draws and writes to `task_generated.txt`.

    Numbers in the configuration stand as they are written in the file. `fl` rounds what is read and the
    result of every operation to a double; where one of these has to become an `unsigned` that cannot
    hold it, C says nothing and neither does the model. What the report at the end of `gen_task` adds
    up is only printed and stays exact. -/

namespace MutualEdge.Gasgen
open Checks Choice LineReader Scanf

/-- `RAND_MAX + 1`: `rand()` is below. -/
abbrev randBound : ℕ := 2 ^ 31

/-- What C leaves open: the conversion of a double, `none` when it is no number, to an `unsigned` that
    cannot hold its integral part, and for how many entries the block of `calloc(100, ..)` has room. -/
structure Machine where
  toUnsigned : Option ℚ → ℕ
  toUnsigned_lt : ∀ x, toUnsigned x < 2 ^ 32
  truncates : ∀ x : ℚ, -1 < x → x < 2 ^ 32 → toUnsigned (some x) = ⌊x⌋₊
  room : ℕ
  le_room : 100 ≤ room

def genOffloadingBool (M : Machine) (nTasksTarget : ℕ) : Except Halt (List ℕ) :=
  (List.range nTasksTarget).foldlM (fun offloadingBool i =>
    if i < offloadingBool.length then .ok (offloadingBool.set i 0) else .error .memoryFault)
    (List.replicate M.room 0)

/-- `max - min + 1` -/
def spread (minValue maxValue : ℕ) : ℕ := u32 (maxValue + (2 ^ 32 - minValue) + 1)

/-- `min + get_rand(max - min + 1)` -/
def drawBetween (minValue maxValue : ℕ) : Rand ℕ := do
  let r ← getRand (spread minValue maxValue)
  return u32 (minValue + r)

/-- `n + (int)get_rand(n / 2) - (int)get_rand(n / 2)` -/
def drawAround (n : ℕ) : Rand ℕ := do
  let up ← getRand (n / 2)
  let down ← getRand (n / 2)
  return u32 (n + up + (2 ^ 32 - down))

section Gentask
variable (fl : ℚ → ℚ) (M : Machine) (c : Conf)

/-- The loop of `get_mem_util` over the memory types behind the first one; an infinite overhead takes
    no share. -/
def memUtil (nMems : ℕ) : List Mem → ℚ → ℚ → ℚ
  | [], _, utilMem => utilMem
  | mem :: mems, utilBymem, utilMem =>
    if utilBymem ≤ 0 then utilMem
    else if fl mem.wcetScale = 0 then utilMem
    else
      let utilOverhead := fl (fl (1 / fl mem.wcetScale) - 1)
      if utilOverhead < utilBymem then
        memUtil nMems mems (fl (utilBymem - utilOverhead)) (fl (utilMem + fl (1.0 / nMems)))
      else fl (utilMem + fl (fl (fl (1.0 / nMems) * utilBymem) / utilOverhead))

/-- No number without a memory type. -/
def getMemUtil : Option ℚ :=
  if c.tables.nMems = 0 then none
  else some (memUtil fl c.tables.nMems c.tables.mems.tail
    (fl (fl c.gentask.utilTarget - fl c.gentask.utilCpu)) (fl (1.0 / c.tables.nMems)))

def utilCpu1task : ℚ := fl (fl c.gentask.utilCpu / c.gentask.nTasksTarget)

def utilMem1task : Option ℚ := (getMemUtil fl c).map fun u => fl (u / c.gentask.nTasksTarget)

/-- `mem_total * util_mem_1task` -/
def memreqReal : Option ℚ := (utilMem1task fl c).map fun u => fl (c.gentask.memTotal * u)

def memreq1task : ℕ := M.toUnsigned (memreqReal fl c)

/-- `wcet / util_cpu_1task` -/
def durationReal (wcet : ℕ) : Option ℚ :=
  if utilCpu1task fl c = 0 then none else some (fl (wcet / utilCpu1task fl c))

/-- What is drawn for a task and its line. -/
def doGenTask (i : ℕ) (offloadingBool : List ℕ) : Rand Task := do
  let wcet ← drawBetween c.gentask.wcetMin c.gentask.wcetMax
  let duration ← drawAround (M.toUnsigned (durationReal fl c wcet))
  let memreq ← drawAround (memreq1task fl M c)
  let up ← getRand 1000
  let down ← getRand 1000
  let taskSize ← drawBetween c.gentask.taskSizeMin c.gentask.taskSizeMax
  let inputSize ← drawBetween c.gentask.inputSizeMin c.gentask.inputSizeMax
  let outputSize ← drawBetween c.gentask.outputSizeMin c.gentask.outputSizeMax
  return { wcet, period := duration, memreq, taskSize, inputSize, outputSize
           memActiveRatio := 0.1 + up / 10000.0 - down / 10000.0
           offloadingBool := offloadingBool.getD i 0 }

/-- `fprintf(fp, "%u %u %u %lf %u %u %u %u\n", ...)` -/
def taskText (t : Task) : List Char :=
  Printf.unsigned t.wcet ++ ' ' :: (Printf.unsigned t.period ++ ' ' :: (Printf.unsigned t.memreq ++
    ' ' :: (Printf.double t.memActiveRatio ++ ' ' :: (Printf.unsigned t.taskSize ++
    ' ' :: (Printf.unsigned t.inputSize ++ ' ' :: (Printf.unsigned t.outputSize ++
    ' ' :: (Printf.unsigned t.offloadingBool ++ ['\n'])))))))

def genTasks (offloadingBool : List ℕ) : ℕ → ℕ → Rand (List Task)
  | 0, _ => pure []
  | n + 1, i => do
    let t ← doGenTask fl M c i offloadingBool
    let ts ← genTasks offloadingBool n (i + 1)
    return t :: ts

/-- `gen_task`, up to and with the first `n` calls of `do_gen_task`. -/
def genTaskUpto (n : ℕ) : Rand (List Task) := do
  let offloadingBool ← genOffloadingBool M c.gentask.nTasksTarget
  genTasks fl M c offloadingBool n 0

/-- `util_sum_cpu += ((double)wcet / duration)` over all calls of `do_gen_task`. -/
def utilSumCpu (ts : List Task) : ℚ := ts.foldl (fun sum t => sum + (t.wcet / t.period : ℚ)) 0

/-- `memreq_total += memreq` -/
def memreqTotal (ts : List Task) : ℕ := ts.foldl (fun total t => u32 (total + t.memreq)) 0

/-- The utilisation that filling the memory type costs. -/
def overhead (mem : Mem) : ℚ := 1 / mem.wcetScale - 1

/-- The loop of `get_util_overhead_bymem`; no number when an overhead is infinite. -/
def utilOverhead (memTotalPerType : ℕ) : List Mem → ℕ → ℚ → Option ℚ
  | [], _, utilOverhead => some utilOverhead
  | mem :: mems, memUsed, utilOverheads =>
    if mem.wcetScale = 0 then none
    else if memUsed < memTotalPerType then
      some (utilOverheads + overhead mem * memUsed / memTotalPerType)
    else utilOverhead memTotalPerType mems (memUsed - memTotalPerType) (utilOverheads + overhead mem)

/-- `mem_total / n_mems` is a division of integers. -/
def getUtilOverheadBymem (c : Conf) (memUsed : ℕ) : Except Halt (Option ℚ) :=
  if c.tables.nMems = 0 then .error .sigfpe
  else .ok (utilOverhead (c.gentask.memTotal / c.tables.nMems) c.tables.mems memUsed 0)

/-- The tasks written; the utilisation that is printed behind them needs a memory type. -/
def genTask : Rand (List Task) := do
  let ts ← genTaskUpto fl M c c.gentask.nTasksTarget
  let _ ← getUtilOverheadBymem c (memreqTotal ts)
  return ts

/-- The file it leaves behind. -/
def taskGenerated (ts : List Task) : List Char := ts.flatMap taskText

end Gentask

/-! ### What is drawn -/

/-- The values of `min + get_rand(max - min + 1)`. -/
def Between (minValue maxValue v : ℕ) : Prop :=
  ∃ r < spread minValue maxValue, r < randBound ∧ v = u32 (minValue + r)

/-- The values of `n + (int)get_rand(n / 2) - (int)get_rand(n / 2)`. -/
def Around (n v : ℕ) : Prop := ∃ up < n / 2, ∃ down < n / 2, v = u32 (n + up + (2 ^ 32 - down))

theorem u32_lt (n : ℕ) : u32 n < 2 ^ 32 := Nat.mod_lt _ (by norm_num)

theorem Between.lt {minValue maxValue v : ℕ} (h : Between minValue maxValue v) : v < 2 ^ 32 := by
  obtain ⟨r, _, _, rfl⟩ := h
  exact u32_lt _

theorem Around.lt {n v : ℕ} (h : Around n v) : v < 2 ^ 32 := by
  obtain ⟨up, _, down, _, rfl⟩ := h
  exact u32_lt _

theorem below_getRand (maxValue : ℕ) :
    Below randBound (getRand maxValue) fun v => v < maxValue ∧ v < randBound := by
  refine Below.next.bind fun r hr => Below.lift fun v hv => ?_
  obtain ⟨_, rfl⟩ := getRandOf_ok hv
  exact ⟨getRandOf_lt hv, (Nat.mod_le _ _).trans_lt hr⟩

theorem below_drawBetween (minValue maxValue : ℕ) :
    Below randBound (drawBetween minValue maxValue) (Between minValue maxValue) :=
  (below_getRand _).bind fun r hr => Below.pure ⟨r, hr.1, hr.2, rfl⟩

theorem below_drawAround (n : ℕ) : Below randBound (drawAround n) (Around n) := by
  refine (below_getRand _).bind fun up hup => (below_getRand _).bind fun down hdown => ?_
  exact Below.pure ⟨up, hup.1, down, hdown.1, rfl⟩

theorem drawBetween_reads {minValue maxValue v : ℕ} (h : Between minValue maxValue v) :
    ∃ ds, (∀ d ∈ ds, d < randBound) ∧ Reads (drawBetween minValue maxValue) ds v := by
  obtain ⟨r, hr, hbound, rfl⟩ := h
  exact ⟨[r], by simpa using hbound, (getRand_reads hr).bind_nil (Reads.pure _)⟩

theorem drawAround_reads {n v : ℕ} (hn : n < 2 ^ 32) (h : Around n v) :
    ∃ ds, (∀ d ∈ ds, d < randBound) ∧ Reads (drawAround n) ds v := by
  obtain ⟨up, hup, down, hdown, rfl⟩ := h
  refine ⟨[up] ++ [down], ?_, ?_⟩
  · intro d hd
    rcases List.mem_append.mp hd with hd | hd
    · obtain rfl := List.mem_singleton.mp hd
      unfold randBound
      omega
    · obtain rfl := List.mem_singleton.mp hd
      unfold randBound
      omega
  · exact (getRand_reads hup).bind ((getRand_reads hdown).bind_nil (Reads.pure _))

/-- What a call of `do_gen_task` can give. -/
structure Generated (fl : ℚ → ℚ) (M : Machine) (c : Conf) (t : Task) : Prop where
  no : t.no = 0
  wcet : Between c.gentask.wcetMin c.gentask.wcetMax t.wcet
  period : Around (M.toUnsigned (durationReal fl c t.wcet)) t.period
  memreq : Around (memreq1task fl M c) t.memreq
  memActiveRatio : ∃ n : ℕ, t.memActiveRatio * 10 ^ 6 = n ∧ n < 10 ^ 6
  taskSize : Between c.gentask.taskSizeMin c.gentask.taskSizeMax t.taskSize
  inputSize : Between c.gentask.inputSizeMin c.gentask.inputSizeMax t.inputSize
  outputSize : Between c.gentask.outputSizeMin c.gentask.outputSizeMax t.outputSize
  offloadingBool : t.offloadingBool = 0

section Draws
variable {fl : ℚ → ℚ} {M : Machine} {c : Conf}

/-- The ratio is a multiple of `10 ^ -4` between `0` and `0.2`. -/
theorem ratio_exact {up down : ℕ} (hup : up < 1000) (hdown : down < 1000) :
    ∃ n : ℕ, (0.1 + (up : ℚ) / 10000.0 - down / 10000.0) * 10 ^ 6 = n ∧ n < 10 ^ 6 := by
  refine ⟨100000 + 100 * up - 100 * down, ?_, by omega⟩
  rw [Nat.cast_sub (by omega)]
  norm_num
  ring

theorem below_doGenTask {i : ℕ} {offloadingBool : List ℕ} (h : offloadingBool.getD i 0 = 0) :
    Below randBound (doGenTask fl M c i offloadingBool) (Generated fl M c) := by
  refine (below_drawBetween _ _).bind fun wcet hwcet => ?_
  refine (below_drawAround _).bind fun duration hduration => ?_
  refine (below_drawAround _).bind fun memreq hmemreq => ?_
  refine (below_getRand _).bind fun up hup => (below_getRand _).bind fun down hdown => ?_
  refine (below_drawBetween _ _).bind fun taskSize htask => ?_
  refine (below_drawBetween _ _).bind fun inputSize hinput => ?_
  refine (below_drawBetween _ _).bind fun outputSize houtput => Below.pure ?_
  exact ⟨rfl, hwcet, hduration, hmemreq, ratio_exact hup.1 hdown.1, htask, hinput, houtput, h⟩

theorem below_genTasks {offloadingBool : List ℕ} (h : ∀ i, offloadingBool.getD i 0 = 0) (n i : ℕ) :
    Below randBound (genTasks fl M c offloadingBool n i) fun ts =>
      ts.length = n ∧ ∀ t ∈ ts, Generated fl M c t := by
  induction n generalizing i with
  | zero => exact Below.pure ⟨rfl, by simp⟩
  | succ n ih =>
    refine (below_doGenTask (h i)).bind fun t ht => (ih (i + 1)).bind fun ts hts => Below.pure ?_
    refine ⟨by rw [List.length_cons, hts.1], fun t' ht' => ?_⟩
    rcases List.mem_cons.mp ht' with rfl | ht'
    · exact ht
    · exact hts.2 t' ht'

/-- Setting entries of an array of zeros to zero. -/
theorem genOffloadingBool_ok {n : ℕ} {offloadingBool : List ℕ}
    (h : genOffloadingBool M n = .ok offloadingBool) : offloadingBool = List.replicate M.room 0 := by
  refine foldlM_invariant (I := (· = List.replicate M.room 0)) ?_ rfl h
  rintro _ i l rfl hl
  split at hl
  · rw [← Except.ok.inj hl, List.set_replicate_self]
  · cases hl

theorem genOffloadingBool_of_le {n : ℕ} (h : n ≤ M.room) :
    genOffloadingBool M n = .ok (List.replicate M.room 0) := by
  unfold genOffloadingBool
  induction n with
  | zero => rfl
  | succ n ih =>
    have hn : n < (List.replicate M.room 0).length := by
      rw [List.length_replicate]
      omega
    rw [List.range_succ, List.foldlM_append]
    refine bind_ok.mpr ⟨List.replicate M.room 0, ih (by omega), ?_⟩
    rw [List.foldlM_cons, if_pos hn, List.set_replicate_self]
    rfl

theorem below_genTaskUpto (n : ℕ) : Below randBound (genTaskUpto fl M c n) fun ts =>
    ts.length = n ∧ ∀ t ∈ ts, Generated fl M c t := by
  refine Below.bind (P := (· = List.replicate M.room 0)) (Below.lift fun l hl => ?_) ?_
  · exact genOffloadingBool_ok hl
  · rintro _ rfl
    refine below_genTasks (fun i => ?_) n 0
    rw [List.getD_eq_getElem?_getD, List.getElem?_replicate]
    split <;> rfl

theorem below_genTask : Below randBound (genTask fl M c) fun ts =>
    ts.length = c.gentask.nTasksTarget ∧ ∀ t ∈ ts, Generated fl M c t := by
  refine (below_genTaskUpto _).bind fun ts hts => ?_
  exact Below.bind (P := fun _ => True) (Below.lift fun _ _ => trivial) fun _ _ => Below.pure hts

/-- A call can be made to give any wcet, sizes and period around the quotient. -/
theorem doGenTask_reads (i : ℕ) (offloadingBool : List ℕ) {wcet period memreq taskSize inputSize
    outputSize : ℕ} (hwcet : Between c.gentask.wcetMin c.gentask.wcetMax wcet)
    (hperiod : Around (M.toUnsigned (durationReal fl c wcet)) period)
    (hmemreq : Around (memreq1task fl M c) memreq)
    (htask : Between c.gentask.taskSizeMin c.gentask.taskSizeMax taskSize)
    (hinput : Between c.gentask.inputSizeMin c.gentask.inputSizeMax inputSize)
    (houtput : Between c.gentask.outputSizeMin c.gentask.outputSizeMax outputSize) :
    ∃ ds t, (∀ d ∈ ds, d < randBound) ∧ Reads (doGenTask fl M c i offloadingBool) ds t ∧
      t.wcet = wcet ∧ t.period = period ∧ t.taskSize = taskSize ∧ t.inputSize = inputSize ∧
      t.outputSize = outputSize := by
  obtain ⟨dw, hdw, hw⟩ := drawBetween_reads hwcet
  obtain ⟨dp, hdp, hp⟩ := drawAround_reads (M.toUnsigned_lt _) hperiod
  obtain ⟨dm, hdm, hm⟩ := drawAround_reads (M.toUnsigned_lt _) hmemreq
  have hr := getRand_reads (show 0 < 1000 by decide)
  obtain ⟨dt, hdt, ht⟩ := drawBetween_reads htask
  obtain ⟨di, hdi, hi⟩ := drawBetween_reads hinput
  obtain ⟨dout, hdo, ho⟩ := drawBetween_reads houtput
  have hreads : Reads (doGenTask fl M c i offloadingBool)
      (dw ++ (dp ++ (dm ++ ([0] ++ ([0] ++ (dt ++ (di ++ dout))))))) _ :=
    hw.bind (hp.bind (hm.bind (hr.bind (hr.bind (ht.bind (hi.bind (ho.bind_nil (Reads.pure _))))))))
  refine ⟨_, _, ?_, hreads, rfl, rfl, rfl, rfl, rfl⟩
  simp only [List.forall_mem_append, List.forall_mem_singleton]
  exact ⟨hdw, hdp, hdm, by decide, by decide, hdt, hdi, hdo⟩

end Draws

end MutualEdge.Gasgen
