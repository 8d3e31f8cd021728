import MutualEdge.Lib.Doubles
import MutualEdge.Written

/-! Whether gastask reads the lines that gasgen writes.

    The reader wants eight fields and a wcet below the period. The generator takes the quotient of the
    wcet and the utilisation of one task for the period and moves it by up to half of it, so its line is
    refused when there are too few tasks for the utilisation. -/

namespace MutualEdge.Gasgen
open Checks Choice Doubles LineReader Scanf

/-! ### What is read back -/

/-- gastask takes the line: `fgets` hands it over as one data line, `sscanf` reads the eight values
    back, the ratio to the printed precision, and the wcet is below the period. -/
structure LineAccepted (t : Task) : Prop where
  line : ∀ rest, lines (taskText t ++ rest) = taskText t :: lines rest
  fits : Fits bufSize [taskText t]
  data : lineKind (taskText t) = .data
  reads : ∃ r, |r - t.memActiveRatio| ≤ 1 / 2 / 10 ^ 6 ∧
    (taskLine decimal (taskText t)).fields = some { t with memActiveRatio := r }
  lt : t.wcet < t.period
  accepted : ∀ cfg, ∃ cfg', MutualEdge.parseTask cfg [taskLine decimal (taskText t)] = .ok cfg'

/-- The line without its newline. -/
def taskWords (t : Task) : List Char :=
  Printf.unsigned t.wcet ++ ' ' :: (Printf.unsigned t.period ++ ' ' :: (Printf.unsigned t.memreq ++
    ' ' :: (Printf.double t.memActiveRatio ++ ' ' :: (Printf.unsigned t.taskSize ++
    ' ' :: (Printf.unsigned t.inputSize ++ ' ' :: (Printf.unsigned t.outputSize ++
    ' ' :: Printf.unsigned t.offloadingBool))))))

theorem taskText_eq (t : Task) : taskText t = taskWords t ++ ['\n'] := by
  simp [taskText, taskWords]

theorem inNumbers_taskWords {t : Task} {ch : Char} (h : ch ∈ taskWords t) : InNumbers ch := by
  simp only [taskWords, List.mem_append, List.mem_cons] at h
  rcases h with h | h | h | h | h | h | h | h | h | h | h | h | h | h | h
  all_goals first
    | exact .inl (Printf.isDigit_unsigned h)
    | exact .inr (.inl h)
    | exact (Printf.mem_double h).imp_right .inr

section Generated
variable {fl : ℚ → ℚ} {M : Machine} {c : Conf} {t : Task}

theorem Generated.sscanf (h : Generated fl M c t) :
    sscanf decimal [.u, .u, .u, .lf, .u, .u, .u, .u] (taskText t) =
      [.u t.wcet, .u t.period, .u t.memreq, .lf (Printf.printed t.memActiveRatio), .u t.taskSize,
        .u t.inputSize, .u t.outputSize, .u t.offloadingBool] := by
  have hblank : ∀ cs, Printf.NoDigit (' ' :: cs) := fun _ => rfl
  have hzero : t.offloadingBool < 2 ^ 32 := by
    rw [h.offloadingBool]
    norm_num
  unfold taskText
  rw [Printf.sscanf_unsigned _ _ h.wcet.lt (hblank _), Printf.sscanf_blank,
    Printf.sscanf_unsigned _ _ h.period.lt (hblank _), Printf.sscanf_blank,
    Printf.sscanf_unsigned _ _ h.memreq.lt (hblank _), Printf.sscanf_blank,
    Printf.sscanf_double _ _ (hblank _), Printf.sscanf_blank,
    Printf.sscanf_unsigned _ _ h.taskSize.lt (hblank _), Printf.sscanf_blank,
    Printf.sscanf_unsigned _ _ h.inputSize.lt (hblank _), Printf.sscanf_blank,
    Printf.sscanf_unsigned _ _ h.outputSize.lt (hblank _), Printf.sscanf_blank,
    Printf.sscanf_unsigned _ _ hzero (show Printf.NoDigit ['\n'] from rfl)]
  rfl

theorem Generated.fields (h : Generated fl M c t) :
    (taskLine decimal (taskText t)).fields =
      some { t with memActiveRatio := Printf.printed t.memActiveRatio } := by
  have hcstr : cstr (taskText t) = taskText t := by
    rw [taskText_eq]
    exact cstr_row fun ch hch => inNumbers_taskWords hch
  rw [taskLine, scanLine, hcstr, h.sscanf]
  obtain ⟨no, wcet, period, memreq, memActiveRatio, taskSize, inputSize, outputSize, offl⟩ := t
  obtain rfl : no = 0 := h.no
  rfl

theorem Generated.length_lt (h : Generated fl M c t) : (taskText t).length < bufSize := by
  have hu : ∀ {n : ℕ}, n < 2 ^ 32 → (Printf.unsigned n).length ≤ 10 := fun hn =>
    Printf.length_unsigned (by decide) (hn.trans (by norm_num))
  have hzero : t.offloadingBool < 2 ^ 32 := by
    rw [h.offloadingBool]
    norm_num
  obtain ⟨n, hn, hlt⟩ := h.memActiveRatio
  have hpos : 0 ≤ t.memActiveRatio := by
    have : (0 : ℚ) ≤ t.memActiveRatio * 10 ^ 6 := hn ▸ n.cast_nonneg
    exact nonneg_of_mul_nonneg_left this (by norm_num)
  have hround : Printf.roundEven (|t.memActiveRatio| * 10 ^ 6) = n := by
    rw [abs_of_nonneg hpos, hn]
    simp [Printf.roundEven]
  have hdouble := Printf.length_double (k := 1) (by decide) (x := t.memActiveRatio)
    (by rw [hround]; omega)
  have hwcet := hu h.wcet.lt
  have hperiod := hu h.period.lt
  have hmemreq := hu h.memreq.lt
  have htask := hu h.taskSize.lt
  have hinput := hu h.inputSize.lt
  have houtput := hu h.outputSize.lt
  have hoffl := hu hzero
  simp only [taskText, List.length_append, List.length_cons, List.length_nil, bufSize]
  omega

theorem Generated.dataLine (h : Generated fl M c t) : DataLine (taskText t) := by
  have hlength := h.length_lt
  have hkind : lineKind (taskText t) = .data := lineKind_unsigned _ _
  rw [taskText_eq] at hlength hkind ⊢
  exact dataLine_row (fun ch hch => inNumbers_taskWords hch) hlength hkind

/-- A generated line is accepted exactly if the wcet is below the period. -/
theorem Generated.lineAccepted_iff (h : Generated fl M c t) : LineAccepted t ↔ t.wcet < t.period := by
  refine ⟨LineAccepted.lt, fun hlt => ?_⟩
  have hline := h.dataLine
  refine ⟨hline.line, hline.fits, hline.data, ⟨_, Printf.printed_near _, h.fields⟩, hlt, fun cfg => ?_⟩
  rw [MutualEdge.parseTask, parseLines, List.foldlM_cons, h.fields]
  dsimp only
  rw [if_neg (not_le.mpr hlt)]
  exact ⟨_, rfl⟩

end Generated

/-! ### Periods -/

/-- A number that is not moved below `w`. -/
theorem Around.above {w n v : ℕ} (hw : 2 * w ≤ n + 1) (hn : n + n / 2 ≤ 2 ^ 32) (h : Around n v) :
    w < v := by
  obtain ⟨up, hup, down, hdown, rfl⟩ := h
  unfold u32
  omega

/-- A number that can be. -/
theorem around_low {w n : ℕ} (h2 : 2 ≤ n) (hw : n + 1 < 2 * w) (hn : n < 2 ^ 32) :
    ∃ v ≤ w, Around n v := by
  refine ⟨n - n / 2 + 1, by omega, 0, by omega, n / 2 - 1, by omega, ?_⟩
  unfold u32
  omega

/-- A number that can be moved past the last `unsigned`. -/
theorem around_wraps {n : ℕ} (hwrap : 2 ^ 32 < n + n / 2) (hn : n < 2 ^ 32) : Around n 0 := by
  refine ⟨2 ^ 32 - n, by omega, 0, by omega, ?_⟩
  unfold u32
  omega

/-- The quotient of the wcet and the utilisation of one task is a number, and such that `get_rand` has
    nothing to draw from or no draws lower the period to the wcet or raise it past 32 bits. -/
def LongEnough (fl : ℚ → ℚ) (c : Conf) (wcet : ℕ) : Prop :=
  ∃ x, durationReal fl c wcet = some x ∧ -1 < x ∧
    (x < 2 ∨ 2 * (wcet : ℚ) - 1 ≤ x ∧ x < 2863311532)

/-- Some draws complete a call of `do_gen_task`, if the wcet allows it. -/
structure Writable (fl : ℚ → ℚ) (c : Conf) : Prop where
  tasks : 0 < c.gentask.nTasksTarget
  wcet : 0 < spread c.gentask.wcetMin c.gentask.wcetMax
  memreq : ∀ x, memreqReal fl c = some x → x ≤ -1 ∨ 2 ≤ x
  taskSize : 0 < spread c.gentask.taskSizeMin c.gentask.taskSizeMax
  inputSize : 0 < spread c.gentask.inputSizeMin c.gentask.inputSizeMax
  outputSize : 0 < spread c.gentask.outputSizeMin c.gentask.outputSizeMax

/-- Every line that gasgen writes for the parameters is taken by gastask, whatever is drawn and
    whatever C leaves open. -/
def LinesAccepted (fl : ℚ → ℚ) (c : Conf) : Prop :=
  ∀ M, ∀ n ≤ c.gentask.nTasksTarget,
    Below randBound (genTaskUpto fl M c n) fun ts => ∀ t ∈ ts, LineAccepted t

/-- A machine on which conversions that C leaves open give a number too large to be moved. -/
def worstMachine (room : ℕ) : Machine where
  toUnsigned
    | some x => if -1 < x ∧ x < 2 ^ 32 then ⌊x⌋₊ else 2863311532
    | none => 2863311532
  toUnsigned_lt x := by
    cases x with
    | none => norm_num
    | some x =>
      dsimp only
      split
      · rename_i hx
        exact (Nat.floor_lt' (by norm_num)).mpr (by exact_mod_cast hx.2)
      · norm_num
  truncates x h1 h2 := if_pos ⟨h1, h2⟩
  room := max 100 room
  le_room := Nat.le_max_left _ _

theorem two_le_toUnsigned {M : Machine} {x : ℚ} (h1 : -1 < x) (h : 2 ≤ M.toUnsigned (some x)) :
    2 ≤ x := by
  by_contra hlt
  rw [M.truncates x h1 (by linarith)] at h
  have hfloor : ⌊x⌋₊ < 2 := (Nat.floor_lt' (by decide)).mpr (by exact_mod_cast not_le.mp hlt)
  omega

section Accepted
variable {fl : ℚ → ℚ} {M : Machine} {c : Conf}

theorem Between.spread_pos {minValue maxValue v : ℕ} (h : Between minValue maxValue v) :
    0 < spread minValue maxValue := by
  obtain ⟨r, hr, _⟩ := h
  omega

theorem Around.two_le {n v : ℕ} (h : Around n v) : 2 ≤ n := by
  obtain ⟨up, hup, _⟩ := h
  omega

/-- A wcet and a period as generated, for parameters whose periods are long enough. -/
theorem LongEnough.lt {wcet period : ℕ} (h : LongEnough fl c wcet)
    (hperiod : Around (M.toUnsigned (durationReal fl c wcet)) period) : wcet < period := by
  obtain ⟨x, hx, h1, hcase⟩ := h
  have h2 := hperiod.two_le
  rw [hx] at hperiod h2
  have hx2 := two_le_toUnsigned h1 h2
  rcases hcase with hlt | ⟨hlong, hshort⟩
  · exact absurd hlt (not_lt.mpr hx2)
  · rw [M.truncates x h1 (by linarith)] at hperiod
    have hfloor : ⌊x⌋₊ < 2863311532 := (Nat.floor_lt' (by decide)).mpr (by exact_mod_cast hshort)
    refine hperiod.above ?_ (by omega)
    have hle : ((2 * wcet : ℕ) : ℚ) < ((⌊x⌋₊ + 2 : ℕ) : ℚ) := by
      have := Nat.lt_floor_add_one x
      push_cast
      linarith
    have := Nat.cast_lt.mp hle
    omega

/-- Parameters whose period for some wcet is not long enough have a period that is not above it. -/
theorem exists_around (room : ℕ) {wcet : ℕ} (h : ¬ LongEnough fl c wcet) :
    ∃ period ≤ wcet, Around ((worstMachine room).toUnsigned (durationReal fl c wcet)) period := by
  have hopen : Around 2863311532 0 := around_wraps (by norm_num) (by norm_num)
  cases hx : durationReal fl c wcet with
  | none => exact ⟨0, Nat.zero_le _, hopen⟩
  | some x =>
    by_cases hdef : -1 < x ∧ x < 2 ^ 32
    · have hconv : (worstMachine room).toUnsigned (some x) = ⌊x⌋₊ := if_pos hdef
      rw [hconv]
      have hnot : ¬ (x < 2 ∨ 2 * (wcet : ℚ) - 1 ≤ x ∧ x < 2863311532) := fun hcase =>
        h ⟨x, hx, hdef.1, hcase⟩
      push Not at hnot
      obtain ⟨h2, hlong⟩ := hnot
      have hfloor2 : 2 ≤ ⌊x⌋₊ := Nat.le_floor (by exact_mod_cast h2)
      have hfloor : ⌊x⌋₊ < 2 ^ 32 := (Nat.floor_lt' (by norm_num)).mpr (by exact_mod_cast hdef.2)
      by_cases hlow : 2 * (wcet : ℚ) - 1 ≤ x
      · have hbig : 2863311532 ≤ ⌊x⌋₊ := Nat.le_floor (by exact_mod_cast hlong hlow)
        exact ⟨0, Nat.zero_le _, around_wraps (by omega) hfloor⟩
      · refine around_low hfloor2 ?_ hfloor
        have hle : ((⌊x⌋₊ + 1 : ℕ) : ℚ) < ((2 * wcet : ℕ) : ℚ) := by
          have := Nat.floor_le (show (0 : ℚ) ≤ x by linarith)
          push_cast
          linarith
        exact Nat.cast_lt.mp hle
    · have hconv : (worstMachine room).toUnsigned (some x) = 2863311532 := if_neg hdef
      rw [hconv]
      exact ⟨0, Nat.zero_le _, hopen⟩

/-- A call that can be completed can be made to write a line that is refused. -/
theorem exists_refused (hw : Writable fl c) {wcet : ℕ}
    (hwcet : Between c.gentask.wcetMin c.gentask.wcetMax wcet) (h : ¬ LongEnough fl c wcet) :
    ¬ LinesAccepted fl c := by
  intro hall
  set M := worstMachine c.gentask.nTasksTarget
  obtain ⟨period, hle, hperiod⟩ := exists_around c.gentask.nTasksTarget h
  have hfirst : ∀ {lo hi : ℕ}, 0 < spread lo hi → Between lo hi (u32 (lo + 0)) := fun hpos =>
    ⟨0, hpos, by norm_num, rfl⟩
  have hmem2 : 2 ≤ memreq1task fl M c := by
    unfold memreq1task
    cases hx : memreqReal fl c with
    | none => norm_num [M, worstMachine]
    | some x =>
      by_cases hdef : -1 < x ∧ x < 2 ^ 32
      · have hconv : M.toUnsigned (some x) = ⌊x⌋₊ := if_pos hdef
        rw [hconv]
        exact Nat.le_floor (by exact_mod_cast (hw.memreq x hx).resolve_left (by linarith [hdef.1]))
      · have hconv : M.toUnsigned (some x) = 2863311532 := if_neg hdef
        rw [hconv]
        norm_num
  obtain ⟨ds, t, hds, hreads, hwt, hpt, _⟩ := doGenTask_reads (M := M) (c := c) 0
    (List.replicate M.room 0) hwcet hperiod ⟨0, by omega, 0, by omega, rfl⟩ (hfirst hw.taskSize)
    (hfirst hw.inputSize) (hfirst hw.outputSize)
  have hrun : Reads (genTaskUpto fl M c 1) ds [t] := by
    have hbool := genOffloadingBool_of_le (M := M) (n := c.gentask.nTasksTarget)
      (Nat.le_max_right _ _)
    exact (Reads.lift hbool).bind (hreads.bind_nil ((Reads.pure []).bind_nil (Reads.pure [t])))
  have haccepted := (hall M 1 hw.tasks).reads hrun hds t List.mem_cons_self
  have hlt := haccepted.lt
  omega

/-- A generated task tells that calls can be completed. -/
theorem Generated.writable {t : Task} (h : Generated fl M c t) (ht : 0 < c.gentask.nTasksTarget) :
    Writable fl c := by
  refine ⟨ht, h.wcet.spread_pos, fun x hx => ?_, h.taskSize.spread_pos, h.inputSize.spread_pos,
    h.outputSize.spread_pos⟩
  have h2 := h.memreq.two_le
  rw [memreq1task, hx] at h2
  by_cases h1 : -1 < x
  · exact .inr (two_le_toUnsigned h1 h2)
  · exact .inl (not_lt.mp h1)

/-- Every line is taken, and read back as it was generated, if and only if no line can be written or
    the period is long enough for every wcet that can be drawn. -/
theorem linesAccepted_iff (fl : ℚ → ℚ) (c : Conf) : LinesAccepted fl c ↔
    (Writable fl c → ∀ w, Between c.gentask.wcetMin c.gentask.wcetMax w → LongEnough fl c w) := by
  constructor
  · intro hall hw w hwcet
    by_contra h
    exact exists_refused hw hwcet h hall
  · intro h M n hn
    refine (below_genTaskUpto n).mono ?_
    rintro ts ⟨hlen, hgen⟩ t ht
    have hg := hgen t ht
    have hpos : 0 < ts.length := List.length_pos_of_mem ht
    have hlong := h (hg.writable (by omega)) t.wcet hg.wcet
    exact hg.lineAccepted_iff.mpr (hlong.lt hg.period)

end Accepted

/-- One task that is to use three fifths of the processor. -/
def scantFile : List Char :=
  ("*gentask\n10 10 1000 0.6 0.6 1 1 1 1 1 1 1\n\n" ++ "*mem\ndram 1000 1 0.01 0.001\n").toList

def scantConf : Conf where
  tables := { mems := [⟨"dram", 1000, 1, 1 / 100, 1 / 1000⟩] }
  gentask := ⟨10, 10, 1000, 3 / 5, 3 / 5, 1, 1, 1, 1, 1, 1, 1⟩

/-- Its period can be drawn shorter than its execution time. -/
theorem linesAccepted_scantConf :
    parseConf decimal 100 { content := scantFile } = some (.ok scantConf) ∧
    ¬ LinesAccepted Binary64.nearest scantConf ∧
    ∃ t, genTask Binary64.nearest (worstMachine 1) scantConf [0, 0, 7, 0, 0, 0, 0, 0, 0, 0] = .ok ([t], []) ∧
      t.wcet = 10 ∧ t.period = 9 ∧ MutualEdge.parseTask {} [taskLine decimal (taskText t)] =
        .error (.fatal 2 "wcet is larger or equal than period: %s"
          [.text "10 9 1000 0.100000 1 1 1 0"]) := by
  refine ⟨by decide +kernel, ?_, ⟨0, 10, 9, 1000, 1 / 10, 1, 1, 1, 0⟩, by decide +kernel, rfl, rfl,
    by decide +kernel⟩
  refine exists_refused ?_ (show Between _ _ 10 from ⟨0, by decide, by decide, rfl⟩) ?_
  · refine ⟨by decide, by decide, fun x hx => .inr ?_, by decide, by decide, by decide⟩
    have hmem : memreqReal Binary64.nearest scantConf = some 1000 := by decide +kernel
    obtain rfl := Option.some.inj (hmem.symm.trans hx)
    norm_num
  · rintro ⟨x, hx, _, hcase⟩
    have hduration : durationReal Binary64.nearest scantConf 10 =
        some (4691249611844267 / 281474976710656) := by decide +kernel
    obtain rfl := Option.some.inj (hduration.symm.trans hx)
    norm_num at hcase

end MutualEdge.Gasgen
