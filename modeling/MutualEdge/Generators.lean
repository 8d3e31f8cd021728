import MutualEdge.TaskLines

/-! `gen_network.c` and `gen_netcommander.c`, and whether gasgen's generators go wrong.

    A generator goes wrong by a remainder by zero, by an index outside `offloading_bool` or by a value
    outside its bounds. `Sound` says that no results of `rand()` lead there; the conditions for it are
    read off draw by draw, `sound_drawBetween` and `sound_drawAround` in one direction and
    `Sound.of_drawBetween` and `Sound.of_drawAround` in the other. -/

namespace MutualEdge.Gasgen
open Checks Choice LineReader Scanf

/-! ### The other generators -/

/-- The body of `do_gen_network` and of `do_gen_net_commander`: two values between their bounds. -/
def drawRow {α : Type} (row : ℕ → ℕ → α) (minFirst maxFirst minSecond maxSecond : ℕ) : Rand α := do
  let first ← drawBetween minFirst maxFirst
  let second ← drawBetween minSecond maxSecond
  return row first second

/-- The loop of `gen_network` and of `gen_net_commander`. -/
def genRows {α : Type} (doGen : Rand α) : ℕ → Rand (List α)
  | 0 => pure []
  | n + 1 => do
    let row ← doGen
    let rows ← genRows doGen n
    return row :: rows

/-- `fprintf(fp, "%u %u\n", ...)` -/
def rowText (first second : ℕ) : List Char :=
  Printf.unsigned first ++ ' ' :: (Printf.unsigned second ++ ['\n'])

def doGenNetwork (c : Conf) : Rand Network :=
  drawRow (fun uplink downlink => { uplink, downlink }) c.gennetwork.uplinkMin c.gennetwork.uplinkMax
    c.gennetwork.downlinkMin c.gennetwork.downlinkMax

def genNetwork (c : Conf) : Rand (List Network) :=
  genRows (doGenNetwork c) c.gennetwork.nNetworksTarget

def networkGenerated (rows : List Network) : List Char :=
  rows.flatMap fun row => rowText row.uplink row.downlink

def doGenNetCommander (c : Conf) : Rand NetCommander :=
  drawRow (fun interceptOut interceptIn => { interceptOut, interceptIn })
    c.gennetcommander.interceptOutMin c.gennetcommander.interceptOutMax
    c.gennetcommander.interceptInMin c.gennetcommander.interceptInMax

def genNetCommander (c : Conf) : Rand (List NetCommander) :=
  genRows (doGenNetCommander c) c.gennetcommander.nNetCommanderTarget

def networkCommanderGenerated (rows : List NetCommander) : List Char :=
  rows.flatMap fun row => rowText row.interceptOut row.interceptIn

/-! ### Soundness -/

/-- Whatever `rand()` returns, the values are as `P` says, and only a lack of draws ends the generator
    before its time. -/
abbrev Sound {α : Type} (x : Rand α) (P : α → Prop) : Prop := Safe randBound x P (· = .starved)

/-- A minimum and a maximum between which all values can be drawn: `max - min + 1` is neither zero nor
    wrapped around. -/
def Draws (minValue maxValue : ℕ) : Prop :=
  minValue ≤ maxValue ∧ maxValue - minValue + 1 < 2 ^ 32

instance (minValue maxValue : ℕ) : Decidable (Draws minValue maxValue) :=
  inferInstanceAs (Decidable (_ ∧ _))

section Bounds
variable {lo hi : ℕ}

theorem between_min (hlo : lo < 2 ^ 32) (h : 0 < spread lo hi) : Between lo hi lo :=
  ⟨0, h, by norm_num, by rw [u32]; omega⟩

theorem spread_of_draws (h : Draws lo hi) (hhi : hi < 2 ^ 32) : spread lo hi = hi - lo + 1 := by
  obtain ⟨hle, hlt⟩ := h
  unfold spread u32
  omega

theorem Draws.spread_pos (h : Draws lo hi) (hhi : hi < 2 ^ 32) : 0 < spread lo hi := by
  rw [spread_of_draws h hhi]
  omega

theorem Draws.between (h : Draws lo hi) (hhi : hi < 2 ^ 32) {v : ℕ} (hv : Between lo hi v) :
    lo ≤ v ∧ v ≤ hi := by
  obtain ⟨r, hr, _, rfl⟩ := hv
  obtain ⟨hle, hlt⟩ := h
  rw [spread_of_draws ⟨hle, hlt⟩ hhi] at hr
  unfold u32
  omega

/-- Values that stay within their bounds show that the bounds are in order. -/
theorem draws_of_between (hlo : lo < 2 ^ 32) (hhi : hi < 2 ^ 32) (hpos : 0 < spread lo hi)
    (h : ∀ v, Between lo hi v → lo ≤ v ∧ v ≤ hi) : Draws lo hi := by
  have hle := (h lo (between_min hlo hpos)).2
  refine ⟨hle, ?_⟩
  unfold spread u32 at hpos
  omega

end Bounds

section Draws
variable {α : Type} {f : ℕ → Rand α} {Q : α → Prop} {lo hi n : ℕ}

theorem sound_getRand (hn : 0 < n) : Sound (getRand n) fun v => v < n ∧ v < randBound :=
  .of_fails (below_getRand n) (fails_getRand (E := (· = .starved)) rfl fun h0 => absurd h0 hn.ne')

theorem sound_drawBetween (h : 0 < spread lo hi) : Sound (drawBetween lo hi) (Between lo hi) :=
  (sound_getRand h).bind fun r hr => Safe.pure ⟨r, hr.1, hr.2, rfl⟩

theorem sound_drawAround (h : 2 ≤ n) : Sound (drawAround n) (Around n) :=
  (sound_getRand (by omega)).bind fun up hup => (sound_getRand (by omega)).bind fun down hdown =>
    Safe.pure ⟨up, hup.1, down, hdown.1, rfl⟩

/-- A draw below zero ends the process. -/
theorem getRand_zero_stops {β : Type} (g : ℕ → Rand β) :
    (getRand 0 >>= g) [0] = .error .sigfpe := ((getRand_stops 0).bind g).eq

theorem Sound.of_drawBetween (h : Sound (drawBetween lo hi >>= f) Q) :
    0 < spread lo hi ∧ ∀ v, Between lo hi v → Sound (f v) Q := by
  refine ⟨Nat.pos_of_ne_zero fun h0 => ?_, fun v hv => ?_⟩
  · have hstop : drawBetween lo hi [0] = .error .sigfpe := by
      unfold drawBetween
      rw [h0]
      exact getRand_zero_stops _
    cases h.first (by simp) hstop
  · obtain ⟨ds, hds, hreads⟩ := drawBetween_reads hv
    exact h.after hds hreads

theorem Sound.of_drawAround (hn : n < 2 ^ 32) (h : Sound (drawAround n >>= f) Q) :
    2 ≤ n ∧ ∀ v, Around n v → Sound (f v) Q := by
  refine ⟨?_, fun v hv => ?_⟩
  · by_contra hlt
    have hstop : drawAround n [0] = .error .sigfpe := by
      unfold drawAround
      rw [show n / 2 = 0 by omega]
      exact getRand_zero_stops _
    cases h.first (by simp) hstop
  · obtain ⟨ds, hds, hreads⟩ := drawAround_reads hn hv
    exact h.after hds hreads

theorem Sound.of_getRand (hn : 0 < n) (h : Sound (getRand n >>= f) Q) : Sound (f 0) Q :=
  h.after (by simp) (getRand_reads hn)

end Draws

/-! ### Networks and network commanders -/

section Rows
variable {α : Type} {row : ℕ → ℕ → α} {lo₁ hi₁ lo₂ hi₂ : ℕ}

/-- A row can be generated if its values can be drawn. -/
theorem drawRow_reads (row : ℕ → ℕ → α) (h1 : 0 < spread lo₁ hi₁) (h2 : 0 < spread lo₂ hi₂)
    (hlo₁ : lo₁ < 2 ^ 32) (hlo₂ : lo₂ < 2 ^ 32) :
    ∃ ds, (∀ d ∈ ds, d < randBound) ∧ Reads (drawRow row lo₁ hi₁ lo₂ hi₂) ds (row lo₁ lo₂) := by
  obtain ⟨ds₁, hds₁, hr₁⟩ := drawBetween_reads (between_min hlo₁ h1)
  obtain ⟨ds₂, hds₂, hr₂⟩ := drawBetween_reads (between_min hlo₂ h2)
  exact ⟨ds₁ ++ ds₂, List.forall_mem_append.mpr ⟨hds₁, hds₂⟩,
    hr₁.bind (hr₂.bind_nil (Reads.pure _))⟩

theorem genRows_reads {doGen : Rand α} {a : α} {ds : List ℕ} (hds : ∀ d ∈ ds, d < randBound)
    (h : Reads doGen ds a) (n : ℕ) :
    ∃ es rows, (∀ d ∈ es, d < randBound) ∧ Reads (genRows doGen n) es rows := by
  induction n with
  | zero => exact ⟨[], [], by simp, Reads.pure []⟩
  | succ n ih =>
    obtain ⟨es, rows, hes, hrows⟩ := ih
    exact ⟨ds ++ es, a :: rows, List.forall_mem_append.mpr ⟨hds, hes⟩,
      h.bind (hrows.bind_nil (Reads.pure _))⟩

theorem sound_genRows {doGen : Rand α} {P : α → Prop} (h : Sound doGen P) (n : ℕ) :
    Sound (genRows doGen n) fun rows => ∀ r ∈ rows, P r := by
  induction n with
  | zero => exact Safe.pure (by simp)
  | succ n ih =>
    refine h.bind fun a ha => ih.bind fun rows hrows => Safe.pure fun r hr => ?_
    rcases List.mem_cons.mp hr with rfl | hr
    · exact ha
    · exact hrows r hr

/-- The rows are generated soundly exactly if there are none or the bounds of both values are in
    order. -/
theorem sound_genRows_iff (row : ℕ → ℕ → α) (first second : α → ℕ) (hfirst : ∀ v w, first (row v w) = v)
    (hsecond : ∀ v w, second (row v w) = w) (hlo₁ : lo₁ < 2 ^ 32) (hhi₁ : hi₁ < 2 ^ 32)
    (hlo₂ : lo₂ < 2 ^ 32) (hhi₂ : hi₂ < 2 ^ 32) (n : ℕ) :
    (Sound (genRows (drawRow row lo₁ hi₁ lo₂ hi₂) n) fun rows => ∀ r ∈ rows,
      (lo₁ ≤ first r ∧ first r ≤ hi₁) ∧ lo₂ ≤ second r ∧ second r ≤ hi₂) ↔
      n = 0 ∨ Draws lo₁ hi₁ ∧ Draws lo₂ hi₂ := by
  constructor
  · intro h
    rcases Nat.eq_zero_or_pos n with rfl | hn
    · exact .inl rfl
    obtain ⟨k, rfl⟩ := Nat.exists_eq_succ_of_ne_zero hn.ne'
    rw [genRows, drawRow, bind_assoc] at h
    obtain ⟨hs₁, h₁⟩ := Sound.of_drawBetween h
    have hrow : ∀ v, Between lo₁ hi₁ v → 0 < spread lo₂ hi₂ ∧ ∀ w, Between lo₂ hi₂ w →
        (lo₁ ≤ v ∧ v ≤ hi₁) ∧ lo₂ ≤ w ∧ w ≤ hi₂ := by
      intro v hv
      have hv' := h₁ v hv
      rw [bind_assoc] at hv'
      obtain ⟨hs₂, h₂⟩ := Sound.of_drawBetween hv'
      refine ⟨hs₂, fun w hw => ?_⟩
      obtain ⟨ds, hds, hreads⟩ := drawRow_reads row hs₁ hs₂ hlo₁ hlo₂
      obtain ⟨es, rows, hes, hrows⟩ := genRows_reads hds hreads k
      have hrest := (h₂ w hw).below.reads
        ((Reads.pure (row v w)).bind (hrows.bind_nil (Reads.pure _))) (by simpa using hes)
      have hmem := hrest (row v w) List.mem_cons_self
      rwa [hfirst, hsecond] at hmem
    obtain ⟨hs₂, h₂⟩ := hrow lo₁ (between_min hlo₁ hs₁)
    refine .inr ⟨draws_of_between hlo₁ hhi₁ hs₁ fun v hv => ?_,
      draws_of_between hlo₂ hhi₂ hs₂ fun w hw => (h₂ w hw).2⟩
    exact ((hrow v hv).2 lo₂ (between_min hlo₂ hs₂)).1
  · rintro (rfl | ⟨hd₁, hd₂⟩)
    · exact Safe.pure (by simp)
    · refine sound_genRows ?_ n
      refine (sound_drawBetween (hd₁.spread_pos hhi₁)).bind fun v hv => ?_
      refine (sound_drawBetween (hd₂.spread_pos hhi₂)).bind fun w hw => Safe.pure ?_
      rw [hfirst, hsecond]
      exact ⟨hd₁.between hhi₁ hv, hd₂.between hhi₂ hw⟩

end Rows

/-! ### Tasks -/

/-- A machine on which conversions that C leaves open give `0`, with no room to spare. -/
def leastMachine : Machine where
  toUnsigned
    | some x => if -1 < x ∧ x < 2 ^ 32 then ⌊x⌋₊ else 0
    | none => 0
  toUnsigned_lt x := by
    cases x with
    | none => norm_num
    | some x =>
      dsimp only
      split
      · rename_i hx
        exact (Nat.floor_lt' (by norm_num)).mpr (by exact_mod_cast hx.2)
      · norm_num
  truncates x h1 h2 := if_pos ⟨h1, h2⟩
  room := 100
  le_room := le_rfl

/-- A number whose conversion has a half that is not zero. -/
def Halved (x : Option ℚ) : Prop := ∃ q, x = some q ∧ 2 ≤ q ∧ q < 2 ^ 32

theorem Halved.two_le {x : Option ℚ} (h : Halved x) (M : Machine) : 2 ≤ M.toUnsigned x := by
  obtain ⟨q, rfl, h2, hlt⟩ := h
  rw [M.truncates q (by linarith) hlt]
  exact Nat.le_floor (by exact_mod_cast h2)

theorem halved_of_two_le {x : Option ℚ} (h : 2 ≤ leastMachine.toUnsigned x) : Halved x := by
  cases x with
  | none => exact absurd h (by decide)
  | some q =>
    by_cases hq : -1 < q ∧ q < 2 ^ 32
    · exact ⟨q, rfl, two_le_toUnsigned hq.1 h, hq.2⟩
    · have hzero : leastMachine.toUnsigned (some q) = 0 := if_neg hq
      omega

/-- The minima and maxima of a task section. -/
def Gentask.bounds (g : Gentask) : List (ℕ × ℕ) :=
  [(g.wcetMin, g.wcetMax), (g.taskSizeMin, g.taskSizeMax), (g.inputSizeMin, g.inputSizeMax),
    (g.outputSizeMin, g.outputSizeMax)]

def Gennetwork.bounds (g : Gennetwork) : List (ℕ × ℕ) :=
  [(g.uplinkMin, g.uplinkMax), (g.downlinkMin, g.downlinkMax)]

def Gennetcommander.bounds (g : Gennetcommander) : List (ℕ × ℕ) :=
  [(g.interceptOutMin, g.interceptOutMax), (g.interceptInMin, g.interceptInMax)]

/-- The generated task keeps to the bounds. -/
structure WithinBounds (g : Gentask) (t : Task) : Prop where
  wcet : g.wcetMin ≤ t.wcet ∧ t.wcet ≤ g.wcetMax
  taskSize : g.taskSizeMin ≤ t.taskSize ∧ t.taskSize ≤ g.taskSizeMax
  inputSize : g.inputSizeMin ≤ t.inputSize ∧ t.inputSize ≤ g.inputSizeMax
  outputSize : g.outputSizeMin ≤ t.outputSize ∧ t.outputSize ≤ g.outputSizeMax

/-- What the parameters of a task section have to be for the generator to work: few enough tasks for
    `offloading_bool`, bounds in order, and a memory request and periods that can be halved. -/
structure Workable (fl : ℚ → ℚ) (c : Conf) : Prop where
  few : c.gentask.nTasksTarget ≤ 100
  bounds : ∀ b ∈ c.gentask.bounds, Draws b.1 b.2
  memreq : Halved (memreqReal fl c)
  duration : ∀ w, Between c.gentask.wcetMin c.gentask.wcetMax w → Halved (durationReal fl c w)

section Tasks
variable {fl : ℚ → ℚ} {M : Machine} {c : Conf}

theorem genOffloadingBool_of_lt {n : ℕ} (h : M.room < n) :
    genOffloadingBool M n = .error .memoryFault := by
  obtain ⟨k, rfl⟩ := Nat.exists_eq_add_of_lt h
  have hroom := genOffloadingBool_of_le (M := M) (n := M.room) le_rfl
  unfold genOffloadingBool at hroom ⊢
  rw [show M.room + k + 1 = M.room + (k + 1) by omega, List.range_add, List.foldlM_append, hroom]
  rw [List.range_succ_eq_map, List.map_cons]
  change List.foldlM _ _ _ = _
  rw [List.foldlM_cons, if_neg (by simp)]
  rfl

/-- A call of `do_gen_task` on workable parameters. -/
theorem sound_doGenTask (h : Workable fl c) (hfit : ∀ b ∈ c.gentask.bounds, b.2 < 2 ^ 32) (M : Machine)
    (i : ℕ) (offloadingBool : List ℕ) :
    Sound (doGenTask fl M c i offloadingBool) (WithinBounds c.gentask) := by
  have hpos : ∀ b ∈ c.gentask.bounds, 0 < spread b.1 b.2 := fun b hb =>
    (h.bounds b hb).spread_pos (hfit b hb)
  have hwithin : ∀ b ∈ c.gentask.bounds, ∀ v, Between b.1 b.2 v → b.1 ≤ v ∧ v ≤ b.2 :=
    fun b hb v hv => (h.bounds b hb).between (hfit b hb) hv
  simp only [Gentask.bounds, List.forall_mem_cons, List.not_mem_nil, false_implies, implies_true,
    and_true] at hpos hwithin
  obtain ⟨hw, ht, hi, ho⟩ := hpos
  obtain ⟨hw', ht', hi', ho'⟩ := hwithin
  refine (sound_drawBetween hw).bind fun wcet hwcet => ?_
  refine (sound_drawAround ((h.duration wcet hwcet).two_le M)).bind fun duration _ => ?_
  refine (sound_drawAround (h.memreq.two_le M)).bind fun memreq _ => ?_
  refine (sound_getRand (by decide)).bind fun up _ => (sound_getRand (by decide)).bind fun down _ => ?_
  refine (sound_drawBetween ht).bind fun taskSize htask => ?_
  refine (sound_drawBetween hi).bind fun inputSize hinput => ?_
  refine (sound_drawBetween ho).bind fun outputSize houtput => Safe.pure ?_
  exact ⟨hw' wcet hwcet, ht' taskSize htask, hi' inputSize hinput, ho' outputSize houtput⟩

theorem sound_genTasks (h : Workable fl c) (hfit : ∀ b ∈ c.gentask.bounds, b.2 < 2 ^ 32) (M : Machine)
    (offloadingBool : List ℕ) (n i : ℕ) :
    Sound (genTasks fl M c offloadingBool n i) fun ts => ∀ t ∈ ts, WithinBounds c.gentask t := by
  induction n generalizing i with
  | zero => exact Safe.pure (by simp)
  | succ n ih =>
    refine (sound_doGenTask h hfit M i offloadingBool).bind fun t ht => ?_
    refine (ih (i + 1)).bind fun ts hts => Safe.pure fun t' ht' => ?_
    rcases List.mem_cons.mp ht' with rfl | ht'
    · exact ht
    · exact hts t' ht'

/-- Nothing that a call of `do_gen_task` draws from is empty. -/
structure Positive (fl : ℚ → ℚ) (M : Machine) (c : Conf) : Prop where
  wcet : 0 < spread c.gentask.wcetMin c.gentask.wcetMax
  duration : ∀ w, Between c.gentask.wcetMin c.gentask.wcetMax w →
    2 ≤ M.toUnsigned (durationReal fl c w)
  memreq : 2 ≤ memreq1task fl M c
  taskSize : 0 < spread c.gentask.taskSizeMin c.gentask.taskSizeMax
  inputSize : 0 < spread c.gentask.inputSizeMin c.gentask.inputSizeMax
  outputSize : 0 < spread c.gentask.outputSizeMin c.gentask.outputSizeMax

theorem around_self {n : ℕ} (h : 2 ≤ n) : Around n (u32 (n + 0 + (2 ^ 32 - 0))) :=
  ⟨0, by omega, 0, by omega, rfl⟩

/-- A sound call draws from nothing empty. -/
theorem Sound.positive {α : Type} {g : Task → Rand α} {Q : α → Prop} {i : ℕ}
    {offloadingBool : List ℕ} (hlo : ∀ b ∈ c.gentask.bounds, b.1 < 2 ^ 32)
    (h : Sound (doGenTask fl M c i offloadingBool >>= g) Q) : Positive fl M c := by
  simp only [Gentask.bounds, List.forall_mem_cons, List.not_mem_nil, false_implies, implies_true,
    and_true] at hlo
  obtain ⟨hw, ht, hi, ho⟩ := hlo
  unfold doGenTask at h
  rw [bind_assoc] at h
  obtain ⟨hwcet, hwcet'⟩ := Sound.of_drawBetween h
  have hrest : ∀ w, Between c.gentask.wcetMin c.gentask.wcetMax w →
      2 ≤ M.toUnsigned (durationReal fl c w) ∧ 2 ≤ memreq1task fl M c ∧
        0 < spread c.gentask.taskSizeMin c.gentask.taskSizeMax ∧
        0 < spread c.gentask.inputSizeMin c.gentask.inputSizeMax ∧
        0 < spread c.gentask.outputSizeMin c.gentask.outputSizeMax := by
    intro w hbetween
    have hafter := hwcet' w hbetween
    rw [bind_assoc] at hafter
    obtain ⟨hduration, hafter⟩ := Sound.of_drawAround (M.toUnsigned_lt _) hafter
    have hafter := hafter _ (around_self hduration)
    rw [bind_assoc] at hafter
    obtain ⟨hmemreq, hafter⟩ := Sound.of_drawAround (M.toUnsigned_lt _) hafter
    have hafter := hafter _ (around_self hmemreq)
    rw [bind_assoc] at hafter
    have hafter := Sound.of_getRand (by decide) hafter
    rw [bind_assoc] at hafter
    have hafter := Sound.of_getRand (by decide) hafter
    rw [bind_assoc] at hafter
    obtain ⟨htask, hafter⟩ := Sound.of_drawBetween hafter
    have hafter := hafter _ (between_min ht htask)
    rw [bind_assoc] at hafter
    obtain ⟨hinput, hafter⟩ := Sound.of_drawBetween hafter
    have hafter := hafter _ (between_min hi hinput)
    rw [bind_assoc] at hafter
    exact ⟨hduration, hmemreq, htask, hinput, (Sound.of_drawBetween hafter).1⟩
  obtain ⟨_, hmemreq, htask, hinput, houtput⟩ := hrest _ (between_min hw hwcet)
  exact ⟨hwcet, fun w hb => (hrest w hb).1, hmemreq, htask, hinput, houtput⟩

/-- A call can be completed with any values between the bounds. -/
theorem Positive.reads (h : Positive fl M c) (i : ℕ) (offloadingBool : List ℕ) {w ts is os : ℕ}
    (hw : Between c.gentask.wcetMin c.gentask.wcetMax w)
    (ht : Between c.gentask.taskSizeMin c.gentask.taskSizeMax ts)
    (hi : Between c.gentask.inputSizeMin c.gentask.inputSizeMax is)
    (ho : Between c.gentask.outputSizeMin c.gentask.outputSizeMax os) :
    ∃ ds t, (∀ d ∈ ds, d < randBound) ∧ Reads (doGenTask fl M c i offloadingBool) ds t ∧
      t.wcet = w ∧ t.taskSize = ts ∧ t.inputSize = is ∧ t.outputSize = os := by
  obtain ⟨ds, t, hds, hreads, hwt, _, hrest⟩ := doGenTask_reads (M := M) (c := c) i offloadingBool hw
    (around_self (h.duration w hw)) (around_self h.memreq) ht hi ho
  exact ⟨ds, t, hds, hreads, hwt, hrest⟩

theorem Positive.genTasks_reads (h : Positive fl M c) (hlo : ∀ b ∈ c.gentask.bounds, b.1 < 2 ^ 32)
    (offloadingBool : List ℕ) (n i : ℕ) :
    ∃ ds ts, (∀ d ∈ ds, d < randBound) ∧ Reads (genTasks fl M c offloadingBool n i) ds ts := by
  simp only [Gentask.bounds, List.forall_mem_cons, List.not_mem_nil, false_implies, implies_true,
    and_true] at hlo
  induction n generalizing i with
  | zero => exact ⟨[], [], by simp, Reads.pure []⟩
  | succ n ih =>
    obtain ⟨ds, t, hds, hreads, _⟩ := h.reads i offloadingBool (between_min hlo.1 h.wcet)
      (between_min hlo.2.1 h.taskSize) (between_min hlo.2.2.1 h.inputSize)
      (between_min hlo.2.2.2 h.outputSize)
    obtain ⟨es, ts, hes, hrest⟩ := ih (i + 1)
    exact ⟨ds ++ es, t :: ts, List.forall_mem_append.mpr ⟨hds, hes⟩,
      hreads.bind (hrest.bind_nil (Reads.pure _))⟩

/-- A sound first call shows that the bounds are in order. -/
theorem Positive.bounds {offloadingBool : List ℕ} {n : ℕ} (h : Positive fl M c)
    (hfit : ∀ b ∈ c.gentask.bounds, b.1 < 2 ^ 32 ∧ b.2 < 2 ^ 32)
    (hsound : Sound (genTasks fl M c offloadingBool (n + 1) 0) fun ts =>
      ∀ t ∈ ts, WithinBounds c.gentask t) :
    ∀ b ∈ c.gentask.bounds, Draws b.1 b.2 := by
  have hlo : ∀ b ∈ c.gentask.bounds, b.1 < 2 ^ 32 := fun b hb => (hfit b hb).1
  obtain ⟨es, rest, hes, hrest⟩ := h.genTasks_reads hlo offloadingBool n 1
  have hall : ∀ w ts is os, Between c.gentask.wcetMin c.gentask.wcetMax w →
      Between c.gentask.taskSizeMin c.gentask.taskSizeMax ts →
      Between c.gentask.inputSizeMin c.gentask.inputSizeMax is →
      Between c.gentask.outputSizeMin c.gentask.outputSizeMax os →
      (c.gentask.wcetMin ≤ w ∧ w ≤ c.gentask.wcetMax) ∧
      (c.gentask.taskSizeMin ≤ ts ∧ ts ≤ c.gentask.taskSizeMax) ∧
      (c.gentask.inputSizeMin ≤ is ∧ is ≤ c.gentask.inputSizeMax) ∧
      (c.gentask.outputSizeMin ≤ os ∧ os ≤ c.gentask.outputSizeMax) := by
    intro w ts is os hw ht hi ho
    obtain ⟨ds, t, hds, hreads, rfl, rfl, rfl, rfl⟩ := h.reads 0 offloadingBool hw ht hi ho
    have hrun : Reads (genTasks fl M c offloadingBool (n + 1) 0) (ds ++ es) (t :: rest) :=
      hreads.bind (hrest.bind_nil (Reads.pure _))
    have hmem := hsound.below.reads hrun (List.forall_mem_append.mpr ⟨hds, hes⟩) t
      List.mem_cons_self
    exact ⟨hmem.wcet, hmem.taskSize, hmem.inputSize, hmem.outputSize⟩
  simp only [Gentask.bounds, List.forall_mem_cons, List.not_mem_nil, false_implies, implies_true,
    and_true] at hfit ⊢
  obtain ⟨⟨hw, hw'⟩, ⟨ht, ht'⟩, ⟨hi, hi'⟩, ho, ho'⟩ := hfit
  have bw := between_min hw h.wcet
  have bt := between_min ht h.taskSize
  have bi := between_min hi h.inputSize
  have bo := between_min ho h.outputSize
  exact ⟨draws_of_between hw hw' h.wcet fun v hv => (hall v _ _ _ hv bt bi bo).1,
    draws_of_between ht ht' h.taskSize fun v hv => (hall _ v _ _ bw hv bi bo).2.1,
    draws_of_between hi hi' h.inputSize fun v hv => (hall _ _ v _ bw bt hv bo).2.2.1,
    draws_of_between ho ho' h.outputSize fun v hv => (hall _ _ _ v bw bt bi hv).2.2.2⟩

/-- With a memory type the last call of `gen_task` returns. -/
theorem genTask_eq (hmem : c.tables.nMems ≠ 0) :
    genTask fl M c = genTaskUpto fl M c c.gentask.nTasksTarget := by
  funext ds
  have hlast : ∀ ts : List Task, getUtilOverheadBymem c (memreqTotal ts) = .ok
      (utilOverhead (c.gentask.memTotal / c.tables.nMems) c.tables.mems (memreqTotal ts) 0) :=
    fun _ => if_neg hmem
  simp only [genTask, hlast]
  exact congrFun (bind_pure _) ds

/-- Without one it does not, whether or not there is a task to draw. -/
theorem genTask_stops (hmem : c.tables.nMems = 0) (htasks : c.gentask.nTasksTarget = 0) :
    Stops (genTask fl M c) [] .sigfpe := by
  have hbool := genOffloadingBool_of_le (M := M) (n := 0) (Nat.zero_le _)
  rw [genTask, genTaskUpto, htasks]
  refine ((Reads.lift hbool).bind_nil (Reads.pure [])).bind_stops_nil ?_
  exact (Stops.lift (if_pos hmem)).bind _

/-- A memory request that can be halved tells that there is a memory type. -/
theorem nMems_of_halved (h : Halved (memreqReal fl c)) : c.tables.nMems ≠ 0 := by
  intro h0
  obtain ⟨q, hq, -⟩ := h
  rw [memreqReal, utilMem1task, getMemUtil, if_pos h0] at hq
  cases hq

/-- `gen_task` is sound on every machine exactly if there is a memory type and there is nothing to
    generate or the parameters are workable. -/
theorem sound_genTask_iff (fl : ℚ → ℚ)
    (hfit : ∀ b ∈ c.gentask.bounds, b.1 < 2 ^ 32 ∧ b.2 < 2 ^ 32) :
    (∀ M, Sound (genTask fl M c) fun ts => ∀ t ∈ ts, WithinBounds c.gentask t) ↔
      c.tables.nMems ≠ 0 ∧ (c.gentask.nTasksTarget = 0 ∨ Workable fl c) := by
  constructor
  · intro h
    have hleast := h leastMachine
    have hfew : c.gentask.nTasksTarget ≤ 100 := by
      by_contra hmany
      have hfault : genOffloadingBool leastMachine c.gentask.nTasksTarget = .error .memoryFault :=
        genOffloadingBool_of_lt (not_le.mp hmany)
      have hstop : Stops (genTask fl leastMachine c) [] .memoryFault :=
        ((Stops.lift hfault).bind _).bind _
      cases hleast.reason [] (by simp) _ hstop.eq
    have hbool := genOffloadingBool_of_le (M := leastMachine) hfew
    rcases Nat.eq_zero_or_pos c.gentask.nTasksTarget with h0 | hpos
    · refine ⟨fun hmem => ?_, .inl h0⟩
      cases hleast.reason [] (by simp) _ (genTask_stops hmem h0).eq
    obtain ⟨n, hn⟩ := Nat.exists_eq_succ_of_ne_zero hpos.ne'
    have hpositive : Positive fl leastMachine c := by
      rw [genTask, genTaskUpto, bind_assoc] at hleast
      have hgen := hleast.after (by simp) (Reads.lift hbool)
      rw [hn, genTasks, bind_assoc] at hgen
      exact Sound.positive (fun b hb => (hfit b hb).1) hgen
    have hmemreq := halved_of_two_le hpositive.memreq
    have hmem := nMems_of_halved hmemreq
    rw [genTask_eq hmem, genTaskUpto] at hleast
    have hgen := hleast.after (by simp) (Reads.lift hbool)
    rw [hn] at hgen
    exact ⟨hmem, .inr ⟨hfew, hpositive.bounds hfit hgen, hmemreq,
      fun w hw => halved_of_two_le (hpositive.duration w hw)⟩⟩
  · rintro ⟨hmem, h⟩ M
    rw [genTask_eq hmem, genTaskUpto]
    have hbool : c.gentask.nTasksTarget ≤ M.room := by
      rcases h with h0 | h
      · omega
      · exact h.few.trans M.le_room
    refine Safe.bind (P := fun _ => True) (.of_fails (Below.lift fun _ _ => trivial)
      (Fails.lift fun e he => ?_)) fun offloadingBool _ => ?_
    · rw [genOffloadingBool_of_le hbool] at he
      cases he
    · rcases h with h0 | h
      · rw [h0]
        exact Safe.pure (by simp)
      · exact sound_genTasks h (fun b hb => (hfit b hb).2) M offloadingBool _ 0

end Tasks

end MutualEdge.Gasgen
