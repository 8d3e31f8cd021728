import Mathlib.Algebra.Order.Field.Rat
import Mathlib.Tactic.NormNum
import MutualEdge.Conf
import MutualEdge.Lib.Doubles

/-! `task.c`: what one task asks of the CPU, the memory and the network.

    `realOffloading` is a local constant of `get_task_utilpower`: the source has `0.0` and names the
    two settings `local_only 0.0, offloading_only 1.0`.

    The configuration may have zero scales, links and computation powers, and none of them is checked
    before it is divided by. A value is given with its `Kind` where it is compared later: the execution
    time with the period, the utilisation with the cutoff, the deadline ratio with `1.0`. The values
    themselves, and the powers, stand for numbers only where none of their divisors is zero. -/

namespace MutualEdge
open Doubles

/-- The settings of `real_offloading`. -/
inductive Mode where | localOnly | offloadingOnly
  deriving DecidableEq

def Mode.realOffloading : Mode → ℚ
  | .localOnly => 0.0
  | .offloadingOnly => 1.0

/-- The values `get_task_utilpower` stores through its pointers. -/
structure TaskEval where
  util : ℚ
  utilKind : Kind
  powerCpu : ℚ
  powerMem : ℚ
  powerNetCom : ℚ
  deadline : ℚ
  deadlineKind : Kind

def TaskEval.utilDouble (e : TaskEval) : Double := ⟨e.utilKind, e.util⟩
def TaskEval.deadlineDouble (e : TaskEval) : Double := ⟨e.deadlineKind, e.deadline⟩

/-- `task_deadline > 1.0` -/
def TaskEval.Late (e : TaskEval) : Prop :=
  e.deadlineKind = .infinite ∨ e.deadlineKind = .number ∧ 1.0 < e.deadline

instance (e : TaskEval) : Decidable e.Late := inferInstanceAs (Decidable (_ ∨ _))

/-- `wcet_scaled`: the execution time at a frequency level with a memory type. -/
def wcetScaled (cfg : Config) (noTask memType cpufreqType : ℕ) : ℚ :=
  let wcetScaledCpu := 1 / (cfg.cpufreq cpufreqType).wcetScale
  let wcetScaledMem := 1 / (cfg.mem memType).wcetScale
  (cfg.task noTask).wcet * wcetScaledCpu * wcetScaledMem

def transtime (cfg : Config) (noTask : ℕ) : ℚ :=
  let task := cfg.task noTask
  let network := cfg.network noTask
  u32 (task.taskSize + task.inputSize) / network.uplink + task.outputSize / network.downlink

def netcomtime (cfg : Config) (noTask : ℕ) : ℚ :=
  let netCommander := cfg.netCommander noTask
  u32 (netCommander.interceptOut + netCommander.interceptIn)

/-- With a zero scale and an execution time within the period there was nothing to scale, and `0` has
    been multiplied by an infinite factor. -/
def utilKind (cfg : Config) (memType cpufreqType : ℕ) : Kind :=
  if (cfg.cpufreq cpufreqType).wcetScale = 0 ∨ (cfg.mem memType).wcetScale = 0 then .nan else .number

/-- Each term of the deadline ratio is a quotient, and the sum of them is multiplied by
    `realOffloading`. -/
def deadlineKind (mode : Mode) (cfg : Config) (noTask cloudType cpufreqType : ℕ) : Kind :=
  let task := cfg.task noTask
  let network := cfg.network noTask
  let k := Kind.quot task.wcet (cfg.cloud cloudType).computationPower +
    Kind.quot (netcomtime cfg noTask) (cfg.cpufreq cpufreqType).wcetScale +
    (Kind.quot (u32 (task.taskSize + task.inputSize)) network.uplink +
      Kind.quot task.outputSize network.downlink)
  match mode with
  | .localOnly => k.timesZero
  | .offloadingOnly => k

/-- The stored values, for an execution time within the period. -/
def taskEval (mode : Mode) (cfg : Config) (noTask memType cloudType cpufreqType : ℕ) : TaskEval :=
  let task := cfg.task noTask
  let mem := cfg.mem memType
  let cloud := cfg.cloud cloudType
  let cpufreq := cfg.cpufreq cpufreqType
  let wcetScaledCpu := 1 / cpufreq.wcetScale
  let wcetScaledMem := 1 / mem.wcetScale
  let wcetScaledCloud := 1 / cloud.computationPower
  let netComPowerUnit := 75
  let scaled := wcetScaled cfg noTask memType cpufreqType
  let realOffloading := mode.realOffloading
  let transtime := transtime cfg noTask
  let netcomtime := netcomtime cfg noTask
  let cpuPowerUnit := (cpufreq.powerActive * wcetScaledCpu + cpufreq.powerIdle * wcetScaledMem) /
    (wcetScaledCpu + wcetScaledMem)
  { util := (scaled * (1.0 - realOffloading) + wcetScaledCpu * netcomtime * realOffloading) /
      task.period
    utilKind := utilKind cfg memType cpufreqType
    deadline := (wcetScaledCloud * task.wcet + wcetScaledCpu * netcomtime + transtime) /
      task.period * realOffloading
    deadlineKind := deadlineKind mode cfg noTask cloudType cpufreqType
    powerCpu := cpuPowerUnit * (scaled / task.period) * (1 - realOffloading) +
      cpuPowerUnit * (netcomtime / task.period) * realOffloading
    powerNetCom := netComPowerUnit * ((transtime + netcomtime) / task.period) * realOffloading
    powerMem :=
      if realOffloading = 1.0 then 0.0
      else task.memreq * (task.memActiveRatio * mem.powerActive +
          (1 - task.memActiveRatio) * mem.powerIdle) * scaled / task.period +
        task.memreq * mem.powerIdle * (1 - scaled / task.period) }

/-- A scale is zero and there is something to scale: `wcet_scaled` is infinite. (Without anything to
    scale it is not a number, and no comparison holds of it.) -/
def ScaledInfinite (cfg : Config) (noTask memType cpufreqType : ℕ) : Prop :=
  0 < (cfg.task noTask).wcet ∧
    ((cfg.cpufreq cpufreqType).wcetScale = 0 ∨ (cfg.mem memType).wcetScale = 0)

/-- `wcet_scaled >= task->period` -/
def Overruns (cfg : Config) (noTask memType cpufreqType : ℕ) : Prop :=
  ScaledInfinite cfg noTask memType cpufreqType ∨
    (cfg.task noTask).period ≤ wcetScaled cfg noTask memType cpufreqType

instance (cfg : Config) (noTask memType cpufreqType : ℕ) :
    Decidable (ScaledInfinite cfg noTask memType cpufreqType) :=
  inferInstanceAs (Decidable (_ ∧ _))

instance (cfg : Config) (noTask memType cpufreqType : ℕ) :
    Decidable (Overruns cfg noTask memType cpufreqType) :=
  inferInstanceAs (Decidable (_ ∨ _))

/-- The message for a task that overruns its period. -/
def periodExceeded (cfg : Config) (noTask memType cpufreqType : ℕ) : Halt :=
  let task := cfg.task noTask
  .fatal 3 "task[%u]: scaled wcet exceeds task period: %lf > %u"
    [.num task.no,
      if ScaledInfinite cfg noTask memType cpufreqType then .text "inf"
        else .num (wcetScaled cfg noTask memType cpufreqType),
      .num task.period]

/-- The ratio attribute is a parameter the function does not read. -/
def getTaskUtilpower (mode : Mode) (cfg : Config)
    (noTask memType cloudType cpufreqType _offloadingratio : ℕ) : Except Halt TaskEval :=
  if Overruns cfg noTask memType cpufreqType then
    .error (periodExceeded cfg noTask memType cpufreqType)
  else .ok (taskEval mode cfg noTask memType cloudType cpufreqType)

def getTaskMemreq (cfg : Config) (noTask : ℕ) : ℕ := (cfg.task noTask).memreq

/-- A call that returns stores the values of `taskEval`. -/
theorem getTaskUtilpower_ok {mode : Mode} {cfg : Config} {i m c f r : ℕ} {e : TaskEval}
    (h : getTaskUtilpower mode cfg i m c f r = .ok e) : e = taskEval mode cfg i m c f := by
  simp only [getTaskUtilpower] at h
  split at h
  · simp at h
  · exact (Except.ok.inj h).symm

/-- Without offloading no deadline ratio is counted, be it a number or not. -/
theorem taskEval_deadline_localOnly (cfg : Config) (i m c f : ℕ) :
    (taskEval .localOnly cfg i m c f).deadline = 0 := by
  norm_num [taskEval, Mode.realOffloading]

theorem not_late_localOnly (cfg : Config) (i m c f : ℕ) :
    ¬ (taskEval .localOnly cfg i m c f).Late := by
  rintro (hinf | ⟨-, hlt⟩)
  · exact Kind.timesZero_ne_infinite _ hinf
  · rw [taskEval_deadline_localOnly] at hlt
    norm_num at hlt

/-- The scales and the computation power, which are divided by first, are not zero. -/
def Scalable (cfg : Config) (memType cloudType cpufreqType : ℕ) : Prop :=
  (cfg.cpufreq cpufreqType).wcetScale ≠ 0 ∧ (cfg.mem memType).wcetScale ≠ 0 ∧
    (cfg.cloud cloudType).computationPower ≠ 0

/-- The links are not zero, nor is the period in seconds. -/
def Chargeable (cfg : Config) (noTask : ℕ) : Prop :=
  (cfg.network noTask).uplink ≠ 0 ∧ (cfg.network noTask).downlink ≠ 0 ∧
    1000 ≤ (cfg.task noTask).period

instance (cfg : Config) (m c f : ℕ) : Decidable (Scalable cfg m c f) :=
  inferInstanceAs (Decidable (_ ∧ _))

instance (cfg : Config) (i : ℕ) : Decidable (Chargeable cfg i) :=
  inferInstanceAs (Decidable (_ ∧ _))

/-- The deadline ratio is a number exactly if all of its divisors are nonzero. -/
theorem deadlineKind_eq_number {mode : Mode} {cfg : Config} {i c f : ℕ} :
    deadlineKind mode cfg i c f = .number ↔ (cfg.cloud c).computationPower ≠ 0 ∧
      (cfg.cpufreq f).wcetScale ≠ 0 ∧ (cfg.network i).uplink ≠ 0 ∧ (cfg.network i).downlink ≠ 0 := by
  cases mode <;>
    simp only [deadlineKind, Kind.timesZero_eq_number, Kind.add_eq_number, Kind.quot_eq_number,
      Nat.cast_ne_zero, and_assoc]

/-- The utilisation is a number exactly if no scale is zero. -/
theorem utilKind_eq_number {cfg : Config} {m f : ℕ} : utilKind cfg m f = .number ↔
    (cfg.cpufreq f).wcetScale ≠ 0 ∧ (cfg.mem m).wcetScale ≠ 0 := by
  unfold utilKind
  split
  · rename_i h
    exact iff_of_false Kind.noConfusion fun hne => h.elim hne.1 hne.2
  · rename_i h
    exact iff_of_true rfl (not_or.mp h)

end MutualEdge
