import Mathlib.Algebra.Order.Field.Rat
import MutualEdge.Conf
import MutualEdge.Lib.Doubles

/-! The cost model of `GA.c`: constants, frequency tables and the two cost functions.

    An operand of type `unsigned` divided by an integer literal is divided as an integer; such a
    quotient is written `a / b` on naturals here and only then read as a rational, as in the source.
    A period shorter than a second becomes `0` in this way and is divided by: what the cost is then, if
    it is no number, is its `Kind`. -/

namespace MutualEdge
open Doubles

/-- Electricity rate (USD/kWh). -/
def pElec : ℚ := 0.08
/-- CPU switching capacitance (F). -/
def C : ℚ := 1.8e-9
/-- Voltage (V) of each level. -/
def V : List ℚ := [0.5, 0.65, 0.8, 0.95, 1.1]
/-- Frequency (Hz) of each level. -/
def F : List ℚ := [0.4e9, 0.7e9, 1.2e9, 1.6e9, 2.2e9]
/-- Scaling factor for the WCET of each level. -/
def S : List ℚ := [5.5, 3.1, 1.8, 1.375, 1.0]
/-- Baseline system power (W). -/
def pBaseline : ℚ := 3.5
/-- Dynamic memory power coefficient (W/MB). -/
def kDyn : ℚ := 2e-3
/-- Static memory power coefficient (W/MB). -/
def kStat : ℚ := 0.5e-3
/-- MEC device hardware cost (USD). -/
def hwCost : ℚ := 2000.0
/-- Depreciation period (s). -/
def depPeriodSec : ℚ := 94608000.0
/-- Simulation period (s). -/
def allPeriod : ℚ := 2592000.0
/-- Penalty weight. -/
def mu : ℚ := 1.0
/-- `total_memory` of `check_utilpower` (MB). -/
def totalMemory : ℚ := 45000.0

/-- Energy (W·s) over the simulation period to cost (USD). -/
def energyCost (energy : ℚ) : ℚ := energy / 3600000.0 * pElec

/-- The execution time in seconds a level is charged: `wcet * s`. -/
def chargedTime (task : Task) (cpufreqIdx : ℕ) : ℚ :=
  ((task.wcet / 1000 : ℕ) : ℚ) * S.getD cpufreqIdx 0

/-- `e_cpu`: the CPU energy per second a local task is charged. -/
def eCpu (task : Task) (cpufreqIdx : ℕ) : ℚ :=
  let wcet : ℚ := ((task.wcet / 1000 : ℕ) : ℚ)
  let period : ℚ := ((task.period / 1000 : ℕ) : ℚ)
  let v := V.getD cpufreqIdx 0
  let f := F.getD cpufreqIdx 0
  let s := S.getD cpufreqIdx 0
  C * v * v * f * wcet * s / period

/-- `size_mb`: the task's memory as `compute_local_cost_per_sec` counts it. -/
def sizeMb (task : Task) : ℚ := ((task.memreq / 1000 : ℕ) : ℚ)

/-- `e_mem`: the memory energy per second a local task is charged. -/
def eMem (task : Task) : ℚ := sizeMb task * (task.memActiveRatio * kDyn + kStat)

def computeLocalCostPerSec (task : Task) (cpufreqIdx : ℕ) : ℚ :=
  let totalEnergy := (eCpu task cpufreqIdx + eMem task) * allPeriod
  energyCost totalEnergy

/-- `e_cpu` is a quotient, and the other terms are numbers. -/
def localCostKind (task : Task) : Kind :=
  .quot ((task.wcet / 1000 : ℕ) : ℚ) ((task.period / 1000 : ℕ) : ℚ)

/-- `t_net`: the time the transfers take. -/
def tNet (task : Task) (uplink downlink : ℚ) : ℚ :=
  let tUpload := u32 (task.inputSize * 1024) * 8.0 / (uplink * 1e6)
  let tDownload := u32 (task.outputSize * 1024) * 8.0 / (downlink * 1e6)
  tUpload + tDownload

/-- The cloud is a parameter the function does not read. -/
def computeOffloadingCostPerSec (task : Task) (_cloud : Cloud) (uplink downlink : ℚ) : ℚ :=
  let period : ℚ := ((task.period / 1000 : ℕ) : ℚ)
  let eNet := 1.2 * tNet task uplink downlink * (allPeriod / period)
  energyCost eNet

/-- `t_net * (ALL_Period / period)`, for links that are not zero -/
def offloadingCostKind (task : Task) (uplink downlink : ℚ) : Kind :=
  .quot (tNet task uplink downlink) ((task.period / 1000 : ℕ) : ℚ)

/-- No period is shorter than a second, so that every cost is a number. -/
def Config.Priced (cfg : Config) : Prop := ∀ i < cfg.nTasks, 1000 ≤ (cfg.task i).period

instance (cfg : Config) : Decidable cfg.Priced := inferInstanceAs (Decidable (∀ _, _ → _))

theorem localCostKind_eq_number {task : Task} :
    localCostKind task = .number ↔ 1000 ≤ task.period := by
  rw [localCostKind, Kind.quot_eq_number, Nat.cast_ne_zero]
  omega

theorem localCostKind_eq_nan {task : Task} :
    localCostKind task = .nan ↔ task.period < 1000 ∧ task.wcet < 1000 := by
  rw [localCostKind, Kind.quot_eq_nan, Nat.cast_eq_zero, Nat.cast_eq_zero]
  omega

theorem offloadingCostKind_eq_number {task : Task} {uplink downlink : ℚ} :
    offloadingCostKind task uplink downlink = .number ↔ 1000 ≤ task.period := by
  rw [offloadingCostKind, Kind.quot_eq_number, Nat.cast_ne_zero]
  omega

end MutualEdge
