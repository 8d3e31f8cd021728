import MutualEdge.Counts
import MutualEdge.Utilpower

/-! The unsigned arithmetic in the evaluation of a task, and what it does to the order of tasks.

    `task_size + input_size`, `intercept_out + intercept_in`, `input_size * 1024` and
    `output_size * 1024` are computed in 32 bits before the conversion to `double`, on values that no
    reader bounds. While none of them wraps, a task with smaller sizes takes no more of anything, as far
    as what it takes are numbers. -/

namespace MutualEdge
open Doubles

/-- The operations as mathematical numbers. -/
def unsignedValues (task : Task) (netCommander : NetCommander) : List ℕ :=
  [task.taskSize + task.inputSize, netCommander.interceptOut + netCommander.interceptIn,
    task.inputSize * 1024, task.outputSize * 1024]

/-- The network cost that `check_utilpower` charges an offloaded task. -/
def networkCost (cfg : Config) (noTask cloudType : ℕ) : Double :=
  ⟨offloadingCostKind (cfg.task noTask) 30.0 120.0,
    computeOffloadingCostPerSec (cfg.task noTask) (cfg.cloud cloudType) 30.0 120.0⟩

/-! ### Smaller sizes -/

/-- The same task but for sizes that are not larger. -/
structure Task.Smaller (t' t : Task) : Prop where
  rest : { t' with taskSize := t.taskSize, inputSize := t.inputSize, outputSize := t.outputSize } = t
  taskSize : t'.taskSize ≤ t.taskSize
  inputSize : t'.inputSize ≤ t.inputSize
  outputSize : t'.outputSize ≤ t.outputSize

theorem Task.Smaller.wcet {t' t : Task} (h : t'.Smaller t) : t'.wcet = t.wcet := by rw [← h.rest]

theorem Task.Smaller.period {t' t : Task} (h : t'.Smaller t) : t'.period = t.period := by
  rw [← h.rest]

structure NetCommander.Smaller (n' n : NetCommander) : Prop where
  interceptOut : n'.interceptOut ≤ n.interceptOut
  interceptIn : n'.interceptIn ≤ n.interceptIn

/-- The same configuration but for sizes that are not larger, task by task. -/
structure Config.Smaller (cfg' cfg : Config) : Prop where
  rest : { cfg' with tasks := cfg.tasks, netCommanders := cfg.netCommanders } = cfg
  tasks : List.Forall₂ Task.Smaller cfg'.tasks cfg.tasks
  netCommanders : List.Forall₂ NetCommander.Smaller cfg'.netCommanders cfg.netCommanders

/-- With the smaller sizes task `i` takes no more, at any attributes within the tables at which it keeps
    to its period. -/
structure NoDearer (cfg' cfg : Config) (i m c f : ℕ) : Prop where
  util : ∀ mode, (taskEval mode cfg' i m c f).utilDouble ≤ (taskEval mode cfg i m c f).utilDouble
  deadline : ∀ mode,
    (taskEval mode cfg' i m c f).deadlineDouble ≤ (taskEval mode cfg i m c f).deadlineDouble
  network : networkCost cfg' i c ≤ networkCost cfg i c

/-- Attributes within the tables at which task `i` keeps to its period. -/
def Evaluable (cfg : Config) (i m c f : ℕ) : Prop :=
  m < cfg.nMems ∧ c < cfg.nClouds ∧ f < cfg.nCpufreqs ∧ ¬ Overruns cfg i m f

/-- Every unsigned operation has its mathematical value, and smaller sizes take no more. -/
structure SizesCount (cfg : Config) : Prop where
  exact : ∀ i < cfg.nTasks, ∀ v ∈ unsignedValues (cfg.task i) (cfg.netCommander i), u32 v = v
  monotone : ∀ cfg' : Config, cfg'.Smaller cfg → ∀ i < cfg.nTasks, ∀ m c f,
    Evaluable cfg i m c f → NoDearer cfg' cfg i m c f

/-- The sizes of the tasks are such that nothing wraps. -/
def SizesFit (cfg : Config) : Prop :=
  ∀ i < cfg.nTasks, (cfg.task i).taskSize + (cfg.task i).inputSize < 2 ^ 32 ∧
    (cfg.netCommander i).interceptOut + (cfg.netCommander i).interceptIn < 2 ^ 32 ∧
    (cfg.task i).inputSize < 2 ^ 22 ∧ (cfg.task i).outputSize < 2 ^ 22

/-- No evaluation divides by zero. -/
def EvaluationsDivide (cfg : Config) : Prop :=
  ∀ i < cfg.nTasks, ∀ m c f, Evaluable cfg i m c f → Scalable cfg m c f ∧ Chargeable cfg i

/-! ### Values that do not wrap -/

theorem u32_eq_self {n : ℕ} : u32 n = n ↔ n < 2 ^ 32 := by
  refine ⟨fun h => ?_, u32_of_lt⟩
  rw [← h]
  exact Nat.mod_lt n (by norm_num)

/-- Below the limit the larger number has the larger representation. -/
theorem u32_mono {n m : ℕ} (hle : n ≤ m) (hm : u32 m = m) : (u32 n : ℚ) ≤ u32 m := by
  have hlt := u32_eq_self.mp hm
  rw [hm, u32_of_lt (hle.trans_lt hlt)]
  exact_mod_cast hle

theorem forall₂_getD {α : Type} {R : α → α → Prop} {l' l : List α} (h : List.Forall₂ R l' l) {d : α}
    (hd : R d d) (i : ℕ) : R (l'.getD i d) (l.getD i d) := by
  induction h generalizing i with
  | nil => simpa using hd
  | cons hx _ ih =>
    cases i with
    | zero => exact hx
    | succ i => exact ih i

/-- No accepted level has a negative scale. -/
theorem Accepted.cpufreq_wcetScale_nonneg {cfg : Config} (h : Accepted cfg) (f : ℕ) :
    0 ≤ (cfg.cpufreq f).wcetScale := by
  rcases Nat.lt_or_ge f cfg.cpufreqs.length with hf | hf
  · rw [Config.cpufreq, List.getD_eq_getElem _ _ hf]
    exact (h.wellFormed.cpufreqs_range _ (List.getElem_mem hf)).1
  · rw [Config.cpufreq, List.getD_eq_default _ _ hf]

namespace Config.Smaller
variable {cfg' cfg : Config} (h : cfg'.Smaller cfg) {i : ℕ}
include h

theorem task (i : ℕ) : (cfg'.task i).Smaller (cfg.task i) :=
  forall₂_getD h.tasks ⟨rfl, le_rfl, le_rfl, le_rfl⟩ i

theorem netCommander (i : ℕ) : (cfg'.netCommander i).Smaller (cfg.netCommander i) :=
  forall₂_getD h.netCommanders ⟨le_rfl, le_rfl⟩ i

theorem cpufreq (f : ℕ) : cfg'.cpufreq f = cfg.cpufreq f := by rw [← h.rest]; rfl

theorem mem (m : ℕ) : cfg'.mem m = cfg.mem m := by rw [← h.rest]; rfl

theorem cloud (c : ℕ) : cfg'.cloud c = cfg.cloud c := by rw [← h.rest]; rfl

theorem network (i : ℕ) : cfg'.network i = cfg.network i := by rw [← h.rest]; rfl

theorem wcetScaled_eq (i m f : ℕ) : wcetScaled cfg' i m f = wcetScaled cfg i m f := by
  rw [wcetScaled, wcetScaled, h.cpufreq, h.mem, (h.task i).wcet]

variable (hexact : ∀ v ∈ unsignedValues (cfg.task i) (cfg.netCommander i), u32 v = v)
include hexact

theorem netcomtime_le : netcomtime cfg' i ≤ netcomtime cfg i := by
  have hcommander := h.netCommander i
  exact u32_mono (Nat.add_le_add hcommander.interceptOut hcommander.interceptIn)
    (hexact _ (by simp [unsignedValues]))

theorem transtime_le : transtime cfg' i ≤ transtime cfg i := by
  have htask := h.task i
  have hup : (u32 ((cfg'.task i).taskSize + (cfg'.task i).inputSize) : ℚ) ≤
      u32 ((cfg.task i).taskSize + (cfg.task i).inputSize) :=
    u32_mono (Nat.add_le_add htask.taskSize htask.inputSize) (hexact _ (by simp [unsignedValues]))
  have hdown : ((cfg'.task i).outputSize : ℚ) ≤ (cfg.task i).outputSize := by
    exact_mod_cast htask.outputSize
  simp only [transtime, h.network]
  gcongr

theorem networkCost_le (c : ℕ) : (networkCost cfg' i c).value ≤ (networkCost cfg i c).value := by
  have htask := h.task i
  have hup : (u32 ((cfg'.task i).inputSize * 1024) : ℚ) ≤ u32 ((cfg.task i).inputSize * 1024) :=
    u32_mono (Nat.mul_le_mul_right _ htask.inputSize) (hexact _ (by simp [unsignedValues]))
  have hdown : (u32 ((cfg'.task i).outputSize * 1024) : ℚ) ≤ u32 ((cfg.task i).outputSize * 1024) :=
    u32_mono (Nat.mul_le_mul_right _ htask.outputSize) (hexact _ (by simp [unsignedValues]))
  have hperiods : 0 ≤ 2592000.0 / (((cfg.task i).period / 1000 : ℕ) : ℚ) :=
    div_nonneg (by norm_num) (Nat.cast_nonneg _)
  simp only [networkCost, computeOffloadingCostPerSec, tNet, energyCost, allPeriod, pElec, htask.period]
  gcongr

/-- Without a wrap smaller sizes take no more, where everything is a number. -/
theorem noDearer (hcfg : Accepted cfg) {m c f : ℕ} (hscale : Scalable cfg m c f)
    (hcharge : Chargeable cfg i) : NoDearer cfg' cfg i m c f := by
  obtain ⟨hf, hm, hc⟩ := hscale
  obtain ⟨hup, hdown, hperiod⟩ := hcharge
  have hcom := h.netcomtime_le hexact
  have htrans := h.transtime_le hexact
  have hs : 0 ≤ 1 / (cfg.cpufreq f).wcetScale :=
    one_div_nonneg.mpr (hcfg.cpufreq_wcetScale_nonneg f)
  have hmode : ∀ mode : Mode, 0 ≤ mode.realOffloading := fun mode => by
    cases mode <;> norm_num [Mode.realOffloading]
  refine ⟨fun mode => ?_, fun mode => ?_, ?_⟩
  · refine (Double.le_iff_of_number (utilKind_eq_number.mpr ⟨?_, ?_⟩)
      (utilKind_eq_number.mpr ⟨hf, hm⟩)).mpr ?_
    · rwa [h.cpufreq]
    · rwa [h.mem]
    · have hmode := hmode mode
      simp only [TaskEval.utilDouble, taskEval, h.wcetScaled_eq, h.cpufreq, (h.task i).period]
      gcongr
  · refine (Double.le_iff_of_number (deadlineKind_eq_number.mpr ?_)
      (deadlineKind_eq_number.mpr ⟨hc, hf, hup, hdown⟩)).mpr ?_
    · rw [h.cpufreq, h.cloud, h.network]
      exact ⟨hc, hf, hup, hdown⟩
    · have hmode := hmode mode
      simp only [TaskEval.deadlineDouble, taskEval, h.cpufreq, h.cloud, (h.task i).wcet,
        (h.task i).period]
      gcongr
  · refine (Double.le_iff_of_number (offloadingCostKind_eq_number.mpr ?_)
      (offloadingCostKind_eq_number.mpr hperiod)).mpr (h.networkCost_le hexact c)
    rwa [(h.task i).period]

end Config.Smaller

def Task.unsized (t : Task) : Task := { t with taskSize := 0, inputSize := 0, outputSize := 0 }

/-- The configuration with nothing to be sent. -/
def Config.unsized (cfg : Config) : Config :=
  { cfg with
    tasks := cfg.tasks.map Task.unsized
    netCommanders := cfg.netCommanders.map fun n => { n with interceptOut := 0, interceptIn := 0 } }

theorem Config.unsized_task (cfg : Config) (i : ℕ) : cfg.unsized.task i = (cfg.task i).unsized :=
  List.getD_map cfg.tasks {} Task.unsized

theorem Config.unsized_smaller (cfg : Config) : cfg.unsized.Smaller cfg := by
  refine ⟨rfl, ?_, ?_⟩
  · rw [Config.unsized, List.forall₂_map_left_iff]
    exact List.forall₂_same.mpr fun t _ => ⟨rfl, Nat.zero_le _, Nat.zero_le _, Nat.zero_le _⟩
  · rw [Config.unsized, List.forall₂_map_left_iff]
    exact List.forall₂_same.mpr fun n _ => ⟨Nat.zero_le _, Nat.zero_le _⟩

/-- Where nothing to be sent is no dearer than what there is, nothing is divided by zero: `0.0 / 0.0`
    compares with nothing. -/
theorem NoDearer.divides {cfg : Config} {i m c f : ℕ} (h : NoDearer cfg.unsized cfg i m c f) :
    Scalable cfg m c f ∧ Chargeable cfg i := by
  have hsmaller := cfg.unsized_smaller
  have hutil : utilKind cfg m f = .number := by
    have hnan := (Double.not_nan_of_le (h.util .localOnly)).2
    change utilKind cfg m f ≠ .nan at hnan
    unfold utilKind at hnan ⊢
    split at hnan
    · exact absurd rfl hnan
    · rename_i hne
      exact if_neg hne
  have hdeadline : deadlineKind .localOnly cfg i c f = .number := by
    have hnan := (Double.not_nan_of_le (h.deadline .localOnly)).2
    change Kind.timesZero _ ≠ .nan at hnan
    rw [Ne, Kind.timesZero_eq_nan, not_not] at hnan
    exact Kind.timesZero_eq_number.mpr hnan
  have hnetwork : 1000 ≤ (cfg.task i).period := by
    have hnan := (Double.not_nan_of_le h.network).1
    have hnone : tNet (cfg.unsized.task i) 30.0 120.0 = 0 := by
      rw [cfg.unsized_task]
      norm_num [tNet, Task.unsized, u32]
    change Kind.quot _ _ ≠ .nan at hnan
    rw [Ne, Kind.quot_eq_nan, hnone, cfg.unsized_task, Nat.cast_eq_zero] at hnan
    by_contra hlt
    exact hnan ⟨Nat.div_eq_of_lt (Nat.lt_of_not_le hlt), rfl⟩
  obtain ⟨hf, hm⟩ := utilKind_eq_number.mp hutil
  obtain ⟨hc, -, hup, hdown⟩ := deadlineKind_eq_number.mp hdeadline
  exact ⟨⟨hf, hm, hc⟩, hup, hdown, hnetwork⟩

/-- `smallConf` with four gigabytes to be sent for the first task. -/
def largeConf : Config :=
  smallConfOf [⟨1, 1000, 4000, 1000, 1 / 2, 500, 4194304, 100, 0⟩,
    ⟨2, 2000, 8000, 2000, 1 / 4, 500, 100, 100, 0⟩] [0]

theorem largeConf_accepted : Accepted largeConf :=
  ⟨smallFile [⟨"1000 4000 1000 0.5 500 4194304 100 0",
      some ⟨0, 1000, 4000, 1000, 1 / 2, 500, 4194304, 100, 0⟩⟩,
    ⟨"2000 8000 2000 0.25 500 100 100 0", some ⟨0, 2000, 8000, 2000, 1 / 4, 500, 100, 100, 0⟩⟩]
    [⟨"0", some 0⟩], by decide +kernel⟩

theorem smallConf_smaller : smallConf.Smaller largeConf := by
  refine ⟨rfl, .cons ⟨rfl, ?_, ?_, ?_⟩ (.cons ⟨rfl, ?_, ?_, ?_⟩ .nil),
    .cons ⟨?_, ?_⟩ (.cons ⟨?_, ?_⟩ .nil)⟩ <;> decide

end MutualEdge
