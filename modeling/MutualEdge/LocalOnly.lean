import MutualEdge.Completeness
import MutualEdge.Refinement

/-! A search in the setting `local_only` does not depend on what lies outside the device.

    Two configurations of the same device may have other clouds, networks and commanders, other sizes of
    what a task would transfer and other ratios behind the first one. On the same draws their searches go
    through the same genes but for the cloud of each task, which nothing that is compared or printed
    depends on. The proof is about rankings; `runGa_eq_search` takes it to the program. -/

namespace MutualEdge
open Checks Choice Ordered

/-- A task without what only its transfer depends on. -/
def Task.onDevice (t : Task) : Task :=
  { t with taskSize := 0, inputSize := 0, outputSize := 0, offloadingBool := 0 }

/-- The links of the tasks are not zero. (With a zero the power of the network is no number in the
    source, and `0.0` times it is none either.) -/
def Config.Connected (cfg : Config) : Prop :=
  ∀ i < cfg.nTasks, (cfg.network i).uplink ≠ 0 ∧ (cfg.network i).downlink ≠ 0

instance (cfg : Config) : Decidable cfg.Connected := inferInstanceAs (Decidable (∀ _, _ → _))

/-- Two configurations that agree on the device. -/
structure SameDevice (cfg cfg' : Config) : Prop where
  maxGen : cfg'.maxGen = cfg.maxGen
  nPops : cfg'.nPops = cfg.nPops
  cutoff : cfg'.cutoff = cfg.cutoff
  penalty : cfg'.penalty = cfg.penalty
  cpufreqs : cfg'.cpufreqs = cfg.cpufreqs
  mems : cfg'.mems = cfg.mems
  tasks : cfg'.tasks.map Task.onDevice = cfg.tasks.map Task.onDevice
  ratios : cfg'.nOffloadingratios = cfg.nOffloadingratios
  ratio : cfg'.offloadingratio 0 = cfg.offloadingratio 0
  clouds : cfg'.nClouds = 0 ↔ cfg.nClouds = 0
  connected : cfg.Connected
  connected' : cfg'.Connected

/-- Genes that differ in their clouds at most, with every task local. -/
structure Alongside (n : ℕ) (g g' : Gene) : Prop where
  cached : g'.toCached = g.toCached
  mem : g'.taskattrsMem = g.taskattrsMem
  cpufreq : g'.taskattrsCpufreq = g.taskattrsCpufreq
  ratio : g'.taskattrsOffloadingratio = g.taskattrsOffloadingratio
  atHome : g.taskattrsOffloadingratio.attrs = List.replicate n 0

section Device
variable {cfg cfg' : Config}

theorem SameDevice.nTasks (h : SameDevice cfg cfg') : cfg'.nTasks = cfg.nTasks := by
  simpa [Config.nTasks] using congrArg List.length h.tasks

theorem SameDevice.task (h : SameDevice cfg cfg') (i : ℕ) :
    (cfg'.task i).onDevice = (cfg.task i).onDevice := by
  have hget : ∀ c : Config, (c.task i).onDevice = (c.tasks.map Task.onDevice).getD i {} := by
    intro c
    rw [Config.task, List.getD_eq_getElem?_getD, List.getD_eq_getElem?_getD, List.getElem?_map]
    cases c.tasks[i]? with
    | none => rfl
    | some t => rfl
  rw [hget, hget, h.tasks]

/-- The fields a local task is evaluated with. -/
theorem SameDevice.fields (h : SameDevice cfg cfg') (i : ℕ) :
    (cfg'.task i).no = (cfg.task i).no ∧ (cfg'.task i).wcet = (cfg.task i).wcet ∧
      (cfg'.task i).period = (cfg.task i).period ∧ (cfg'.task i).memreq = (cfg.task i).memreq ∧
      (cfg'.task i).memActiveRatio = (cfg.task i).memActiveRatio := by
  have htask := h.task i
  simp only [Task.onDevice, Task.mk.injEq] at htask
  exact ⟨htask.1, htask.2.1, htask.2.2.1, htask.2.2.2.1, htask.2.2.2.2.1⟩

/-! ### The evaluation -/

variable {g g' : Gene}

theorem Alongside.ratio_attr {n : ℕ} (h : Alongside n g g') (i : ℕ) :
    g.taskattrsOffloadingratio.attr i = 0 := by
  rw [Taskattrs.attr, h.atHome, attr_replicate]

theorem Alongside.offloads {n : ℕ} (h : Alongside n g g') (i : ℕ) :
    g.offloads i = false ∧ g'.offloads i = false := by
  have h0 := h.ratio_attr i
  unfold Gene.offloads
  rw [h.ratio, h0]
  exact ⟨rfl, rfl⟩

theorem Alongside.checkMemusage (hd : SameDevice cfg cfg') {n : ℕ} (h : Alongside n g g') :
    checkMemusage cfg' g' = checkMemusage cfg g := by
  have hdemand : ∀ fl i, memDemand fl cfg' g' i = memDemand fl cfg g i := by
    intro fl i
    rw [memDemand, memDemand, getTaskMemreq, getTaskMemreq, h.ratio, h.ratio_attr,
      (hd.fields i).2.2.2.1, hd.ratio]
  have hused : ∀ fl, memUsed fl cfg' g' = memUsed fl cfg g := by
    intro fl
    unfold memUsed
    simp only [hd.nTasks, h.mem, hdemand]
  unfold MutualEdge.checkMemusage Config.nMems Config.mem
  rw [hused, hd.mems]

/-- At home neither clouds nor networks matter to a task, but for a deadline ratio nothing looks at. -/
theorem SameDevice.taskEval (hd : SameDevice cfg cfg') (i m c c' f : ℕ) :
    ∃ d k, taskEval .localOnly cfg' i m c' f =
      { MutualEdge.taskEval .localOnly cfg i m c f with deadline := d, deadlineKind := k } := by
  obtain ⟨-, hwcet, hperiod, hmemreq, hratio⟩ := hd.fields i
  have hcpufreq : cfg'.cpufreq f = cfg.cpufreq f := by rw [Config.cpufreq, Config.cpufreq, hd.cpufreqs]
  have hmem : cfg'.mem m = cfg.mem m := by rw [Config.mem, Config.mem, hd.mems]
  have hzero : Mode.localOnly.realOffloading = 0 := by norm_num [Mode.realOffloading]
  refine ⟨(MutualEdge.taskEval .localOnly cfg' i m c' f).deadline,
    (MutualEdge.taskEval .localOnly cfg' i m c' f).deadlineKind, ?_⟩
  simp only [MutualEdge.taskEval, wcetScaled, utilKind, hzero, mul_zero, add_zero, hcpufreq, hmem, hwcet,
    hperiod, hmemreq, hratio]

theorem SameDevice.overruns (hd : SameDevice cfg cfg') (i m f : ℕ) :
    (Overruns cfg' i m f ↔ Overruns cfg i m f) ∧
      periodExceeded cfg' i m f = periodExceeded cfg i m f := by
  obtain ⟨hno, hwcet, hperiod, -, -⟩ := hd.fields i
  have hcpufreq : cfg'.cpufreq f = cfg.cpufreq f := by rw [Config.cpufreq, Config.cpufreq, hd.cpufreqs]
  have hmem : cfg'.mem m = cfg.mem m := by rw [Config.mem, Config.mem, hd.mems]
  have hscaled : wcetScaled cfg' i m f = wcetScaled cfg i m f := by
    simp only [wcetScaled, hcpufreq, hmem, hwcet]
  have hinf : ScaledInfinite cfg' i m f ↔ ScaledInfinite cfg i m f := by
    unfold ScaledInfinite
    rw [hwcet, hcpufreq, hmem]
  constructor
  · unfold Overruns
    rw [hinf, hscaled, hperiod]
  · simp only [periodExceeded, hno, hinf, hscaled, hperiod]

theorem Alongside.tally (hd : SameDevice cfg cfg') {n : ℕ} (h : Alongside n g g') :
    tally .localOnly cfg' g' = tally .localOnly cfg g := by
  have hstep : ∀ t i e, Tally.addTask cfg' g' t i e = Tally.addTask cfg g t i e := by
    intro t i e
    obtain ⟨-, hwcet, hperiod, hmemreq, hratio⟩ := hd.fields i
    obtain ⟨hoff, hoff'⟩ := h.offloads i
    have hcost : ∀ f, computeLocalCostPerSec (cfg'.task i) f = computeLocalCostPerSec (cfg.task i) f := by
      intro f
      simp only [computeLocalCostPerSec, eCpu, eMem, sizeMb, hwcet, hperiod, hmemreq, hratio]
    have hkind : localCostKind (cfg'.task i) = localCostKind (cfg.task i) := by
      rw [localCostKind, localCostKind, hwcet, hperiod]
    simp only [Tally.addTask, hoff, hoff', hmemreq, hcost, hkind, h.cpufreq, Bool.false_eq_true,
      if_false]
  unfold MutualEdge.tally
  rw [hd.nTasks]
  refine foldlM_ext (fun i _ t => ?_) _
  obtain ⟨hover, hexceeded⟩ := hd.overruns i (g.taskattrsMem.attr i) (g.taskattrsCpufreq.attr i)
  rw [h.mem, h.cpufreq, h.ratio]
  simp only [getTaskUtilpower, hover, hexceeded, hstep]
  split
  · rfl
  · refine congrArg Except.ok (Tally.addTask_of_not_late (hd.taskEval i _ _ _ _) ?_ ?_)
    · exact not_late_localOnly cfg i _ _ _
    · exact not_late_localOnly cfg' i _ _ _

/-- The same answer, and the same values are stored. -/
theorem Alongside.checkUtilpower (hd : SameDevice cfg cfg') {n : ℕ} (h : Alongside n g g') :
    Matched (fun r r' => r'.1 = r.1 ∧ Alongside n r.2 r'.2) (checkUtilpower .localOnly cfg g)
      (checkUtilpower .localOnly cfg' g') := by
  rw [MutualEdge.checkUtilpower, MutualEdge.checkUtilpower, h.tally hd]
  refine (Matched.refl (fun _ => rfl) _).bind fun t _ ht _ _ => ?_
  subst ht
  have hidle : t.idlePower cfg' = t.idlePower cfg := by
    simp only [Tally.idlePower, Config.cpufreq, Config.nCpufreqs, hd.cpufreqs]
  have hfirst : firstWrites cfg' t g'.toCached = firstWrites cfg t g.toCached := by
    simp only [firstWrites, hidle, h.cached]
  have hsecond : ∀ c, secondWrites cfg' t c = secondWrites cfg t c := by
    intro c
    simp only [secondWrites, Tally.scoreKind, hidle, hd.penalty]
  have hwithin : t.Within cfg' ↔ t.Within cfg := by rw [Tally.Within, Tally.Within, hd.cutoff]
  have htable : cfg'.nCpufreqs = cfg.nCpufreqs := congrArg List.length hd.cpufreqs
  simp only [hfirst, hsecond, hwithin, htable]
  split
  · exact .error _
  · split
    · exact .ok ⟨rfl, rfl, h.mem, h.cpufreq, h.ratio, h.atHome⟩
    · exact .ok ⟨rfl, rfl, h.mem, h.cpufreq, h.ratio, h.atHome⟩

/-! ### The operations on genes -/

/-- Draws below other bounds, of which none or both are zero. -/
theorem drawAttrs_lockstep {m m' : ℕ} (h : m' = 0 ↔ m = 0) (n : ℕ) :
    Lockstep (fun _ _ => True) (drawAttrs m n) (drawAttrs m' n) := by
  induction n with
  | zero => exact .pure trivial
  | succ n ih =>
    have hdraw : Lockstep (fun _ _ => True) (getRand m) (getRand m') := by
      refine (Lockstep.refl _).bind fun r _ hr _ _ => .lift ?_
      subst hr
      rw [getRandOf, getRandOf]
      by_cases h0 : m = 0
      · rw [if_pos h0, if_pos (h.mpr h0)]
        exact .error _
      · rw [if_neg h0, if_neg fun h0' => h0 (h.mp h0')]
        exact .ok trivial
    exact hdraw.bind fun _ _ _ _ _ => ih.bind fun _ _ _ _ _ => .pure trivial

theorem SameDevice.assignGene (hd : SameDevice cfg cfg') :
    Lockstep (Alongside cfg.nTasks) (assignGene cfg {}) (assignGene cfg' {}) := by
  have hmems : cfg'.nMems = cfg.nMems := congrArg List.length hd.mems
  have hcpufreqs : cfg'.nCpufreqs = cfg.nCpufreqs := congrArg List.length hd.cpufreqs
  rw [MutualEdge.assignGene, MutualEdge.assignGene, hd.nTasks, hmems, hcpufreqs]
  refine (Lockstep.refl _).bind fun mem _ hmem _ _ => ?_
  refine (Lockstep.refl _).bind fun cpufreq _ hcpufreq _ _ => ?_
  subst hmem hcpufreq
  have hcloud : Lockstep (fun _ _ => True) (assignTaskattrs cfg.nTasks cfg.nClouds {})
      (assignTaskattrs cfg.nTasks cfg'.nClouds {}) :=
    (drawAttrs_lockstep hd.clouds _).bind fun _ _ _ _ _ => .pure trivial
  refine hcloud.bind fun _ _ _ _ _ => ?_
  exact .pure ⟨rfl, rfl, rfl, rfl, setupTaskattrs_attrs _⟩

theorem Alongside.balance (hd : SameDevice cfg cfg') {n : ℕ} (h : Alongside n g g') :
    Lockstep (Alongside n) (balanceMemTypes cfg g) (balanceMemTypes cfg' g') := by
  have hmems : cfg'.nMems = cfg.nMems := congrArg List.length hd.mems
  rw [balanceMemTypes, balanceMemTypes, hmems, h.mem]
  refine (Lockstep.refl _).bind fun t _ ht _ _ => ?_
  subst ht
  exact .pure ⟨h.cached, rfl, h.cpufreq, h.ratio, h.atHome⟩

theorem Alongside.lowerCpufreq (hd : SameDevice cfg cfg') {n : ℕ} (h : Alongside n g g') :
    Lockstep (fun r r' => r'.1 = r.1 ∧ Alongside n r.2 r'.2) (lowerCpufreq cfg g)
      (lowerCpufreq cfg' g') := by
  rw [MutualEdge.lowerCpufreq, MutualEdge.lowerCpufreq, hd.nTasks, h.cpufreq]
  refine (Lockstep.refl _).bind fun r _ hr _ _ => ?_
  subst hr
  exact .pure ⟨rfl, h.cached, h.mem, rfl, h.ratio, h.atHome⟩

/-- There is no ratio to lower. -/
theorem Alongside.lowerOffloadingratio (hd : SameDevice cfg cfg') {n : ℕ} (h : Alongside n g g') :
    Lockstep (fun r r' => r'.1 = r.1 ∧ Alongside n r.2 r'.2) (lowerOffloadingratio cfg g)
      (lowerOffloadingratio cfg' g') := by
  rw [MutualEdge.lowerOffloadingratio, MutualEdge.lowerOffloadingratio, hd.nTasks, h.ratio]
  refine (Lockstep.refl _).bind fun r _ hr hx _ => ?_
  subst hr
  obtain ⟨b, t⟩ := r
  obtain ⟨-, rfl⟩ := lowerUtilizationByAttr_zero h.atHome hx
  exact .pure ⟨rfl, h.cached, h.mem, h.cpufreq, rfl, h.atHome⟩

theorem lowerEither_lockstep {n : ℕ} {first second first' second' : Gene → Rand (Bool × Gene)}
    (hfirst : Lockstep (fun r r' => r'.1 = r.1 ∧ Alongside n r.2 r'.2) (first g) (first' g'))
    (hsecond : ∀ g g', Alongside n g g' →
      Lockstep (fun r r' => r'.1 = r.1 ∧ Alongside n r.2 r'.2) (second g) (second' g')) :
    Lockstep (Alongside n) (lowerEither first second g) (lowerEither first' second' g') := by
  refine hfirst.bind fun r r' hr _ _ => ?_
  obtain ⟨hdone, hr⟩ := hr
  rw [hdone]
  split
  · exact .pure hr
  · exact (hsecond _ _ hr).bind fun s s' hs _ _ => .pure hs.2

theorem Alongside.lower (hd : SameDevice cfg cfg') {n : ℕ} (h : Alongside n g g') :
    Lockstep (Alongside n) (lowerUtilization cfg g) (lowerUtilization cfg' g') := by
  have hcpufreqs : cfg'.nCpufreqs = cfg.nCpufreqs := congrArg List.length hd.cpufreqs
  rw [lowerUtilization, lowerUtilization, hcpufreqs, hd.ratios]
  refine (Lockstep.refl _).bind fun r _ hr _ _ => ?_
  subst hr
  split
  · exact lowerEither_lockstep (h.lowerCpufreq hd) fun _ _ hg => hg.lowerOffloadingratio hd
  · exact lowerEither_lockstep (h.lowerOffloadingratio hd) fun _ _ hg => hg.lowerCpufreq hd

theorem Alongside.inherit (hd : SameDevice cfg cfg') {g1 g1' g2 g2' : Gene}
    (h : Alongside cfg.nTasks g g') (h1 : Alongside cfg.nTasks g1 g1')
    (h2 : Alongside cfg.nTasks g2 g2') {kr : ℕ} (kc km : ℕ) (hr : kr ≤ cfg.nTasks) :
    Alongside cfg.nTasks (inheritGene cfg g g1 g2 kr kc km)
      (inheritGene cfg' g' g1' g2' kr kc km) := by
  refine ⟨h.cached, ?_, ?_, ?_, ?_⟩
  · simp only [inheritGene, hd.nTasks, h.mem, h1.mem, h2.mem]
  · simp only [inheritGene, hd.nTasks, h.cpufreq, h1.cpufreq, h2.cpufreq]
  · simp only [inheritGene, hd.nTasks, h.ratio, h1.ratio, h2.ratio]
  · simp [inheritGene, inheritValues, h1.atHome, h2.atHome, hr]

/-! ### The search -/

theorem Alongside.prepareOnce (hd : SameDevice cfg cfg') {n : ℕ} (h : Alongside n g g') :
    Lockstep (fun r r' => r.1 = r'.1 ∧ Alongside n r.2 r'.2) (prepareOnce .localOnly cfg g)
      (prepareOnce .localOnly cfg' g') := by
  rw [MutualEdge.prepareOnce, MutualEdge.prepareOnce, h.checkMemusage hd]
  split
  · exact (h.balance hd).bind fun _ _ hg _ _ => .pure ⟨rfl, hg⟩
  · refine (Lockstep.lift (h.checkUtilpower hd)).bind fun r r' hr _ _ => ?_
    obtain ⟨hdone, hr⟩ := hr
    rw [hdone]
    split
    · exact .pure ⟨rfl, hr⟩
    · exact (hr.lower hd).bind fun _ _ hg _ _ => .pure ⟨rfl, hg⟩

theorem SameDevice.prepare (hd : SameDevice cfg cfg') :
    Lockstep (Alongside cfg.nTasks) (prepare .localOnly cfg) (prepare .localOnly cfg') := by
  refine hd.assignGene.bind fun g g' h _ _ => ?_
  refine Lockstep.attempts_kept ?_ (fun _ _ h => h.prepareOnce hd) h
  intro g g' h
  rw [Gene.utilizationTooHigh, Gene.utilizationTooHigh, h.cached]

/-- Rankings of such genes. -/
abbrev AlongsideAll (n : ℕ) : Ranking → Ranking → Prop := List.Forall₂ (Alongside n)

theorem AlongsideAll.add {n : ℕ} {l l' : Ranking} (hl : AlongsideAll n l l')
    (h : Alongside n g g') : AlongsideAll n (l.add g) (l'.add g') :=
  forall₂_insertKey _ (fun _ _ hcd => by rw [hcd.cached]) h hl

theorem SameDevice.populate (hd : SameDevice cfg cfg') (m : ℕ) {l l' : Ranking}
    (hl : AlongsideAll cfg.nTasks l l') : Lockstep (AlongsideAll cfg.nTasks)
      (populate .localOnly cfg m l) (populate .localOnly cfg' m l') := by
  induction m generalizing l l' with
  | zero => exact .pure hl
  | succ m ih => exact hd.prepare.bind fun _ _ h _ _ => ih (hl.add h)

theorem Alongside.breed (hd : SameDevice cfg cfg') {g1 g1' g2 g2' : Gene}
    (h : Alongside cfg.nTasks g g') (h1 : Alongside cfg.nTasks g1 g1')
    (h2 : Alongside cfg.nTasks g2 g2') (kr kc km : ℕ) :
    Matched (fun r r' => r.1 = r'.1 ∧ Alongside cfg.nTasks r.2 r'.2)
      (breed .localOnly cfg g g1 g2 kr kc km) (breed .localOnly cfg' g' g1' g2' kr kc km) := by
  rw [MutualEdge.breed, MutualEdge.breed, hd.nTasks]
  split
  · exact .error _
  · rename_i hpts
    push Not at hpts
    have hchild := h.inherit hd h1 h2 kc km hpts.1
    rw [hchild.checkMemusage hd]
    split
    · exact .ok ⟨rfl, hchild⟩
    · refine (hchild.checkUtilpower hd).bind fun r r' hr _ _ => ?_
      obtain ⟨hdone, hr⟩ := hr
      rw [hdone, hr.cached, h1.cached, h2.cached]
      exact .ok ⟨rfl, hr⟩

/-- A rank that is returned is one of the ranking. -/
theorem rankOf_lt {n r rank : ℕ} (h : rankOf cfg n r = .ok rank) : rank < n := by
  obtain ⟨position, _, h⟩ := bind_ok.mp h
  split at h
  · cases h
  · obtain rfl := pure_ok.mp h
    omega

theorem SameDevice.rankOf (hd : SameDevice cfg cfg') (n r : ℕ) : rankOf cfg' n r = rankOf cfg n r := by
  rw [MutualEdge.rankOf, MutualEdge.rankOf, hd.nPops]

theorem AlongsideAll.getD {n : ℕ} {l l' : Ranking} (hl : AlongsideAll n l l') {i : ℕ}
    (hi : i < l.length) : Alongside n (l.getD i {}) (l'.getD i {}) := by
  have hi' : i < l'.length := hl.length_eq ▸ hi
  rw [List.getD_eq_getElem _ _ hi, List.getD_eq_getElem _ _ hi']
  exact hl.get hi hi'

theorem AlongsideAll.breedOnce (hd : SameDevice cfg cfg') {l l' : Ranking}
    (hl : AlongsideAll cfg.nTasks l l') (h : Alongside cfg.nTasks g g') :
    Lockstep (fun r r' => r.1 = r'.1 ∧ Alongside cfg.nTasks r.2 r'.2) (breedOnce .localOnly cfg l g)
      (breedOnce .localOnly cfg' l' g') := by
  have hpoint : drawCrosspt cfg' = drawCrosspt cfg := by rw [drawCrosspt, drawCrosspt, hd.nTasks]
  have hrank : ∀ n, drawRank cfg' n = drawRank cfg n := fun n => by
    simp only [drawRank, hd.rankOf]
  have hother : ∀ n rank1, drawOther cfg' n rank1 = drawOther cfg n rank1 := fun n rank1 => by
    simp only [drawOther, hd.rankOf]
  rw [MutualEdge.breedOnce, MutualEdge.breedOnce, hpoint, hrank, ← hl.length_eq]
  simp only [hother]
  refine (Lockstep.refl _).bind fun rank1 _ h1 hx1 _ => ?_
  subst h1
  refine (Lockstep.refl _).bind fun rank2 _ h2 hx2 _ => ?_
  subst h2
  obtain ⟨_, _, hx1⟩ := hx1.bind
  obtain ⟨_, hx2⟩ := hx2.retry
  obtain ⟨k, hk, hx2⟩ := bind_ok.mp hx2
  rw [pure_ok, Option.ite_none_right_eq_some] at hx2
  obtain rfl := Option.some.inj hx2.2
  refine (Lockstep.refl _).bind fun kr _ hkr _ _ => ?_
  refine (Lockstep.refl _).bind fun kc _ hkc _ _ => ?_
  refine (Lockstep.refl _).bind fun km _ hkm _ _ => ?_
  subst hkr hkc hkm
  exact .lift (h.breed hd (hl.getD (rankOf_lt (returns_lift.mp hx1))) (hl.getD (rankOf_lt hk)) kr kc km)

/-- The first and the last genes. -/
theorem AlongsideAll.best {n : ℕ} {l l' : Ranking} (hl : AlongsideAll n l l') :
    Matched (Alongside n) l.best l'.best := by
  cases hl with
  | nil => exact .error _
  | cons h hl => exact .ok h

theorem AlongsideAll.worst {n : ℕ} {l l' : Ranking} (hl : AlongsideAll n l l') :
    Matched (Alongside n) l.worst l'.worst := by
  have hrev : AlongsideAll n l.reverse l'.reverse := List.forall₂_reverse_iff.mpr hl
  have hbest := hrev.best
  rwa [Ranking.best, Ranking.best, List.head?_reverse, List.head?_reverse] at hbest

theorem AlongsideAll.dropLast {n : ℕ} {l l' : Ranking} (hl : AlongsideAll n l l') :
    AlongsideAll n l.dropLast l'.dropLast := by
  rw [List.dropLast_eq_take, List.dropLast_eq_take, hl.length_eq]
  exact List.forall₂_take _ hl

theorem AlongsideAll.generation (hd : SameDevice cfg cfg') {l l' : Ranking}
    (hl : AlongsideAll cfg.nTasks l l') : Lockstep (AlongsideAll cfg.nTasks)
      (generation .localOnly cfg l) (generation .localOnly cfg' l') := by
  refine (Lockstep.lift hl.worst).bind fun g g' h _ _ => ?_
  refine Lockstep.bind (R := Alongside cfg.nTasks) (Lockstep.attempts_kept (fun _ _ _ => rfl)
    (fun _ _ hg => hl.dropLast.breedOnce hd hg) h) fun _ _ hg _ _ => ?_
  exact .pure (hl.dropLast.add hg)

/-! ### The report and the result -/

/-- Nothing of a row depends on the clouds. -/
theorem AlongsideAll.row (hd : SameDevice cfg cfg') {n : ℕ} {l l' : Ranking}
    (hl : AlongsideAll n l l') (gen : ℕ) : l.row cfg gen = l'.row cfg' gen := by
  have hsums : ∀ s, l.foldl Sums.addGene s = l'.foldl Sums.addGene s := by
    clear gen
    induction hl with
    | nil => exact fun s => rfl
    | cons h hl ih =>
      intro s
      rw [List.foldl_cons, List.foldl_cons, ih]
      simp only [Sums.addGene, h.cached]
  have hutil : (l.map fun g => g.util) = l'.map fun g => g.util := by
    clear hsums gen
    induction hl with
    | nil => rfl
    | cons h hl ih => rw [List.map_cons, List.map_cons, ih, h.cached]
  refine Matched.eq ?_
  simp only [Ranking.row, hsums, hutil, hd.nPops]
  refine hl.best.bind fun best best' hbest _ _ => ?_
  refine hl.worst.bind fun worst worst' hworst _ _ => ?_
  rw [hbest.cached, hworst.cached]
  exact .refl (fun _ => rfl) _

theorem AlongsideAll.report (hd : SameDevice cfg cfg') {n : ℕ} {l l' : Ranking}
    (hl : AlongsideAll n l l') (gen : ℕ) (r : Report) :
    l.report cfg gen r = l'.report cfg' gen r := by
  have hinterval : reportInterval cfg' = reportInterval cfg := by
    rw [reportInterval, reportInterval, hd.maxGen]
  have hreported : Reported cfg' gen ↔ Reported cfg gen := by
    rw [Reported, Reported, hinterval, hd.maxGen]
  simp only [Ranking.report, hl.row hd, hinterval, hreported]

/-- The row of a task without the cloud. -/
def exceptCloud (row : ℕ × ℕ × ℕ × ℕ) : ℕ × ℕ × ℕ := (row.1, row.2.1, row.2.2.2)

/-- The same results but for the clouds in the rows of `task.txt`. -/
structure SameResult (r r' : Report × TaskInfos) : Prop where
  report : r'.1 = r.1
  tasks : r'.2.tasks.map exceptCloud = r.2.tasks.map exceptCloud
  printed : { r'.2 with tasks := [] } = { r.2 with tasks := [] }

theorem Alongside.infos (hd : SameDevice cfg cfg') {n : ℕ} (h : Alongside n g g') :
    Matched (fun i i' => ∀ r, SameResult (r, i) (r, i')) (g.infos cfg) (g'.infos cfg') := by
  have hoff : ∀ i, g'.offloads i = g.offloads i := fun i => by
    rw [(h.offloads i).1, (h.offloads i).2]
  simp only [Gene.infos, h.cached, hd.nTasks, h.cpufreq]
  split
  · exact .error _
  · refine .ok fun r => ⟨rfl, ?_, ?_⟩
    · simp [exceptCloud, taskInfo, h.mem, h.cpufreq, h.ratio]
    · simp only [hoff, funext hoff]

/-! ### The run -/

structure SameSearch (cfg : Config) (s s' : SearchState) : Prop where
  gen : s'.gen = s.gen
  ranking : AlongsideAll cfg.nTasks s.ranking s'.ranking
  report : s'.report = s.report

theorem SameDevice.searchStart (hd : SameDevice cfg cfg') : Lockstep (SameSearch cfg)
    (searchStart .localOnly cfg) (searchStart .localOnly cfg') := by
  rw [MutualEdge.searchStart, MutualEdge.searchStart, hd.nPops]
  refine (hd.populate _ .nil).bind fun l l' hl _ _ => ?_
  rw [hl.report hd]
  refine (Lockstep.refl _).bind fun r _ hr _ _ => ?_
  exact .pure ⟨rfl, hl, hr.symm⟩

theorem SameSearch.round (hd : SameDevice cfg cfg') {s s' : SearchState} (h : SameSearch cfg s s') :
    Lockstep (SameSearch cfg) (searchRound .localOnly cfg s) (searchRound .localOnly cfg' s') := by
  refine (h.ranking.generation hd).bind fun l l' hl _ _ => ?_
  dsimp only
  rw [hl.report hd, h.gen, h.report]
  refine (Lockstep.refl _).bind fun r _ hr _ _ => ?_
  exact .pure ⟨rfl, hl, hr.symm⟩

/-- Searches in the setting `local_only` for one device read the same draws and end alike, with the same
    report and the same result but for the clouds of the tasks, whatever the clouds, the networks and the
    sizes of the transfers are. -/
theorem runGa_sameDevice (hd : SameDevice cfg cfg') :
    Lockstep SameResult (runGa .localOnly cfg) (runGa .localOnly cfg') := by
  rw [runGa_eq_search, runGa_eq_search]
  refine hd.searchStart.bind fun s s' h _ _ => ?_
  refine Lockstep.bind (R := SameSearch cfg) (Lockstep.loop (fun s s' h => ?_)
    (fun s s' h _ => h.round hd) h) fun t t' ht _ _ => ?_
  · rw [h.gen, hd.maxGen]
  · refine (Lockstep.lift ht.ranking.best).bind fun g g' hg _ _ => ?_
    refine (Lockstep.lift (hg.infos hd)).bind fun i i' hi _ _ => ?_
    rw [ht.report]
    exact .pure (hi _)

end Device

/-- `smallConf` next to other clouds, behind other networks, with more to transfer. -/
def remoteConf : Config :=
  { smallConf with
    tasks := smallConf.tasks.map fun t => { t with taskSize := 9000, outputSize := 7 }
    clouds := [⟨"edge", 3, 5, 1, 500, 1 / 2⟩, ⟨"far", 40, 90, 20, 8000, 1⟩]
    networks := [⟨5, 1, 1⟩, ⟨2, 2, 2⟩]
    netCommanders := [⟨40, 60, 1⟩] }

theorem runGa_sameDevice_remoteConf :
    Lockstep SameResult (runGa .localOnly smallConf) (runGa .localOnly remoteConf) :=
  runGa_sameDevice ⟨rfl, rfl, rfl, rfl, rfl, rfl, rfl, rfl, rfl, by decide, by decide +kernel,
    by decide +kernel⟩

end MutualEdge
