import MutualEdge.Generators
import MutualEdge.Lib.Doubles

/-! For which parameters gasgen's generators work.

    `parse_gentask` compares the two utilisations and checks nothing else, and the other two readers
    check nothing. `generatorsSound_iff` says what they would have to check. -/

namespace MutualEdge.Gasgen
open Checks Choice Doubles LineReader Scanf

/-! ### What is read -/

/-- Some file loads as these parameters. -/
def Accepted (double : List Char → Option (ℚ × List Char)) (c : Conf) : Prop :=
  ∃ content fuel, parseConf double fuel { content } = some (.ok c)

/-- The minima and maxima are values of `unsigned`. -/
structure Conf.InRange (c : Conf) : Prop where
  gentask : ∀ b ∈ c.gentask.bounds, b.1 < 2 ^ 32 ∧ b.2 < 2 ^ 32
  gennetwork : ∀ b ∈ c.gennetwork.bounds, b.1 < 2 ^ 32 ∧ b.2 < 2 ^ 32
  gennetcommander : ∀ b ∈ c.gennetcommander.bounds, b.1 < 2 ^ 32 ∧ b.2 < 2 ^ 32

section Accepted
variable {double : List Char → Option (ℚ × List Char)} {buf : List Char}

/-- What `%u` has stored into a parameter fits. -/
theorem scanLine_bounds {α : Type} {fmt : List Conv} {store : List Value → Option α} {v : α}
    {bounds : α → List (ℕ × ℕ)}
    (hstore : ∀ vs v, store vs = some v → ∀ b ∈ bounds v, .u b.1 ∈ vs ∧ .u b.2 ∈ vs)
    (h : (scanLine double fmt store buf).fields = some v) :
    ∀ b ∈ bounds v, b.1 < 2 ^ 32 ∧ b.2 < 2 ^ 32 := fun b hb =>
  ⟨u_lt_of_mem_sscanf (hstore _ v h b hb).1, u_lt_of_mem_sscanf (hstore _ v h b hb).2⟩

theorem gentaskLine_bounds {g : Gentask} (h : (gentaskLine double buf).fields = some g) :
    ∀ b ∈ g.bounds, b.1 < 2 ^ 32 ∧ b.2 < 2 ^ 32 := by
  refine scanLine_bounds (fun vs v hv => ?_) h
  split at hv
  · obtain rfl := Option.some.inj hv
    simp [Gentask.bounds]
  · cases hv

theorem gennetworkLine_bounds {g : Gennetwork} (h : (gennetworkLine double buf).fields = some g) :
    ∀ b ∈ g.bounds, b.1 < 2 ^ 32 ∧ b.2 < 2 ^ 32 := by
  refine scanLine_bounds (fun vs v hv => ?_) h
  split at hv
  · obtain rfl := Option.some.inj hv
    simp [Gennetwork.bounds]
  · cases hv

theorem gennetcommanderLine_bounds {g : Gennetcommander}
    (h : (gennetcommanderLine double buf).fields = some g) :
    ∀ b ∈ g.bounds, b.1 < 2 ^ 32 ∧ b.2 < 2 ^ 32 := by
  refine scanLine_bounds (fun vs v hv => ?_) h
  split at hv
  · obtain rfl := Option.some.inj hv
    simp [Gennetcommander.bounds]
  · cases hv

theorem data_inRange {sect : SectionT} {g g' : Conf} (hg : g.InRange)
    (h : data double sect g buf = .ok g') : g'.InRange := by
  cases sect with
  | mem =>
    obtain ⟨tables, _, hok⟩ := bind_ok.mp h
    obtain rfl := pure_ok.mp hok
    exact ⟨hg.gentask, hg.gennetwork, hg.gennetcommander⟩
  | gentask =>
    change gentaskData double g buf = .ok g' at h
    unfold gentaskData at h
    split at h
    · cases h
    · rename_i v hv
      split at h
      · cases h
      · obtain rfl := Except.ok.inj h
        exact ⟨gentaskLine_bounds hv, hg.gennetwork, hg.gennetcommander⟩
  | gennetwork =>
    change gennetworkData double g buf = .ok g' at h
    unfold gennetworkData at h
    split at h
    · cases h
    · rename_i v hv
      obtain rfl := Except.ok.inj h
      exact ⟨hg.gentask, gennetworkLine_bounds hv, hg.gennetcommander⟩
  | gennetcommander =>
    change gennetcommanderData double g buf = .ok g' at h
    unfold gennetcommanderData at h
    split at h
    · cases h
    · rename_i v hv
      obtain rfl := Except.ok.inj h
      exact ⟨hg.gentask, hg.gennetwork, gennetcommanderLine_bounds hv⟩
  | _ =>
    obtain rfl := Except.ok.inj h
    exact hg

theorem Accepted.inRange {c : Conf} (h : Accepted double c) : c.InRange := by
  obtain ⟨content, fuel, h⟩ := h
  rw [parseConf, switch_eq] at h
  refine readSections_invariant (I := Conf.InRange) ?_ ⟨by decide, by decide, by decide⟩ h
  intro hd fuel f g f' g' hg henter
  rw [Actions.enter] at henter
  split at henter
  · cases henter
  · rename_i s hs
    obtain rfl := header_ok hs
    exact readSection_invariant (fun s buf s' hs hdata => data_inRange hs hdata) hg henter

end Accepted

/-! ### When the generators work -/

/-- No generator goes wrong, on any machine. -/
structure GeneratorsSound (fl : ℚ → ℚ) (c : Conf) : Prop where
  genTask : ∀ M, Sound (genTask fl M c) fun ts => ∀ t ∈ ts, WithinBounds c.gentask t
  genNetwork : Sound (genNetwork c) fun rows => ∀ row ∈ rows,
    (c.gennetwork.uplinkMin ≤ row.uplink ∧ row.uplink ≤ c.gennetwork.uplinkMax) ∧
      c.gennetwork.downlinkMin ≤ row.downlink ∧ row.downlink ≤ c.gennetwork.downlinkMax
  genNetCommander : Sound (genNetCommander c) fun rows => ∀ row ∈ rows,
    (c.gennetcommander.interceptOutMin ≤ row.interceptOut ∧
      row.interceptOut ≤ c.gennetcommander.interceptOutMax) ∧
      c.gennetcommander.interceptInMin ≤ row.interceptIn ∧
        row.interceptIn ≤ c.gennetcommander.interceptInMax

/-- The parameters of a task section: at most 100 tasks, each minimum up to its maximum and not the
    whole range of `unsigned` between them, and, as they come out in doubles, a memory request of one
    task from 2 on that fits in 32 bits, and likewise the period for every wcet that can be drawn. -/
structure TasksFit (fl : ℚ → ℚ) (c : Conf) : Prop where
  few : c.gentask.nTasksTarget ≤ 100
  bounds : ∀ b ∈ c.gentask.bounds, Draws b.1 b.2
  memory : Halved (memreqReal fl c)
  periods : ∀ w, c.gentask.wcetMin ≤ w →
    w ≤ min c.gentask.wcetMax (c.gentask.wcetMin + (randBound - 1)) → Halved (durationReal fl c w)

section Fits
variable {fl : ℚ → ℚ} {c : Conf}

/-- The values of wcet that can be drawn. -/
theorem between_of_draws {lo hi : ℕ} (h : Draws lo hi) (hhi : hi < 2 ^ 32) {v : ℕ} :
    Between lo hi v ↔ lo ≤ v ∧ v ≤ min hi (lo + (randBound - 1)) := by
  have hspread := spread_of_draws h hhi
  obtain ⟨hle, hlt⟩ := h
  constructor
  · rintro ⟨r, hr, hrand, rfl⟩
    rw [hspread] at hr
    unfold u32 randBound at *
    omega
  · rintro ⟨hlow, hhigh⟩
    refine ⟨v - lo, ?_, ?_, ?_⟩
    · rw [hspread]
      omega
    · unfold randBound at *
      omega
    · unfold u32
      omega

theorem workable_iff (hfit : ∀ b ∈ c.gentask.bounds, b.1 < 2 ^ 32 ∧ b.2 < 2 ^ 32) :
    Workable fl c ↔ TasksFit fl c := by
  have hmem : (c.gentask.wcetMin, c.gentask.wcetMax) ∈ c.gentask.bounds := by simp [Gentask.bounds]
  obtain ⟨_, hhi⟩ := hfit _ hmem
  constructor
  · intro h
    have hdraws := h.bounds _ hmem
    exact ⟨h.few, h.bounds, h.memreq, fun w hlow hhigh =>
      h.duration w ((between_of_draws hdraws hhi).mpr ⟨hlow, hhigh⟩)⟩
  · intro h
    refine ⟨h.few, h.bounds, h.memory, fun w hw => ?_⟩
    obtain ⟨hlow, hhigh⟩ := (between_of_draws (h.bounds _ hmem) hhi).mp hw
    exact h.periods w hlow hhigh

end Fits

/-- The generators neither divide by zero or compute a remainder by zero, nor leave `offloading_bool`,
    nor generate a value outside its bounds, for an accepted file, in whatever way doubles are rounded
    and whatever `rand()` returns, if and only if there is a memory type and each of them has nothing to
    generate or parameters that fit. -/
theorem generatorsSound_iff (fl : ℚ → ℚ) {double : List Char → Option (ℚ × List Char)} {c : Conf}
    (h : Accepted double c) : GeneratorsSound fl c ↔
      (c.tables.nMems ≠ 0 ∧ (c.gentask.nTasksTarget = 0 ∨ TasksFit fl c)) ∧
      (c.gennetwork.nNetworksTarget = 0 ∨ ∀ b ∈ c.gennetwork.bounds, Draws b.1 b.2) ∧
      (c.gennetcommander.nNetCommanderTarget = 0 ∨
        ∀ b ∈ c.gennetcommander.bounds, Draws b.1 b.2) := by
  obtain ⟨htask, hnet, hcom⟩ := h.inRange
  have htasks := sound_genTask_iff fl htask
  have hrow : ∀ {b₁ b₂ : ℕ × ℕ}, (∀ b ∈ [b₁, b₂], Draws b.1 b.2) ↔
      Draws b₁.1 b₁.2 ∧ Draws b₂.1 b₂.2 := by simp
  simp only [Gennetwork.bounds, Gennetcommander.bounds, List.forall_mem_cons, List.not_mem_nil,
    false_implies, implies_true, and_true] at hnet hcom
  have hnetworks := sound_genRows_iff (fun uplink downlink => ({ uplink, downlink } : Network))
    Network.uplink Network.downlink (fun _ _ => rfl) (fun _ _ => rfl) hnet.1.1 hnet.1.2 hnet.2.1
    hnet.2.2 c.gennetwork.nNetworksTarget
  have hcommanders := sound_genRows_iff
    (fun interceptOut interceptIn => ({ interceptOut, interceptIn } : NetCommander))
    NetCommander.interceptOut NetCommander.interceptIn (fun _ _ => rfl) (fun _ _ => rfl) hcom.1.1
    hcom.1.2 hcom.2.1 hcom.2.2 c.gennetcommander.nNetCommanderTarget
  rw [← workable_iff htask, ← htasks, Gennetwork.bounds, Gennetcommander.bounds, hrow, hrow,
    ← hnetworks, ← hcommanders]
  exact ⟨fun hs => ⟨hs.genTask, hs.genNetwork, hs.genNetCommander⟩, fun hs => ⟨hs.1, hs.2.1, hs.2.2⟩⟩

/-- Two tasks, one network and one network commander. -/
def fairFile : List Char :=
  ("*gentask\n10 20 1000 0.5 0.75 2 1 5 1 5 0 5\n\n*mem\ndram 1000 1 0.01 0.001\n" ++
    "\n*gennetwork\n10 20 10 30 1\n\n*gennetcommander\n1 9 0 9 1\n").toList

def fairConf : Conf where
  tables := { mems := [⟨"dram", 1000, 1, 1 / 100, 1 / 1000⟩] }
  gentask := ⟨10, 20, 1000, 1 / 2, 3 / 4, 2, 1, 5, 1, 5, 0, 5⟩
  gennetwork := ⟨10, 20, 10, 30, 1⟩
  gennetcommander := ⟨1, 9, 0, 9, 1⟩

theorem generatorsSound_fairConf : GeneratorsSound Binary64.nearest fairConf := by
  have haccepted : Accepted decimal fairConf := ⟨fairFile, 100, by decide +kernel⟩
  refine (generatorsSound_iff Binary64.nearest haccepted).mpr
    ⟨⟨by decide, .inr ?_⟩, .inr (by decide), .inr (by decide)⟩
  have hmem : memreqReal Binary64.nearest fairConf = some 500 := by decide +kernel
  have hshare : utilCpu1task Binary64.nearest fairConf = 1 / 4 := by decide +kernel
  have hexact : ∀ w ∈ List.range 21, Binary64.nearest (w / (1 / 4)) = 4 * w := by decide +kernel
  refine ⟨by decide, by decide, ⟨500, hmem, by norm_num, by norm_num⟩, fun w hlow hhigh => ?_⟩
  have hlow : 10 ≤ w := hlow
  have hhigh : w ≤ 20 := hhigh.trans (min_le_left _ _)
  have hreal : durationReal Binary64.nearest fairConf w = some (4 * w : ℚ) := by
    rw [durationReal, hshare, if_neg (by norm_num), hexact w (List.mem_range.mpr (by omega))]
  have hlow : (10 : ℚ) ≤ w := by exact_mod_cast hlow
  have hhigh : (w : ℚ) ≤ 20 := by exact_mod_cast hhigh
  exact ⟨_, hreal, by linarith, by linarith⟩

/-- The same parameters for 101 tasks: an index outside `offloading_bool`. -/
def crowdedConf : Conf := { fairConf with gentask := { fairConf.gentask with nTasksTarget := 101 } }

theorem generatorsSound_fails : (∃ content, parseConf decimal 100 { content } = some (.ok crowdedConf)) ∧
    genTask Binary64.nearest leastMachine crowdedConf [] = .error .memoryFault ∧
    ¬ GeneratorsSound Binary64.nearest crowdedConf := by
  have hfault : genOffloadingBool leastMachine 101 = .error .memoryFault :=
    genOffloadingBool_of_lt (by decide)
  have hrun : genTask Binary64.nearest leastMachine crowdedConf [] = .error .memoryFault :=
    (((Stops.lift hfault).bind _).bind _).eq
  refine ⟨⟨("*gentask\n10 20 1000 0.5 0.75 101 1 5 1 5 0 5\n\n*mem\ndram 1000 1 0.01 0.001\n" ++
    "\n*gennetwork\n10 20 10 30 1\n\n*gennetcommander\n1 9 0 9 1\n").toList, by decide +kernel⟩,
    hrun, fun hs => ?_⟩
  cases (hs.genTask leastMachine).reason [] (by simp) _ hrun

end MutualEdge.Gasgen
