import MutualEdge.Loading

/-! The order of the sections in a configuration file.

    Sections of different kinds fill different tables, and only a task section looks at another table,
    whether it is empty. So they can be moved past each other, as long as no task section comes to
    stand in front of all frequencies. -/

namespace MutualEdge
open Checks Tabulate

/-- What `check_section` has said of the header; the sections passed over are of one kind here. -/
def Section.kind : Section → SectionT
  | .genetic _ => .genetic
  | .cpufreq _ => .cpufreq
  | .mem _ => .mem
  | .task _ => .task
  | .offloadingratio _ => .offloadingratio
  | .cloud _ => .cloud
  | .network _ => .network
  | .netCommander _ => .netCommander
  | .skipped => .gentask
  | .unknown _ => .unknown

/-- The sections of each kind are the same, in the same order. -/
def Reordered (ss ss' : List Section) : Prop :=
  ∀ k, ss.filter (·.kind = k) = ss'.filter (·.kind = k)

section Reordered
variable {ss ss' : List Section}

theorem Reordered.mem_iff (h : Reordered ss ss') {s : Section} : s ∈ ss ↔ s ∈ ss' := by
  have hmem : ∀ l : List Section, s ∈ l ↔ s ∈ l.filter (·.kind = s.kind) := fun l => by simp
  rw [hmem ss, h, ← hmem ss']

/-- A table has its rows from the sections of one kind. -/
theorem foldl_add_filter {α : Type} {table : FileRows → List α} {k : SectionT}
    (hother : ∀ r s, s.kind ≠ k → table (r.add s) = table r)
    (hown : ∀ r r' s, table r = table r' → table (r.add s) = table (r'.add s)) {r r' : FileRows}
    (h : table r = table r') : table (ss.foldl FileRows.add r) =
      table ((ss.filter (·.kind = k)).foldl FileRows.add r') := by
  induction ss generalizing r r' with
  | nil => exact h
  | cons s ss ih =>
    rw [List.foldl_cons]
    by_cases hk : s.kind = k
    · rw [List.filter_cons_of_pos (by simpa using hk), List.foldl_cons]
      exact ih (hown r r' s h)
    · rw [List.filter_cons_of_neg (by simpa using hk)]
      exact ih ((hother r s hk).trans h)

/-- So all tables have the same rows. -/
theorem Reordered.fileRows_eq (h : Reordered ss ss') : fileRows ss = fileRows ss' := by
  have htable : ∀ {α : Type} {table : FileRows → List α} {k : SectionT},
      (∀ r s, s.kind ≠ k → table (r.add s) = table r) →
      (∀ r r' s, table r = table r' → table (r.add s) = table (r'.add s)) →
      table (fileRows ss) = table (fileRows ss') := by
    intro α table k hother hown
    rw [fileRows, fileRows, foldl_add_filter hother hown rfl, h k, ← foldl_add_filter hother hown rfl]
  have hgenetic := @htable _ FileRows.genetic .genetic
  have hcpufreqs := @htable _ FileRows.cpufreqs .cpufreq
  have hmems := @htable _ FileRows.mems .mem
  have htasks := @htable _ FileRows.tasks .task
  have hratios := @htable _ FileRows.offloadingratios .offloadingratio
  have hclouds := @htable _ FileRows.clouds .cloud
  have hnetworks := @htable _ FileRows.networks .network
  have hcommanders := @htable _ FileRows.netCommanders .netCommander
  refine FileRows.ext (hgenetic ?_ ?_) (hcpufreqs ?_ ?_) (hmems ?_ ?_) (htasks ?_ ?_) (hratios ?_ ?_)
    (hclouds ?_ ?_) (hnetworks ?_ ?_) (hcommanders ?_ ?_)
  all_goals
    intros
    rename_i s h
    cases s <;> first | rfl | exact h | exact absurd rfl h | exact congrArg (· ++ _) h

/-- Sections of a file that is loaded can be put into any order in which those of one kind keep theirs:
    the same configuration is loaded, unless a task section now stands in front of all frequencies. -/
theorem parseConf_reordered {cfg : Config} (h : Reordered ss ss') (hok : parseConf ss = .ok cfg) :
    parseConf ss' = .ok cfg ↔ TasksBehind ss' := by
  obtain ⟨hknown, -, hrows⟩ := parseConf_ok_iff.mp hok
  rw [parseConf_ok_iff]
  constructor
  · exact fun hloads => hloads.behind
  · intro hbehind
    refine ⟨fun text hmem => hknown text (h.mem_iff.mpr hmem), hbehind, ?_⟩
    rwa [← h.fileRows_eq]

end Reordered

theorem parseConf_reordered_mem :
    parseConf [.mem [⟨"dram 8 1 0 0", some ⟨"dram", 8, 1, 0, 0⟩⟩], .cpufreq [⟨"1 2 1", some ⟨1, 2, 1⟩⟩],
      .task [⟨"1 2 4 0.1 0 0 0 0", some ⟨0, 1, 2, 4, 1 / 10, 0, 0, 0, 0⟩⟩]] =
      .ok { cpufreqs := [⟨1, 2, 1⟩], mems := [⟨"dram", 8, 1, 0, 0⟩],
            tasks := [⟨1, 1, 2, 4, 1 / 10, 0, 0, 0, 0⟩] } := by
  refine (@parseConf_reordered [.cpufreq [⟨"1 2 1", some ⟨1, 2, 1⟩⟩],
      .task [⟨"1 2 4 0.1 0 0 0 0", some ⟨0, 1, 2, 4, 1 / 10, 0, 0, 0, 0⟩⟩],
      .mem [⟨"dram 8 1 0 0", some ⟨"dram", 8, 1, 0, 0⟩⟩]] _ _ (fun k => by cases k <;> rfl)
    (by decide +kernel)).mpr ?_
  -- the task section is the third one
  rintro (_ | ⟨_, _ | ⟨_, _ | ⟨_, before⟩⟩⟩) lines after heq
  · cases heq
  · cases heq
  · obtain ⟨rfl, rfl, -⟩ : _ = _ ∧ _ = _ ∧ _ := by simpa using heq
    exact List.cons_ne_nil _ _
  · simp at heq

end MutualEdge
