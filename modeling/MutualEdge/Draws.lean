import MutualEdge.GaInvariant
import MutualEdge.Lib.Outcome

/-! What the random draws of a run can be made to give: any value below the bound of a draw, and so any
    memory types, levels and clouds for a fresh gene. -/

namespace MutualEdge
open Choice

/-- A result of `rand()` below `maxValue` is the value drawn. -/
theorem getRand_reads {maxValue v : ℕ} (h : v < maxValue) : Reads (getRand maxValue) [v] v := by
  refine (Reads.next _ v).bind_nil (Reads.lift ?_)
  rw [getRandOf_of_pos (Nat.zero_lt_of_lt h), Nat.mod_eq_of_lt h]

/-- A draw below zero is a remainder by zero. -/
theorem getRand_stops (r : ℕ) : Stops (getRand 0) [r] .sigfpe :=
  (Reads.next _ r).bind_stops_nil (Stops.lift rfl)

/-- A draw fails for want of a result of `rand()` or by a remainder by zero. -/
theorem fails_getRand {E : Halt → Prop} (hs : E .starved) {maxValue : ℕ}
    (hz : maxValue = 0 → E .sigfpe) : Fails (getRand maxValue) E := by
  refine (Fails.next hs).bind fun r _ => Fails.lift fun e h => ?_
  rw [getRandOf] at h
  split at h
  · rename_i h0
    rw [← Except.error.inj h]
    exact hz h0
  · cases h

theorem within_replicate {n bound v : ℕ} (h : v < bound) : Within n bound (List.replicate n v) := by
  refine ⟨by simp, ?_⟩
  intro a ha
  rwa [List.eq_of_mem_replicate ha]

theorem drawAttrs_reads {maxValue n : ℕ} {l : List ℕ} (h : Within n maxValue l) :
    Reads (drawAttrs maxValue n) l l := by
  induction l generalizing n with
  | nil =>
    obtain rfl : n = 0 := h.length.symm
    exact Reads.pure []
  | cons a l ih =>
    obtain ⟨n, rfl⟩ : ∃ m, n = m + 1 := ⟨l.length, h.length.symm⟩
    have htail : Within n maxValue l :=
      ⟨Nat.succ.inj h.length, fun b hb => h.lt b (List.mem_cons_of_mem _ hb)⟩
    exact (getRand_reads (h.lt a List.mem_cons_self)).bind
      ((ih htail).bind_nil (Reads.pure (a :: l)))

theorem assignTaskattrs_reads {n maxValue : ℕ} {l : List ℕ} (h : Within n maxValue l)
    (t : Taskattrs) :
    Reads (assignTaskattrs n maxValue t) l (setupTaskattrs { t with attrs := l }) :=
  (drawAttrs_reads h).bind_nil (Reads.pure _)

/-- A fresh gene can be given any attributes within the tables. -/
theorem assignGene_reads {cfg : Config} {lm lf lc : List ℕ} (hm : Within cfg.nTasks cfg.nMems lm)
    (hf : Within cfg.nTasks cfg.nCpufreqs lf) (hc : Within cfg.nTasks cfg.nClouds lc) (g : Gene) :
    ∃ g', Reads (assignGene cfg g) (lm ++ (lf ++ lc)) g' ∧ g'.taskattrsMem.attrs = lm ∧
      g'.taskattrsCpufreq.attrs = lf ∧ g'.taskattrsCloud.attrs = lc := by
  have hread : Reads (assignGene cfg g) (lm ++ (lf ++ lc)) _ :=
    (assignTaskattrs_reads hm g.taskattrsMem).bind
      ((assignTaskattrs_reads hf g.taskattrsCpufreq).bind
        ((assignTaskattrs_reads hc g.taskattrsCloud).bind_nil (Reads.pure _)))
  exact ⟨_, hread, by simp, by simp, by simp⟩

/-- A crossover point lies within the tasks. -/
theorem drawCrosspt_le {cfg : Config} (hn : 1 ≤ cfg.nTasks) {k : ℕ} (h : Returns (drawCrosspt cfg) k) :
    k ≤ cfg.nTasks := by
  obtain ⟨r, hr, h⟩ := h.bind
  obtain rfl := returns_pure.mp h
  have hlt := getRand_lt hr
  unfold u32 at hlt
  omega

theorem drawCrosspt_reads {cfg : Config} {k : ℕ} (h : Returns (drawCrosspt cfg) k) :
    ∃ ds, Reads (drawCrosspt cfg) ds k := by
  obtain ⟨r, hr, h⟩ := h.bind
  obtain rfl := returns_pure.mp h
  exact ⟨[r], (getRand_reads (getRand_lt hr)).bind_nil (Reads.pure _)⟩

end MutualEdge
