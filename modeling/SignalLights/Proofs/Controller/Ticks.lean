import SignalLights.Proofs.Cadence.Numbers
import SignalLights.Proofs.Controller.BlinkRun

/-!
# Ticks at one time

When a tick is overdue, every later finite one is. A tick at infinity never is, since a machine
counts no time for it. One time may come several times over, once for every slot of a controller:
a run that survives the first tick survives them all, and a run that does not stays off.
-/

namespace SignalLights

namespace Controller

variable {c : Controller} {now : Binary64}

theorem not_isOverdue_infinity (c : Controller) : ¬ c.IsOverdue .infinity := by
  rw [IsOverdue, Machine.elapsedAt, if_neg (by decide)]
  exact c.activeCadence.not_total_add_tolerance_lt_zero

theorem isOverdue_iff_of_isFinite (h : now.isFinite) :
    c.IsOverdue now ↔ c.activeCadence.total + tolerance < now - c.machine.since := by
  rw [IsOverdue, Machine.elapsedAt, if_pos h]

theorem Reachable.isOverdue_of_le (hc : c.Reachable) {later : Binary64} (hnow : now.isFinite)
    (hlater : later.isFinite) (hle : now ≤ later) (h : c.IsOverdue now) : c.IsOverdue later := by
  rw [isOverdue_iff_of_isFinite hnow] at h
  rw [isOverdue_iff_of_isFinite hlater]
  exact Binary64.lt_of_lt_of_le h (Binary64.sub_le_sub_right hnow hlater hc.isFinite_since hle)

/-- Off without a request lasts through any tick. -/
theorem loop_off (hm : c.mode = .off) (hw : c.wanted = .off) (now : Binary64) :
    (loop now c).1.mode = .off ∧ (loop now c).1.wanted = .off := by
  cases hi : c.isInitialized with
  | false =>
    rw [loop_inert now hi]
    exact ⟨hm, hw⟩
  | true =>
    have hlasts : c.machine.isOver c.context now = false :=
      Machine.isOver_of_not_blinks (congrArg Mode.blinks hm)
    have hlasting := loop_lasting hi hlasts
    rwa [hm, hw] at hlasting

theorem run_loops_off (hm : c.mode = .off) (hw : c.wanted = .off) (n : Nat) (now : Binary64) :
    (Controller.run (.replicate n (.loop now)) c).1.mode = .off := by
  induction n generalizing c with
  | zero => exact hm
  | succ n ih =>
    obtain ⟨hm', hw'⟩ := loop_off hm hw now
    exact ih hm' hw'

/-- However often one tick calls a controller, its run goes on just when the tick is not overdue. -/
theorem Reachable.run_loops (hc : c.Reachable) (hi : c.isInitialized) (hm : c.mode = .blinking)
    (n : Nat) (now : Binary64) :
    (¬ c.IsOverdue now → c.SameRun (Controller.run (.replicate n (.loop now)) c).1) ∧
    (c.IsOverdue now → 0 < n → (Controller.run (.replicate n (.loop now)) c).1.mode = .off) := by
  refine ⟨fun h => ?_, fun h hn => ?_⟩
  · refine hc.sameRun_run hi hm ?_ ?_
    · intro op hop
      rw [List.eq_of_mem_replicate hop]
      rfl
    · intro now' hmem
      cases List.eq_of_mem_replicate hmem
      exact h
  · cases n with
    | zero => exact absurd hn (Nat.lt_irrefl 0)
    | succ n =>
      obtain ⟨hoff, hw, -⟩ := hc.loop_overdue hi hm h
      exact run_loops_off hoff hw n now

end Controller
end SignalLights
