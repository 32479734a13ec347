import SignalLights.Proofs.Cadence.Numbers
import SignalLights.Proofs.Controller.Reachable

/-!
# The numbers of a controller

Timestamps and periods reach a controller as any doubles, NaN and the infinities among them. None
of them spoils the numbers it goes by: the moment a mode was entered stays finite, so the time spent
in a mode is a number, and every cadence it holds has a half period to divide by and a length to
compare with (`numbers_history`).
-/

namespace SignalLights

section Tick

variable (m : Machine) (c : Context) (now : Binary64)

/-- Neither a row nor an entry changes the time that a tick counted. -/
theorem Machine.elapsed_tick :
    (m.tick Row.standard c now).context.elapsed = m.timeOf now - m.since := by
  have hupdate : ((Row.standard m.mode).update (m.begin c now)).context.elapsed =
      m.timeOf now - m.since := by
    rw [Row.update_standard]
    split <;> rfl
  have henter (k : Mode) (d : Context) : (enter (Row.standard k) d).elapsed = d.elapsed := by
    cases k <;> rfl
  simp only [tick, Row.mode_standard]
  split
  · exact hupdate
  · exact (henter _ _).trans hupdate

end Tick

/-- From a finite entry on, an operation leaves a time spent in the mode that is a number. -/
theorem Operation.isNaN_elapsed_advance (op : Operation) {core : Machine × Context}
    (hsince : core.1.since.isFinite) (h : core.2.elapsed.isNaN = false) :
    (op.advance core).2.elapsed.isNaN = false := by
  obtain ⟨m, c⟩ := core
  unfold advance
  cases op.plain with
  | loop now =>
    change (m.tick Row.standard c now).context.elapsed.isNaN = false
    rw [m.elapsed_tick c now, Binary64.sub_eq_add_neg]
    exact Binary64.isNaN_add (Machine.isFinite_timeOf hsince now) (by simpa using hsince)
  | want w => cases w <;> exact h
  | _ => exact h

namespace Controller

variable {c : Controller}

theorem Reachable.isNaN_elapsed (hc : c.Reachable) : c.context.elapsed.isNaN = false := by
  refine (hc.holds
    (P := fun d => d.core.1.since.isFinite ∧ d.core.2.elapsed.isNaN = false) ?_ ?_).2
  · intro config hardware
    rw [new, core_build]
    exact ⟨(by decide : Machine.initial.since.isFinite), rfl⟩
  · rintro op d ⟨hsince, helapsed⟩
    rw [core_step_eq]
    split
    · exact ⟨op.isFinite_since_advance hsince, op.isNaN_elapsed_advance hsince helapsed⟩
    · exact ⟨hsince, helapsed⟩

/-- **No value spoils the numbers.** Whatever the configuration, and whatever times and periods the
operations bring, the moment the mode was entered is finite and the time spent in it is a number.
Each cadence has a finite period, not below the shortest one, a half period above zero, and a length
that is a number from zero up. -/
theorem numbers_history (config : Config) (hardware : Except Fault Equipment)
    (ops : List Operation) :
    let c := (history config hardware ops).1
    c.machine.since.isFinite ∧ c.context.elapsed.isNaN = false ∧
      ∀ cadence ∈ [c.context.base, c.selectedCadence, c.activeCadence],
        cadence.period.isFinite ∧ minPeriod ≤ cadence.period ∧ .zero < cadence.halfPeriod ∧
          cadence.total.isNaN = false ∧ .zero ≤ cadence.total := by
  intro c
  have hc : c.Reachable := ⟨config, hardware, ops, rfl⟩
  refine ⟨hc.isFinite_since, hc.isNaN_elapsed, ?_⟩
  intro cadence _
  exact ⟨cadence.isFinite_period, cadence.minPeriod_le_period, cadence.zero_lt_halfPeriod,
    cadence.isNaN_total, cadence.zero_le_total⟩

end Controller
end SignalLights
