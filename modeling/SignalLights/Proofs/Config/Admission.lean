import SignalLights.Proofs.Cadence.Numbers
import SignalLights.Proofs.Controller.Reachable

/-!
# Which periods are admitted

Two checks look at the period of a configuration: validation names it as a problem, and a cadence
clamps it. They are written apart, one for what is wrong and one for what is right, and agree on
every double, NaN included (`clamped_iff_period_rejected`). So what is wrong with a configuration
elsewhere changes nothing of its cadence.
-/

namespace SignalLights

namespace Cadence

/-- Of the finite periods those below the shortest one are refused, and all others that are not
finite. -/
theorem acceptsPeriod_eq_false_iff {period : Binary64} :
    acceptsPeriod period = false ↔ period.isFinite = false ∨ period < minPeriod := by
  cases hfin : period.isFinite with
  | false => simp [acceptsPeriod, hfin]
  | true =>
    have hnumber := Binary64.isNaN_eq_false_of_isFinite hfin
    rw [← Bool.not_eq_true, accepted_iff]
    constructor
    · intro hrefused
      right
      by_contra hlong
      exact hrefused ⟨hfin, Binary64.le_of_not_lt hnumber (by decide) hlong⟩
    · rintro (hinfinite | hshort) ⟨-, hlong⟩
      · cases hinfinite
      · exact Binary64.lt_irrefl _ (Binary64.lt_of_lt_of_le hshort hlong)

/-- A refused period is always replaced by another one. -/
theorem period_clamp_eq_iff (count : UInt32) (period : Binary64) :
    (clamp count period).period = period ↔ acceptsPeriod period := by
  rw [period_clamp]
  constructor
  · intro h
    by_contra hrefused
    rw [if_neg hrefused] at h
    exact hrefused (h ▸ acceptsPeriod_minPeriod)
  · intro h
    exact if_pos h

end Cadence

namespace Config

/-- The period comes first, so no other problem hides it. -/
theorem validate_eq_period_iff (c : Config) :
    c.validate = some .period ↔ Cadence.acceptsPeriod c.blinkPeriod = false := by
  rw [Cadence.acceptsPeriod_eq_false_iff, validate]
  split
  · next h => exact iff_of_true rfl h
  · next h =>
    refine iff_of_false ?_ h
    split
    · exact nofun
    · split <;> exact nofun

theorem accepts_iff (c : Config) :
    Cadence.acceptsPeriod c.blinkPeriod ↔ c.validate ≠ some .period := by
  rw [ne_eq, validate_eq_period_iff, Bool.not_eq_false]

end Config

namespace Controller

open Effect (notice)

/-- A write has notices of its own only. -/
theorem periodClamped_notMem_driveAll (on : Bool) (c : Controller) (p : Binary64) :
    notice (.periodClamped p) ∉ (driveAll on c).2 := by
  have hdrive (ch : Channel) (c : Controller) :
      notice (.periodClamped p) ∉ (drive ch on c).2 := by
    unfold drive onPort Latches.drive
    grind
  simp [driveAll, hdrive]

theorem periodClamped_notMem_setStatus (code : StatusCode) (c : Controller) (p : Binary64) :
    notice (.periodClamped p) ∉ (setStatus code c).2 := by
  unfold setStatus onPort Latches.display
  grind

theorem periodClamped_notMem_rejection (config : Config) (p : Binary64) :
    .periodClamped p ∉ rejection config := by
  unfold rejection
  grind

/-- Of clamping, construction reports what the cadence of the configuration has to report. -/
theorem periodClamped_mem_new_iff (config : Config) (hardware : Except Fault Equipment)
    (p : Binary64) :
    notice (.periodClamped p) ∈ (new config hardware).2 ↔
      .periodClamped p ∈ config.blinkNotices := by
  cases hardware <;>
    simp [new, build, periodClamped_notMem_driveAll, periodClamped_notMem_setStatus,
      periodClamped_notMem_rejection]

end Controller

namespace Config

/-- **Validation and clamping agree.** The period of a configuration is clamped, and the clamping
reported, exactly where validation names the period, and it is the shortest one then. In every
other case the cadence has the period bit for bit, and so have all three of the context; the count
is never altered. A controller built from the configuration starts with that context, and reports a
clamping in the same cases. -/
theorem clamped_iff_period_rejected (c : Config) (hardware : Except Fault Equipment) :
    (c.blink.period ≠ c.blinkPeriod ↔ c.validate = some .period) ∧
      c.blinkNotices =
        (if c.validate = some .period then [.periodClamped c.blinkPeriod] else []) ∧
      c.blink.count = c.blinkCount ∧
      c.blink.period = (if c.validate = some .period then minPeriod else c.blinkPeriod) ∧
      (Context.ofConfig c).base = c.blink ∧
      (Context.ofConfig c).selected = c.blink ∧
      (Context.ofConfig c).active = c.blink ∧
      (Controller.new c hardware).1.context = .ofConfig c ∧
      ∀ p, .notice (.periodClamped p) ∈ (Controller.new c hardware).2 ↔
        c.validate = some .period ∧ p = c.blinkPeriod := by
  have haccepts := c.accepts_iff
  have hnotices : c.blinkNotices =
      if c.validate = some .period then [.periodClamped c.blinkPeriod] else [] := by
    unfold blinkNotices Cadence.clampNotices
    grind
  refine ⟨?_, hnotices, Cadence.count_clamp _ _, ?_, rfl, rfl, rfl, ?_, ?_⟩
  · rw [← not_iff_not, not_not, ← ne_eq, ← haccepts]
    exact Cadence.period_clamp_eq_iff _ _
  · rw [blink, Cadence.period_clamp]
    grind
  · exact congrArg Prod.snd (Controller.core_build .onChange c hardware)
  · intro p
    rw [Controller.periodClamped_mem_new_iff, hnotices]
    split <;> simp [*]

end Config
end SignalLights
