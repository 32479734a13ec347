import SignalLights.Cadence
import SignalLights.Proofs.Binary64.Products

/-!
# The numbers of a cadence

The period of a cadence is finite and no shorter than the shortest one, so half of it is above zero
and a time can be divided by it. The length of a run is a number, though it may be infinite, and
never below zero.
-/

namespace SignalLights.Cadence

theorem accepted_iff {period : Binary64} :
    acceptsPeriod period ↔ period.isFinite ∧ minPeriod ≤ period := by
  rw [acceptsPeriod, Bool.and_eq_true, decide_eq_true_eq]

theorem isFinite_period (c : Cadence) : c.period.isFinite := (accepted_iff.1 c.accepted).1

theorem minPeriod_le_period (c : Cadence) : minPeriod ≤ c.period := (accepted_iff.1 c.accepted).2

theorem negative_period (c : Cadence) : c.period.negative = false := by
  have hzero : .zero < minPeriod :=
    Binary64.zero_lt_of_negative (by decide) (by decide) (by decide)
  exact Binary64.negative_of_lt (by decide) (Binary64.lt_of_lt_of_le hzero c.minPeriod_le_period)

theorem zero_lt_halfPeriod (c : Cadence) : .zero < c.halfPeriod := by
  have hshortest : Binary64.zero < minPeriod / .two := by decide +kernel
  exact Binary64.zero_lt_div_two (by decide) c.isFinite_period (by decide) c.negative_period
    c.minPeriod_le_period hshortest

theorem isNaN_total (c : Cadence) : c.total.isNaN = false :=
  Binary64.isNaN_mul (Binary64.isFinite_ofNat c.count.toNat_lt) c.isFinite_period

theorem negative_total (c : Cadence) : c.total.negative = false :=
  Binary64.negative_mul (Binary64.negative_ofRatio _ _ _) c.negative_period

theorem zero_le_total (c : Cadence) : .zero ≤ c.total :=
  Binary64.zero_le_of_negative c.isNaN_total c.negative_total

theorem total_le_total_add_tolerance (c : Cadence) : c.total ≤ c.total + tolerance :=
  Binary64.le_add c.isNaN_total (by decide) (by decide)

/-- The length of a run and the tolerance are never below zero. -/
theorem not_total_add_tolerance_lt_zero (c : Cadence) : ¬ c.total + tolerance < .zero :=
  Binary64.not_lt_zero (Binary64.negative_add c.negative_total (by decide))

end SignalLights.Cadence
