import Mathlib.Tactic.NormNum
import SignalLights.Proofs.Binary64.Values
import SignalLights.Proofs.Cadence.Phases

/-!
# Values of cadences

The value of half a period is half of the value of the period, and no period is below a thousandth.
The tolerance is a billionth up to 10⁻²⁰.
-/

namespace SignalLights.Cadence

open Binary64 (unitsPerOne)

variable (c : Cadence)

theorem value_halfPeriod : c.halfPeriod.value = c.period.value / 2 := by
  have hsign := (Binary64.negative_and_isZero_of_zero_lt c.zero_lt_halfPeriod).1
  rw [Binary64.value_of_negative hsign, Binary64.value_of_negative c.negative_period,
    ← c.two_mul_units_halfPeriod, Nat.cast_mul, mul_div_assoc, Nat.cast_ofNat,
    mul_div_cancel_left₀ _ two_ne_zero]

/-- The shortest period is rounded up from a thousandth. -/
theorem le_value_minPeriod : 1 / 1000 ≤ minPeriod.value := by
  have hunits : (unitsPerOne : Int) ≤ 1000 * minPeriod.toInt := by decide +kernel
  have hunits' : (unitsPerOne : ℚ) ≤ 1000 * minPeriod.toInt := by exact_mod_cast hunits
  rw [Binary64.value, div_le_div_iff₀ (by norm_num) Binary64.cast_unitsPerOne_pos]
  linarith

theorem le_value_period : 1 / 1000 ≤ c.period.value := by
  have hnumber := Binary64.isNaN_eq_false_of_isFinite c.isFinite_period
  have hperiod := (Binary64.le_iff_value (by decide) hnumber).1 c.minPeriod_le_period
  exact le_value_minPeriod.trans hperiod

theorem value_tolerance_bounds :
    1 / 10 ^ 9 ≤ tolerance.value ∧ tolerance.value ≤ 1 / 10 ^ 9 + 1 / 10 ^ 20 := by
  have hlow : (unitsPerOne : Int) ≤ 10 ^ 9 * tolerance.toInt := by decide +kernel
  have hhigh : 10 ^ 20 * tolerance.toInt ≤ (10 ^ 11 + 1) * (unitsPerOne : Int) := by decide +kernel
  have hlow' : (unitsPerOne : ℚ) ≤ 10 ^ 9 * tolerance.toInt := by exact_mod_cast hlow
  have hhigh' : (10 ^ 20 * tolerance.toInt : ℚ) ≤ (10 ^ 11 + 1) * unitsPerOne := by
    exact_mod_cast hhigh
  rw [Binary64.value]
  constructor
  · rw [le_div_iff₀ Binary64.cast_unitsPerOne_pos]
    linarith
  · rw [div_le_iff₀ Binary64.cast_unitsPerOne_pos]
    linarith

end SignalLights.Cadence
