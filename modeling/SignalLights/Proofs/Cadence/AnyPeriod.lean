import SignalLights.Cadence
import SignalLights.Proofs.Binary64.Products

/-!
# Periods of all kinds

The half periods gone by do not decrease with time, and this takes nothing of the period
(`cycleIndex_le_of_le`). Where half of it is a finite number above zero, every operation on the way
from the time to the count keeps the order. Any other half leaves little to count: by zero all
half periods are gone at once, and by what is left none is ever gone.
-/

namespace SignalLights

variable {elapsed later period : Binary64}

theorem cycleIndex_of_zero_lt (h : .zero < elapsed) (period : Binary64) :
    cycleIndex elapsed period = (elapsed / (period / .two) + tolerance).floorWord := by
  have hlate : ¬ (elapsed.isNaN ∨ elapsed ≤ .zero) := by
    rintro (hnan | hzero)
    · rw [(Binary64.lt_iff.1 h).2.1] at hnan
      cases hnan
    · exact Binary64.lt_irrefl _ (Binary64.lt_of_lt_of_le h hzero)
  exact if_neg hlate

theorem cycleIndex_of_not_zero_lt (h : ¬ .zero < elapsed) (period : Binary64) :
    cycleIndex elapsed period = 0 := by
  refine if_pos ?_
  cases hnumber : elapsed.isNaN with
  | true => exact .inl rfl
  | false => exact .inr (Binary64.le_of_not_lt (by decide) hnumber h)

theorem cycleIndex_mono_of_zero_lt (hfin : (period / .two).isFinite)
    (hpos : .zero < period / .two) (hearly : .zero < elapsed) (h : elapsed ≤ later) :
    cycleIndex elapsed period ≤ cycleIndex later period := by
  obtain ⟨hsign, -⟩ := Binary64.negative_and_isZero_of_zero_lt hearly
  have hquotient : elapsed / (period / .two) ≤ later / (period / .two) :=
    Binary64.div_le_div_right h hearly hfin hpos
  have hnonneg := (Binary64.negative_div hsign (Binary64.lt_iff.1 hearly).2.1 hfin hpos).1
  rw [cycleIndex_of_zero_lt hearly, cycleIndex_of_zero_lt (Binary64.lt_of_lt_of_le hearly h)]
  exact Binary64.floorWord_mono
    (Binary64.add_le_add_right hquotient hnonneg (by decide) (by decide))

theorem units_tolerance_le : Binary64.units tolerance.magnitude ≤ 2 ^ (993 + 52) :=
  Binary64.units_le_two_pow (by decide)

theorem floorWord_tolerance : tolerance.floorWord = 0 := by
  have hsign : tolerance.negative = false := by decide
  have hone : Binary64.units tolerance.magnitude < Binary64.unitsPerOne := by
    refine units_tolerance_le.trans_lt ?_
    rw [Binary64.unitsPerOne_eq]
    apply Nat.pow_lt_pow_right <;> decide
  rw [Binary64.floorWord_eq (by decide), Binary64.toInt_eq_units hsign, Int.toNat_natCast,
    Nat.div_eq_of_lt hone]
  rfl

/-- The tolerance does not lift to one what is not above zero. -/
theorem floorWord_add_tolerance_of_not_zero_lt {q : Binary64} (h : ¬ .zero < q) :
    (q + tolerance).floorWord = 0 := by
  rcases q.isFinite_or_eq_infinity with hfin | hnan | rfl | rfl
  · have hle : q ≤ .zero :=
      Binary64.le_of_not_lt (by decide) (Binary64.isNaN_eq_false_of_isFinite hfin) h
    have hsum : q + tolerance ≤ tolerance :=
      Binary64.add_le_of_le_zero hfin (by decide) hle
    exact Nat.le_zero.1 (floorWord_tolerance ▸ Binary64.floorWord_mono hsum)
  · have hsum : q + tolerance = .nan := by
      change Binary64.add q tolerance = _
      simp [Binary64.add, hnan]
    rw [hsum]
    rfl
  · exact absurd (Binary64.lt_infinity (by decide)) h
  · rw [Binary64.add_of_isInfinite (x := .negInfinity) (by decide) (by decide)]
    rfl

/-- With nothing for half of a period all half periods are gone at once. -/
theorem cycleIndex_of_half_eq_zero (hhalf : period / .two = .zero) (h : .zero < elapsed) :
    cycleIndex elapsed period = 0xffffffffffffffff := by
  rw [cycleIndex_of_zero_lt h, hhalf, Binary64.div_zero_of_zero_lt h,
    Binary64.add_of_isInfinite (x := .infinity) (by decide) (by decide)]
  exact Binary64.floorWord_infinity

/-- A period without a number for its half, or with one that is infinite or has a sign, is never
half over. -/
theorem cycleIndex_eq_zero
    (hhalf : (period / .two).isNaN ∨ (period / .two).isInfinite ∨ (period / .two).negative)
    (elapsed : Binary64) : cycleIndex elapsed period = 0 := by
  by_cases h : .zero < elapsed
  · rw [cycleIndex_of_zero_lt h]
    exact floorWord_add_tolerance_of_not_zero_lt (Binary64.not_zero_lt_div h hhalf)
  · exact cycleIndex_of_not_zero_lt h period

/-- **Half periods add up.** For any period at all, and also from and to the infinities, a later time
has no fewer half periods gone by. -/
theorem cycleIndex_le_of_le (period : Binary64) (h : elapsed ≤ later) :
    cycleIndex elapsed period ≤ cycleIndex later period := by
  by_cases hearly : .zero < elapsed
  · rcases (period / .two).divisor_cases with ⟨hfin, hpos⟩ | hzero | hnever
    · exact cycleIndex_mono_of_zero_lt hfin hpos hearly h
    · rw [cycleIndex_of_half_eq_zero hzero hearly,
        cycleIndex_of_half_eq_zero hzero (Binary64.lt_of_lt_of_le hearly h)]
    · rw [cycleIndex_eq_zero hnever, cycleIndex_eq_zero hnever]
  · rw [cycleIndex_of_not_zero_lt hearly]
    exact Nat.zero_le _

/-- From the end of the first cycle on, forever. -/
theorem cycleIndex_le_of_le_infinity :
    Cadence.standardPeriod ≤ .infinity ∧ cycleIndex Cadence.standardPeriod Cadence.standardPeriod = 2 ∧
      cycleIndex Cadence.standardPeriod Cadence.standardPeriod ≤
        cycleIndex .infinity Cadence.standardPeriod := by
  have h : Cadence.standardPeriod ≤ .infinity := Binary64.le_infinity (by decide)
  exact ⟨h, by decide +kernel, cycleIndex_le_of_le Cadence.standardPeriod h⟩

end SignalLights
