import SignalLights.Proofs.Cadence.Values

/-!
# How exact the square wave is

The half periods gone by are the whole part of a quotient, which is rounded, and lifted by the
tolerance, and rounded again. Up to 2²⁰ half periods the two roundings together are smaller than
half of the tolerance (`exists_floor_eq_cycleIndex`). So a time is told apart from a boundary by
which it is early by twice the tolerance, and counts as past one that it misses by less than half
of the tolerance, as it does where time and period are decimals (`cycleIndex_near_exact`).
-/

namespace SignalLights

/-- The exact number of half periods in a time. -/
def halfPeriods (elapsed period : Binary64) : ℚ := 2 * elapsed.value / period.value

namespace Cadence

open Binary64 (unitsPerOne)

variable (c : Cadence) {elapsed : Binary64}

theorem halfPeriods_nonneg (hnumber : elapsed.isNaN = false) (h : .zero ≤ elapsed) :
    0 ≤ halfPeriods elapsed c.period := by
  have helapsed := (Binary64.le_iff_value (by decide) hnumber).1 h
  have hperiod := Binary64.value_nonneg c.negative_period
  rw [Binary64.value_zero] at helapsed
  unfold halfPeriods
  positivity

/-! ## Rounding twice -/

/-- The quotient is the double nearest to the exact number. -/
theorem div_halfPeriod_eq (hfin : elapsed.isFinite) (hsign : elapsed.negative = false) :
    elapsed / c.halfPeriod = .ofRat (halfPeriods elapsed c.period) := by
  rw [Binary64.div_eq_ofRat hfin hsign c.isFinite_halfPeriod c.zero_lt_halfPeriod,
    c.value_halfPeriod, halfPeriods, div_div_eq_mul_div, mul_comm 2]

/-- The quotient and the sum with the tolerance are both rounded, each by no more than 2⁻³². -/
theorem exists_floor_eq_floorWord {q : ℚ} (h : 0 ≤ q) (hq : q ≤ 2 ^ 20) :
    ∃ lifted : ℚ, q + 5 / 10 ^ 10 < lifted ∧ lifted < q + 2 / 10 ^ 9 ∧
      (Binary64.ofRat q + tolerance).floorWord = ⌊lifted⌋₊ := by
  have hquotient := abs_le.1 (Binary64.abs_value_ofRat_sub_le h (by linarith))
  have hsign := Binary64.negative_ofRat h
  have hfin : (Binary64.ofRat q).isFinite := Binary64.isFinite_of_value_lt hsign (by linarith)
  obtain ⟨htolerance, htolerance'⟩ := value_tolerance_bounds
  rw [Binary64.add_eq_ofRat hfin hsign (by decide) (by decide)]
  have hexact : 0 ≤ (Binary64.ofRat q).value + tolerance.value :=
    add_nonneg (Binary64.value_nonneg hsign) (Binary64.value_nonneg (by decide))
  have hsum := abs_le.1 (Binary64.abs_value_ofRat_sub_le hexact (by linarith))
  refine ⟨_, ?_, ?_, Binary64.floorWord_eq_floor (Binary64.isNaN_ofRat _)
    (Binary64.negative_ofRat hexact) ?_⟩ <;> linarith

/-- What is counted is the exact number lifted by between half of the tolerance and twice of it. -/
theorem exists_floor_eq_cycleIndex (hfin : elapsed.isFinite) (h : .zero ≤ elapsed)
    (hq : halfPeriods elapsed c.period ≤ 2 ^ 20) :
    ∃ lifted : ℚ, halfPeriods elapsed c.period + 5 / 10 ^ 10 < lifted ∧
      lifted < halfPeriods elapsed c.period + 2 / 10 ^ 9 ∧
      cycleIndex elapsed c.period = ⌊lifted⌋₊ := by
  have hnumber := Binary64.isNaN_eq_false_of_isFinite hfin
  by_cases hzero : elapsed ≤ .zero
  · have hvalue : elapsed.value = 0 := by
      have hup := (Binary64.le_iff_value hnumber (by decide)).1 hzero
      have hdown := (Binary64.le_iff_value (by decide) hnumber).1 h
      rw [Binary64.value_zero] at hup hdown
      exact le_antisymm hup hdown
    have hnone : halfPeriods elapsed c.period = 0 := by
      rw [halfPeriods, hvalue, mul_zero, zero_div]
    rw [hnone, cycleIndex, if_pos (.inr hzero)]
    refine ⟨1 / 10 ^ 9, by norm_num, by norm_num, ?_⟩
    exact (Nat.floor_eq_zero.2 (by norm_num)).symm
  · have hpos := Binary64.lt_of_not_le hnumber (by decide) hzero
    have hsign := (Binary64.negative_and_isZero_of_zero_lt hpos).1
    rw [c.cycleIndex_of_pos hpos, c.div_halfPeriod_eq hfin hsign]
    exact exists_floor_eq_floorWord (c.halfPeriods_nonneg hnumber h) hq

/-! ## Decimals -/

/-- One unit is nothing beside a period. -/
theorem one_unit_le : 1 / unitsPerOne ≤ c.period.value / 10 ^ 27 := by
  have hsmall : (1 / unitsPerOne : ℚ) ≤ 1 / 10 ^ 30 := by
    have hunits : 10 ^ 30 ≤ unitsPerOne := by
      rw [Binary64.unitsPerOne_eq]
      calc 10 ^ 30 ≤ 2 ^ 100 := by decide
        _ ≤ 2 ^ 1074 := pow_le_pow_right₀ one_le_two (by decide)
    apply one_div_le_one_div_of_le (by norm_num)
    exact_mod_cast hunits
  linarith [c.le_value_period]

/-- A time `t` and a period `p` are off by one part in 2⁵² and one unit each, and so is their
quotient by little more than two parts. -/
theorem abs_sub_le_of_rounded {T P t p q unit : ℚ} {k : ℕ} (hk : 2 * T = k * P) (hp : 0 < p)
    (hquotient : q * p = 2 * t) (hq : q ≤ 2 ^ 20) (hunit : unit ≤ p / 10 ^ 27)
    (htimeUp : 2 ^ 52 * t ≤ (2 ^ 52 + 1) * T + 2 ^ 52 * unit)
    (htimeDown : 2 ^ 52 * T ≤ (2 ^ 52 + 1) * t + 2 ^ 52 * unit)
    (hperiodUp : 2 ^ 52 * p ≤ (2 ^ 52 + 1) * P + 2 ^ 52 * unit)
    (hperiodDown : 2 ^ 52 * P ≤ (2 ^ 52 + 1) * p + 2 ^ 52 * unit) :
    |q - k| ≤ 5 / 10 ^ 10 := by
  have hcount : (0 : ℚ) ≤ k := Nat.cast_nonneg k
  have hunits := mul_le_mul_of_nonneg_left hunit hcount
  have hbelow : 2 ^ 104 * k ≤
      (2 ^ 52 + 1) ^ 2 * q + ((2 ^ 52 + 1) * 2 ^ 53 + 2 ^ 104 * k) / 10 ^ 27 := by
    have hscale := mul_le_mul_of_nonneg_left hperiodUp hcount
    apply le_of_mul_le_mul_right _ hp
    linarith
  have habove : 2 ^ 104 * q ≤
      (2 ^ 52 + 1) ^ 2 * k + ((2 ^ 52 + 1) * 2 ^ 52 * k + 2 ^ 105) / 10 ^ 27 := by
    have hscale := mul_le_mul_of_nonneg_left hperiodDown hcount
    apply le_of_mul_le_mul_right _ hp
    linarith
  rw [abs_le]
  constructor <;> linarith

/-- Where time and period are rounded from a whole number of half periods, so much is lost. -/
theorem abs_halfPeriods_sub_le {T P : ℚ} {k : ℕ} (helapsed : elapsed = .ofRat T)
    (hperiod : c.period = .ofRat P) (hk : 2 * T = k * P) (hfin : elapsed.isFinite)
    (hq : halfPeriods elapsed c.period ≤ 2 ^ 20) :
    |halfPeriods elapsed c.period - k| ≤ 5 / 10 ^ 10 := by
  have hP : 0 ≤ P := by
    by_contra hneg
    have hsign := c.negative_period
    rw [hperiod, Binary64.ofRat, Binary64.negative_ofRatio] at hsign
    exact of_decide_eq_false hsign (not_le.1 hneg)
  have hT : 0 ≤ T := by
    have hproduct := mul_nonneg (Nat.cast_nonneg k : (0 : ℚ) ≤ k) hP
    linarith
  have hpos : 0 < c.period.value := lt_of_lt_of_le (by norm_num) c.le_value_period
  have htimeUp := Binary64.value_ofRat_le hT
  have htimeDown := Binary64.le_value_ofRat hT (helapsed ▸ hfin)
  have hperiodUp := Binary64.value_ofRat_le hP
  have hperiodDown := Binary64.le_value_ofRat hP (hperiod ▸ c.isFinite_period)
  rw [← helapsed, div_eq_mul_one_div] at htimeUp htimeDown
  rw [← hperiod, div_eq_mul_one_div] at hperiodUp hperiodDown
  exact abs_sub_le_of_rounded hk hpos (div_mul_cancel₀ _ hpos.ne') hq c.one_unit_le htimeUp
    htimeDown hperiodUp hperiodDown

end Cadence

/-- **The square wave is exact up to its tolerance.** Let a time hold `q` half periods, and let `n`
be the next boundary. A time that is early for it by 2·10⁻⁹ or more has its exact whole part, one
that is early by 5·10⁻¹⁰ or less counts as past it, and in between it is one or the other. So a time
and a period that are rounded from numbers of which one holds a whole number of halves of the other
have that number, whatever binary rounding made of them. -/
theorem cycleIndex_near_exact {elapsed period : Binary64} (hfin : elapsed.isFinite)
    (h : .zero ≤ elapsed) (hperiod : period.isFinite) (hshort : minPeriod ≤ period)
    (hq : halfPeriods elapsed period ≤ 2 ^ 20) :
    let q := halfPeriods elapsed period
    let n := ⌊q⌋₊ + 1
    (2 / 10 ^ 9 ≤ n - q → cycleIndex elapsed period = ⌊q⌋₊) ∧
      (n - q ≤ 5 / 10 ^ 10 → cycleIndex elapsed period = n) ∧
      (cycleIndex elapsed period = ⌊q⌋₊ ∨ cycleIndex elapsed period = n) ∧
      ∀ (T P : ℚ) (k : ℕ), elapsed = .ofRat T → period = .ofRat P → 2 * T = k * P →
        cycleIndex elapsed period = k := by
  intro q n
  let c : Cadence := ⟨0, period, Cadence.accepted_iff.2 ⟨hperiod, hshort⟩⟩
  obtain ⟨lifted, hlow, hhigh, hindex⟩ := c.exists_floor_eq_cycleIndex hfin h hq
  change q + 5 / 10 ^ 10 < lifted at hlow
  change lifted < q + 2 / 10 ^ 9 at hhigh
  change cycleIndex elapsed period = ⌊lifted⌋₊ at hindex
  have hnonneg : 0 ≤ q := c.halfPeriods_nonneg (Binary64.isNaN_eq_false_of_isFinite hfin) h
  have hfloor : (⌊q⌋₊ : ℚ) ≤ q := Nat.floor_le hnonneg
  have hnext : q < ⌊q⌋₊ + 1 := Nat.lt_floor_add_one q
  have hboundary : (n : ℚ) = ⌊q⌋₊ + 1 := Nat.cast_succ _
  have hlifted : 0 ≤ lifted := by linarith
  rw [hindex, hboundary]
  refine ⟨?_, ?_, ?_, ?_⟩
  · intro hearly
    exact (Nat.floor_eq_iff hlifted).2 ⟨by linarith, by linarith⟩
  · intro hlate
    apply (Nat.floor_eq_iff hlifted).2
    rw [hboundary]
    constructor <;> linarith
  · rcases lt_or_ge lifted n with hbefore | hpast
    · left
      exact (Nat.floor_eq_iff hlifted).2 ⟨by linarith, by linarith⟩
    · right
      apply (Nat.floor_eq_iff hlifted).2
      rw [hboundary] at hpast ⊢
      constructor <;> linarith
  · intro T P k hT hP hk
    have hclose := abs_le.1 (c.abs_halfPeriods_sub_le hT hP hk hfin hq)
    apply (Nat.floor_eq_iff hlifted).2
    change _ ≤ q - k ∧ q - k ≤ _ at hclose
    constructor <;> linarith

/-- 0.3 s hold three halves of 0.2 s, though the doubles nearest to them hold less. -/
theorem cycleIndex_near_exact_decimals :
    let elapsed : Binary64 := ⟨0x3fd3333333333333⟩
    let period : Binary64 := ⟨0x3fc999999999999a⟩
    elapsed = .ofRat (3 / 10) ∧ period = .ofRat (1 / 5) ∧ halfPeriods elapsed period < 3 ∧
      cycleIndex elapsed period = 3 := by
  intro elapsed period
  have helapsed : elapsed = .ofRat (3 / 10) := by decide +kernel
  have hperiod : period = .ofRat (1 / 5) := by decide +kernel
  have hfew : halfPeriods elapsed period < 3 := by decide +kernel
  refine ⟨helapsed, hperiod, hfew, ?_⟩
  obtain ⟨-, -, -, hexact⟩ := @cycleIndex_near_exact elapsed period (by decide)
    (by decide +kernel) (by decide) (by decide +kernel) (by linarith)
  exact hexact _ _ 3 helapsed hperiod (by norm_num)

end SignalLights
