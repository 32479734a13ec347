import SignalLights.Proofs.Binary64.Bounds
import SignalLights.Proofs.Cadence.AnyPeriod
import SignalLights.Proofs.Cadence.Numbers

/-!
# Phases of a run

The half periods gone by do not decrease with time (`cycleIndex_mono`), and up to its expiry a run
of `n` cycles has no more than `2n` of them (`cycleIndex_le`), whatever is lost to rounding on the
way. All `2n` may be gone before the run expires: a time just at its end is not later than its end.
-/

namespace SignalLights.Cadence

open Binary64 (units unitsPerOne binade nearest)

variable (c : Cadence) {elapsed : Binary64}

/-! ## Values in units -/

theorem two_pow_le_units_minPeriod : 2 ^ 60 ≤ units minPeriod.magnitude :=
  Binary64.two_pow_le_units (by decide : (8 + 1) * binade ≤ minPeriod.magnitude)

theorem tolerance_le_minPeriod :
    2 ^ 10 * units tolerance.magnitude ≤ units minPeriod.magnitude := by
  calc 2 ^ 10 * units tolerance.magnitude ≤ 2 ^ 10 * 2 ^ (993 + 52) :=
        Nat.mul_le_mul_left _ units_tolerance_le
    _ = 2 ^ (10 + (993 + 52)) := (pow_add 2 10 _).symm
    _ ≤ 2 ^ (1012 + 52) := pow_le_pow_right₀ one_le_two (by decide)
    _ ≤ units minPeriod.magnitude := Binary64.two_pow_le_units (by decide)

theorem units_minPeriod_le : units minPeriod.magnitude ≤ units c.period.magnitude :=
  Binary64.units_le_units (by decide) c.negative_period c.minPeriod_le_period

/-- Half of a period is exact. -/
theorem two_mul_units_halfPeriod :
    2 * units c.halfPeriod.magnitude = units c.period.magnitude := by
  have hshortest : 2 * binade ≤ minPeriod.magnitude := by decide
  have hmagnitude := Binary64.units_strictMono.le_iff_le.1 c.units_minPeriod_le
  exact Binary64.two_mul_units_div_two c.isFinite_period (hshortest.trans hmagnitude)

theorem isFinite_halfPeriod : c.halfPeriod.isFinite := by
  have hhalf := c.two_mul_units_halfPeriod
  have hperiod := Binary64.units_strictMono (of_decide_eq_true c.isFinite_period)
  exact decide_eq_true (Binary64.units_strictMono.lt_iff_lt.1 (by omega))

theorem count_le : c.count.toNat ≤ 2 * binade := by
  have hlast : 2 ^ 32 ≤ 2 * binade := by decide
  exact c.count.toNat_lt.le.trans hlast

/-- The length of a run in units, before it is rounded. -/
def exactTotal : Nat := c.count.toNat * units c.period.magnitude

theorem exactTotal_eq : c.exactTotal = 2 * c.count.toNat * units c.halfPeriod.magnitude := by
  rw [exactTotal, ← c.two_mul_units_halfPeriod, Nat.mul_left_comm, Nat.mul_assoc]

/-- It is rounded once. -/
theorem total_eq : c.total = .ofRatio false c.exactTotal 1 := by
  have hsign : (Binary64.ofNat c.count.toNat).negative = false := Binary64.negative_ofRatio _ _ _
  have hratio : nearest (units (Binary64.ofNat c.count.toNat).magnitude * units c.period.magnitude)
      unitsPerOne = nearest c.exactTotal 1 := by
    rw [Binary64.units_ofNat c.count_le, Nat.mul_right_comm]
    exact Binary64.nearest_congr Binary64.unitsPerOne_pos Nat.one_pos (Nat.mul_one _)
  rw [total, Binary64.mul_of_isFinite (Binary64.isFinite_ofNat c.count.toNat_lt) c.isFinite_period,
    hsign, c.negative_period, Binary64.ofRatio, hratio]
  rfl

theorem magnitude_total : c.total.magnitude = nearest c.exactTotal 1 := by
  rw [c.total_eq, Binary64.ofRatio, Binary64.magnitude_ofMagnitude _ (Binary64.nearest_lt _ _)]

theorem units_total_le :
    2 ^ 52 * units c.total.magnitude ≤ (2 ^ 52 + 1) * c.exactTotal + 2 ^ 52 := by
  rw [c.magnitude_total]
  exact Binary64.units_nearest_le_add _

/-! ## The half periods gone by -/

theorem cycleIndex_of_pos (h : .zero < elapsed) :
    cycleIndex elapsed c.period = (elapsed / c.halfPeriod + tolerance).floorWord :=
  cycleIndex_of_zero_lt h c.period

theorem cycleIndex_mono {later : Binary64} (h : elapsed ≤ later) :
    cycleIndex elapsed c.period ≤ cycleIndex later c.period := by
  by_cases hearly : .zero < elapsed
  · exact cycleIndex_mono_of_zero_lt c.isFinite_halfPeriod c.zero_lt_halfPeriod hearly h
  · rw [cycleIndex_of_not_zero_lt hearly]
    exact Nat.zero_le _

/-- After infinitely many seconds the count of half periods is held at its largest value. -/
theorem cycleIndex_infinity : cycleIndex .infinity c.period = 0xffffffffffffffff := by
  have hquotient : Binary64.infinity / c.halfPeriod = .infinity :=
    Binary64.infinity_div c.isFinite_halfPeriod c.zero_lt_halfPeriod
  rw [c.cycleIndex_of_pos (Binary64.lt_infinity (by decide)), hquotient,
    Binary64.add_of_isInfinite (x := .infinity) (by decide) (by decide)]
  exact Binary64.floorWord_infinity

/-- A time that is not past the end of a run is past its cycles by a quarter of a period at most. -/
theorem four_mul_toInt_le (hnumber : elapsed.isNaN = false) (h : c.isExpired elapsed = false) :
    4 * elapsed.toInt ≤ (4 * c.count.toNat + 1) * units c.period.magnitude := by
  have hle : elapsed.toInt ≤ (c.total + tolerance).toInt := by
    have hlength := (Binary64.le_iff.1 c.total_le_total_add_tolerance).2.1
    exact (Binary64.le_iff.1
      (Binary64.le_of_not_lt hlength hnumber (of_decide_eq_false h))).2.2
  have hend := Binary64.toInt_add_le c.isNaN_total c.negative_total
    (by decide : tolerance.isFinite) (by decide)
  have htotal := Binary64.toInt_eq_units c.negative_total
  have hlength := c.units_total_le
  have htolerance : 2 ^ 10 * tolerance.toInt ≤ units minPeriod.magnitude := by
    rw [Binary64.toInt_eq_units (by decide)]
    exact_mod_cast tolerance_le_minPeriod
  have hscale := two_pow_le_units_minPeriod
  have hperiod := c.units_minPeriod_le
  have hcount : c.exactTotal ≤ 2 ^ 32 * units c.period.magnitude :=
    Nat.mul_le_mul_right _ c.count.toNat_lt.le
  have hcycles : (c.count.toNat : Int) * units c.period.magnitude = c.exactTotal :=
    (Nat.cast_mul _ _).symm
  rw [add_mul, mul_assoc, hcycles]
  omega

/-- So it has at most half of a half period more than its cycles, which the quotient keeps. -/
theorem units_div_halfPeriod_le (hfin : elapsed.isFinite) (hsign : elapsed.negative = false)
    (h : c.isExpired elapsed = false) :
    units (elapsed / c.halfPeriod).magnitude ≤ (4 * c.count.toNat + 1) * 2 ^ 1073 := by
  have hquarter := c.four_mul_toInt_le (Binary64.isNaN_eq_false_of_isFinite hfin) h
  rw [Binary64.toInt_eq_units hsign, ← c.two_mul_units_halfPeriod] at hquarter
  have hhalf : 2 * units elapsed.magnitude ≤
      (4 * c.count.toNat + 1) * units c.halfPeriod.magnitude := by
    have hquarter' : 4 * units elapsed.magnitude ≤
        (4 * c.count.toNat + 1) * (2 * units c.halfPeriod.magnitude) := by
      exact_mod_cast hquarter
    rw [Nat.mul_left_comm] at hquarter'
    omega
  have hpos := Binary64.units_pos c.zero_lt_halfPeriod
  have hbits : 4 * c.count.toNat + 1 ≤ 2 * binade := by
    have hcount := c.count.toNat_lt
    have hlast : 4 * 2 ^ 32 + 1 ≤ 2 * binade := by decide
    omega
  rw [Binary64.div_of_isFinite hfin c.isFinite_halfPeriod c.zero_lt_halfPeriod, Binary64.ofRatio,
    Binary64.magnitude_ofMagnitude _ (Binary64.nearest_lt _ _)]
  refine Binary64.units_nearest_le hbits hpos ?_
  have hone : unitsPerOne = 2 * 2 ^ 1073 := by rw [Binary64.unitsPerOne_eq, ← Nat.pow_succ']
  calc units elapsed.magnitude * unitsPerOne
      = 2 * units elapsed.magnitude * 2 ^ 1073 := by
        rw [hone, ← Nat.mul_assoc, Nat.mul_comm (units elapsed.magnitude)]
    _ ≤ (4 * c.count.toNat + 1) * units c.halfPeriod.magnitude * 2 ^ 1073 :=
      Nat.mul_le_mul_right _ hhalf
    _ = (4 * c.count.toNat + 1) * 2 ^ 1073 * units c.halfPeriod.magnitude :=
      Nat.mul_right_comm _ _ _

/-- The tolerance does not lift a quotient by another half of a half period. -/
theorem floorWord_add_tolerance_le {q : Binary64} (hq : q.isFinite) (hsign : q.negative = false)
    {n : Nat} (hn : n < 2 ^ 32) (h : units q.magnitude ≤ (4 * n + 1) * 2 ^ 1073) :
    (q + tolerance).floorWord ≤ 2 * n := by
  have hbits : 8 * n + 3 ≤ 2 * binade := by
    have hlast : 8 * 2 ^ 32 + 3 ≤ 2 * binade := by decide
    omega
  have hround {num : Nat} (hnum : num ≤ (8 * n + 3) * 2 ^ 1072) :
      units (nearest num 1) ≤ (8 * n + 3) * 2 ^ 1072 :=
    Binary64.units_nearest_le hbits Nat.one_pos (by rwa [Nat.mul_one])
  have hhalf : 2 ^ 1073 = 2 * 2 ^ 1072 := by rw [← Nat.pow_succ']
  have hone : unitsPerOne = 4 * 2 ^ 1072 := by
    rw [Binary64.unitsPerOne_eq, show 4 = 2 ^ 2 from rfl, ← Nat.pow_add]
  have hpos := Binary64.unitsPerOne_pos
  have htolerance : tolerance.toInt = units tolerance.magnitude :=
    Binary64.toInt_eq_units (by decide)
  have hsmall : units tolerance.magnitude ≤ 2 ^ 1072 :=
    units_tolerance_le.trans (pow_le_pow_right₀ one_le_two (by decide))
  have hvalue : (q + tolerance).toInt.toNat =
      units (nearest (units q.magnitude + units tolerance.magnitude) 1) := by
    have hsum : q.toInt + tolerance.toInt =
        ((units q.magnitude + units tolerance.magnitude : Nat) : Int) := by
      rw [htolerance, Binary64.toInt_eq_units hsign]
      rfl
    rw [Binary64.toInt_add hq (by decide), hsum,
      Binary64.roundUnits_of_nonneg (Int.natCast_nonneg _), Int.toNat_natCast, Int.toNat_natCast]
  rw [Binary64.floorWord_eq (Binary64.isNaN_add hq (by decide)), hvalue]
  refine (Nat.min_le_left _ _).trans (Nat.le_of_lt_add_one ?_)
  rw [Nat.div_lt_iff_lt_mul hpos, hone]
  rw [hone] at hpos
  rw [hhalf] at h
  -- in quarters of one: `2 (4n + 1)` and one more are less than `4 (2n + 1)`
  clear hhalf hone
  generalize 2 ^ 1072 = quarter at *
  have hparts : (4 * n + 1) * (2 * quarter) = 8 * (n * quarter) + 2 * quarter ∧
      (8 * n + 3) * quarter = 8 * (n * quarter) + 3 * quarter ∧
      (2 * n + 1) * (4 * quarter) = 8 * (n * quarter) + 4 * quarter := by
    refine ⟨?_, ?_, ?_⟩ <;> ring
  have hnearest : units (nearest (units q.magnitude + units tolerance.magnitude) 1) ≤
      (8 * n + 3) * quarter := hround (by omega)
  omega

/-- Up to its expiry a run has no more half periods than its cycles have. -/
theorem cycleIndex_le (hfin : elapsed.isFinite) (h : c.isExpired elapsed = false) :
    cycleIndex elapsed c.period ≤ 2 * c.count.toNat := by
  have hnumber := Binary64.isNaN_eq_false_of_isFinite hfin
  by_cases hpos : .zero < elapsed
  · have hsign := (Binary64.negative_and_isZero_of_zero_lt hpos).1
    have hquotient := c.units_div_halfPeriod_le hfin hsign h
    have hfinite : (elapsed / c.halfPeriod).isFinite := by
      have hcount : 4 * c.count.toNat + 1 < 2 ^ 53 := by
        have := c.count.toNat_lt
        omega
      refine decide_eq_true (Binary64.units_strictMono.lt_iff_lt.1 ?_)
      calc units (elapsed / c.halfPeriod).magnitude
          ≤ (4 * c.count.toNat + 1) * 2 ^ 1073 := hquotient
        _ < 2 ^ 53 * 2 ^ 1073 := by
          apply Nat.mul_lt_mul_of_pos_right hcount
          apply Nat.two_pow_pos
        _ ≤ units Binary64.infinityWord := by
          rw [← pow_add]
          exact Binary64.two_pow_le_units_infinityWord (by decide)
    rw [c.cycleIndex_of_pos hpos]
    exact floorWord_add_tolerance_le hfinite
      (Binary64.negative_div hsign hnumber c.isFinite_halfPeriod c.zero_lt_halfPeriod).1
      c.count.toNat_lt hquotient
  · rw [cycleIndex_of_not_zero_lt hpos]
    exact Nat.zero_le _

/-- A phase that is on, up to the expiry of a run, is one of its cycles or the one at its end. -/
theorem cycleIndex_le_of_isOn (hnumber : elapsed.isNaN = false) (h : c.isExpired elapsed = false)
    (hon : c.isOn elapsed) : cycleIndex elapsed c.period ≤ 2 * c.count.toNat := by
  rcases elapsed.isFinite_or_eq_infinity with hfin | hnan | rfl | rfl
  · exact c.cycleIndex_le hfin h
  · rw [hnumber] at hnan
    cases hnan
  · -- held at the largest count, which is odd
    rw [isOn, phaseOn, c.cycleIndex_infinity] at hon
    cases hon
  · rw [cycleIndex_of_not_zero_lt (by decide)]
    exact Nat.zero_le _

end SignalLights.Cadence
