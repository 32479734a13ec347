import SignalLights.Proofs.Cadence.Phases

/-!
# How long a hurried run is

Twice the cycles at half the period take the same time, and both products are rounded from the same
number, so the two lengths are equal to the bit (`total_hurried`). Two limits stand in the way: the
count is held at its largest value, which makes the run shorter (`total_hurried_lt_or`), and half of
a period is held at the shortest one, which does not (`total_le_total_hurried`).
-/

namespace SignalLights.Cadence

open Binary64 (units nearest infinityWord)

variable (c : Cadence)

theorem hurried_eq : c.hurried = clamp (doubleCount c.count) c.halfPeriod := by
  rw [hurried, Binary64.mul_half c.isFinite_period, halfPeriod]

theorem count_hurried : c.hurried.count.toNat = min (2 * c.count.toNat) 0xffffffff := by
  rw [hurried_eq, count_clamp, toNat_doubleCount]

theorem period_hurried :
    c.hurried.period = if minPeriod ≤ c.halfPeriod then c.halfPeriod else minPeriod := by
  have haccepted : acceptsPeriod c.halfPeriod ↔ minPeriod ≤ c.halfPeriod := by
    rw [accepted_iff, c.isFinite_halfPeriod]
    exact and_iff_right rfl
  rw [hurried_eq, period_clamp]
  exact if_congr haccepted rfl rfl

/-- A period that is held is longer than half of the one before. -/
theorem units_halfPeriod_le_hurried :
    units c.halfPeriod.magnitude ≤ units c.hurried.period.magnitude := by
  rw [period_hurried]
  split
  · rfl
  · next hshort =>
    obtain ⟨hsign, -⟩ := Binary64.negative_and_isZero_of_zero_lt c.zero_lt_halfPeriod
    have hnumber := Binary64.isNaN_eq_false_of_isFinite c.isFinite_halfPeriod
    have hle : c.halfPeriod ≤ minPeriod :=
      Binary64.le_of_not_lt (by decide) hnumber fun hlt => hshort (Binary64.le_of_lt hlt)
    exact Binary64.units_le_units hsign (by decide) hle

variable {c}

/-! ## Before rounding -/

theorem exactTotal_hurried (hperiod : minPeriod ≤ c.halfPeriod) :
    c.hurried.exactTotal = min (2 * c.count.toNat) 0xffffffff * units c.halfPeriod.magnitude := by
  rw [exactTotal, count_hurried, period_hurried, if_pos hperiod]

theorem exactTotal_le_hurried (hcount : 2 * c.count.toNat ≤ 0xffffffff) :
    c.exactTotal ≤ c.hurried.exactTotal := by
  rw [exactTotal_eq, exactTotal, count_hurried, Nat.min_eq_left hcount]
  exact Nat.mul_le_mul_left _ c.units_halfPeriod_le_hurried

/-! ## Rounded -/

/-- Neither limit reached, the length is kept; without cycles it is zero with either period. -/
theorem total_hurried (hcount : 2 * c.count.toNat ≤ 0xffffffff)
    (hperiod : minPeriod ≤ c.halfPeriod ∨ c.count = 0) : c.hurried.total = c.total := by
  have hexact : c.hurried.exactTotal = c.exactTotal := by
    rcases hperiod with hperiod | hzero
    · rw [exactTotal_hurried hperiod, Nat.min_eq_left hcount, exactTotal_eq]
    · have hnone : c.count.toNat = 0 := by rw [hzero]; rfl
      rw [exactTotal, count_hurried, exactTotal, hnone, Nat.zero_mul]
      exact Nat.zero_mul _
  rw [total_eq, hexact, ← total_eq]

theorem total_le_total_hurried (hcount : 2 * c.count.toNat ≤ 0xffffffff) :
    c.total ≤ c.hurried.total := by
  rw [total_eq, total_eq]
  exact Binary64.ofRatio_le_ofRatio (exactTotal_le_hurried hcount)

/-- A count that is held costs the run a cycle at least, more than rounding gives back. -/
theorem total_hurried_lt_or (hcount : 0xffffffff < 2 * c.count.toNat)
    (hperiod : minPeriod ≤ c.halfPeriod) :
    c.hurried.total < c.total ∨ c.hurried.total = .infinity ∧ c.total = .infinity := by
  have hhurried : c.hurried.exactTotal = 0xffffffff * units c.halfPeriod.magnitude := by
    rw [exactTotal_hurried hperiod, Nat.min_eq_right hcount.le]
  have htotal : 0x100000000 * units c.halfPeriod.magnitude ≤ c.exactTotal := by
    rw [exactTotal_eq]
    exact Nat.mul_le_mul_right _ hcount
  have hshortest : 2 ^ 60 ≤ units c.halfPeriod.magnitude := by
    obtain ⟨hsign, -⟩ := Binary64.negative_and_isZero_of_zero_lt c.zero_lt_halfPeriod
    exact two_pow_le_units_minPeriod.trans (Binary64.units_le_units (by decide) hsign hperiod)
  have hmono : nearest c.hurried.exactTotal 1 ≤ nearest c.exactTotal 1 :=
    Binary64.nearest_mono (by omega)
  rcases Nat.lt_or_ge (nearest c.hurried.exactTotal 1) (nearest c.exactTotal 1) with hlt | hge
  · left
    refine Binary64.lt_iff.2 ⟨c.hurried.isNaN_total, c.isNaN_total, ?_⟩
    rw [total_eq, total_eq, Binary64.toInt_ofRatio, Binary64.toInt_ofRatio]
    exact_mod_cast Binary64.units_strictMono hlt
  · right
    have heq := Nat.le_antisymm hmono hge
    have hinfinite : nearest c.exactTotal 1 = infinityWord := by
      by_contra hne
      have hclose := Binary64.mul_le_of_nearest_eq heq
        (Nat.lt_of_le_of_ne (Binary64.nearest_le _ _) hne)
      omega
    rw [total_eq, total_eq, Binary64.ofRatio, Binary64.ofRatio, heq, hinfinite]
    exact ⟨rfl, rfl⟩

end SignalLights.Cadence
