import SignalLights.Proofs.Cadence.Phases

/-!
# Expiry and phases

Two comparisons tell that a run is at its end: the time is past its length, and all its half periods
are gone. Each is rounded on a way of its own, yet they agree (`cycleIndex_around_expiry`). For a
time past the rounded length is a double above it, so it is not below the exact length; and where
the exact quotient has reached a whole number, so has the rounded one.
-/

namespace SignalLights.Cadence

open Binary64 (units binade nearest)

variable (c : Cadence) {elapsed : Binary64}

/-- What is past the end of a run is above zero. -/
theorem zero_lt_of_isExpired (h : c.isExpired elapsed) : .zero < elapsed :=
  Binary64.lt_of_le_of_lt (Binary64.le_trans c.zero_le_total c.total_le_total_add_tolerance)
    (of_decide_eq_true h)

/-- A finite time past the end of a run, as it is rounded, is past all of its cycles. -/
theorem exactTotal_le (hfin : elapsed.isFinite) (h : c.isExpired elapsed) :
    c.exactTotal ≤ units elapsed.magnitude := by
  have hpast : c.total < elapsed :=
    Binary64.lt_of_le_of_lt c.total_le_total_add_tolerance (of_decide_eq_true h)
  have hsign : elapsed.negative = false := Binary64.negative_of_lt c.negative_total hpast
  have hvalue := (Binary64.lt_iff.1 hpast).2.2
  rw [c.total_eq, Binary64.toInt_ofRatio, Binary64.toInt_eq_units hsign] at hvalue
  -- were the time below its cycles, rounding them would not go below the time
  by_contra hbelow
  have hmagnitude : elapsed.magnitude < Binary64.infinityWord := of_decide_eq_true hfin
  have hround : elapsed.magnitude ≤ nearest c.exactTotal 1 :=
    Binary64.le_nearest_of_le hmagnitude.le Nat.one_pos (by omega)
  have hunits := Binary64.units_strictMono.monotone hround
  omega

/-- By the time a run is past its end, all of its half periods are gone. -/
theorem le_cycleIndex (hfin : elapsed.isFinite) (h : c.isExpired elapsed) :
    2 * c.count.toNat ≤ cycleIndex elapsed c.period := by
  have hpos := c.zero_lt_of_isExpired h
  obtain ⟨hsign, -⟩ := Binary64.negative_and_isZero_of_zero_lt hpos
  have hnumber := Binary64.isNaN_eq_false_of_isFinite hfin
  have hbits : 2 * c.count.toNat ≤ 2 * binade := by
    have hcount := c.count.toNat_lt
    have hlast : 2 * 2 ^ 32 ≤ 2 * binade := by decide
    omega
  have hhalves : 2 * c.count.toNat * units c.halfPeriod.magnitude ≤ units elapsed.magnitude := by
    rw [← c.exactTotal_eq]
    exact c.exactTotal_le hfin h
  have hquotient : .ofNat (2 * c.count.toNat) ≤ elapsed / c.halfPeriod :=
    Binary64.ofNat_le_div hfin hsign c.isFinite_halfPeriod c.zero_lt_halfPeriod hhalves
  have hsum : elapsed / c.halfPeriod ≤ elapsed / c.halfPeriod + tolerance :=
    Binary64.le_add (Binary64.negative_div hsign hnumber c.isFinite_halfPeriod
      c.zero_lt_halfPeriod).2 (by decide) (by decide)
  calc 2 * c.count.toNat
      = (Binary64.ofNat (2 * c.count.toNat)).floorWord := (Binary64.floorWord_ofNat hbits).symm
    _ ≤ (elapsed / c.halfPeriod + tolerance).floorWord :=
      Binary64.floorWord_mono (Binary64.le_trans hquotient hsum)
    _ = cycleIndex elapsed c.period := (c.cycleIndex_of_pos hpos).symm

/-- **Expiry and phase agree on the length of a run.** A finite time past the end of a run of `n`
cycles finds at least `2n` half periods gone by, any other finite time at most `2n`. -/
theorem cycleIndex_around_expiry (count : UInt32) (period : Binary64) (hfin : elapsed.isFinite) :
    let c := clamp count period
    (c.isExpired elapsed → 2 * count.toNat ≤ cycleIndex elapsed c.period) ∧
      (c.isExpired elapsed = false → cycleIndex elapsed c.period ≤ 2 * count.toNat) := by
  intro c
  rw [show count = c.count from (count_clamp count period).symm]
  exact ⟨c.le_cycleIndex hfin, c.cycleIndex_le hfin⟩

/-- Four cycles of 0.2 s, at the last time that is not past their end and at the next double. -/
theorem cycleIndex_around_expiry_standard :
    let last : Binary64 := ⟨0x3fe999999a2309f9⟩
    let next : Binary64 := ⟨0x3fe999999a2309fa⟩
    standard.isExpired last = false ∧ cycleIndex last standard.period ≤ 2 * 4 ∧
      standard.isExpired next ∧ 2 * 4 ≤ cycleIndex next standard.period := by
  intro last next
  have hlast : standard.isExpired last = false := by decide +kernel
  have hnext : standard.isExpired next := by decide +kernel
  exact ⟨hlast, (cycleIndex_around_expiry standardCount standardPeriod (by decide)).2 hlast, hnext,
    (cycleIndex_around_expiry standardCount standardPeriod (by decide)).1 hnext⟩

end SignalLights.Cadence
