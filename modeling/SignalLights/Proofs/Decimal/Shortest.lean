import Mathlib.Algebra.Group.Nat.Defs
import SignalLights.Proofs.Decimal.Digits

/-!
# The shortest decimal reads back

A point of the rounding interval of a magnitude is rounded to that magnitude
(`Within.nearest_eq`), and the search ends with such a point, at the latest on the grid
`10 ^ -324`. So the shortest decimal of a finite double above zero is rounded back to it
(`nearest_shortest`). It has at most 633 digits.
-/

namespace SignalLights.Decimal

open Binary64 (units unitsPerOne infinityWord)

variable {tie : TieRule} {w p : Nat} {k : Int} {d : Decimal}

/-! ## The rounding interval on a grid -/

theorem OnGrid.bounds_of_contains {g : OnGrid} {closed : Bool} (h : g.contains closed p = true) :
    g.low ≤ p * g.den ∧ p * g.den ≤ g.high ∧
      (closed = false → g.low < p * g.den ∧ p * g.den < g.high) := by
  unfold contains at h
  cases closed with
  | true =>
    simp only [if_true, Bool.and_eq_true, decide_eq_true_eq] at h
    exact ⟨h.1, h.2, nofun⟩
  | false =>
    simp only [Bool.false_eq_true, if_false, Bool.and_eq_true, decide_eq_true_eq] at h
    exact ⟨h.1.le, h.2.le, fun _ => h⟩

/-- A decimal is a point of the rounding interval of a magnitude. -/
def Within (d : Decimal) (w : Nat) : Prop :=
  (onGrid w d.exponent).contains (w % 2 == 0) d.coefficient = true

/-- A point of the rounding interval is rounded to its magnitude. -/
theorem Within.nearest_eq (h : d.Within w) (hw : 0 < w) (hw' : w < infinityWord) :
    Binary64.nearest (d.numerator * unitsPerOne) d.denominator = w := by
  have hpoint : 2 * (d.numerator * unitsPerOne) = d.coefficient * (onGrid w d.exponent).den := by
    simp only [numerator, onGrid, Nat.mul_assoc, Nat.mul_left_comm, Nat.mul_comm]
  obtain ⟨hlow, hhigh, hopen⟩ := OnGrid.bounds_of_contains h
  rw [← hpoint] at hlow hhigh hopen
  refine Binary64.nearest_of_within hw hw' d.denominator_pos hlow hhigh fun hodd => hopen ?_
  simp [hodd]

/-- No finite double reaches `10 ^ 309`. -/
theorem Within.scale_le (h : d.Within w) (hd : 0 < d.coefficient) (hw' : w < infinityWord) :
    d.scale ≤ 309 := by
  have hinfinity : units infinityWord ≤ 10 ^ 309 * unitsPerOne := by decide +kernel
  have hvalue : units w < units infinityWord := Binary64.units_strictMono hw'
  have hnext : units (w + 1) ≤ units infinityWord := Binary64.units_strictMono.monotone hw'
  have hpoint := (OnGrid.bounds_of_contains h).2.1
  simp only [onGrid, Nat.pow_eq] at hpoint
  have hpow : d.coefficient * 10 ^ d.exponent.toNat < 10 ^ (309 + (-d.exponent).toNat) := by
    refine Nat.lt_of_mul_lt_mul_right (a := 2 * unitsPerOne) ?_
    calc d.coefficient * 10 ^ d.exponent.toNat * (2 * unitsPerOne)
        ≤ (units w + units (w + 1)) * 10 ^ (-d.exponent).toNat := by
          rwa [Nat.mul_assoc, Nat.mul_comm (10 ^ d.exponent.toNat)]
      _ < 2 * (10 ^ 309 * unitsPerOne) * 10 ^ (-d.exponent).toNat := by
          refine Nat.mul_lt_mul_of_pos_right ?_ (Nat.pow_pos (by decide))
          omega
      _ = 10 ^ (309 + (-d.exponent).toNat) * (2 * unitsPerOne) := by
          rw [Nat.pow_add]
          simp only [Nat.mul_assoc, Nat.mul_left_comm, Nat.mul_comm]
  have hlength := length_digits_add_le hd (by omega) hpow
  rw [digits] at hlength
  rw [scale]
  omega

namespace OnGrid

theorem of_candidate? {g : OnGrid} {closed : Bool} (h : g.candidate? tie closed = some p) :
    0 < p ∧ g.contains closed p = true := by
  unfold candidate? at h
  grind

/-- On a grid finer than the interval the point next to the value is a candidate. -/
theorem isSome_candidate? {g : OnGrid} (closed : Bool) (hden : 0 < g.den)
    (hlow : g.low + g.den ≤ g.value) (hhigh : g.value < g.high) :
    (g.candidate? tie closed).isSome := by
  have hq := Nat.div_add_mod' g.value g.den
  have hr := Nat.mod_lt g.value hden
  have hpos : g.value / g.den ≠ 0 := by
    intro hzero
    rw [hzero, Nat.zero_mul] at hq
    omega
  have hcontains : g.contains closed (g.value / g.den) = true := by
    have hlow' : g.low < g.value / g.den * g.den := by omega
    have hhigh' : g.value / g.den * g.den < g.high := by omega
    simp [contains, hlow', hhigh', hlow'.le, hhigh'.le]
  unfold candidate?
  grind

end OnGrid

/-- A rounding interval has a point on every grid finer than itself. -/
theorem isSome_candidate?_onGrid (hw : 0 < w)
    (hfine : 2 * unitsPerOne * 10 ^ k.toNat ≤ 10 ^ (-k).toNat) :
    ((onGrid w k).candidate? tie (w % 2 == 0)).isSome := by
  have hpow : 0 < 10 ^ (-k).toNat := Nat.pow_pos (by decide)
  have hprev : units (w - 1) + 1 ≤ units w := Binary64.units_strictMono (by omega)
  have hlow := Nat.mul_le_mul_right (10 ^ (-k).toNat) hprev
  have hhigh := Nat.mul_lt_mul_of_pos_right (Binary64.units_lt_units_succ w) hpow
  refine OnGrid.isSome_candidate? _ ?_ ?_ ?_
  · exact Nat.mul_pos (Nat.mul_pos (by decide) Binary64.unitsPerOne_pos) (Nat.pow_pos (by decide))
  · simp only [onGrid, Nat.pow_eq, Nat.add_mul, Nat.mul_assoc, Nat.one_mul] at *
    omega
  · simp only [onGrid, Nat.pow_eq, Nat.add_mul, Nat.mul_assoc]
    omega

/-! ## The search -/

/-- The search ends with a candidate, on no finer grid than any that has one. -/
theorem candidate?_search {fuel j : Nat} (hj : j < fuel)
    (h : ((onGrid w (k - j)).candidate? tie (w % 2 == 0)).isSome) :
    k - j ≤ (search tie w fuel k).exponent ∧
      (onGrid w (search tie w fuel k).exponent).candidate? tie (w % 2 == 0) =
        some (search tie w fuel k).coefficient := by
  induction fuel generalizing k j with
  | zero => omega
  | succ fuel ih =>
    rw [search]
    cases hk : (onGrid w k).candidate? tie (w % 2 == 0) with
    | some p => exact ⟨Int.sub_le_self _ (Int.natCast_nonneg j), hk⟩
    | none =>
      cases j with
      | zero =>
        rw [Int.natCast_zero, Int.sub_zero, hk] at h
        cases h
      | succ j =>
        have hgrid : k - (j + 1 : Nat) = k - 1 - j := by omega
        rw [hgrid] at h ⊢
        exact ih (by omega) h

/-- The grid `10 ^ -324` is finer than every rounding interval. -/
theorem candidate?_shortest (tie : TieRule) (hw : 0 < w) :
    -324 ≤ (shortest tie w).exponent ∧
      (onGrid w (shortest tie w).exponent).candidate? tie (w % 2 == 0) =
        some (shortest tie w).coefficient := by
  have hfine : 2 * unitsPerOne * 10 ^ (-324 : Int).toNat ≤ 10 ^ (-(-324 : Int)).toNat := by
    decide +kernel
  have hcandidate : ((onGrid w (-324)).candidate? tie (w % 2 == 0)).isSome :=
    isSome_candidate?_onGrid hw hfine
  exact candidate?_search (k := 309) (j := 633) (by decide) hcandidate

/-! ## The shortest decimal -/

theorem exponent_shortest_ge (tie : TieRule) (hw : 0 < w) : -324 ≤ (shortest tie w).exponent :=
  (candidate?_shortest tie hw).1

theorem coefficient_shortest_pos (tie : TieRule) (hw : 0 < w) :
    0 < (shortest tie w).coefficient :=
  (OnGrid.of_candidate? (candidate?_shortest tie hw).2).1

theorem shortest_within (tie : TieRule) (hw : 0 < w) : (shortest tie w).Within w :=
  (OnGrid.of_candidate? (candidate?_shortest tie hw).2).2

theorem scale_shortest_le (tie : TieRule) (hw : 0 < w) (hw' : w < infinityWord) :
    (shortest tie w).scale ≤ 309 :=
  (shortest_within tie hw).scale_le (coefficient_shortest_pos tie hw) hw'

/-- The shortest decimal of a finite double above zero is rounded back to it. -/
theorem nearest_shortest (tie : TieRule) (hw : 0 < w) (hw' : w < infinityWord) :
    (shortest tie w).nearest = w := by
  have hpos := coefficient_shortest_pos tie hw
  have hexponent := exponent_shortest_ge tie hw
  have hhigh := scale_shortest_le tie hw hw'
  have hlow : -324 ≤ (shortest tie w).scale := by
    rw [scale]
    omega
  rw [nearest, if_neg (by omega), if_neg (by omega)]
  exact (shortest_within tie hw).nearest_eq hw hw'

end SignalLights.Decimal
