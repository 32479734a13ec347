import SignalLights.Proofs.Binary64.Order

/-!
# Products and quotients

The product of two finite doubles is a number, if only an infinite one (`isNaN_mul`), and half of a
double from the shortest period up is above zero (`zero_lt_div_two`). A whole number of 32 bits is a
finite double. Dividing by a finite number above zero keeps the order (`div_le_div_right`), and no
other divisor but zero gives a quotient above zero (`divisor_cases`, `not_zero_lt_div`).
-/

namespace SignalLights.Binary64

theorem isNaN_ofRatio (s : Bool) (num den : Nat) : (ofRatio s num den).isNaN = false :=
  isNaN_ofMagnitude_eq_false s (nearest_le num den)

theorem mul_of_isFinite {x y : Binary64} (hx : x.isFinite) (hy : y.isFinite) :
    x * y =
      ofRatio (x.negative != y.negative) (units x.magnitude * units y.magnitude) unitsPerOne := by
  change Binary64.mul x y = _
  simp [Binary64.mul, isNaN_eq_false_of_isFinite hx, isNaN_eq_false_of_isFinite hy,
    isInfinite_eq_false_of_isFinite hx, isInfinite_eq_false_of_isFinite hy]

theorem isNaN_mul {x y : Binary64} (hx : x.isFinite) (hy : y.isFinite) :
    (x * y).isNaN = false := by
  rw [mul_of_isFinite hx hy]
  exact isNaN_ofRatio _ _ _

/-- A whole number of 32 bits is a finite double. -/
theorem isFinite_ofNat {n : Nat} (h : n < 2 ^ 32) : (ofNat n).isFinite := by
  have hle : nearest (n * unitsPerOne) 1 ≤ nearest (2 ^ 32 * unitsPerOne) 1 :=
    nearest_mono (Nat.mul_le_mul_right _ h.le)
  have hlt : nearest (2 ^ 32 * unitsPerOne) 1 < infinityWord := by decide +kernel
  rw [isFinite, ofNat, ofRatio, magnitude_ofMagnitude _ (nearest_lt _ _)]
  exact decide_eq_true (Nat.lt_of_le_of_lt hle hlt)

theorem zero_le_of_negative {x : Binary64} (hnan : x.isNaN = false) (hx : x.negative = false) :
    .zero ≤ x :=
  le_iff.2 ⟨by decide, hnan, toInt_nonneg hx⟩

/-- What is above zero has no sign and is none of the zeros. -/
theorem negative_and_isZero_of_zero_lt {x : Binary64} (h : .zero < x) :
    x.negative = false ∧ x.isZero = false := by
  have hsign := negative_of_lt (by decide) h
  refine ⟨hsign, decide_eq_false fun hzero => ?_⟩
  have hlt := (lt_iff.1 h).2.2
  rw [toInt.eq_def x, hzero, hsign] at hlt
  exact absurd hlt (by decide)

theorem zero_lt_of_negative {x : Binary64} (hnan : x.isNaN = false) (hx : x.negative = false)
    (hzero : x.isZero = false) : .zero < x := by
  have hmagnitude : 0 < x.magnitude := Nat.pos_of_ne_zero (of_decide_eq_false hzero)
  have hunits : 0 < units x.magnitude := units_strictMono hmagnitude
  refine lt_iff.2 ⟨by decide, hnan, ?_⟩
  rw [toInt_eq_units hx]
  exact Int.natCast_pos.2 hunits

theorem units_pos {x : Binary64} (h : .zero < x) : 0 < units x.magnitude := by
  obtain ⟨hsign, -⟩ := negative_and_isZero_of_zero_lt h
  have hlt := (lt_iff.1 h).2.2
  rw [toInt_eq_units hsign, show zero.toInt = 0 from rfl] at hlt
  exact_mod_cast hlt

theorem div_of_isFinite {x y : Binary64} (hx : x.isFinite) (hy : y.isFinite) (h : .zero < y) :
    x / y = ofRatio x.negative (units x.magnitude * unitsPerOne) (units y.magnitude) := by
  obtain ⟨hsign, hzero⟩ := negative_and_isZero_of_zero_lt h
  change Binary64.div x y = _
  simp [Binary64.div, isNaN_eq_false_of_isFinite hx, isInfinite_eq_false_of_isFinite hx,
    isNaN_eq_false_of_isFinite hy, isInfinite_eq_false_of_isFinite hy, hzero, hsign]

theorem div_two_of_isFinite {x : Binary64} (hx : x.isFinite) :
    x / .two = ofRatio x.negative (units x.magnitude * unitsPerOne) (units two.magnitude) :=
  div_of_isFinite hx (by decide) (zero_lt_of_negative (by decide) (by decide) (by decide))

theorem infinity_div {y : Binary64} (hy : y.isFinite) (h : .zero < y) :
    infinity / y = infinity := by
  have hsign := (negative_and_isZero_of_zero_lt h).1
  have hinfinite : infinity.isInfinite := by decide
  change Binary64.div infinity y = _
  simp [Binary64.div, isNaN_infinity, hinfinite, isNaN_eq_false_of_isFinite hy,
    isInfinite_eq_false_of_isFinite hy, hsign]
  rfl

theorem negative_div {x y : Binary64} (hx : x.negative = false) (hnumber : x.isNaN = false)
    (hy : y.isFinite) (h : .zero < y) :
    (x / y).negative = false ∧ (x / y).isNaN = false := by
  rcases x.isFinite_or_eq_infinity with hfin | hnan | rfl | rfl
  · rw [div_of_isFinite hfin hy h]
    exact ⟨(negative_ofRatio _ _ _).trans hx, isNaN_ofRatio _ _ _⟩
  · rw [hnumber] at hnan
    cases hnan
  · rw [infinity_div hy h]
    exact ⟨rfl, isNaN_infinity⟩
  · cases hx

/-- Above zero, dividing by zero gives infinity. -/
theorem div_zero_of_zero_lt {x : Binary64} (h : .zero < x) : x / .zero = infinity := by
  obtain ⟨hsign, hzero⟩ := negative_and_isZero_of_zero_lt h
  have hdivisor : zero.isNaN = false ∧ zero.isInfinite = false ∧ zero.isZero ∧
      zero.negative = false := by decide
  change Binary64.div x zero = infinity
  simp [Binary64.div, (lt_iff.1 h).2.1, hdivisor, hzero, hsign]
  rfl

/-- No quotient is above zero that has NaN, an infinity or a number with a sign for its divisor. -/
theorem not_zero_lt_div {x y : Binary64} (hx : .zero < x)
    (hy : y.isNaN ∨ y.isInfinite ∨ y.negative) : ¬ .zero < x / y := by
  have hxs := (negative_and_isZero_of_zero_lt hx).1
  have hnan : ¬ .zero < nan := by decide
  have hnothing (s : Bool) : ¬ .zero < ofMagnitude s 0 := by cases s <;> decide
  have hsigned {q : Binary64} (hq : q.negative = true) : ¬ .zero < q := by
    intro h
    rw [(negative_and_isZero_of_zero_lt h).1] at hq
    cases hq
  -- what is left when the divisor is a number and finite
  have hsigns (hnumber : ¬ (x.isNaN || y.isNaN)) (hfin : ¬ y.isInfinite) :
      (x.negative != y.negative) = true := by
    grind
  change ¬ .zero < Binary64.div x y
  unfold Binary64.div
  split_ifs with hnumber hxinf hyinf hyinf hyzero hxzero
  · exact hnan
  · exact hnan
  · exact hsigned ((negative_ofMagnitude _ (by decide)).trans (hsigns hnumber hyinf))
  · exact hnothing _
  · exact hnan
  · exact hsigned ((negative_ofMagnitude _ (by decide)).trans (hsigns hnumber hyinf))
  · exact hsigned ((negative_ofRatio _ _ _).trans (hsigns hnumber hyinf))

/-- A divisor is above zero, or zero, or no quotient by it is above zero. -/
theorem divisor_cases (y : Binary64) :
    (y.isFinite ∧ .zero < y) ∨ y = .zero ∨ y.isNaN ∨ y.isInfinite ∨ y.negative := by
  by_cases h : y.isNaN ∨ y.isInfinite ∨ y.negative
  · exact .inr (.inr h)
  · obtain ⟨hnan, hinf, hsign⟩ :
        y.isNaN = false ∧ y.isInfinite = false ∧ y.negative = false := by simpa using h
    cases hzero : y.isZero with
    | true =>
      refine .inr (.inl ?_)
      rw [← y.ofMagnitude_magnitude, hsign, of_decide_eq_true hzero]
      rfl
    | false =>
      have hfin := (isFinite_or_isInfinite hnan).resolve_right (by simp [hinf])
      exact .inl ⟨hfin, zero_lt_of_negative hnan hsign hzero⟩

theorem toInt_ofRatio (num den : Nat) :
    (ofRatio false num den).toInt = units (nearest num den) := by
  rw [toInt_eq_units (negative_ofRatio _ _ _), ofRatio,
    magnitude_ofMagnitude _ (nearest_lt num den)]

theorem ofRatio_le_ofRatio {a b den : Nat} (h : a ≤ b) :
    ofRatio false a den ≤ ofRatio false b den := by
  refine le_iff.2 ⟨isNaN_ofRatio _ _ _, isNaN_ofRatio _ _ _, ?_⟩
  rw [toInt_ofRatio, toInt_ofRatio]
  exact_mod_cast units_nearest_mono h

/-- From zero up, the order of two numbers is that of their values in units. -/
theorem units_le_units {x y : Binary64} (hx : x.negative = false) (hy : y.negative = false)
    (h : x ≤ y) : units x.magnitude ≤ units y.magnitude := by
  have hle := (le_iff.1 h).2.2
  rw [toInt_eq_units hx, toInt_eq_units hy] at hle
  exact_mod_cast hle

/-- Where half of a double is above zero, so is half of every larger one. -/
theorem zero_lt_div_two {x y : Binary64} (hx : x.isFinite) (hy : y.isFinite)
    (hxs : x.negative = false) (hys : y.negative = false) (h : x ≤ y) (hhalf : .zero < x / .two) :
    .zero < y / .two := by
  rw [div_two_of_isFinite hx, hxs] at hhalf
  rw [div_two_of_isFinite hy, hys]
  have hvalue := Nat.mul_le_mul_right unitsPerOne (units_le_units hxs hys h)
  exact lt_of_lt_of_le hhalf (ofRatio_le_ofRatio hvalue)

/-- Above zero, dividing by one and the same number keeps the order. -/
theorem div_le_div_right {x y z : Binary64} (h : x ≤ y) (hx : .zero < x) (hz : z.isFinite)
    (hpos : .zero < z) : x / z ≤ y / z := by
  have hy : .zero < y := lt_of_lt_of_le hx h
  obtain ⟨hxs, -⟩ := negative_and_isZero_of_zero_lt hx
  obtain ⟨hys, -⟩ := negative_and_isZero_of_zero_lt hy
  rcases y.isFinite_or_eq_infinity with hfin | hnan | rfl | rfl
  · rw [div_of_isFinite (isFinite_of_le hxs h hfin) hz hpos, div_of_isFinite hfin hz hpos, hxs, hys]
    exact ofRatio_le_ofRatio (Nat.mul_le_mul_right unitsPerOne (units_le_units hxs hys h))
  · exact absurd hnan (by simp [(lt_iff.1 hy).2.1])
  · rw [infinity_div hz hpos]
    exact le_infinity (negative_div hxs (lt_iff.1 hx).2.1 hz hpos).2
  · cases hys

/-! ## Whole parts -/

theorem floorWord_eq {x : Binary64} (hx : x.isNaN = false) :
    x.floorWord = min (x.toInt.toNat / unitsPerOne) 0xffffffffffffffff := by
  unfold floorWord toInt
  cases hs : x.negative <;> simp [hx]

theorem floorWord_mono {x y : Binary64} (h : x ≤ y) : x.floorWord ≤ y.floorWord := by
  obtain ⟨hx, hy, hle⟩ := le_iff.1 h
  have hwhole : x.toInt.toNat / unitsPerOne ≤ y.toInt.toNat / unitsPerOne :=
    Nat.div_le_div_right (Int.toNat_le_toNat hle)
  rw [floorWord_eq hx, floorWord_eq hy]
  omega

theorem floorWord_infinity : infinity.floorWord = 0xffffffffffffffff := by decide +kernel

end SignalLights.Binary64
