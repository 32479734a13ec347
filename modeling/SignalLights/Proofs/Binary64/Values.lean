import Mathlib.Algebra.Order.Floor.Semifield
import Mathlib.Data.Rat.Floor
import Mathlib.Tactic.FieldSimp
import Mathlib.Tactic.Linarith
import Mathlib.Tactic.Positivity
import SignalLights.Proofs.Binary64.Bounds

/-!
# Values and rounding errors

The value of a double is a rational number (`value`), and a rational number has a nearest double
(`ofRat`). From zero up, sums and quotients are the doubles nearest to the exact results
(`add_eq_ofRat`, `div_eq_ofRat`). Up to 2²¹ rounding goes no further than 2⁻³²
(`abs_value_ofRat_sub_le`), and of any number no further than one part in 2⁵², or one unit
(`value_ofRat_le`, `le_value_ofRat`).
-/

namespace SignalLights.Binary64

/-- The value of a double; an infinity counts as 2¹⁰²⁴. -/
def value (x : Binary64) : ℚ := x.toInt / unitsPerOne

/-- The double nearest to a rational number. -/
def ofRat (r : ℚ) : Binary64 := ofRatio (decide (r < 0)) (r.num.natAbs * unitsPerOne) r.den

theorem cast_unitsPerOne_pos : (0 : ℚ) < unitsPerOne := Nat.cast_pos.2 unitsPerOne_pos

/-! ## Values -/

section Values

variable {x y : Binary64}

theorem value_of_negative (hx : x.negative = false) :
    x.value = units x.magnitude / unitsPerOne := by
  rw [value, toInt_eq_units hx, Int.cast_natCast]

@[simp] theorem value_zero : zero.value = 0 := by
  rw [value_of_negative rfl, show zero.magnitude = 0 from rfl, units_zero, Nat.cast_zero, zero_div]

theorem value_nonneg (hx : x.negative = false) : 0 ≤ x.value := by
  rw [value_of_negative hx]
  exact div_nonneg (Nat.cast_nonneg _) cast_unitsPerOne_pos.le

/-- The order of two numbers is that of their values. -/
theorem le_iff_value (hx : x.isNaN = false) (hy : y.isNaN = false) : x ≤ y ↔ x.value ≤ y.value := by
  rw [le_iff, value, value, div_le_div_iff_of_pos_right cast_unitsPerOne_pos, Int.cast_le]
  simp [hx, hy]

/-- Without a sign, a double is known by its value. -/
theorem eq_of_value_eq (hx : x.negative = false) (hy : y.negative = false)
    (h : x.value = y.value) : x = y := by
  have hunits : units x.magnitude = units y.magnitude := by
    rw [value_of_negative hx, value_of_negative hy,
      div_left_inj' cast_unitsPerOne_pos.ne'] at h
    exact_mod_cast h
  rw [← x.ofMagnitude_magnitude, ← y.ofMagnitude_magnitude, hx, hy,
    units_strictMono.injective hunits]

/-- A finite double is below 2¹⁰²⁴. -/
theorem value_lt (hx : x.isFinite) : x.value < 2 ^ 1024 := by
  obtain ⟨k, hk⟩ : ∃ k : Nat, k = 1024 := ⟨_, rfl⟩
  have hlast : units infinityWord = 2 ^ k * unitsPerOne := by
    rw [units_infinityWord, unitsPerOne_eq, hk, ← Nat.pow_add]
  have hunits := units_strictMono (of_decide_eq_true hx : x.magnitude < infinityWord)
  have hint : x.toInt < (2 ^ k * unitsPerOne : Nat) := by
    rw [toInt]
    split <;> omega
  rw [value, div_lt_iff₀ cast_unitsPerOne_pos, ← hk]
  exact_mod_cast hint

theorem isFinite_of_value_lt (hsign : x.negative = false)
    (h : x.value < 2 ^ 64) : x.isFinite := by
  have hlast : 2 ^ 64 * unitsPerOne ≤ units infinityWord := by
    rw [unitsPerOne_eq, ← pow_add]
    exact two_pow_le_units_infinityWord (by decide)
  have hunits : units x.magnitude < 2 ^ 64 * unitsPerOne := by
    rw [value_of_negative hsign, div_lt_iff₀ cast_unitsPerOne_pos] at h
    exact_mod_cast h
  exact decide_eq_true (units_strictMono.lt_iff_lt.1 (hunits.trans_le hlast))

/-- A whole part in range is the whole part of the value. -/
theorem floorWord_eq_floor (hx : x.isNaN = false) (hsign : x.negative = false)
    (h : x.value < 2 ^ 64) : x.floorWord = ⌊x.value⌋₊ := by
  have hfloor : ⌊x.value⌋₊ < 2 ^ 64 := by
    rw [Nat.floor_lt (value_nonneg hsign)]
    exact_mod_cast h
  have hwhole : x.toInt.toNat / unitsPerOne = ⌊x.value⌋₊ := by
    rw [toInt_eq_units hsign, Int.toNat_natCast, value_of_negative hsign, Nat.floor_div_eq_div]
  rw [floorWord_eq hx, hwhole]
  omega

end Values

/-! ## The exact results -/

section Ratios

variable {r : ℚ}

theorem cast_natAbs_num (h : 0 ≤ r) : (r.num.natAbs : ℚ) = r * r.den := by
  rw [Nat.cast_natAbs, abs_of_nonneg (Rat.num_nonneg.2 h), Rat.mul_den_eq_num]

/-- Equal ratios, as a rational number has them and as whole numbers. -/
theorem mul_den_eq {num den one : Nat} (hd : 0 < den) (hone : 0 < one)
    (hr : r = num / (den * one)) : num * r.den = r.num.natAbs * one * den := by
  have hd' : (0 : ℚ) < den := Nat.cast_pos.2 hd
  have hone' : (0 : ℚ) < one := Nat.cast_pos.2 hone
  have hnonneg : 0 ≤ r := by
    rw [hr]
    positivity
  have hnum : (num : ℚ) = r * (den * one) := by
    rw [hr]
    field_simp
  have hproduct : (num : ℚ) * r.den = r.num.natAbs * one * den := by
    rw [cast_natAbs_num hnonneg, hnum]
    ring
  exact_mod_cast hproduct

theorem ofRat_of_nonneg (h : 0 ≤ r) :
    ofRat r = ofRatio false (r.num.natAbs * unitsPerOne) r.den := by
  rw [ofRat, decide_eq_false (not_lt.2 h)]

theorem ofRatio_eq_ofRat {num den : Nat} (hd : 0 < den) (hr : r = num / (den * unitsPerOne)) :
    ofRatio false num den = ofRat r := by
  have hnonneg : 0 ≤ r := by
    rw [hr]
    exact div_nonneg (Nat.cast_nonneg _)
      (mul_nonneg (Nat.cast_nonneg _) cast_unitsPerOne_pos.le)
  rw [ofRat_of_nonneg hnonneg, ofRatio, ofRatio,
    nearest_congr hd r.den_pos (mul_den_eq hd unitsPerOne_pos hr)]

end Ratios

theorem div_eq_ofRat {x y : Binary64} (hx : x.isFinite) (hsign : x.negative = false)
    (hy : y.isFinite) (hpos : .zero < y) : x / y = ofRat (x.value / y.value) := by
  have hone := cast_unitsPerOne_pos.ne'
  have hunits : (units y.magnitude : ℚ) ≠ 0 := Nat.cast_ne_zero.2 (units_pos hpos).ne'
  rw [div_of_isFinite hx hy hpos, hsign]
  apply ofRatio_eq_ofRat (units_pos hpos)
  rw [value_of_negative hsign, value_of_negative (negative_and_isZero_of_zero_lt hpos).1,
    Nat.cast_mul]
  generalize (unitsPerOne : ℚ) = one at hone ⊢
  field_simp

theorem add_eq_ofRat {x y : Binary64} (hx : x.isFinite) (hxs : x.negative = false)
    (hy : y.isFinite) (hys : y.negative = false) : x + y = ofRat (x.value + y.value) := by
  have hsum : x.toInt + y.toInt = ((units x.magnitude + units y.magnitude : Nat) : Int) := by
    rw [toInt_eq_units hxs, toInt_eq_units hys]
    rfl
  have hround : x + y = ofRatio false (units x.magnitude + units y.magnitude) 1 := by
    rw [add_of_isFinite hx hy, hsum]
    split
    · next hzero =>
      rw [Int.natCast_eq_zero.1 hzero, hxs, ofRatio, nearest_zero]
      rfl
    · rw [Int.natAbs_natCast, decide_eq_false (by omega)]
  rw [hround]
  apply ofRatio_eq_ofRat Nat.one_pos
  rw [value_of_negative hxs, value_of_negative hys, Nat.cast_one, one_mul, Nat.cast_add, add_div]

/-! ## Rounding errors -/

section Errors

variable {r : ℚ}

theorem negative_ofRat (h : 0 ≤ r) : (ofRat r).negative = false := by
  rw [ofRat_of_nonneg h, negative_ofRatio]

theorem isNaN_ofRat (r : ℚ) : (ofRat r).isNaN = false := isNaN_ofRatio _ _ _

theorem value_ofRat (h : 0 ≤ r) :
    (ofRat r).value = units (nearest (r.num.natAbs * unitsPerOne) r.den) / unitsPerOne := by
  rw [ofRat_of_nonneg h, value, toInt_ofRatio, Int.cast_natCast]

/-- What holds of a ratio in units and of what it is rounded to holds of their values. -/
theorem value_le_of_units {a b c rounded one : Nat} (hr : 0 ≤ r) (hone : 0 < one)
    (h : a * (rounded * r.den) ≤ b * (r.num.natAbs * one) + c * r.den) :
    (a * (rounded / one) : ℚ) ≤ b * r + c / one := by
  have hone' : (0 : ℚ) < one := Nat.cast_pos.2 hone
  have hden : (0 : ℚ) < r.den := Nat.cast_pos.2 r.den_pos
  have h' : (a * (rounded * r.den) : ℚ) ≤ b * (r * r.den * one) + c * r.den := by
    rw [← cast_natAbs_num hr]
    exact_mod_cast h
  apply le_of_mul_le_mul_right _ (mul_pos hone' hden)
  calc (a * (rounded / one) * (one * r.den) : ℚ)
      = a * (rounded * r.den) := by field_simp
    _ ≤ b * (r * r.den * one) + c * r.den := h'
    _ = (b * r + c / one) * (one * r.den) := by field_simp

theorem le_value_of_units {a b c rounded one : Nat} (hr : 0 ≤ r) (hone : 0 < one)
    (h : a * (r.num.natAbs * one) ≤ b * (rounded * r.den) + c * r.den) :
    (a * r : ℚ) ≤ b * (rounded / one) + c / one := by
  have hone' : (0 : ℚ) < one := Nat.cast_pos.2 hone
  have hden : (0 : ℚ) < r.den := Nat.cast_pos.2 r.den_pos
  have h' : (a * (r * r.den * one) : ℚ) ≤ b * (rounded * r.den) + c * r.den := by
    rw [← cast_natAbs_num hr]
    exact_mod_cast h
  apply le_of_mul_le_mul_right _ (mul_pos hone' hden)
  calc (a * r * (one * r.den) : ℚ)
      = a * (r * r.den * one) := by ring
    _ ≤ b * (rounded * r.den) + c * r.den := h'
    _ = (b * (rounded / one) + c / one) * (one * r.den) := by field_simp

theorem value_ofRat_le (h : 0 ≤ r) :
    2 ^ 52 * (ofRat r).value ≤ (2 ^ 52 + 1) * r + 2 ^ 52 / unitsPerOne := by
  have hround := value_le_of_units h unitsPerOne_pos
    (units_nearest_mul_le (r.num.natAbs * unitsPerOne) r.den_pos)
  rw [value_ofRat h]
  exact_mod_cast hround

theorem le_value_ofRat (h : 0 ≤ r) (hfin : (ofRat r).isFinite) :
    2 ^ 52 * r ≤ (2 ^ 52 + 1) * (ofRat r).value + 2 ^ 52 / unitsPerOne := by
  have hrange : nearest (r.num.natAbs * unitsPerOne) r.den < infinityWord := by
    rw [ofRat_of_nonneg h, isFinite, ofRatio, magnitude_ofMagnitude _ (nearest_lt _ _)] at hfin
    exact of_decide_eq_true hfin
  have hround := le_value_of_units h unitsPerOne_pos (le_units_nearest_mul r.den_pos hrange)
  rw [value_ofRat h]
  exact_mod_cast hround

/-- Below 2²¹ there is a double every 2⁻³² at least. -/
theorem abs_value_ofRat_sub_le (h : 0 ≤ r) (hr : r < 2 ^ 21) :
    |(ofRat r).value - r| ≤ 1 / 2 ^ 32 := by
  obtain ⟨k, hk⟩ : ∃ k : Nat, k = 1042 := ⟨_, rfl⟩
  have hgrid : unitsPerOne = 2 ^ 32 * 2 ^ k := by rw [unitsPerOne_eq, hk, ← Nat.pow_add]
  have hplace : 2 * binade * 2 ^ k ≤ units infinityWord := by
    rw [two_mul_binade, ← pow_add, hk]
    exact two_pow_le_units_infinityWord (by decide)
  have hstep : ((2 ^ k : Nat) / unitsPerOne : ℚ) = 1 / 2 ^ 32 := by
    rw [hgrid, Nat.cast_mul]
    have hpos : (0 : ℚ) < (2 ^ k : Nat) := Nat.cast_pos.2 (Nat.two_pow_pos k)
    field_simp
    norm_num
  have hrange : r.num.natAbs * unitsPerOne < 2 * binade * (2 ^ k * r.den) := by
    have hnum : (r.num.natAbs : ℚ) < 2 ^ 21 * r.den := by
      rw [cast_natAbs_num h]
      exact mul_lt_mul_of_pos_right hr (Nat.cast_pos.2 r.den_pos)
    have hnum' : r.num.natAbs < 2 ^ 21 * r.den := by exact_mod_cast hnum
    have hbits : 2 * binade * (2 ^ k * r.den) = 2 ^ 21 * r.den * (2 ^ 32 * 2 ^ k) := by
      rw [show binade = 2 ^ 20 * 2 ^ 32 by decide]
      ring
    rw [hbits, hgrid]
    exact Nat.mul_lt_mul_of_pos_right hnum' (Nat.mul_pos (by decide) (Nat.two_pow_pos k))
  obtain ⟨hup, hdown⟩ := nearest_within r.den_pos hplace hrange
  have hup' := value_le_of_units (a := 1) (b := 1) h unitsPerOne_pos
    (by simpa only [Nat.one_mul] using hup)
  have hdown' := le_value_of_units (a := 1) (b := 1) h unitsPerOne_pos
    (by simpa only [Nat.one_mul] using hdown)
  rw [← value_ofRat h, hstep, Nat.cast_one, one_mul, one_mul] at hup' hdown'
  rw [abs_le]
  constructor <;> linarith

end Errors

end SignalLights.Binary64
