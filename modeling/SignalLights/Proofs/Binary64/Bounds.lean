import Mathlib.Tactic.Ring
import SignalLights.Proofs.Binary64.Interval
import SignalLights.Proofs.Binary64.Products

/-!
# How far rounding goes

Rounding passes no double (`nearest_le_of_le`, `le_nearest_of_le`), so what does not exceed a number
of up to 53 bits, times a power of two, is not rounded past it (`units_nearest_le`). Otherwise
rounding moves a number by at most one part in 2⁵², or one unit (`units_nearest_mul_le`,
`le_units_nearest_mul`), and by no more than the distance of two doubles where it is
(`nearest_within`), so what is rounded to one double was close together (`mul_le_of_nearest_eq`).
Whole numbers of up to 53 bits and halves of all but the least doubles are exact.
-/

namespace SignalLights.Binary64

/-! ## Exact values -/

/-- A number of up to 53 bits, times a power of two, is the value of a magnitude. -/
theorem exists_units_eq {m : Nat} (hm : m ≤ 2 * binade) (k : Nat) : ∃ w, units w = m * 2 ^ k := by
  induction k generalizing m with
  | zero => exact ⟨0 * binade + m, units_grid hm (.inl rfl)⟩
  | succ k ih =>
    rcases Nat.lt_or_ge m binade with hsmall | hlarge
    · obtain ⟨w, hw⟩ := ih (m := 2 * m) (by omega)
      exact ⟨w, by rw [hw, Nat.pow_succ]; ring⟩
    · exact ⟨(k + 1) * binade + m, units_grid hm (.inr hlarge)⟩

/-- Rounding passes no double on the way up. -/
theorem nearest_le_of_le {w num den : Nat} (hd : 0 < den) (h : num ≤ units w * den) :
    nearest num den ≤ w := by
  rcases Nat.le_total w infinityWord with hw | hw
  · exact (nearest_mono h).trans (nearest_units hw hd).le
  · exact (nearest_le num den).trans hw

/-- Nor on the way down. -/
theorem le_nearest_of_le {w num den : Nat} (hw : w ≤ infinityWord) (hd : 0 < den)
    (h : units w * den ≤ num) : w ≤ nearest num den :=
  (nearest_units hw hd).ge.trans (nearest_mono h)

/-- A whole number of up to 53 bits is a double. -/
theorem units_ofNat {n : Nat} (hn : n ≤ 2 * binade) :
    units (ofNat n).magnitude = n * unitsPerOne := by
  obtain ⟨w, hw⟩ := exists_units_eq hn 1074
  have hle : w ≤ infinityWord := by
    refine units_strictMono.le_iff_le.1 ?_
    have hlast : 2 * binade * 2 ^ 1074 ≤ units infinityWord := by
      rw [two_mul_binade, ← pow_add]
      exact two_pow_le_units_infinityWord (by decide)
    rw [hw]
    exact Nat.le_trans (Nat.mul_le_mul_right _ hn) hlast
  have hnearest : nearest (n * unitsPerOne) 1 = w := by
    have h := nearest_units hle Nat.one_pos
    rwa [hw, Nat.mul_one, ← unitsPerOne_eq] at h
  rw [ofNat, ofRatio, magnitude_ofMagnitude _ (nearest_lt _ _), hnearest, hw, unitsPerOne_eq]

/-- And it is its own whole part. -/
theorem floorWord_ofNat {n : Nat} (hn : n ≤ 2 * binade) : (ofNat n).floorWord = n := by
  have hword : 2 * binade ≤ 0xffffffffffffffff := by decide
  have hsign : (ofNat n).negative = false := negative_ofRatio _ _ _
  have hnumber : (ofNat n).isNaN = false := isNaN_ofRatio _ _ _
  rw [floorWord_eq hnumber, toInt_eq_units hsign, Int.toNat_natCast, units_ofNat hn,
    Nat.mul_div_cancel _ unitsPerOne_pos]
  exact Nat.min_eq_left (hn.trans hword)

/-- A quotient that reaches a whole number is not rounded below it. -/
theorem ofNat_le_div {x y : Binary64} {n : Nat} (hx : x.isFinite) (hsign : x.negative = false)
    (hy : y.isFinite) (hpos : .zero < y) (h : n * units y.magnitude ≤ units x.magnitude) :
    .ofNat n ≤ x / y := by
  have hratio : ofNat n =
      ofRatio false (n * unitsPerOne * units y.magnitude) (units y.magnitude) := by
    have hscale := nearest_scale (n * unitsPerOne) 1 (units_pos hpos)
    rw [Nat.one_mul] at hscale
    rw [ofNat, ofRatio, ofRatio, hscale]
  rw [hratio, div_of_isFinite hx hy hpos, hsign, Nat.mul_right_comm]
  exact ofRatio_le_ofRatio (Nat.mul_le_mul_right unitsPerOne h)

/-- An exponent more, twice the value. -/
theorem units_add_binade {w : Nat} (h : binade ≤ w) : units (w + binade) = 2 * units w := by
  rcases lt_binade_or_eq w with hlt | ⟨e, m, hm, rfl⟩
  · omega
  · have hw : (e + 1) * binade + m + binade = (e + 1 + 1) * binade + m := by
      rw [Nat.succ_mul (e + 1)]
      omega
    rw [hw, units_binade_mul_add _ hm, units_binade_mul_add _ hm, Nat.pow_succ]
    ring

/-- Taking half of a double and dividing it by two are rounded alike. -/
theorem mul_half {x : Binary64} (hx : x.isFinite) : x * .half = x / .two := by
  have hsign : half.negative = false := by decide
  have hpos : 0 < units half.magnitude := by
    have hone := two_mul_units_half ▸ unitsPerOne_pos
    omega
  have hratio : nearest (units x.magnitude * units half.magnitude) unitsPerOne =
      nearest (units x.magnitude * unitsPerOne) (units two.magnitude) := by
    rw [units_two, ← two_mul_units_half]
    apply nearest_congr (by omega) (by omega)
    ring
  rw [mul_of_isFinite hx (by decide), div_two_of_isFinite hx, ofRatio, ofRatio, hratio, hsign,
    Bool.bne_false]

/-- Half of a double with an exponent to give is a double. -/
theorem two_mul_units_div_two {x : Binary64} (hx : x.isFinite) (h : 2 * binade ≤ x.magnitude) :
    2 * units (x / .two).magnitude = units x.magnitude := by
  have hmagnitude : x.magnitude < infinityWord := of_decide_eq_true hx
  have hvalue : units x.magnitude = 2 * units (x.magnitude - binade) := by
    have hsplit := units_add_binade (w := x.magnitude - binade) (by omega)
    rwa [Nat.sub_add_cancel (by omega)] at hsplit
  have hnearest : nearest (units x.magnitude * unitsPerOne) (units two.magnitude) =
      x.magnitude - binade := by
    rw [units_two, nearest_scale _ _ unitsPerOne_pos, hvalue, Nat.mul_comm 2]
    exact nearest_units (by omega) (by decide)
  rw [div_two_of_isFinite hx, ofRatio, magnitude_ofMagnitude _ (nearest_lt _ _), hnearest, hvalue]

/-! ## Rounding up -/

/-- What does not exceed a double is not rounded past it. -/
theorem units_nearest_le {m k num den : Nat} (hm : m ≤ 2 * binade) (hd : 0 < den)
    (h : num ≤ m * 2 ^ k * den) : units (nearest num den) ≤ m * 2 ^ k := by
  obtain ⟨w, hw⟩ := exists_units_eq hm k
  rw [← hw] at h ⊢
  exact units_strictMono.monotone (nearest_le_of_le hd h)

/-- The next double is no more than one part in 2⁵² away, or one unit. -/
theorem units_succ_le (w : Nat) : 2 ^ 52 * units (w + 1) ≤ (2 ^ 52 + 1) * units w + 2 ^ 52 := by
  obtain ⟨e, m, rfl, hm, he⟩ := exists_grid w
  have hnext : units (e * binade + m + 1) = m * 2 ^ e + 2 ^ e := by
    rw [Nat.add_assoc, units_grid hm (by omega), Nat.succ_mul]
  have hplace : e = 0 ∨ 2 ^ 52 * 2 ^ e ≤ m * 2 ^ e := he.imp_right (Nat.mul_le_mul_right _)
  rw [hnext, units_grid hm.le he]
  rcases hplace with rfl | hplace <;> omega

/-- A ratio is rounded up by no more than that. -/
theorem units_nearest_mul_le (num : Nat) {den : Nat} (hd : 0 < den) :
    2 ^ 52 * (units (nearest num den) * den) ≤ (2 ^ 52 + 1) * num + 2 ^ 52 * den := by
  cases hn : nearest num den with
  | zero => simp
  | succ w =>
    have hw : w + 1 ≤ infinityWord := hn ▸ nearest_le num den
    have hbelow : units w * den ≤ num := by
      by_contra hlt
      have hround : nearest num den ≤ w := nearest_le_of_le hd (by omega)
      omega
    calc 2 ^ 52 * (units (w + 1) * den)
        = 2 ^ 52 * units (w + 1) * den := (Nat.mul_assoc _ _ _).symm
      _ ≤ ((2 ^ 52 + 1) * units w + 2 ^ 52) * den := Nat.mul_le_mul_right _ (units_succ_le w)
      _ = (2 ^ 52 + 1) * (units w * den) + 2 ^ 52 * den := by ring
      _ ≤ (2 ^ 52 + 1) * num + 2 ^ 52 * den := by omega

/-- Nor is it rounded down by more, unless it is out of range. -/
theorem le_units_nearest_mul {num den : Nat} (hd : 0 < den)
    (hfin : nearest num den < infinityWord) :
    2 ^ 52 * num ≤ (2 ^ 52 + 1) * (units (nearest num den) * den) + 2 ^ 52 * den := by
  generalize hw : nearest num den = w at hfin ⊢
  have hnext : num ≤ units (w + 1) * den := by
    by_contra hreached
    have hround : w + 1 ≤ nearest num den := le_nearest_of_le hfin hd (by omega)
    omega
  calc 2 ^ 52 * num
      ≤ 2 ^ 52 * (units (w + 1) * den) := Nat.mul_le_mul_left _ hnext
    _ = 2 ^ 52 * units (w + 1) * den := (Nat.mul_assoc _ _ _).symm
    _ ≤ ((2 ^ 52 + 1) * units w + 2 ^ 52) * den := Nat.mul_le_mul_right _ (units_succ_le w)
    _ = (2 ^ 52 + 1) * (units w * den) + 2 ^ 52 * den := by ring

theorem units_nearest_le_add (num : Nat) :
    2 ^ 52 * units (nearest num 1) ≤ (2 ^ 52 + 1) * num + 2 ^ 52 := by
  have h := units_nearest_mul_le num Nat.one_pos
  rwa [Nat.mul_one, Nat.mul_one] at h

/-- Numbers rounded to one finite double are no further apart than three parts in 2⁵², or four
units. -/
theorem mul_le_of_nearest_eq {a b : Nat} (h : nearest a 1 = nearest b 1)
    (hfin : nearest b 1 < infinityWord) : 2 ^ 52 * b ≤ (2 ^ 52 + 3) * a + 2 ^ 54 := by
  have habove := le_units_nearest_mul Nat.one_pos hfin
  have hbelow := units_nearest_le_add a
  rw [h] at hbelow
  omega

/-- Within 53 bits of a power of two, rounding goes no further than that power. -/
theorem nearest_within {k num den : Nat} (hd : 0 < den)
    (hk : 2 * binade * 2 ^ k ≤ units infinityWord) (h : num < 2 * binade * (2 ^ k * den)) :
    units (nearest num den) * den ≤ num + 2 ^ k * den ∧
      num ≤ units (nearest num den) * den + 2 ^ k * den := by
  have hstep : 0 < 2 ^ k * den := Nat.mul_pos (Nat.two_pow_pos k) hd
  obtain ⟨m, hm⟩ : ∃ m, num / (2 ^ k * den) = m := ⟨_, rfl⟩
  have hbits : m < 2 * binade := hm ▸ (Nat.div_lt_iff_lt_mul hstep).2 h
  have hlow : m * (2 ^ k * den) ≤ num := hm ▸ Nat.div_mul_le_self _ _
  have hhigh : num < (m + 1) * (2 ^ k * den) := (Nat.div_lt_iff_lt_mul hstep).1 (by omega)
  have hnext : (m + 1) * (2 ^ k * den) = m * (2 ^ k * den) + 2 ^ k * den := Nat.succ_mul _ _
  have hup : units (nearest num den) * den ≤ (m + 1) * (2 ^ k * den) := by
    rw [← Nat.mul_assoc]
    apply Nat.mul_le_mul_right
    apply units_nearest_le hbits hd
    rw [Nat.mul_assoc]
    exact hhigh.le
  have hdown : m * (2 ^ k * den) ≤ units (nearest num den) * den := by
    obtain ⟨w, hw⟩ := exists_units_eq hbits.le k
    have hplace : w ≤ infinityWord := by
      apply units_strictMono.le_iff_le.1
      rw [hw]
      exact (Nat.mul_le_mul_right _ hbits.le).trans hk
    rw [← Nat.mul_assoc, ← hw]
    apply Nat.mul_le_mul_right
    apply units_strictMono.monotone
    apply le_nearest_of_le hplace hd
    rw [hw, Nat.mul_assoc]
    exact hlow
  omega

theorem roundUnits_of_nonneg {z : Int} (hz : 0 ≤ z) :
    roundUnits z = units (nearest z.toNat 1) := by
  have hvalue : z.natAbs = z.toNat := by omega
  rw [roundUnits, if_neg (by omega), hvalue]

/-- A sum from zero up is rounded up no further than that. -/
theorem toInt_add_le {x y : Binary64} (hx : x.isNaN = false) (hxs : x.negative = false)
    (hy : y.isFinite) (hys : y.negative = false) :
    2 ^ 52 * (x + y).toInt ≤ (2 ^ 52 + 1) * (x.toInt + y.toInt) + 2 ^ 52 := by
  have hx' := toInt_nonneg hxs
  have hy' := toInt_nonneg hys
  rcases isFinite_or_isInfinite hx with hfin | hinf
  · have hround := units_nearest_le_add (x.toInt + y.toInt).toNat
    rw [toInt_add hfin hy, roundUnits_of_nonneg (by omega)]
    omega
  · rw [add_of_isInfinite hinf hy]
    omega

end SignalLights.Binary64
