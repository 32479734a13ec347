import Mathlib.Algebra.Group.Nat.Defs
import Mathlib.Order.Monotone.Basic
import SignalLights.Binary64.Arithmetic

/-!
# Order and rounding

The value of a magnitude grows with the magnitude, and rounding keeps the order of the values
rounded. So a sum of finite terms is the rounded sum of their values (`toInt_add`), and taking the
same finite number from two others keeps their order (`sub_le_sub_right`).
-/

namespace SignalLights.Binary64

/-! ## Values of magnitudes -/

theorem two_mul_binade : 2 * binade = 2 ^ 53 := by decide

theorem unitsPerOne_eq : unitsPerOne = 2 ^ 1074 := by decide +kernel

theorem unitsPerOne_pos : 0 < unitsPerOne := by
  rw [unitsPerOne_eq]
  apply Nat.two_pow_pos

theorem units_binade_mul_add (e : Nat) {m : Nat} (hm : m < binade) :
    units ((e + 1) * binade + m) = (binade + m) * 2 ^ e := by
  have hw : ¬ (e + 1) * binade + m < binade := by
    have : binade ≤ (e + 1) * binade := Nat.le_mul_of_pos_left binade (Nat.succ_pos e)
    omega
  have hq : ((e + 1) * binade + m) / binade = e + 1 := by
    rw [Nat.add_comm, Nat.add_mul_div_right _ _ (by decide), Nat.div_eq_of_lt hm, Nat.zero_add]
  have hr : ((e + 1) * binade + m) % binade = m := by
    rw [Nat.add_comm, Nat.add_mul_mod_self_right, Nat.mod_eq_of_lt hm]
  rw [units, if_neg hw, hq, hr, Nat.shiftLeft_eq, Nat.add_sub_cancel]

/-- The powers of two are where the exponents begin. -/
theorem units_mul_binade (e : Nat) : units ((e + 1) * binade) = 2 ^ (e + 52) := by
  rw [← Nat.add_zero ((e + 1) * binade), units_binade_mul_add e (by decide), Nat.add_zero,
    Nat.pow_add, Nat.mul_comm]
  rfl

theorem units_infinityWord : units infinityWord = 2 ^ (2046 + 52) := units_mul_binade 2046

theorem two_pow_le_units_infinityWord {n : Nat} (h : n ≤ 2046 + 52) :
    2 ^ n ≤ units infinityWord := by
  rw [units_infinityWord]
  apply Nat.pow_le_pow_right
  · decide
  · exact h

theorem units_two : units two.magnitude = 2 * unitsPerOne := by
  rw [show two.magnitude = (1023 + 1) * binade from rfl, units_mul_binade, unitsPerOne_eq,
    ← Nat.pow_succ']

theorem two_mul_units_half : 2 * units half.magnitude = unitsPerOne := by decide +kernel

/-- A magnitude is subnormal, or has an exponent and a place among those that share it. -/
theorem lt_binade_or_eq (w : Nat) :
    w < binade ∨ ∃ e m, m < binade ∧ w = (e + 1) * binade + m := by
  rcases Nat.lt_or_ge w binade with h | h
  · exact .inl h
  · have hq : 1 ≤ w / binade := (Nat.one_le_div_iff (by decide)).2 h
    refine .inr ⟨w / binade - 1, w % binade, Nat.mod_lt _ (by decide), ?_⟩
    rw [Nat.sub_add_cancel hq, Nat.div_add_mod']

theorem units_lt_units_succ (w : Nat) : units w < units (w + 1) := by
  rcases lt_binade_or_eq w with h | ⟨e, m, hm, rfl⟩
  · rcases Nat.lt_or_eq_of_le (Nat.succ_le_of_lt h) with h' | h'
    · rw [units_of_lt h, units_of_lt h']
      exact Nat.lt_succ_self w
    · have hu : units (w + 1) = binade := by
        rw [show w + 1 = (0 + 1) * binade + 0 by simpa using h',
          units_binade_mul_add 0 (by decide)]
        simp
      rw [units_of_lt h, hu]
      exact h
  · rcases Nat.lt_or_eq_of_le (Nat.succ_le_of_lt hm) with hm' | hm'
    · rw [units_binade_mul_add e hm, Nat.add_assoc, units_binade_mul_add e hm']
      exact Nat.mul_lt_mul_of_pos_right (by omega) (Nat.two_pow_pos e)
    · -- the next magnitude opens the next exponent
      have hw : (e + 1) * binade + m + 1 = (e + 1 + 1) * binade + 0 := by
        have hs : (e + 1 + 1) * binade = (e + 1) * binade + binade := Nat.succ_mul (e + 1) binade
        omega
      rw [hw, units_binade_mul_add e hm, units_binade_mul_add (e + 1) (by decide), Nat.pow_succ,
        Nat.mul_comm (2 ^ e), ← Nat.mul_assoc]
      exact Nat.mul_lt_mul_of_pos_right (by omega) (Nat.two_pow_pos e)

theorem units_strictMono : StrictMono units := strictMono_nat_of_lt_succ units_lt_units_succ

theorem units_le_two_pow {e w : Nat} (h : w ≤ (e + 1) * binade) : units w ≤ 2 ^ (e + 52) := by
  rw [← units_mul_binade]
  exact units_strictMono.monotone h

theorem two_pow_le_units {e w : Nat} (h : (e + 1) * binade ≤ w) : 2 ^ (e + 52) ≤ units w := by
  rw [← units_mul_binade]
  exact units_strictMono.monotone h

@[simp] theorem units_zero : units 0 = 0 := rfl

/-! ## Rounding a ratio -/

theorem lastPlace_mono {p q : Nat} (h : p ≤ q) : lastPlace p ≤ lastPlace q := by
  have hl : p.log2 ≤ q.log2 := by
    rcases Nat.eq_zero_or_pos p with rfl | hp
    · exact Nat.zero_le _
    · exact (Nat.le_log2 (by omega)).2 (Nat.le_trans (Nat.log2_self_le (by omega)) h)
  exact Nat.sub_le_sub_right hl 52

/-- With the last place kept, a quotient has at most 53 bits. -/
theorem roundHalfEven_lastPlace_le (num den : Nat) :
    roundHalfEven num (den <<< lastPlace (num / den)) ≤ 2 * binade := by
  have hlog : num / den < 2 ^ (53 + lastPlace (num / den)) := by
    refine Nat.lt_of_lt_of_le Nat.lt_log2_self (Nat.pow_le_pow_right (by decide) ?_)
    unfold lastPlace
    omega
  have hq : num / (den <<< lastPlace (num / den)) < 2 * binade := by
    rw [Nat.shiftLeft_eq, ← Nat.div_div_eq_div_mul, Nat.div_lt_iff_lt_mul (Nat.two_pow_pos _)]
    rwa [two_mul_binade, ← Nat.pow_add]
  exact Nat.le_trans (roundHalfEven_le _ _) hq

/-- Where places are dropped, a quotient keeps all of its 53 bits. -/
theorem binade_le_roundHalfEven {num den : Nat} (hk : 0 < lastPlace (num / den)) :
    binade ≤ roundHalfEven num (den <<< lastPlace (num / den)) := by
  have hne : num / den ≠ 0 := by rintro h; rw [h] at hk; exact absurd hk (by decide)
  have hlog : 2 ^ (52 + lastPlace (num / den)) ≤ num / den := by
    refine Nat.le_trans (Nat.pow_le_pow_right (by decide) ?_) (Nat.log2_self_le hne)
    unfold lastPlace at *
    omega
  refine Nat.le_trans ?_ (div_le_roundHalfEven _ _)
  rw [Nat.shiftLeft_eq, ← Nat.div_div_eq_div_mul, Nat.le_div_iff_mul_le (Nat.two_pow_pos _)]
  rwa [show binade = 2 ^ 52 by decide, ← Nat.pow_add]

theorem nearest_mono {a b den : Nat} (h : a ≤ b) : nearest a den ≤ nearest b den := by
  have hq : a / den ≤ b / den := Nat.div_le_div_right h
  have hk := lastPlace_mono hq
  suffices lastPlace (a / den) * binade + roundHalfEven a (den <<< lastPlace (a / den)) ≤
      lastPlace (b / den) * binade + roundHalfEven b (den <<< lastPlace (b / den)) by
    exact Nat.le_min.2 ⟨Nat.le_trans (Nat.min_le_left _ _) this, nearest_le a den⟩
  rcases Nat.lt_or_eq_of_le hk with hlt | heq
  · -- a gap of one exponent makes up for all places of the smaller quotient
    have ha := roundHalfEven_lastPlace_le a den
    have hb := binade_le_roundHalfEven (Nat.zero_lt_of_lt hlt)
    have hs := Nat.mul_le_mul_right binade (Nat.succ_le_of_lt hlt)
    rw [Nat.succ_mul] at hs
    omega
  · rw [heq]
    exact Nat.add_le_add_left (roundHalfEven_mono h) _

theorem units_nearest_mono {a b den : Nat} (h : a ≤ b) :
    units (nearest a den) ≤ units (nearest b den) :=
  units_strictMono.monotone (nearest_mono h)

@[simp] theorem nearest_zero : nearest 0 1 = 0 := by
  have h := nearest_units (Nat.zero_le infinityWord) Nat.one_pos
  rwa [units_zero] at h

/-! ## Rounding a whole number of units -/

/-- The value of the double nearest to a whole number of units. -/
def roundUnits (z : Int) : Int :=
  if z < 0 then -(units (nearest z.natAbs 1) : Int) else units (nearest z.natAbs 1)

theorem roundUnits_zero : roundUnits 0 = 0 := by
  simp only [roundUnits, Int.lt_irrefl, if_false, Int.natAbs_zero, nearest_zero, units_zero,
    Int.natCast_zero]

theorem roundUnits_mono {a b : Int} (h : a ≤ b) : roundUnits a ≤ roundUnits b := by
  unfold roundUnits
  split <;> split
  · have hround : units (nearest b.natAbs 1) ≤ units (nearest a.natAbs 1) :=
      units_nearest_mono (by omega)
    omega
  · omega
  · omega
  · have hround : units (nearest a.natAbs 1) ≤ units (nearest b.natAbs 1) :=
      units_nearest_mono (by omega)
    omega

/-! ## Sums and differences -/

@[simp] theorem magnitude_neg (x : Binary64) : (-x).magnitude = x.magnitude :=
  magnitude_ofMagnitude _ x.magnitude_lt

@[simp] theorem negative_neg (x : Binary64) : (-x).negative = !x.negative :=
  negative_ofMagnitude _ x.magnitude_lt

@[simp] theorem isFinite_neg (x : Binary64) : (-x).isFinite = x.isFinite := by
  simp [isFinite]

@[simp] theorem toInt_neg (x : Binary64) : (-x).toInt = -x.toInt := by
  unfold toInt
  cases h : x.negative <;> simp [h]

theorem isInfinite_eq_false_of_isFinite {x : Binary64} (h : x.isFinite) : x.isInfinite = false := by
  simp only [isFinite, isInfinite, decide_eq_true_eq, decide_eq_false_iff_not] at *
  omega

theorem isNaN_ofMagnitude_eq_false (s : Bool) {w : Nat} (h : w ≤ infinityWord) :
    (ofMagnitude s w).isNaN = false := by
  have hw : w < signPlace := Nat.lt_of_le_of_lt h (by decide)
  simp only [isNaN, magnitude_ofMagnitude s hw, decide_eq_false_iff_not]
  omega

theorem add_of_isFinite {x y : Binary64} (hx : x.isFinite) (hy : y.isFinite) :
    x + y = if x.toInt + y.toInt = 0 then ofMagnitude (x.negative && y.negative) 0
      else ofRatio (decide (x.toInt + y.toInt < 0)) (x.toInt + y.toInt).natAbs 1 := by
  change Binary64.add x y = _
  simp [Binary64.add, isNaN_eq_false_of_isFinite hx, isNaN_eq_false_of_isFinite hy,
    isInfinite_eq_false_of_isFinite hx, isInfinite_eq_false_of_isFinite hy]

theorem isNaN_add {x y : Binary64} (hx : x.isFinite) (hy : y.isFinite) :
    (x + y).isNaN = false := by
  rw [add_of_isFinite hx hy]
  split
  · exact isNaN_ofMagnitude_eq_false _ (by decide)
  · exact isNaN_ofMagnitude_eq_false _ (nearest_le _ _)

theorem toInt_add {x y : Binary64} (hx : x.isFinite) (hy : y.isFinite) :
    (x + y).toInt = roundUnits (x.toInt + y.toInt) := by
  rw [add_of_isFinite hx hy]
  split
  · next h =>
    rw [h, toInt, magnitude_ofMagnitude _ (by decide), roundUnits_zero]
    simp only [units_zero, Int.natCast_zero, Int.neg_zero, ite_self]
  · rw [ofRatio, toInt, magnitude_ofMagnitude _ (nearest_lt _ _),
      negative_ofMagnitude _ (nearest_lt _ _), roundUnits]
    simp only [decide_eq_true_eq]

theorem add_le_add {w x y z : Binary64} (hw : w.isFinite) (hx : x.isFinite) (hy : y.isFinite)
    (hz : z.isFinite) (h : w ≤ y) (h' : x ≤ z) : w + x ≤ y + z := by
  refine le_iff.2 ⟨isNaN_add hw hx, isNaN_add hy hz, ?_⟩
  rw [toInt_add hw hx, toInt_add hy hz]
  obtain ⟨-, -, hle⟩ := le_iff.1 h
  obtain ⟨-, -, hle'⟩ := le_iff.1 h'
  exact roundUnits_mono (by omega)

theorem neg_le_neg {x y : Binary64} (h : x ≤ y) : -y ≤ -x := by
  obtain ⟨hx, hy, hle⟩ := le_iff.1 h
  refine le_iff.2 ⟨by simpa [isNaN] using hy, by simpa [isNaN] using hx, ?_⟩
  rw [toInt_neg, toInt_neg]
  omega

theorem le_refl_of_isNaN_eq_false {x : Binary64} (hx : x.isNaN = false) : x ≤ x :=
  le_iff.2 ⟨hx, hx, Int.le_refl _⟩

theorem le_refl_of_isFinite {x : Binary64} (hx : x.isFinite) : x ≤ x :=
  le_refl_of_isNaN_eq_false (isNaN_eq_false_of_isFinite hx)

theorem sub_le_sub_right {x y z : Binary64} (hx : x.isFinite) (hy : y.isFinite) (hz : z.isFinite)
    (h : x ≤ y) : x - z ≤ y - z := by
  have hz' : (-z).isFinite := by simpa using hz
  exact add_le_add hx hz' hy hz' h (le_refl_of_isFinite hz')

theorem sub_le_sub_left {x y z : Binary64} (hx : x.isFinite) (hy : y.isFinite) (hz : z.isFinite)
    (h : y ≤ z) : x - z ≤ x - y := by
  have hy' : (-y).isFinite := by simpa using hy
  have hz' : (-z).isFinite := by simpa using hz
  exact add_le_add hx hz' hx hy' (le_refl_of_isFinite hx) (neg_le_neg h)

theorem sub_self_of_isFinite {x : Binary64} (hx : x.isFinite) : x - x = .zero := by
  have hx' : (-x).isFinite := by simpa using hx
  rw [sub_eq_add_neg, add_of_isFinite hx hx', if_pos (by rw [toInt_neg]; omega), negative_neg]
  cases x.negative <;> rfl

/-! ## Order -/

theorem lt_of_lt_of_le {x y z : Binary64} (h : x < y) (h' : y ≤ z) : x < z := by
  rw [lt_iff] at *
  rw [le_iff] at h'
  exact ⟨h.1, h'.2.1, Int.lt_of_lt_of_le h.2.2 h'.2.2⟩

theorem le_of_lt {x y : Binary64} (h : x < y) : x ≤ y := by
  rw [lt_iff] at h
  exact le_iff.2 ⟨h.1, h.2.1, Int.le_of_lt h.2.2⟩

theorem le_trans {x y z : Binary64} (h : x ≤ y) (h' : y ≤ z) : x ≤ z := by
  rw [le_iff] at *
  exact ⟨h.1, h'.2.1, Int.le_trans h.2.2 h'.2.2⟩

/-- Two numbers are in order one way or the other. -/
theorem le_of_not_lt {x y : Binary64} (hx : x.isNaN = false) (hy : y.isNaN = false)
    (h : ¬ x < y) : y ≤ x := by
  rw [lt_iff] at h
  refine le_iff.2 ⟨hy, hx, ?_⟩
  by_contra hlt
  exact h ⟨hx, hy, by omega⟩

theorem lt_of_not_le {x y : Binary64} (hx : x.isNaN = false) (hy : y.isNaN = false)
    (h : ¬ x ≤ y) : y < x := by
  by_contra hlt
  exact h (le_of_not_lt hy hx hlt)

theorem lt_irrefl (x : Binary64) : ¬ x < x := fun h => Int.lt_irrefl _ (lt_iff.1 h).2.2

theorem lt_asymm {x y : Binary64} (h : x < y) : ¬ y < x := by
  intro h'
  exact absurd (lt_iff.1 h').2.2 (Int.lt_asymm (lt_iff.1 h).2.2)

theorem lt_of_le_of_lt {x y z : Binary64} (h : x ≤ y) (h' : y < z) : x < z := by
  rw [le_iff] at h
  rw [lt_iff] at *
  exact ⟨h.1, h'.2.1, Int.lt_of_le_of_lt h.2.2 h'.2.2⟩

/-! ## Infinities -/

theorem isFinite_or_eq_infinity (x : Binary64) :
    x.isFinite ∨ x.isNaN ∨ x = .infinity ∨ x = .negInfinity := by
  have hx := x.ofMagnitude_magnitude
  rcases Nat.lt_trichotomy x.magnitude infinityWord with h | h | h
  · exact .inl (decide_eq_true h)
  · rw [h] at hx
    cases hn : x.negative with
    | false => exact .inr (.inr (.inl (by rw [← hx, hn]; rfl)))
    | true => exact .inr (.inr (.inr (by rw [← hx, hn]; rfl)))
  · exact .inr (.inl (decide_eq_true h))

theorem isNaN_infinity : infinity.isNaN = false := isNaN_ofMagnitude_eq_false _ (Nat.le_refl _)

theorem isNaN_negInfinity : negInfinity.isNaN = false :=
  isNaN_ofMagnitude_eq_false _ (Nat.le_refl _)

theorem ne_infinity {x : Binary64} (hx : x.isFinite) : x ≠ infinity := by
  rintro rfl
  exact absurd hx (by decide)

theorem toInt_infinity : infinity.toInt = units infinityWord := by
  rw [infinity, toInt, negative_ofMagnitude _ (by decide), magnitude_ofMagnitude _ (by decide)]
  rfl

theorem toInt_negInfinity : negInfinity.toInt = -(units infinityWord : Int) := by
  rw [negInfinity, toInt, negative_ofMagnitude _ (by decide), magnitude_ofMagnitude _ (by decide)]
  rfl

theorem natAbs_toInt (x : Binary64) : x.toInt.natAbs = units x.magnitude := by
  unfold toInt
  split <;> simp

theorem natAbs_toInt_lt {x : Binary64} (hx : x.isFinite) : x.toInt.natAbs < units infinityWord := by
  rw [natAbs_toInt]
  exact units_strictMono (of_decide_eq_true hx)

theorem lt_infinity {x : Binary64} (hx : x.isFinite) : x < infinity := by
  have h := natAbs_toInt_lt hx
  refine lt_iff.2 ⟨isNaN_eq_false_of_isFinite hx, isNaN_infinity, ?_⟩
  rw [toInt_infinity]
  omega

theorem negInfinity_lt {x : Binary64} (hx : x.isFinite) : negInfinity < x := by
  have h := natAbs_toInt_lt hx
  refine lt_iff.2 ⟨isNaN_negInfinity, isNaN_eq_false_of_isFinite hx, ?_⟩
  rw [toInt_negInfinity]
  omega

theorem le_infinity {x : Binary64} (hx : x.isNaN = false) : x ≤ infinity := by
  have hmagnitude : x.magnitude ≤ infinityWord := by simpa [isNaN] using hx
  have hunits := units_strictMono.monotone hmagnitude
  have hvalue := natAbs_toInt x
  refine le_iff.2 ⟨hx, isNaN_infinity, ?_⟩
  rw [toInt_infinity]
  omega

/-! ## The largest double -/

def largest : Binary64 := ⟨0x7fefffffffffffff⟩

theorem isFinite_largest : largest.isFinite := by decide

theorem le_largest {x : Binary64} (hx : x.isFinite) : x ≤ largest := by
  have hmagnitude : x.magnitude ≤ largest.magnitude := by
    have h : x.magnitude < infinityWord := of_decide_eq_true hx
    have hl : largest.magnitude + 1 = infinityWord := by decide
    omega
  have hunits : x.toInt.natAbs ≤ largest.toInt.natAbs := by
    rw [natAbs_toInt, natAbs_toInt]
    exact units_strictMono.monotone hmagnitude
  have hlargest : 0 ≤ largest.toInt := by simp [toInt, show largest.negative = false by decide]
  refine le_iff.2
    ⟨isNaN_eq_false_of_isFinite hx, isNaN_eq_false_of_isFinite isFinite_largest, ?_⟩
  omega

/-! ## Signs -/

theorem negative_ofRatio (s : Bool) (num den : Nat) : (ofRatio s num den).negative = s :=
  negative_ofMagnitude s (nearest_lt num den)

theorem toInt_eq_units {x : Binary64} (hx : x.negative = false) : x.toInt = units x.magnitude := by
  simp [toInt, hx]

theorem toInt_nonneg {x : Binary64} (hx : x.negative = false) : 0 ≤ x.toInt := by
  simp [toInt_eq_units hx]

theorem negative_of_lt {x y : Binary64} (hx : x.negative = false) (h : x < y) :
    y.negative = false := by
  have hx' := toInt_nonneg hx
  have hlt := (lt_iff.1 h).2.2
  rw [toInt.eq_def y] at hlt
  cases hy : y.negative with
  | false => rfl
  | true =>
    rw [if_pos hy] at hlt
    omega

theorem not_lt_zero {x : Binary64} (hx : x.negative = false) : ¬ x < .zero := by
  intro h
  have := (lt_iff.1 h).2.2
  have hz : zero.toInt = 0 := rfl
  have := toInt_nonneg hx
  omega

/-- A number from zero up and not above a finite one is finite. -/
theorem isFinite_of_le {x y : Binary64} (hx : x.negative = false) (h : x ≤ y) (hy : y.isFinite) :
    x.isFinite := by
  obtain ⟨hnan, -, hle⟩ := le_iff.1 h
  rcases x.isFinite_or_eq_infinity with hfin | hfin | rfl | rfl
  · exact hfin
  · rw [hfin] at hnan
    cases hnan
  · have hlt := (lt_iff.1 (lt_infinity hy)).2.2
    omega
  · cases hx

theorem negative_add {x y : Binary64} (hx : x.negative = false) (hy : y.negative = false) :
    (x + y).negative = false := by
  change (Binary64.add x y).negative = false
  have hx' := toInt_nonneg hx
  have hy' := toInt_nonneg hy
  have hsum : ¬ x.toInt + y.toInt < 0 := by omega
  unfold Binary64.add
  repeat' split
  · rfl
  · rfl
  · exact hx
  · exact hy
  · rw [negative_ofMagnitude _ (by decide), hx]
    rfl
  · rw [negative_ofRatio]
    exact decide_eq_false hsum

theorem negative_mul {x y : Binary64} (hx : x.negative = false) (hy : y.negative = false) :
    (x * y).negative = false := by
  change (Binary64.mul x y).negative = false
  unfold Binary64.mul
  rw [hx, hy]
  repeat' split
  · rfl
  · rfl
  · exact negative_ofMagnitude _ (by decide)
  · exact negative_ofRatio _ _ _

/-! ## Sums from zero up -/

/-- A double is the nearest to its own value. -/
theorem roundUnits_toInt {x : Binary64} (hx : x.isNaN = false) : roundUnits x.toInt = x.toInt := by
  have hmagnitude : x.magnitude ≤ infinityWord := by simpa [isNaN] using hx
  have hnearest : nearest x.toInt.natAbs 1 = x.magnitude := by
    rw [natAbs_toInt, ← Nat.mul_one (units x.magnitude)]
    exact nearest_units hmagnitude Nat.one_pos
  have hvalue := natAbs_toInt x
  rw [roundUnits, hnearest]
  split <;> omega

theorem isFinite_or_isInfinite {x : Binary64} (hx : x.isNaN = false) :
    x.isFinite ∨ x.isInfinite := by
  simp only [isNaN, isFinite, isInfinite, decide_eq_true_eq, decide_eq_false_iff_not] at *
  omega

/-- An infinity swallows every finite term. -/
theorem add_of_isInfinite {x y : Binary64} (hx : x.isInfinite) (hy : y.isFinite) : x + y = x := by
  have hnan : x.isNaN = false := by
    simp only [isInfinite, isNaN, decide_eq_true_eq, decide_eq_false_iff_not] at *
    omega
  change Binary64.add x y = x
  simp [Binary64.add, hnan, hx, isNaN_eq_false_of_isFinite hy, isInfinite_eq_false_of_isFinite hy]

/-- Adding a finite number from zero up never makes a number smaller. -/
theorem le_add {x y : Binary64} (hx : x.isNaN = false) (hy : y.isFinite)
    (hsign : y.negative = false) : x ≤ x + y := by
  rcases isFinite_or_isInfinite hx with hfin | hinf
  · have hy' := toInt_nonneg hsign
    have hmono := roundUnits_mono (a := x.toInt) (b := x.toInt + y.toInt) (by omega)
    rw [roundUnits_toInt hx] at hmono
    exact le_iff.2 ⟨hx, isNaN_add hfin hy, by rwa [toInt_add hfin hy]⟩
  · rw [add_of_isInfinite hinf hy]
    exact le_refl_of_isNaN_eq_false hx

theorem add_le_of_le_zero {x y : Binary64} (hx : x.isFinite) (hy : y.isFinite) (h : x ≤ .zero) :
    x + y ≤ y := by
  have hnumber := isNaN_eq_false_of_isFinite hy
  have hle : x.toInt ≤ 0 := (le_iff.1 h).2.2
  have hmono := roundUnits_mono (a := x.toInt + y.toInt) (b := y.toInt) (by omega)
  rw [roundUnits_toInt hnumber] at hmono
  exact le_iff.2 ⟨isNaN_add hx hy, hnumber, by rwa [toInt_add hx hy]⟩

/-- From zero up, adding one and the same number keeps the order. -/
theorem add_le_add_right {x y z : Binary64} (h : x ≤ y) (hx : x.negative = false)
    (hz : z.isFinite) (hsign : z.negative = false) : x + z ≤ y + z := by
  obtain ⟨hnumber, hnumber', hle⟩ := le_iff.1 h
  rcases y.isFinite_or_eq_infinity with hy | hy | rfl | rfl
  · exact add_le_add (isFinite_of_le hx h hy) hz hy hz h (le_refl_of_isFinite hz)
  · rw [hy] at hnumber'
    cases hnumber'
  · rw [add_of_isInfinite (x := infinity) (by decide) hz]
    exact le_infinity (le_iff.1 (le_add hnumber hz hsign)).2.1
  · have hx' := toInt_nonneg hx
    have hpos : 0 < units infinityWord := units_strictMono (by decide : 0 < infinityWord)
    rw [toInt_negInfinity] at hle
    omega

end SignalLights.Binary64
