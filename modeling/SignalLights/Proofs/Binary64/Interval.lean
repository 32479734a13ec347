import SignalLights.Proofs.Binary64.Order

/-!
# Rounding intervals

What a ratio is rounded to does not change when both of its sides are scaled. Between two
neighbouring magnitudes it is the nearer one, and half way between them the even one
(`nearest_between`). So a magnitude is what all ratios of an interval around its value are rounded
to, an interval that has its ends if the magnitude is even (`nearest_of_within`).
-/

namespace SignalLights

theorem roundHalfEven_scale (num den : Nat) {a : Nat} (ha : 0 < a) :
    roundHalfEven (num * a) (den * a) = roundHalfEven num den := by
  have hlt : 2 * (num % den * a) < den * a ↔ 2 * (num % den) < den := by
    rw [← Nat.mul_assoc, Nat.mul_lt_mul_right ha]
  have heq : 2 * (num % den * a) = den * a ↔ 2 * (num % den) = den := by
    rw [← Nat.mul_assoc, Nat.mul_left_inj (Nat.ne_of_gt ha)]
  simp only [roundHalfEven, Nat.mul_div_mul_right _ _ ha, Nat.mul_mod_mul_right, hlt, heq]

theorem roundHalfEven_between {q num den : Nat} (hlow : q * den ≤ num)
    (hhigh : num < (q + 1) * den) :
    roundHalfEven num den =
      if 2 * num < (q + (q + 1)) * den ∨ (2 * num = (q + (q + 1)) * den ∧ q % 2 = 0) then q
      else q + 1 := by
  have hq : num / den = q := Nat.div_eq_of_lt_le hlow hhigh
  have hr := Nat.div_add_mod' num den
  have hmiddle : (q + (q + 1)) * den = 2 * (q * den) + den := by
    rw [← Nat.add_assoc, Nat.succ_mul, Nat.add_mul, Nat.two_mul]
  rw [hq] at hr
  simp only [roundHalfEven, hq, hmiddle]
  split <;> split <;> omega

namespace Binary64

variable {w num den : Nat}

theorem nearest_scale (num den : Nat) {a : Nat} (ha : 0 < a) :
    nearest (num * a) (den * a) = nearest num den := by
  have hshift (k : Nat) : (den * a) <<< k = den <<< k * a := by
    rw [Nat.shiftLeft_eq, Nat.shiftLeft_eq, Nat.mul_right_comm]
  simp only [nearest, Nat.mul_div_mul_right _ _ ha, hshift, roundHalfEven_scale _ _ ha]

/-- Equal ratios are rounded alike. -/
theorem nearest_congr {num' den' : Nat} (hd : 0 < den) (hd' : 0 < den')
    (h : num * den' = num' * den) : nearest num den = nearest num' den' := by
  rw [← nearest_scale num den hd', ← nearest_scale num' den' hd, h, Nat.mul_comm den]

/-! ## Neighbours -/

/-- An exponent and a place, at most the first place of the next exponent. -/
theorem units_grid {e m : Nat} (hm : m ≤ 2 * binade) (he : e = 0 ∨ binade ≤ m) :
    units (e * binade + m) = m * 2 ^ e := by
  rcases Nat.lt_or_ge m binade with hsmall | hlarge
  · have hzero : e = 0 := by omega
    rw [hzero, Nat.zero_mul, Nat.zero_add, Nat.pow_zero, Nat.mul_one, units_of_lt hsmall]
  · rcases Nat.lt_or_eq_of_le hm with hlt | rfl
    · obtain ⟨n, rfl⟩ := Nat.exists_eq_add_of_le hlarge
      have h := units_binade_mul_add e (m := n) (by omega)
      rwa [Nat.succ_mul, Nat.add_assoc] at h
    · have h := units_binade_mul_add (e + 1) (m := 0) (by decide)
      have hw : e * binade + 2 * binade = (e + 1 + 1) * binade + 0 := by
        rw [Nat.add_zero, Nat.succ_mul (e + 1), Nat.succ_mul e, Nat.two_mul, Nat.add_assoc]
      rw [hw, h, Nat.add_zero, Nat.pow_succ, Nat.mul_comm (2 ^ e), ← Nat.mul_assoc,
        Nat.mul_comm binade]

theorem exists_grid (w : Nat) :
    ∃ e m, w = e * binade + m ∧ m < 2 * binade ∧ (e = 0 ∨ binade ≤ m) := by
  rcases lt_binade_or_eq w with h | ⟨e, m, hm, rfl⟩
  · exact ⟨0, w, by omega, by omega, .inl rfl⟩
  · exact ⟨e, binade + m, by rw [Nat.succ_mul]; omega, by omega, .inr (by omega)⟩

/-- Up to the next place nothing beyond the exponent is kept. -/
theorem lastPlace_of_between {e m q : Nat} (hm : m < 2 * binade) (he : e = 0 ∨ binade ≤ m)
    (hlow : m * 2 ^ e ≤ q) (hhigh : q < (m + 1) * 2 ^ e) : lastPlace q = e := by
  rcases Nat.eq_zero_or_pos e with rfl | hpos
  · rw [Nat.pow_zero, Nat.mul_one] at hhigh
    exact lastPlace_of_lt (by omega)
  · have hm' : binade ≤ m := by omega
    have hq : q ≠ 0 := by
      have := Nat.mul_pos (Nat.lt_of_lt_of_le (by decide : 0 < binade) hm') (Nat.two_pow_pos e)
      omega
    have hlog : q.log2 = 52 + e := by
      rw [Nat.log2_eq_iff hq, Nat.pow_add, Nat.add_right_comm, Nat.pow_add]
      exact ⟨Nat.le_trans (Nat.mul_le_mul_right _ hm') hlow,
        Nat.lt_of_lt_of_le hhigh (Nat.mul_le_mul_right _ hm)⟩
    rw [lastPlace, hlog]
    omega

/-- Between two neighbours the nearer one, and half way between them the even one. -/
theorem nearest_between (hw : w < infinityWord) (hd : 0 < den) (hlow : units w * den ≤ num)
    (hhigh : num < units (w + 1) * den) :
    nearest num den =
      if 2 * num < (units w + units (w + 1)) * den ∨
          (2 * num = (units w + units (w + 1)) * den ∧ w % 2 = 0) then w
      else w + 1 := by
  obtain ⟨e, m, rfl, hm, he⟩ := exists_grid w
  have hvalue : units (e * binade + m) = m * 2 ^ e := units_grid hm.le he
  have hnext : units (e * binade + m + 1) = (m + 1) * 2 ^ e := by
    rw [Nat.add_assoc]
    exact units_grid hm (by omega)
  rw [hvalue] at hlow
  rw [hnext] at hhigh
  have hplace : lastPlace (num / den) = e :=
    lastPlace_of_between hm he ((Nat.le_div_iff_mul_le hd).2 hlow)
      ((Nat.div_lt_iff_lt_mul hd).2 hhigh)
  have hparity : (e * binade + m) % 2 = m % 2 := by
    rw [show binade = 2 * (binade / 2) by decide, Nat.mul_left_comm, Nat.mul_add_mod]
  -- in steps of the last place the ratio lies between `m` and `m + 1`
  have hlow' : m * (den * 2 ^ e) ≤ num := by rwa [Nat.mul_comm den, ← Nat.mul_assoc]
  have hhigh' : num < (m + 1) * (den * 2 ^ e) := by rwa [Nat.mul_comm den, ← Nat.mul_assoc]
  have hmiddle : (m * 2 ^ e + (m + 1) * 2 ^ e) * den = (m + (m + 1)) * (den * 2 ^ e) := by
    rw [← Nat.add_mul, Nat.mul_assoc, Nat.mul_comm den]
  rw [nearest, hplace, Nat.shiftLeft_eq, roundHalfEven_between hlow' hhigh', hvalue, hnext,
    hmiddle, hparity]
  split
  · exact Nat.min_eq_left hw.le
  · rw [← Nat.add_assoc]
    exact Nat.min_eq_left (Nat.succ_le_of_lt hw)

/-! ## The rounding interval -/

/-- Every ratio of the interval around the value of a magnitude is rounded to it, with the ends of
the interval if the magnitude is even. -/
theorem nearest_of_within (hw : 0 < w) (hw' : w < infinityWord) (hd : 0 < den)
    (hlow : (units (w - 1) + units w) * den ≤ 2 * num)
    (hhigh : 2 * num ≤ (units w + units (w + 1)) * den)
    (hends : w % 2 = 1 → (units (w - 1) + units w) * den < 2 * num ∧
      2 * num < (units w + units (w + 1)) * den) :
    nearest num den = w := by
  have hnext := Nat.mul_lt_mul_of_pos_right (units_lt_units_succ w) hd
  have hprev : units (w - 1) * den < units w * den := by
    refine Nat.mul_lt_mul_of_pos_right (units_strictMono ?_) hd
    omega
  rcases Nat.lt_or_ge num (units w * den) with hbelow | habove
  · have hpred : w - 1 + 1 = w := Nat.sub_add_cancel hw
    have hprev' : units (w - 1) * den ≤ num := by
      rw [Nat.add_mul] at hlow
      omega
    have h := nearest_between (w := w - 1) (by omega) hd hprev' (by rwa [hpred])
    rw [hpred] at h
    rw [h, if_neg (by omega)]
  · have hnext' : num < units (w + 1) * den := by
      rw [Nat.add_mul] at hhigh
      omega
    rw [nearest_between hw' hd habove hnext', if_pos (by omega)]

end Binary64
end SignalLights
