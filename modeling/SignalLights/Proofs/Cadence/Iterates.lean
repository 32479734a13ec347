import SignalLights.Proofs.Cadence.Hurried
import SignalLights.Proofs.Cadence.Values

/-!
# Hurrying again and again

Hurrying doubles the count and halves the period, each up to its limit, and halving rounds nothing,
since no period is near the smallest doubles. So after any number of times both are known from the
start, exactly (`count_iterate_hurried`, `value_period_iterate_hurried`). Each limit is reached at a
time of its own, and nothing changes after (`iterate_hurried_exact`).
-/

namespace SignalLights.Cadence

variable (c : Cadence)

/-! ## Once -/

theorem value_minPeriod_pos : 0 < minPeriod.value :=
  lt_of_lt_of_le (by norm_num) le_value_minPeriod

theorem value_minPeriod_le_period : minPeriod.value ≤ c.period.value := by
  have hnumber := Binary64.isNaN_eq_false_of_isFinite c.isFinite_period
  exact (Binary64.le_iff_value (by decide) hnumber).1 c.minPeriod_le_period

theorem value_period_hurried :
    c.hurried.period.value = max (c.period.value / 2) minPeriod.value := by
  have hnumber := Binary64.isNaN_eq_false_of_isFinite c.isFinite_halfPeriod
  have hlong : minPeriod ≤ c.halfPeriod ↔ minPeriod.value ≤ c.period.value / 2 := by
    rw [Binary64.le_iff_value (by decide) hnumber, c.value_halfPeriod]
  rw [period_hurried]
  split
  · next h => rw [c.value_halfPeriod, max_eq_left (hlong.1 h)]
  · next h => rw [max_eq_right (not_le.1 (mt hlong.2 h)).le]

theorem count_le_hurried : c.count ≤ c.hurried.count := by
  have hmax := c.count.toNat_lt
  rw [UInt32.le_iff_toNat_le, count_hurried]
  omega

theorem hurried_period_le : c.hurried.period ≤ c.period := by
  have hnumber := Binary64.isNaN_eq_false_of_isFinite c.isFinite_period
  have hnumber' := Binary64.isNaN_eq_false_of_isFinite c.hurried.isFinite_period
  rw [Binary64.le_iff_value hnumber' hnumber, value_period_hurried]
  have hshortest := c.value_minPeriod_le_period
  have hpos := value_minPeriod_pos
  apply max_le _ hshortest
  linarith

/-! ## Any number of times -/

theorem count_iterate_hurried (n : Nat) :
    (hurried^[n] c).count.toNat = min (c.count.toNat * 2 ^ n) 0xffffffff := by
  induction n with
  | zero =>
    have hmax := c.count.toNat_lt
    rw [Function.iterate_zero_apply]
    omega
  | succ n ih =>
    rw [Function.iterate_succ_apply', count_hurried, ih, Nat.pow_succ, ← Nat.mul_assoc]
    omega

theorem value_period_iterate_hurried (n : Nat) :
    (hurried^[n] c).period.value = max (c.period.value / 2 ^ n) minPeriod.value := by
  induction n with
  | zero =>
    rw [Function.iterate_zero_apply, pow_zero, div_one, max_eq_left c.value_minPeriod_le_period]
  | succ n ih =>
    -- half of the limit is below it, so the limit may be taken once, at the end
    have hhalf : minPeriod.value / 2 ≤ minPeriod.value := half_le_self value_minPeriod_pos.le
    rw [Function.iterate_succ_apply', value_period_hurried, ih,
      ← max_div_div_right (by norm_num), max_assoc, max_eq_right hhalf, div_div, ← pow_succ]

/-- Halved so often, every finite number is below the shortest period. -/
theorem value_period_div_lt (n : Nat) : c.period.value / 2 ^ (1034 + n) < minPeriod.value := by
  have hpow : (2 : ℚ) ^ 10 ≤ 2 ^ (10 + n) := pow_le_pow_right₀ (by norm_num) (by omega)
  have hone : 1 ≤ minPeriod.value * 2 ^ (10 + n) :=
    calc (1 : ℚ) ≤ 1 / 1000 * 2 ^ 10 := by norm_num
      _ ≤ minPeriod.value * 2 ^ (10 + n) :=
        mul_le_mul le_value_minPeriod hpow (by positivity) value_minPeriod_pos.le
  rw [div_lt_iff₀ (by positivity), show 1034 + n = 1024 + (10 + n) by omega, pow_add,
    mul_left_comm]
  exact (Binary64.value_lt c.isFinite_period).trans_le (le_mul_of_one_le_right (by positivity) hone)

/-- The two cadences that hurrying ends in: no cycles, or as many as can be counted. -/
def fastest (count : UInt32) : Cadence := clamp (if count = 0 then 0 else 0xffffffff) minPeriod

theorem iterate_hurried_eq_fastest (n : Nat) : hurried^[1034 + n] c = fastest c.count := by
  apply ext
  · rw [fastest, count_clamp, ← UInt32.toNat_inj, count_iterate_hurried]
    split
    · next hzero => simp [hzero]
    · next hsome =>
      have hpos : 1 ≤ c.count.toNat := by
        rw [Nat.one_le_iff_ne_zero]
        exact fun h => hsome (UInt32.toNat_inj.1 h)
      have hpow : 2 ^ 32 ≤ 2 ^ (1034 + n) := Nat.pow_le_pow_right (by decide) (by omega)
      have hlarge := Nat.mul_le_mul hpos hpow
      rw [Nat.min_eq_right (by omega)]
      rfl
  · rw [fastest, period_clamp, if_pos acceptsPeriod_minPeriod]
    apply Binary64.eq_of_value_eq (negative_period _) (by decide)
    rw [value_period_iterate_hurried, max_eq_right (c.value_period_div_lt n).le]

theorem hurried_fastest (count : UInt32) : (fastest count).hurried = fastest count := by
  have hlast := iterate_hurried_eq_fastest (clamp count minPeriod)
  rw [count_clamp] at hlast
  calc (fastest count).hurried
      = hurried (hurried^[1034 + 0] (clamp count minPeriod)) := by rw [hlast]
    _ = hurried^[1034 + 1] (clamp count minPeriod) := (Function.iterate_succ_apply' _ _ _).symm
    _ = fastest count := hlast 1

/-- **Repeated hurrying.** Whatever count and period a cadence is made from, hurrying it `n` times
gives the count times 2ⁿ, up to the largest count, and exactly the period it had divided by 2ⁿ, down
to the shortest period. The count never falls and the period never rises, the period is always an
accepted one, and after 1034 times at the latest nothing changes any more: the count is the largest
one unless there were no cycles, and the period is the shortest. -/
theorem iterate_hurried_exact (count : UInt32) (period : Binary64) (n : Nat) :
    let b := clamp count period
    let h := hurried^[n] b
    let last := clamp (if count = 0 then 0 else 0xffffffff) minPeriod
    h.count.toNat = min (count.toNat * 2 ^ n) (2 ^ 32 - 1) ∧
      h.period.value = max (b.period.value / 2 ^ n) minPeriod.value ∧
      h.count ≤ h.hurried.count ∧
      h.hurried.period ≤ h.period ∧
      h.period.isFinite ∧ minPeriod ≤ h.period ∧
      hurried^[1034 + n] b = last ∧ last.hurried = last := by
  intro b h last
  have hcount : b.count = count := count_clamp _ _
  have hlast : last = fastest b.count := by rw [hcount]; rfl
  refine ⟨?_, b.value_period_iterate_hurried n, h.count_le_hurried, h.hurried_period_le,
    h.isFinite_period, h.minPeriod_le_period, ?_, ?_⟩
  · rw [b.count_iterate_hurried, hcount]
    rfl
  · rw [hlast]
    exact b.iterate_hurried_eq_fastest n
  · rw [hlast]
    exact hurried_fastest _

end SignalLights.Cadence
