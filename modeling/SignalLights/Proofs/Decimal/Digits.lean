import Mathlib.Algebra.Group.Nat.Defs
import SignalLights.Decimal.Writing
import SignalLights.Proofs.Binary64.Interval

/-!
# Digits and powers of ten

A number above zero has no leading zero, and zeros after it are powers of ten. So a decimal is
rounded alike whether a power of ten stands in its coefficient or in its exponent (`nearest_shift`).
-/

namespace SignalLights.Decimal

/-! ## Digits -/

theorem isDigit_of_mem_digits {n : Nat} {c : Char} (h : c ∈ digits n) : c.isDigit :=
  Nat.isDigit_of_mem_toDigits (by decide) (by decide) h

theorem digits_ne_nil (n : Nat) : digits n ≠ [] := Nat.toDigits_ne_nil

theorem length_digits_pos (n : Nat) : 0 < (digits n).length :=
  List.length_pos_iff.2 (digits_ne_nil n)

/-- No number above zero starts with the digit zero. -/
theorem head?_digits_ne {n : Nat} (hn : 0 < n) : (digits n).head? ≠ some '0' := by
  induction n using Nat.strongRecOn with
  | ind n ih =>
    rw [digits, Nat.toDigits_eq_if (by decide)]
    split
    · next hsmall =>
      have hdigit : ∀ d < 10, 0 < d → [Nat.digitChar d].head? ≠ some '0' := by decide
      exact hdigit n hsmall hn
    · have hlead := ih (n / 10) (by omega) (by omega)
      rw [← digits]
      cases hds : digits (n / 10) with
      | nil => exact absurd hds (digits_ne_nil _)
      | cons c cs => rwa [hds] at hlead

theorem digits_mul_pow {n : Nat} (hn : 0 < n) (j : Nat) :
    digits (n * 10 ^ j) = digits n ++ List.replicate j '0' := by
  induction j with
  | zero => simp
  | succ j ih =>
    have hpos : 0 < n * 10 ^ j := Nat.mul_pos hn (Nat.pow_pos (by decide))
    have happend := Nat.toDigits_append_toDigits (b := 10) (d := 0) (by decide) hpos (by decide)
    have hpow : n * 10 ^ (j + 1) = 10 * (n * 10 ^ j) + 0 := by
      rw [Nat.pow_succ, ← Nat.mul_assoc, Nat.mul_comm, Nat.add_zero]
    rw [hpow, digits, ← happend, ← digits, ih, List.replicate_succ', List.append_assoc]
    rfl

/-- A number has as many digits as its size says. -/
theorem length_digits_add_le {p a n : Nat} (hp : 0 < p) (hn : 0 < n) (h : p * 10 ^ a < 10 ^ n) :
    (digits p).length + a ≤ n := by
  have hlength : (digits (p * 10 ^ a)).length ≤ n :=
    (Nat.length_toDigits_le_iff (by decide) hn).2 h
  rwa [digits_mul_pow hp, List.length_append, List.length_replicate] at hlength

/-! ## Powers of ten -/

/-- A power of ten may stand in the coefficient or in the exponent. -/
theorem nearest_shift (c j : Nat) (e : Int) :
    nearest ⟨c * 10 ^ j, e⟩ = nearest ⟨c, e + j⟩ := by
  rcases Nat.eq_zero_or_pos c with rfl | hc
  · simp [nearest]
  have hpos : 0 < c * 10 ^ j := Nat.mul_pos hc (Nat.pow_pos (by decide))
  have hscale : scale ⟨c * 10 ^ j, e⟩ = scale ⟨c, e + j⟩ := by
    have hlength := congrArg List.length (digits_mul_pow hc j)
    rw [List.length_append, List.length_replicate, digits, digits] at hlength
    simp only [scale, hlength]
    omega
  have hratio : Binary64.nearest (numerator ⟨c * 10 ^ j, e⟩ * Binary64.unitsPerOne)
      (denominator ⟨c * 10 ^ j, e⟩) =
      Binary64.nearest (numerator ⟨c, e + j⟩ * Binary64.unitsPerOne)
        (denominator ⟨c, e + j⟩) := by
    refine Binary64.nearest_congr (denominator_pos _) (denominator_pos _) ?_
    have hexponents : j + e.toNat + (-(e + j)).toNat = (e + j).toNat + (-e).toNat := by omega
    have hpowers : 10 ^ j * 10 ^ e.toNat * 10 ^ (-(e + j)).toNat =
        10 ^ (e + j).toNat * 10 ^ (-e).toNat := by
      rw [← Nat.pow_add, ← Nat.pow_add, ← Nat.pow_add, hexponents]
    simp only [numerator, denominator, Nat.pow_eq]
    calc c * 10 ^ j * 10 ^ e.toNat * Binary64.unitsPerOne * 10 ^ (-(e + j)).toNat
        = c * (10 ^ j * 10 ^ e.toNat * 10 ^ (-(e + j)).toNat) * Binary64.unitsPerOne := by
          simp only [Nat.mul_assoc, Nat.mul_left_comm, Nat.mul_comm]
      _ = c * 10 ^ (e + j).toNat * Binary64.unitsPerOne * 10 ^ (-e).toNat := by
          rw [hpowers]
          simp only [Nat.mul_assoc, Nat.mul_left_comm, Nat.mul_comm]
  simp only [nearest, Nat.ne_of_gt hc, Nat.ne_of_gt hpos, hscale, hratio]

end SignalLights.Decimal
