/-!
# Rounding a quotient

`roundHalfEven num den` is the whole number nearest to `num / den`; of two equally near it is the
even one. Every rounding of this library, binary or decimal, goes through it.
-/

namespace SignalLights

def roundHalfEven (num den : Nat) : Nat :=
  let q := num / den
  let r := num % den
  if 2 * r < den ∨ (2 * r = den ∧ q % 2 = 0) then q else q + 1

theorem roundHalfEven_cases (num den : Nat) :
    (roundHalfEven num den = num / den ∧ 2 * (num % den) ≤ den) ∨
      (roundHalfEven num den = num / den + 1 ∧ den ≤ 2 * (num % den)) := by
  unfold roundHalfEven
  dsimp only
  split
  · exact .inl ⟨rfl, by omega⟩
  · exact .inr ⟨rfl, by omega⟩

theorem roundHalfEven_mul {den : Nat} (q : Nat) (h : 0 < den) : roundHalfEven (q * den) den = q := by
  simp [roundHalfEven, h]

theorem div_le_roundHalfEven (num den : Nat) : num / den ≤ roundHalfEven num den := by
  rcases roundHalfEven_cases num den with ⟨h, _⟩ | ⟨h, _⟩ <;> omega

theorem roundHalfEven_le (num den : Nat) : roundHalfEven num den ≤ num / den + 1 := by
  rcases roundHalfEven_cases num den with ⟨h, _⟩ | ⟨h, _⟩ <;> omega

theorem roundHalfEven_mono {a b den : Nat} (hab : a ≤ b) :
    roundHalfEven a den ≤ roundHalfEven b den := by
  rcases Nat.eq_zero_or_pos den with rfl | hd
  · simp [roundHalfEven]; split <;> split <;> omega
  have hq : a / den ≤ b / den := Nat.div_le_div_right hab
  rcases Nat.lt_or_eq_of_le hq with h | h
  · exact Nat.le_trans (roundHalfEven_le a den)
      (Nat.le_trans h (div_le_roundHalfEven b den))
  · have ha := Nat.div_add_mod' a den
    have hb := Nat.div_add_mod' b den
    rw [← h] at hb
    unfold roundHalfEven
    dsimp only
    rw [← h]
    split <;> split <;> omega

end SignalLights
