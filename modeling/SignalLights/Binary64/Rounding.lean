import SignalLights.Binary64.Basic
import SignalLights.Rounding

/-!
# Rounding to binary64

`nearest num den` is the magnitude whose value is nearest to `num / den` units; of two equally
near, the even one. Values from half a step above the largest finite double on become infinity.
Main statement: a value that is a double already is kept.
-/

namespace SignalLights.Binary64

/-- The exponent of the last place kept in a value of `q` whole units. -/
def lastPlace (q : Nat) : Nat := q.log2 - 52

def nearest (num den : Nat) : Nat :=
  let k := lastPlace (num / den)
  min (k * binade + roundHalfEven num (den <<< k)) infinityWord

def ofRatio (negative : Bool) (num den : Nat) : Binary64 :=
  ofMagnitude negative (nearest num den)

theorem nearest_le (num den : Nat) : nearest num den ≤ infinityWord := Nat.min_le_right _ _

theorem nearest_lt (num den : Nat) : nearest num den < signPlace :=
  Nat.lt_of_le_of_lt (nearest_le num den) (by decide)

theorem lastPlace_shiftLeft {m : Nat} (k : Nat) (hm : binade ≤ m) (hm' : m < 2 * binade) :
    lastPlace (m <<< k) = k := by
  have h : (m <<< k).log2 = 52 + k := by
    rw [Nat.shiftLeft_eq, Nat.log2_eq_iff (Nat.mul_ne_zero (by unfold binade at hm; omega) (by simp)),
      Nat.pow_add, Nat.add_right_comm, Nat.pow_add]
    exact ⟨Nat.mul_le_mul_right _ hm, Nat.mul_lt_mul_of_pos_right hm' (Nat.two_pow_pos k)⟩
  rw [lastPlace, h]; omega

theorem lastPlace_of_lt {q : Nat} (h : q < 2 * binade) : lastPlace q = 0 := by
  rcases Nat.eq_zero_or_pos q with rfl | hq
  · rfl
  · have := (Nat.log2_lt (k := 53) (by omega : q ≠ 0)).2 h
    unfold lastPlace; omega

theorem nearest_units {w den : Nat} (hw : w ≤ infinityWord) (hd : 0 < den) :
    nearest (units w * den) den = w := by
  unfold nearest
  dsimp only
  rw [Nat.mul_div_cancel _ hd]
  rcases Nat.lt_or_ge w binade with h | h
  · rw [units_of_lt h, lastPlace_of_lt (by omega), Nat.shiftLeft_zero, roundHalfEven_mul _ hd]
    omega
  · have hu : units w = (binade + w % binade) <<< (w / binade - 1) := by
      rw [units, if_neg (Nat.not_lt.2 h)]
    have hm := Nat.mod_lt w (show 0 < binade by decide)
    rw [hu, lastPlace_shiftLeft _ (by omega) (by omega), Nat.shiftLeft_eq, Nat.shiftLeft_eq,
      Nat.mul_assoc, Nat.mul_comm (2 ^ _) den,
      roundHalfEven_mul _ (Nat.mul_pos hd (Nat.two_pow_pos _))]
    have := Nat.div_add_mod' w binade
    have : 1 ≤ w / binade := (Nat.one_le_div_iff (by decide)).2 h
    rw [Nat.sub_mul, Nat.one_mul]
    have : binade ≤ w / binade * binade := Nat.le_mul_of_pos_left _ this
    omega

end SignalLights.Binary64
