import SignalLights.Proofs.Binary64.Order
import SignalLights.Proofs.Scheduler.Phases

/-!
# The clock of a running scheduler

A scheduler started at a finite time keeps a finite time until a tick comes at infinity. From then
on every other time lies before the one it keeps, and its loops see nothing but infinity
(`timed_clock`).
-/

namespace SignalLights
namespace Scheduler

variable {α : Type} {s : Scheduler α}

/-- The time kept is finite or infinity. -/
def Timed (s : Scheduler α) : Prop := s.last.isFinite ∨ s.last = .infinity

theorem clock_of_infinity (h : s.last = .infinity) (t : Binary64) : s.clock t = .infinity := by
  unfold clock holds
  rw [h]
  split
  · rfl
  · next ht =>
    rw [Bool.not_eq_true, Bool.or_eq_false_iff, decide_eq_false_iff_not] at ht
    rcases t.isFinite_or_eq_infinity with hf | hn | rfl | rfl
    · exact absurd (Binary64.lt_infinity hf) ht.1
    · exact absurd hn (by simp [ht.2])
    · rfl
    · exact absurd (by decide) ht.1

/-- Told any time but infinity, a finite clock shows a finite time, and none before a finite one it
was told. -/
theorem clock_of_isFinite (h : s.last.isFinite) (t : Binary64) :
    (t = .infinity ∧ s.clock t = .infinity) ∨
      (t ≠ .infinity ∧ (s.clock t).isFinite ∧ (t.isFinite → t ≤ s.clock t)) := by
  have held (ht : s.holds t = true) : s.clock t = s.last := if_pos ht
  have taken (ht : s.holds t = false) : s.clock t = t := if_neg (by simp [ht])
  rcases t.isFinite_or_eq_infinity with hf | hn | rfl | rfl
  · refine .inr ⟨Binary64.ne_infinity hf, ?_⟩
    cases ht : s.holds t with
    | false =>
      rw [taken ht]
      exact ⟨hf, fun _ => Binary64.le_refl_of_isFinite hf⟩
    | true =>
      have hlt : t < s.last := by
        simpa [holds, Binary64.isNaN_eq_false_of_isFinite hf] using ht
      rw [held ht]
      exact ⟨h, fun _ => Binary64.le_of_lt hlt⟩
  · have ht : s.holds t = true := by simp [holds, hn]
    rw [held ht]
    refine .inr ⟨?_, h, fun hf => ?_⟩
    · rintro rfl
      exact absurd hn (by decide)
    · exact absurd hn (by simp [Binary64.isNaN_eq_false_of_isFinite hf])
  · refine .inl ⟨rfl, taken ?_⟩
    have hnot : ¬ Binary64.infinity < s.last := Binary64.lt_asymm (Binary64.lt_infinity h)
    simp [holds, hnot, Binary64.isNaN_infinity]
  · have ht : s.holds .negInfinity = true := by simp [holds, Binary64.negInfinity_lt h]
    rw [held ht]
    exact .inr ⟨by decide, h, fun hf => absurd hf (by decide)⟩

theorem timed_clock (h : s.Timed) (t : Binary64) :
    ((s.clock t).isFinite ∨ s.clock t = .infinity) ∧
      (s.clock t = .infinity ↔ s.last = .infinity ∨ t = .infinity) := by
  rcases h with hf | hi
  · have hl := Binary64.ne_infinity hf
    rcases clock_of_isFinite hf t with ⟨rfl, hc⟩ | ⟨ht, hc, -⟩
    · exact ⟨.inr hc, by simp [hc]⟩
    · refine ⟨.inl hc, ?_⟩
      exact iff_of_false (Binary64.ne_infinity hc) (not_or.2 ⟨hl, ht⟩)
  · have hc := clock_of_infinity hi t
    exact ⟨.inr hc, by simp [hc, hi]⟩

end Scheduler
end SignalLights
