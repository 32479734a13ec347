import SignalLights.Proofs.Controller.BlinkRun

/-!
# Requests outside a blink run

Off, steady light and range finding follow a request on the next tick, whatever its time, but for
one case: a tick that finds finite range finding past its time ends it, and a request made meanwhile
is dropped with it (`follows_request`).
-/

namespace SignalLights
namespace Controller

variable {c : Controller} {now : Binary64}

/-- A tick at `now` ends the mode: it ends by itself, and its run is overdue. -/
def IsOver (c : Controller) (now : Binary64) : Prop :=
  Row.isTimed c.mode c.context ∧ c.IsOverdue now

instance (c : Controller) (now : Binary64) : Decidable (c.IsOver now) :=
  inferInstanceAs (Decidable (_ ∧ _))

theorem Reachable.isOver_iff (hc : c.Reachable) :
    c.machine.isOver c.context now ↔ c.IsOver now := by
  rw [Machine.isOver, Bool.and_eq_true, hc.isExpired_iff]
  rfl

/-- What a tick makes of the mode and the request. -/
theorem Reachable.loop_decides (hc : c.Reachable) (hi : c.isInitialized) (now : Binary64) :
    (c.IsOver now → (loop now c).1.mode = .off ∧ (loop now c).1.wanted = .off) ∧
      (¬ c.IsOver now →
        (loop now c).1.mode = c.mode.next c.wanted ∧ (loop now c).1.wanted = c.wanted) := by
  rw [← hc.isOver_iff]
  refine ⟨fun h => ?_, fun h => loop_lasting hi (Bool.eq_false_iff.2 h)⟩
  obtain ⟨hmode, hwanted, -⟩ := hc.loop_over hi h
  exact ⟨hmode, hwanted⟩

/-- A request changes neither the mode nor its time. -/
theorem isOver_want (hi : c.isInitialized) (w : Wanted) :
    (want w c).1.IsOver now ↔ c.IsOver now := by
  simp [IsOver, IsOverdue, mode, activeCadence, machine_want hi, context_want hi]

/-- A blink run ends by itself, and so does range finding where it is finite. -/
theorem isOver_iff_timed :
    c.IsOver now ↔
      (c.mode = .blinking ∨ c.mode = .rangeFinding ∧ c.context.rangeFindingIsFinite) ∧
        c.IsOverdue now := by
  refine and_congr_left fun _ => ?_
  cases c.mode <;> simp [Row.isTimed]

/-- Apart from a blink run, finite range finding alone ends by itself. -/
theorem isOver_iff_of_ne_blinking (hm : c.mode ≠ .blinking) :
    c.IsOver now ↔
      c.mode = .rangeFinding ∧ c.context.rangeFindingIsFinite ∧ c.IsOverdue now := by
  rw [isOver_iff_timed, or_iff_right hm, and_assoc]

/-- **Requests are followed.** Outside a blink run a request is followed on the next tick, unless
the tick finds finite range finding past its time: then range finding ends, and the request with
it. -/
theorem follows_request (hc : c.Reachable) (hi : c.isInitialized) (hm : c.mode ≠ .blinking)
    (w : Wanted) (now : Binary64) :
    let finishes :=
      c.mode = .rangeFinding ∧ c.context.rangeFindingIsFinite ∧ c.IsOverdue now
    let d := (loop now (want w c).1).1
    (¬ finishes → d.mode = w.mode ∧ d.wanted = w) ∧ (finishes → d.mode = .off ∧ d.wanted = .off) := by
  intro finishes d
  have hasked : (want w c).1.Reachable := hc.step (.want w)
  have hi' : (want w c).1.isInitialized := (isInitialized_run [.want w] c).trans hi
  have hfinishes : finishes ↔ (want w c).1.IsOver now :=
    (isOver_iff_of_ne_blinking hm).symm.trans (isOver_want hi w).symm
  have hmode : (want w c).1.mode = c.mode := congrArg Machine.mode (machine_want hi w)
  have hwanted : (want w c).1.wanted = w := by simp [wanted, context_want hi]
  obtain ⟨hover, hlasting⟩ := hasked.loop_decides hi' now
  rw [hmode, hwanted, Mode.next_of_ne hm] at hlasting
  rw [hfinishes]
  exact ⟨hlasting, hover⟩

/-- A board whose range finding is finite, just asked to find the range. -/
def ranging : Controller :=
  (history (.forProfile .digital) (.ok ⟨.all true, true⟩) [.want .findRange, .loop .zero]).1

theorem follows_request_ranging :
    let asked := (want .fixedOn ranging).1
    ranging.mode = .rangeFinding ∧ (loop Cadence.standardPeriod asked).1.mode = .fixedOn ∧
      (loop (.ofNat 1) asked).1.mode = .off := by
  have hmode : ranging.mode = .rangeFinding := by decide +kernel
  have h := follows_request (c := ranging) ⟨_, _, _, rfl⟩ (by decide +kernel)
    (by decide +kernel) .fixedOn
  refine ⟨hmode, ((h _).1 ?_).1, ((h _).2 ?_).1⟩
  · rw [not_and_or, not_and_or]
    exact .inr (.inr (by decide +kernel))
  · exact ⟨hmode, by decide +kernel, by decide +kernel⟩

/-- Steady light is asked for while range finding goes on, and never comes. -/
theorem finite_ranging_drops_request :
    ranging.Reachable ∧ ranging.isInitialized ∧ ranging.mode = .rangeFinding ∧
      (loop (.ofNat 1) (want .fixedOn ranging).1).1.mode ≠ Wanted.mode .fixedOn ∧
      (loop (.ofNat 1) (want .fixedOn ranging).1).1.wanted = .off :=
  ⟨⟨_, _, _, rfl⟩, by decide +kernel, by decide +kernel, by decide +kernel, by decide +kernel⟩

end Controller
end SignalLights
