import SignalLights.Proofs.Controller.Ticks

/-!
# Whether a blink run can end

A blink run ends with a tick that comes later than the length of the run. There is a finite time so
late just when the largest double is: when the length of the run, and the tolerance, are less than
what the largest double is away from the start (`blink_run_ends_iff`). No run ends that starts too
late, or is too long to have a finite length.
-/

namespace SignalLights
namespace Controller

variable {c : Controller}

/-- Some finite time, not before the start of the mode, at which a tick leads to off. -/
def CanEnd (c : Controller) : Prop :=
  ∃ now : Binary64, now.isFinite ∧ c.machine.since ≤ now ∧
    (loop now c).1.mode = .off ∧ (loop now c).1.wanted = .off

/-- A run can end just when the largest double comes late enough. -/
theorem Reachable.canEnd_iff (hc : c.Reachable) (hi : c.isInitialized) (hm : c.mode = .blinking) :
    c.CanEnd ↔ c.activeCadence.total + tolerance < .largest - c.machine.since := by
  constructor
  · rintro ⟨now, hnow, -, hoff, -⟩
    have hover : c.IsOverdue now := by
      by_contra h
      have hspares : (Operation.loop now).sparesRun := rfl
      have hrun : c.SameRun (loop now c).1 := hc.sameRun_step hi hm hspares (by
        rintro _ ⟨⟩
        exact h)
      cases hoff.symm.trans hrun.1
    rw [isOverdue_iff_of_isFinite hnow] at hover
    exact Binary64.lt_of_lt_of_le hover
      (Binary64.sub_le_sub_right hnow Binary64.isFinite_largest hc.isFinite_since
        (Binary64.le_largest hnow))
  · intro h
    have hover : c.IsOverdue .largest :=
      (isOverdue_iff_of_isFinite Binary64.isFinite_largest).2 h
    obtain ⟨hmode, hwanted, -⟩ := hc.loop_overdue hi hm hover
    exact ⟨.largest, Binary64.isFinite_largest, Binary64.le_largest hc.isFinite_since, hmode,
      hwanted⟩

/-- A controller that was built, started, asked to blink and ticked, all at one time. -/
def blinkingFrom (config : Config) (port : Equipment) (start : Binary64) : Controller :=
  (history config (.ok port) [.start start, .want .blink, .loop start]).1

theorem core_blinkingFrom (config : Config) (port : Equipment) {start : Binary64}
    (h : start.isFinite) :
    (blinkingFrom config port start).core =
      (⟨.blinking, start⟩,
        { Context.ofConfig config with wanted := .blink, demand := .both false, elapsed := .zero }) := by
  have hi : (new config (.ok port)).1.isInitialized := isInitialized_history config port []
  have hstart : start - start = .zero := Binary64.sub_self_of_isFinite h
  rw [blinkingFrom, history, core_run hi, new, core_build]
  simp [Operation.advance, Operation.plain, Machine.reset, Machine.timeOf, h, hstart,
    Machine.tick, Machine.begin, Machine.enter, Row.standard, Row.off, Row.blinking, Row.follow,
    Context.request, Context.latch, Context.ofConfig, Wanted.mode]

theorem mode_blinkingFrom (config : Config) (port : Equipment) {start : Binary64}
    (h : start.isFinite) : (blinkingFrom config port start).mode = .blinking := by
  obtain ⟨hmachine, -⟩ := Prod.mk.inj (core_blinkingFrom config port h)
  rw [mode, hmachine]

theorem canEnd_blinkingFrom_iff (config : Config) (port : Equipment) {start : Binary64}
    (h : start.isFinite) :
    (∃ now : Binary64, now.isFinite ∧ start ≤ now ∧
        (loop now (blinkingFrom config port start)).1.mode = .off ∧
        (loop now (blinkingFrom config port start)).1.wanted = .off) ↔
      config.blink.total + tolerance < .largest - start := by
  have hc : (blinkingFrom config port start).Reachable := ⟨_, _, _, rfl⟩
  have hi := isInitialized_history config port [.start start, .want .blink, .loop start]
  obtain ⟨hmachine, hcontext⟩ := Prod.mk.inj (core_blinkingFrom config port h)
  have hcanEnd := hc.canEnd_iff hi (mode_blinkingFrom config port h)
  rwa [CanEnd, activeCadence, hmachine, hcontext, Context.ofConfig] at hcanEnd

/-- 2¹⁰²² seconds. -/
def farOff : Binary64 := ⟨0x7fd0000000000000⟩

/-- Far from the largest double there is always time for a run. -/
theorem total_add_tolerance_lt (cadence : Cadence) {start : Binary64} (hs : start.isFinite)
    (htotal : cadence.total ≤ farOff) (hstart : start ≤ farOff) :
    cadence.total + tolerance < .largest - start := by
  have hfar : farOff.isFinite := by decide
  have htol : tolerance.isFinite := by decide
  have hfinite : cadence.total.isFinite :=
    Binary64.isFinite_of_le cadence.negative_total htotal hfar
  have hlength : cadence.total + tolerance ≤ farOff + tolerance :=
    Binary64.add_le_add hfinite htol hfar htol htotal (Binary64.le_refl_of_isFinite htol)
  have htime : .largest - farOff ≤ .largest - start :=
    Binary64.sub_le_sub_left Binary64.isFinite_largest hs hfar hstart
  have hgap : farOff + tolerance < .largest - farOff := by decide +kernel
  exact Binary64.lt_of_lt_of_le (Binary64.lt_of_le_of_lt hlength hgap) htime

/-- **Whether a blink run can end.** A controller is built, started at a finite time and asked to
blink, and the next tick begins the run. Some later finite time ends it, in off and with the request
cleared, just when the length of the run and the tolerance are less than what is left from the start
to the largest double. That much is left for every run of up to 2¹⁰²² s that starts by then. -/
theorem blink_run_ends_iff (config : Config) (port : Equipment) {start : Binary64}
    (hs : start.isFinite) :
    let c := blinkingFrom config port start
    c.mode = .blinking ∧
      ((∃ now : Binary64, now.isFinite ∧ start ≤ now ∧
          (loop now c).1.mode = .off ∧ (loop now c).1.wanted = .off) ↔
        config.blink.total + tolerance < .largest - start) ∧
      (config.blink.total ≤ farOff → start ≤ farOff →
        config.blink.total + tolerance < .largest - start) :=
  ⟨mode_blinkingFrom config port hs, canEnd_blinkingFrom_iff config port hs,
    total_add_tolerance_lt config.blink hs⟩

theorem blink_run_ends_iff_standard :
    let c := blinkingFrom .standard ⟨.all true, true⟩ .zero
    ∃ now : Binary64, now.isFinite ∧ .zero ≤ now ∧
      (loop now c).1.mode = .off ∧ (loop now c).1.wanted = .off := by
  obtain ⟨-, hends, hlength⟩ :=
    blink_run_ends_iff .standard ⟨.all true, true⟩ (by decide : Binary64.zero.isFinite)
  exact hends.2 (hlength (by decide +kernel) (by decide +kernel))

/-- The standard cadence, but with the longest period. -/
def overlong : Config := { Config.standard with blinkPeriod := .largest }

/-- A run that starts at the largest double never ends, nor does one without a finite length. -/
theorem endless_blink_runs :
    Config.standard.validate = none ∧ overlong.validate = none ∧
      (¬ ∃ now : Binary64, now.isFinite ∧ .largest ≤ now ∧
        (loop now (blinkingFrom .standard ⟨.all true, true⟩ .largest)).1.mode = .off ∧
        (loop now (blinkingFrom .standard ⟨.all true, true⟩ .largest)).1.wanted = .off) ∧
      (¬ ∃ now : Binary64, now.isFinite ∧ .zero ≤ now ∧
        (loop now (blinkingFrom overlong ⟨.all true, true⟩ .zero)).1.mode = .off ∧
        (loop now (blinkingFrom overlong ⟨.all true, true⟩ .zero)).1.wanted = .off) := by
  refine ⟨by decide +kernel, by decide +kernel, ?_, ?_⟩
  · rw [canEnd_blinkingFrom_iff _ _ Binary64.isFinite_largest]
    decide +kernel
  · rw [canEnd_blinkingFrom_iff _ _ (by decide)]
    decide +kernel

end Controller
end SignalLights
