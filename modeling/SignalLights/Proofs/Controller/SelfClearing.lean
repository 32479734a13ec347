import Mathlib.Data.List.Infix
import SignalLights.Proofs.Controller.Requests
import SignalLights.Proofs.Controller.Restart

/-!
# When a request is cleared by itself

A tick changes the request only by ending a blink run or finite range finding, and then everything
is off. After any tick the mode serves the request or is a blink run. So range finding that is not
finite lasts as long as it is asked for, whatever else is done (`request_cleared_by_expiry`).
-/

namespace SignalLights
namespace Controller

variable {c : Controller}

/-- What a tick does to the request. -/
theorem Reachable.wanted_loop (hc : c.Reachable) (hi : c.isInitialized) (now : Binary64) :
    (loop now c).1.wanted = if c.IsOver now then .off else c.wanted := by
  obtain ⟨hover, hlasting⟩ := hc.loop_decides hi now
  split
  · next h => exact (hover h).2
  · next h => exact (hlasting h).2

/-- After a tick the mode serves the request, or a blink run goes on. -/
theorem Reachable.mode_loop (hc : c.Reachable) (hi : c.isInitialized) (now : Binary64) :
    (loop now c).1.mode = (loop now c).1.wanted.mode ∨ (loop now c).1.mode = .blinking := by
  obtain ⟨hover, hlasting⟩ := hc.loop_decides hi now
  by_cases h : c.IsOver now
  · obtain ⟨hmode, hwanted⟩ := hover h
    rw [hmode, hwanted]
    exact .inl rfl
  · obtain ⟨hmode, hwanted⟩ := hlasting h
    rw [hmode, hwanted]
    by_cases hm : c.mode = .blinking
    · exact .inr (if_pos hm)
    · exact .inl (Mode.next_of_ne hm c.wanted)

/-! ## Range finding without an end -/

/-- Range finding goes on, is asked for, and does not end by itself. -/
structure RangesOn (c : Controller) : Prop where
  isInitialized : c.isInitialized
  mode : c.mode = .rangeFinding
  wanted : c.wanted.mode = .rangeFinding
  endless : c.context.rangeFindingIsFinite = false

theorem endless_step (op : Operation) (c : Controller) :
    (op.step c).1.context.rangeFindingIsFinite = c.context.rangeFindingIsFinite :=
  congrArg (·.2.1) (settings_step op c)

/-- A tick goes on ranging, and keeps the request. -/
theorem RangesOn.loop (h : c.RangesOn) (now : Binary64) :
    (loop now c).1.RangesOn ∧ (loop now c).1.wanted = c.wanted := by
  have hlasts : c.machine.isOver c.context now = false := by
    have htimed : Row.isTimed c.machine.mode c.context = false := by
      rw [show c.machine.mode = .rangeFinding from h.mode]
      exact h.endless
    rw [Machine.isOver, htimed, Bool.false_and]
  obtain ⟨hmode, hwanted⟩ := loop_lasting h.isInitialized hlasts
  have hranging : (Controller.loop now c).1.mode = .rangeFinding := by
    rw [hmode, h.mode]
    exact h.wanted
  refine ⟨⟨?_, hranging, ?_, ?_⟩, hwanted⟩
  · exact (isInitialized_step (.loop now) c).trans h.isInitialized
  · rw [hwanted]
    exact h.wanted
  · exact (endless_step (.loop now) c).trans h.endless

/-- One operation goes on ranging, as long as that is asked for. -/
theorem RangesOn.step (h : c.RangesOn) {op : Operation}
    (hasked : (op.step c).1.wanted.mode = .rangeFinding) : (op.step c).1.RangesOn := by
  rcases op.eq_loop_or with ⟨now, rfl⟩ | hop
  · exact (h.loop now).1
  · refine ⟨(isInitialized_step op c).trans h.isInitialized, ?_, hasked,
      (endless_step op c).trans h.endless⟩
    rcases op.mode_advance_of_ne_loop hop c.core with hsame | ⟨-, hoff⟩
    · exact (mode_step op h.isInitialized).trans (hsame.trans h.mode)
    · rw [wanted_step op h.isInitialized, hoff] at hasked
      cases hasked

theorem RangesOn.run (h : c.RangesOn) {ops : List Operation}
    (hasked : ∀ part, part <+: ops → (Controller.run part c).1.wanted.mode = .rangeFinding) :
    (Controller.run ops c).1.RangesOn := by
  induction ops generalizing c with
  | nil => exact h
  | cons op ops ih =>
    refine ih (h.step (hasked [op] ⟨ops, rfl⟩)) fun part hpart => ?_
    exact hasked (op :: part) (List.cons_prefix_cons.2 ⟨rfl, hpart⟩)

theorem RangesOn.run_loops (h : c.RangesOn) (times : List Binary64) :
    (Controller.run (times.map .loop) c).1.RangesOn ∧
      (Controller.run (times.map .loop) c).1.wanted = c.wanted := by
  induction times generalizing c with
  | nil => exact ⟨h, rfl⟩
  | cons now times ih =>
    obtain ⟨hnext, hkept⟩ := h.loop now
    obtain ⟨hend, hsame⟩ := ih hnext
    exact ⟨hend, hsame.trans hkept⟩

/-- **When a request is cleared by itself.** A tick changes the request only if it finds a blink
run, or finite range finding, past its time; such a tick clears the request and leaves the mode off
and both lights dark. After any tick the mode serves the request or is a blink run. Range finding
that is not finite lasts through any ticks, with its request, and through any operations during
which it is asked for. -/
theorem request_cleared_by_expiry (hc : c.Reachable) (hi : c.isInitialized) (now : Binary64) :
    let expires :=
      (c.mode = .blinking ∨ c.mode = .rangeFinding ∧ c.context.rangeFindingIsFinite) ∧
        c.IsOverdue now
    let d := (loop now c).1
    (d.wanted ≠ c.wanted → expires) ∧
      (expires → d.wanted = .off ∧ d.mode = .off ∧
        d.isLit .driver = false ∧ d.isLit .strip = false) ∧
      (d.mode = d.wanted.mode ∨ d.mode = .blinking) ∧
      (c.mode = .rangeFinding → c.context.rangeFindingIsFinite = false →
        c.wanted = .findRange ∨ c.wanted = .warn →
        (∀ times : List Binary64,
          let e := (run (times.map .loop) c).1
          e.mode = .rangeFinding ∧ e.wanted = c.wanted) ∧
        ∀ ops : List Operation,
          (∀ part, part <+: ops →
            (run part c).1.wanted = .findRange ∨ (run part c).1.wanted = .warn) →
          (run ops c).1.mode = .rangeFinding) := by
  intro expires d
  have hexpires : c.IsOver now ↔ expires := isOver_iff_timed
  refine ⟨fun hchanged => ?_, fun h => ?_, hc.mode_loop hi now, fun hm hendless hasked => ?_⟩
  · by_contra h
    have hkept := hc.wanted_loop hi now
    rw [if_neg (hexpires.not.2 h)] at hkept
    exact hchanged hkept
  · obtain ⟨hmode, hwanted, hdark⟩ := hc.loop_over hi (hc.isOver_iff.2 (hexpires.2 h))
    exact ⟨hwanted, hmode, hdark⟩
  · have h : c.RangesOn := ⟨hi, hm, (Wanted.mode_eq_rangeFinding_iff _).2 hasked, hendless⟩
    refine ⟨fun times => ?_, fun ops hops => ?_⟩
    · obtain ⟨hend, hkept⟩ := h.run_loops times
      exact ⟨hend.mode, hkept⟩
    · exact (h.run fun part hpart => (Wanted.mode_eq_rangeFinding_iff _).2 (hops part hpart)).mode

/-- A board whose range finding has no end, showing a warning. -/
def warning : Controller :=
  (history .standard (.ok ⟨.all true, true⟩) [.warn "low", .loop .zero]).1

/-- A late tick, another request for the range, the lamp, and a tick later still. -/
def whileWarning : List Operation :=
  [.loop (.ofNat 1), .want .findRange, .setLamp true, .loop (.ofNat 9)]

theorem request_cleared_by_expiry_ranging :
    let d := (loop (.ofNat 1) ranging).1
    let e := (run ([.ofNat 1, .nan, .ofNat 9].map .loop) warning).1
    let f := (run whileWarning warning).1
    ranging.mode = .rangeFinding ∧ d.wanted = .off ∧ d.mode = .off ∧ d.isLit .driver = false ∧
      d.isLit .strip = false ∧ e.mode = .rangeFinding ∧ e.wanted = .warn ∧
      f.mode = .rangeFinding := by
  have hranging : ranging.mode = .rangeFinding := by decide +kernel
  have hfinite := request_cleared_by_expiry (c := ranging) ⟨_, _, _, rfl⟩ (by decide +kernel)
    (.ofNat 1)
  obtain ⟨hwanted, hmode, hdark⟩ :=
    hfinite.2.1 ⟨.inr ⟨hranging, by decide +kernel⟩, by decide +kernel⟩
  have hendless := request_cleared_by_expiry (c := warning) ⟨_, _, _, rfl⟩ (by decide +kernel)
    (.ofNat 1)
  obtain ⟨hticks, hops⟩ := hendless.2.2.2 (by decide +kernel) (by decide +kernel)
    (.inr (by decide +kernel))
  obtain ⟨hmode', hwanted'⟩ := hticks [.ofNat 1, .nan, .ofNat 9]
  have hwarns : warning.wanted = .warn := by decide +kernel
  have hasked : ∀ part ∈ whileWarning.inits,
      (run part warning).1.wanted = .findRange ∨ (run part warning).1.wanted = .warn := by
    decide +kernel
  exact ⟨hranging, hwanted, hmode, hdark.1, hdark.2, hmode', hwanted'.trans hwarns,
    hops whileWarning fun part hpart => hasked part ((List.mem_inits _ _).2 hpart)⟩

end Controller
end SignalLights
