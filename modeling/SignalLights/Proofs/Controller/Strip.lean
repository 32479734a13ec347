import SignalLights.Proofs.Controller.Reachable

/-!
# The strip

Only a tick of a blink run or of range finding lights the strip. In off the next tick puts it out.
Steady light is for the driver light alone and leaves the strip as it is: what range finding left
lit on its way to steady light stays lit as long as steady light lasts (`strip_settles`).
-/

namespace SignalLights

namespace Machine

variable {m : Machine} {c : Context} {now : Binary64}

/-- A mode that does not blink demands its levels on every tick. -/
theorem demand_tick_of_not_blinks {k : Mode} (hm : m.mode = k) (hk : k.blinks = false) :
    (m.tick Row.standard c now).context.demand = Row.levels k (m.begin c now) := by
  subst hm
  exact (tick_lasting (isOver_of_not_blinks hk)).2.2

end Machine

namespace Controller

variable {c : Controller}

theorem Reachable.strip_loop_off (hc : c.Reachable) (hi : c.isInitialized) (hm : c.mode = .off)
    (now : Binary64) : (loop now c).1.isLit .strip = false := by
  have hdark : (Operation.loop now).commanded c.core .strip = some false :=
    congrArg Demand.strip (Machine.demand_tick_of_not_blinks hm rfl)
  have hstep := hc.isLit_step hi (.loop now) hdark
  rwa [Bool.and_false] at hstep

theorem strip_loop_fixedOn (hi : c.isInitialized) (hm : c.mode = .fixedOn) (now : Binary64) :
    (loop now c).1.isLit .strip = c.isLit .strip :=
  isLit_step_of_none hi (.loop now)
    (congrArg Demand.strip (Machine.demand_tick_of_not_blinks hm rfl))

theorem Reachable.mode_loop_blinking (hc : c.Reachable) (hi : c.isInitialized)
    (hm : c.mode = .blinking) (now : Binary64) :
    (loop now c).1.mode = .off ∨ (loop now c).1.mode = .blinking := by
  cases h : c.machine.isOver c.context now with
  | true => exact .inl (hc.loop_over hi h).1
  | false =>
    have hmode := (loop_lasting hi h).1
    rw [hm] at hmode
    exact .inr hmode

/-- One operation: the strip is lit by a tick of a mode that blinks, or was lit before. -/
theorem Reachable.strip_step (hc : c.Reachable) (hi : c.isInitialized) {op : Operation}
    (h : (op.step c).1.isLit .strip) :
    c.isLit .strip ∨ ∃ now, op = .loop now ∧ c.mode.blinks := by
  rcases op.eq_loop_or with ⟨now, rfl⟩ | hop
  · cases hm : c.mode with
    | off =>
      have hdark := hc.strip_loop_off hi hm now
      exact absurd (h.symm.trans hdark) (by decide)
    | fixedOn => exact .inl ((strip_loop_fixedOn hi hm now).symm.trans h)
    | blinking | rangeFinding => exact .inr ⟨now, rfl, rfl⟩
  · rcases op.commanded_of_ne_loop hop (by decide : Channel.strip ≠ .lamp) c.core with
      hnone | hdark
    · exact .inl ((isLit_step_of_none hi op hnone).symm.trans h)
    · rw [hc.isLit_step hi op hdark, Bool.and_false] at h
      cases h

/-- Steady light beside a lit strip. -/
def StripStaysLit (c : Controller) : Prop := c.mode = .fixedOn ∧ c.isLit .strip

instance (c : Controller) : Decidable c.StripStaysLit := inferInstanceAs (Decidable (_ ∧ _))

/-- One operation: only range finding leaves the strip lit for steady light. -/
theorem Reachable.stripStaysLit_step (hc : c.Reachable) (hi : c.isInitialized) {op : Operation}
    (h : (op.step c).1.StripStaysLit) (hnot : ¬ c.StripStaysLit) :
    ∃ now, op = .loop now ∧ c.mode = .rangeFinding := by
  obtain ⟨hmode, hlit⟩ := h
  rcases op.eq_loop_or with ⟨now, rfl⟩ | hop
  · refine ⟨now, rfl, ?_⟩
    cases hm : c.mode with
    | rangeFinding => rfl
    | off => exact absurd (hlit.symm.trans (hc.strip_loop_off hi hm now)) (by decide)
    | fixedOn => exact absurd ⟨hm, (strip_loop_fixedOn hi hm now).symm.trans hlit⟩ hnot
    | blinking =>
      rcases hc.mode_loop_blinking hi hm now with hoff | hblinking
      · exact absurd (hmode.symm.trans hoff) (by decide)
      · exact absurd (hmode.symm.trans hblinking) (by decide)
  · refine absurd ⟨?_, ?_⟩ hnot
    · have hadvance := mode_step op hi
      rcases op.mode_advance_of_ne_loop hop c.core with hsame | ⟨hoff, -⟩
      · exact (hadvance.trans hsame).symm.trans hmode
      · exact absurd (hmode.symm.trans (hadvance.trans hoff)) (by decide)
    · rcases hc.strip_step hi hlit with hbefore | ⟨now, rfl, -⟩
      · exact hbefore
      · exact absurd rfl (hop now)

/-- Two ticks in a row, in modes that do not blink. -/
theorem Reachable.strip_loop_loop (hc : c.Reachable) (hi : c.isInitialized) {now later : Binary64}
    (hcm : c.mode.blinks = false) (hdm : (loop now c).1.mode.blinks = false) :
    (loop later (loop now c).1).1.isLit .strip ↔
      c.StripStaysLit ∧ (loop now c).1.mode = .fixedOn := by
  have hd : (loop now c).1.Reachable := hc.step (.loop now)
  have hdi : (loop now c).1.isInitialized := (isInitialized_step (.loop now) c).trans hi
  cases hm' : (loop now c).1.mode with
  | blinking | rangeFinding =>
    rw [hm'] at hdm
    cases hdm
  | off => simp [hd.strip_loop_off hdi hm' later]
  | fixedOn =>
    rw [strip_loop_fixedOn hdi hm' later]
    cases hm : c.mode with
    | blinking | rangeFinding =>
      rw [hm] at hcm
      cases hcm
    | off => simp [hc.strip_loop_off hi hm now, StripStaysLit, hm]
    | fixedOn => simp [strip_loop_fixedOn hi hm now, StripStaysLit, hm]

/-- **The strip settles.** Only a tick of a mode that blinks lights the strip. After two ticks in a
row it is dark where neither the first mode nor the second blinks, unless both are steady light and
the strip was lit before; and a strip is lit in steady light only since a tick went there from range
finding. -/
theorem strip_settles (config : Config) (port : Equipment) (ops : List Operation)
    (now later : Binary64) :
    let c := (history config (.ok port) ops).1
    let d := (loop now c).1
    let e := (loop later d).1
    (∀ op : Operation, (op.step c).1.isLit .strip →
      c.isLit .strip ∨ ∃ t, op = .loop t ∧ c.mode.blinks) ∧
    (c.mode.blinks = false → d.mode.blinks = false →
      (e.isLit .strip ↔ c.StripStaysLit ∧ d.mode = .fixedOn)) ∧
    (c.StripStaysLit → ∃ before t after, ops = before ++ .loop t :: after ∧
      (history config (.ok port) before).1.mode = .rangeFinding ∧
      ∀ part, part <+: after →
        (history config (.ok port) (before ++ .loop t :: part)).1.StripStaysLit) := by
  intro c d e
  have hreach (past : List Operation) : (history config (.ok port) past).1.Reachable :=
    ⟨_, _, _, rfl⟩
  have hi := isInitialized_history config port
  refine ⟨fun op h => (hreach ops).strip_step (hi ops) h,
    (hreach ops).strip_loop_loop (hi ops), fun h => ?_⟩
  have hfresh : ¬ (new config (.ok port)).1.StripStaysLit := by
    intro h
    have hmode := congrArg (fun core => core.1.mode) (core_build .onChange config (.ok port))
    cases h.1.symm.trans hmode
  obtain ⟨before, op, after, rfl, hnot, hsince⟩ := run_began hfresh h
  have hfirst : (op.step (history config (.ok port) before).1).1.StripStaysLit := by
    have h := hsince [] List.nil_prefix
    rwa [run_append] at h
  obtain ⟨t, rfl, hmode⟩ := (hreach before).stripStaysLit_step (hi before) hfirst hnot
  exact ⟨before, t, after, rfl, hmode, hsince⟩

/-- A board whose strip shows the range and was just lit, and a request. -/
def leavingRange (w : Wanted) : List Operation :=
  [.want .findRange, .loop .zero, .loop .zero, .want w, .loop .zero]

theorem strip_settles_leavingRange :
    let past (w : Wanted) :=
      (history (.forProfile .digital) (.ok ⟨.all true, true⟩) (leavingRange w)).1
    (past .off).mode = .off ∧ (past .off).isLit .strip ∧
      ¬ (loop .zero (loop .zero (past .off)).1).1.isLit .strip ∧ (past .fixedOn).StripStaysLit ∧
      ∃ before t after, leavingRange .fixedOn = before ++ .loop t :: after ∧
        (history (.forProfile .digital) (.ok ⟨.all true, true⟩) before).1.mode = .rangeFinding := by
  intro past
  have hoff : (past .off).mode = .off := by decide +kernel
  have hsteady : (past .fixedOn).StripStaysLit := by decide +kernel
  have h := strip_settles (.forProfile .digital) ⟨.all true, true⟩ (leavingRange .off) .zero .zero
  have h' :=
    strip_settles (.forProfile .digital) ⟨.all true, true⟩ (leavingRange .fixedOn) .zero .zero
  refine ⟨hoff, by decide +kernel, fun hlit => ?_, hsteady, ?_⟩
  · have hstays := ((h.2.1 (by decide +kernel) (by decide +kernel)).1 hlit).1
    cases hoff.symm.trans hstays.1
  · obtain ⟨before, t, after, hsplit, hmode, -⟩ := h'.2.2 hsteady
    exact ⟨before, t, after, hsplit, hmode⟩

/-- Range finding leaves the strip lit for steady light, and two ticks later it still is. -/
theorem steady_light_keeps_strip :
    let c := (history (.forProfile .digital) (.ok ⟨.all true, true⟩) (leavingRange .fixedOn)).1
    let d := (loop .zero c).1
    let e := (loop .zero d).1
    c.mode = .fixedOn ∧ d.mode = .fixedOn ∧ e.mode = .fixedOn ∧ e.isLit .strip := by
  decide +kernel

end Controller
end SignalLights
