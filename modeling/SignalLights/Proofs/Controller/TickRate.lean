import Mathlib.Data.List.Infix
import SignalLights.Proofs.Controller.Alike

/-!
# The rate of ticks

A tick that stays in the mode changes nothing that a later tick goes by: the moment of entry and the
cadences stay, and every light it has told is told again by the next one, whenever that comes. So a
controller comes to the same state whether it ticked in between or not, and decides the same there
(`ticks_between`).
-/

namespace SignalLights

/-- The values of a channel-wise function are all there is to it. -/
theorem PerChannel.eq_ofFn {α : Type} {p : PerChannel α} {f : Channel → α}
    (h : ∀ ch, p.get ch = f ch) : p = .ofFn f :=
  PerChannel.ext (h .driver) (h .strip) (h .lamp)

namespace Effect

theorem machineEvents_append (es fs : List Effect) :
    machineEvents (es ++ fs) = machineEvents es ++ machineEvents fs := by
  rw [machineEvents, events_append, List.filter_append]
  rfl

theorem machineEvents_notices (ns : List Notice) : machineEvents (ns.map .notice) = [] := by
  rw [machineEvents, events_notices]
  rfl

end Effect

namespace Operation

variable {core : Machine × Context} {now : Binary64}

/-- After a tick that stays in the mode the next one does what it would have done before. -/
theorem tick_advance_of_stays (h : ((loop now).advance core).1.mode = core.1.mode)
    (later : Binary64) :
    ((loop now).advance core).1.tick Row.standard ((loop now).advance core).2 later =
      core.1.tick Row.standard core.2 later := by
  obtain ⟨m, c⟩ := core
  change (m.tick Row.standard c now).machine.tick Row.standard _ later = _
  have hkept : (m.tick Row.standard c now).machine = m := by rw [Machine.tick_of_stays h]
  rw [hkept]
  exact Machine.tick_tick_of_stays h later

theorem isSome_commanded_of_stays (h : ((loop now).advance core).1.mode = core.1.mode)
    (later : Binary64) (ch : Channel) :
    ((loop now).commanded core ch).isSome → ((loop later).commanded core ch).isSome := by
  obtain ⟨hdriver, hstrip⟩ := Machine.isSome_demand_of_stays h later
  cases ch with
  | driver => exact hdriver
  | strip => exact hstrip
  | lamp => exact id

end Operation

namespace Controller

open Effect (machineEvents)

variable {c : Controller} {now : Binary64}

/-! ## One tick -/

/-- The levels of the latches after an operation. -/
def levelsAfter (op : Operation) (c : Controller) : PerChannel (Option Bool) :=
  .ofFn fun ch =>
    if c.has ch then (op.commanded c.core ch).or (c.latches.level ch) else c.latches.level ch

/-- A demand changes nothing but levels, and is no event of the machine. -/
theorem driveDemand_keeps (ch : Channel) (demand : Option Bool) (c : Controller) :
    (∃ levels, (driveDemand ch demand c).1 =
      { c with latches := { c.latches with levels := levels } }) ∧
      machineEvents (driveDemand ch demand c).2 = [] := by
  cases demand with
  | none => exact ⟨⟨c.latches.levels, rfl⟩, rfl⟩
  | some on =>
    change (∃ levels, (drive ch on c).1 = _) ∧ machineEvents (drive ch on c).2 = []
    rcases drive_cases c ch on with h | h
    · rw [h]
      exact ⟨⟨c.latches.levels, rfl⟩, rfl⟩
    · rw [h]
      exact ⟨⟨_, rfl⟩, rfl⟩

/-- A tick moves the core and the levels. -/
theorem loop_state (hi : c.isInitialized) (now : Binary64) :
    let t := c.machine.tick Row.standard c.context now
    (loop now c).1 =
      { c with
        machine := t.machine
        context := t.context
        latches := { c.latches with levels := c.levelsAfter (.loop now) } } := by
  intro t
  obtain ⟨⟨driver, hdriver⟩, -⟩ := driveDemand_keeps .driver t.context.demand.driver
    { c with machine := t.machine, context := t.context }
  obtain ⟨⟨levels, hstrip⟩, -⟩ := driveDemand_keeps .strip t.context.demand.strip
    { c with
      machine := t.machine
      context := t.context
      latches := { c.latches with levels := driver } }
  have hstate : (loop now c).1 =
      { c with
        machine := t.machine
        context := t.context
        latches := { c.latches with levels := levels } } := by
    rw [loop, guarded_apply _ hi]
    simp [t, hdriver, hstrip]
  have hlevels : levels = c.levelsAfter (.loop now) := by
    apply PerChannel.eq_ofFn
    intro ch
    have hlevel := level_step (.loop now) hi ch
    rwa [Operation.step, hstate] at hlevel
  rw [hstate, hlevels]

/-- What a tick tells about the machine. -/
theorem machineEvents_loop (hi : c.isInitialized) (now : Binary64) :
    let t := c.machine.tick Row.standard c.context now
    machineEvents (loop now c).2 =
      (t.transition.toList.map fun t => .modeChanged t.source t.target) ++
        if t.context.wanted = c.wanted then [] else [.wantedChanged t.context.wanted] := by
  intro t
  have htransition (d : Controller) : machineEvents (reportTransition t.transition d).2 =
      t.transition.toList.map fun t => .modeChanged t.source t.target := by
    cases t.transition <;> rfl
  have hwanted (d : Controller) : machineEvents
      (Step.onlyIf (t.context.wanted != c.wanted) (.emit (.wantedChanged t.context.wanted)) d).2 =
      if t.context.wanted = c.wanted then [] else [.wantedChanged t.context.wanted] := by
    rw [Step.onlyIf_apply]
    by_cases h : t.context.wanted = c.wanted
    · simp [h, machineEvents]
    · simp only [bne_iff_ne, ne_eq, h, not_false_eq_true, if_true, if_false]
      rfl
  rw [loop, guarded_apply _ hi]
  simp only [Step.chain_cons, Step.chain_nil, Step.sayAll_apply, Step.modify_apply,
    Effect.machineEvents_append, Effect.machineEvents_notices, (driveDemand_keeps _ _ _).2,
    htransition, hwanted, t]
  simp [machineEvents]

/-! ## Ticks in between -/

theorem mode_tick_of_stays (hi : c.isInitialized) (h : (loop now c).1.mode = c.mode) :
    (c.machine.tick Row.standard c.context now).machine.mode = c.machine.mode :=
  (mode_step (.loop now) hi).symm.trans h

/-- A light told by the earlier tick is told again, so the level it took does not matter. -/
theorem levelsAfter_loop (hi : c.isInitialized)
    (h : ((Operation.loop now).advance c.core).1.mode = c.core.1.mode) (later : Binary64) :
    (loop now c).1.levelsAfter (.loop later) = c.levelsAfter (.loop later) := by
  have hcommanded : (Operation.loop later).commanded (loop now c).1.core =
      (Operation.loop later).commanded c.core := by
    rw [show (loop now c).1.core = (Operation.loop now).advance c.core from
      core_step (.loop now) hi]
    simp only [Operation.commanded, Operation.plain, Operation.tick_advance_of_stays h]
  apply PerChannel.eq_ofFn
  intro ch
  have hagain := Operation.isSome_commanded_of_stays h later ch
  have hhas : (loop now c).1.has ch = c.has ch := has_step (.loop now) c ch
  have hlevel := level_step (.loop now) hi ch
  rw [Operation.step] at hlevel
  rw [levelsAfter, PerChannel.get_ofFn, hhas, hlevel, hcommanded]
  cases c.has ch with
  | false => rfl
  | true =>
    cases hlater : (Operation.loop later).commanded c.core ch with
    | some on => rfl
    | none =>
      have hnow : (Operation.loop now).commanded c.core ch = none := by
        by_contra htold
        have htoldAgain := hagain (Option.isSome_iff_ne_none.2 htold)
        rw [hlater] at htoldAgain
        cases htoldAgain
      simp [hnow]

/-- A tick that stays in the mode leaves no trace in what the next one leads to, nor in what that
one tells about the machine. -/
theorem loop_loop (h : (loop now c).1.mode = c.mode) (later : Binary64) :
    (loop later (loop now c).1).1 = (loop later c).1 ∧
      machineEvents (loop later (loop now c).1).2 = machineEvents (loop later c).2 := by
  cases hi : c.isInitialized with
  | false =>
    rw [loop_inert now hi]
    exact ⟨rfl, rfl⟩
  | true =>
    have hi' : (loop now c).1.isInitialized := (isInitialized_step (.loop now) c).trans hi
    have hcore : (loop now c).1.core = (Operation.loop now).advance c.core :=
      core_step (.loop now) hi
    have hstays := mode_tick_of_stays hi h
    have htick : (loop now c).1.machine.tick Row.standard (loop now c).1.context later =
        c.machine.tick Row.standard c.context later := by
      have hagain := Operation.tick_advance_of_stays (show _ = c.core.1.mode from hstays) later
      rwa [← hcore] at hagain
    have hwanted : (loop now c).1.wanted = c.wanted :=
      (loop_lasting hi (Machine.isOver_of_stays hstays)).2
    have hlevels := levelsAfter_loop hi hstays later
    constructor
    · rw [loop_state hi' later, loop_state hi later, htick, hlevels, loop_state hi now]
    · rw [machineEvents_loop hi' later, machineEvents_loop hi later, htick, hwanted]

/-- So does any number of such ticks. -/
theorem loop_run_of_stays {times : List Binary64}
    (h : ∀ part, part <+: times → (run (part.map .loop) c).1.mode = c.mode) (later : Binary64) :
    (loop later (run (times.map .loop) c).1).1 = (loop later c).1 ∧
      machineEvents (loop later (run (times.map .loop) c).1).2 =
        machineEvents (loop later c).2 := by
  induction times generalizing c with
  | nil => exact ⟨rfl, rfl⟩
  | cons now times ih =>
    have hnow : (loop now c).1.mode = c.mode := h [now] ⟨times, rfl⟩
    have hrest : ∀ part, part <+: times →
        (run (part.map .loop) (loop now c).1).1.mode = (loop now c).1.mode := by
      intro part hpart
      rw [hnow]
      exact h (now :: part) (List.cons_prefix_cons.2 ⟨rfl, hpart⟩)
    obtain ⟨hstate, hevents⟩ := ih hrest
    obtain ⟨hstate', hevents'⟩ := loop_loop hnow later
    exact ⟨hstate.trans hstate', hevents.trans hevents'⟩

/-- **A tick in between changes nothing.** Where a tick stays in the mode, whatever its time, the
next one leads to the state it would have led to without it, and tells the same about the machine.
So it does after any number of ticks that stay in the mode, in any order of their times. -/
theorem ticks_between (c : Controller) (later : Binary64) :
    (∀ now, (loop now c).1.mode = c.mode →
      (loop later (loop now c).1).1 = (loop later c).1 ∧
        machineEvents (loop later (loop now c).1).2 = machineEvents (loop later c).2) ∧
    ∀ times : List Binary64,
      (∀ part, part <+: times → (run (part.map .loop) c).1.mode = c.mode) →
        let d := (run (times.map .loop) c).1
        (loop later d).1 = (loop later c).1 ∧
          machineEvents (loop later d).2 = machineEvents (loop later c).2 :=
  ⟨fun _ h => loop_loop h later, fun _ h => loop_run_of_stays h later⟩

/-- A blink run that ends after one second, with a tick without a time and one at 0.2 s before. -/
theorem ticks_between_blinking :
    let c := (history .standard (.ok ⟨.all true, true⟩) [.want .blink, .loop .zero]).1
    (loop (.ofNat 1) (loop .nan c).1).1 = (loop (.ofNat 1) c).1 ∧
      (loop (.ofNat 1) (run ([.nan, Cadence.standardPeriod].map .loop) c).1).1 =
        (loop (.ofNat 1) c).1 := by
  intro c
  obtain ⟨hone, hmany⟩ := ticks_between c (.ofNat 1)
  have hstays : ∀ part ∈ [Binary64.nan, Cadence.standardPeriod].inits,
      (run (part.map .loop) c).1.mode = c.mode := by
    decide +kernel
  exact ⟨(hone .nan (by decide +kernel)).1,
    (hmany _ fun part hpart => hstays part ((List.mem_inits _ _).2 hpart)).1⟩

end Controller
end SignalLights
