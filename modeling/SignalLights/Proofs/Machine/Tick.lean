import SignalLights.Machine.Basic

/-!
# What a tick does

A blink run lasts for a time of its own, and so does range finding where it is finite. A tick that
finds such a mode past its time turns both lights off, clears the request and leads to off
(`Machine.tick_over`). Every other tick demands the levels of its mode and keeps the request; it
leads to the mode that serves the request, but from a blink run nowhere (`Machine.tick_lasting`).
A tick that stays in the mode leaves nothing that the next one reads (`Machine.tick_tick_of_stays`).
-/

namespace SignalLights

/-- Whether a mode shows a cadence. -/
def Mode.blinks : Mode → Bool
  | blinking | rangeFinding => true
  | off | fixedOn => false

/-- The mode that comes after one that is not over. -/
def Mode.next (m : Mode) (w : Wanted) : Mode := if m = .blinking then .blinking else w.mode

theorem Mode.next_of_ne {m : Mode} (h : m ≠ .blinking) (w : Wanted) : m.next w = w.mode := if_neg h

namespace Row

/-- Whether a mode ends by itself. -/
def isTimed (m : Mode) (c : Context) : Bool :=
  match m with
  | .blinking => true
  | .rangeFinding => c.rangeFindingIsFinite
  | .off | .fixedOn => false

@[simp] theorem isTimed_request (m : Mode) (c : Context) (w : Wanted) :
    isTimed m (c.request w) = isTimed m c := by
  cases m <;> cases w <;> rfl

/-- The levels that a mode demands while it lasts. -/
def levels (m : Mode) (c : Context) : Demand :=
  match m with
  | .off => .both false
  | .fixedOn => { c.demand with driver := some true }
  | .blinking => .both (c.active.isOn c.elapsed)
  | .rangeFinding => rangeDemand c

/-- All four rows at once. -/
theorem update_standard (m : Mode) (c : Context) :
    (standard m).update c =
      if isTimed m c && c.active.isExpired c.elapsed then expire c
      else ⟨{ c with demand := levels m c }, m.next c.wanted, []⟩ := by
  cases m with
  | off => simp [standard, off, follow, isTimed, levels, Mode.next]
  | fixedOn => simp [standard, fixedOn, follow, isTimed, levels, Mode.next]
  | blinking => simp [standard, blinking, isTimed, levels, Mode.next]
  | rangeFinding => simp [standard, rangeFinding, follow, isTimed, levels, Mode.next]

end Row

namespace Machine

/-- Whether a tick finds the mode past its time. -/
def isOver (m : Machine) (c : Context) (now : Binary64) : Bool :=
  Row.isTimed m.mode c && c.active.isExpired (m.timeOf now - m.since)

/-- Only a mode that blinks ends by itself. -/
theorem isOver_of_not_blinks {m : Machine} {c : Context} {now : Binary64}
    (h : m.mode.blinks = false) : m.isOver c now = false := by
  unfold isOver
  cases hm : m.mode with
  | off | fixedOn => rfl
  | blinking | rangeFinding =>
    rw [hm] at h
    cases h

section Enter

variable (m : Mode) (c : Context)

theorem demand_enter : (enter (Row.standard m) c).demand = c.demand := by
  cases m <;> rfl

theorem wanted_enter : (enter (Row.standard m) c).wanted = c.wanted := by
  cases m <;> rfl

end Enter

section Tick

variable (m : Machine) (c : Context) (now : Binary64)

/-- What is seen of a tick is what the row of the mode answered. -/
theorem tick_answers :
    let t := m.tick Row.standard c now
    let answer := (Row.standard m.mode).update (m.begin c now)
    t.machine.mode = answer.next ∧ t.context.wanted = answer.context.wanted ∧
      t.context.demand = answer.context.demand := by
  simp only [tick, Row.mode_standard]
  split
  · next h => exact ⟨h.symm, rfl, rfl⟩
  · exact ⟨rfl, wanted_enter _ _, demand_enter _ _⟩

variable {m c now}

theorem tick_over (h : m.isOver c now) :
    let t := m.tick Row.standard c now
    t.machine.mode = .off ∧ t.context.wanted = .off ∧ t.context.demand = .both false := by
  have hrow : (Row.standard m.mode).update (m.begin c now) = Row.expire (m.begin c now) := by
    rw [Row.update_standard]
    exact if_pos h
  have ht := m.tick_answers c now
  rw [hrow] at ht
  exact ht

theorem update_lasting (h : m.isOver c now = false) :
    (Row.standard m.mode).update (m.begin c now) =
      ⟨{ m.begin c now with demand := Row.levels m.mode (m.begin c now) },
        m.mode.next c.wanted, []⟩ := by
  rw [Row.update_standard]
  exact if_neg (Bool.eq_false_iff.1 h)

theorem tick_lasting (h : m.isOver c now = false) :
    let t := m.tick Row.standard c now
    t.machine.mode = m.mode.next c.wanted ∧ t.context.wanted = c.wanted ∧
      t.context.demand = Row.levels m.mode (m.begin c now) := by
  have ht := m.tick_answers c now
  rw [update_lasting h] at ht
  exact ht

/-! ## Ticks that stay -/

/-- A tick reads no more of a context than the row gets. -/
theorem tick_congr {d : Context} (h : m.begin d now = m.begin c now) :
    m.tick Row.standard d now = m.tick Row.standard c now := by
  simp only [tick, h]

/-- A mode past its time is left, for none that ends by itself is off. -/
theorem isOver_of_stays (h : (m.tick Row.standard c now).machine.mode = m.mode) :
    m.isOver c now = false := by
  cases hover : m.isOver c now with
  | false => rfl
  | true =>
    obtain ⟨hoff, -⟩ := tick_over hover
    have hlasts : m.isOver c now = false :=
      isOver_of_not_blinks (congrArg Mode.blinks (h.symm.trans hoff))
    exact hover.symm.trans hlasts

/-- A tick that stays in the mode moves nothing but the time spent in it and the demand. -/
theorem tick_of_stays (h : (m.tick Row.standard c now).machine.mode = m.mode) :
    m.tick Row.standard c now =
      ⟨m, { m.begin c now with demand := Row.levels m.mode (m.begin c now) }, none,
        timeNotices now⟩ := by
  have hlasts := isOver_of_stays h
  have hnext : m.mode.next c.wanted = m.mode := (tick_lasting hlasts).1.symm.trans h
  simp only [tick, update_lasting hlasts, Row.mode_standard, if_pos hnext, List.append_nil]

/-- These the next tick overwrites before it reads them. -/
theorem tick_tick_of_stays (h : (m.tick Row.standard c now).machine.mode = m.mode)
    (later : Binary64) :
    m.tick Row.standard (m.tick Row.standard c now).context later =
      m.tick Row.standard c later := by
  apply tick_congr
  rw [tick_of_stays h]
  rfl

/-- Which lights a mode commands while it lasts is no matter of time. -/
theorem isSome_levels (k : Mode) (now later : Binary64) :
    (Row.levels k (m.begin c later)).driver.isSome = (Row.levels k (m.begin c now)).driver.isSome ∧
      (Row.levels k (m.begin c later)).strip.isSome =
        (Row.levels k (m.begin c now)).strip.isSome := by
  cases k with
  | off | fixedOn | blinking => simp [Row.levels, Demand.both, begin]
  | rangeFinding =>
    simp only [Row.levels, Row.rangeDemand, begin]
    cases c.rangeIndicator <;> cases c.rangeBlinkEnabled <;> simp

/-- What a tick that stays commands, a tick at any other time commands too: one that finds the mode
past its time commands both lights. -/
theorem isSome_demand_of_stays (h : (m.tick Row.standard c now).machine.mode = m.mode)
    (later : Binary64) :
    let d := (m.tick Row.standard c now).context.demand
    let e := (m.tick Row.standard c later).context.demand
    (d.driver.isSome → e.driver.isSome) ∧ (d.strip.isSome → e.strip.isSome) := by
  intro d e
  cases hover : m.isOver c later with
  | true =>
    have hboth : e = .both false := (tick_over hover).2.2
    rw [hboth]
    exact ⟨fun _ => rfl, fun _ => rfl⟩
  | false =>
    have hlater : e = Row.levels m.mode (m.begin c later) := (tick_lasting hover).2.2
    have hnow : d = Row.levels m.mode (m.begin c now) := (tick_lasting (isOver_of_stays h)).2.2
    obtain ⟨hdriver, hstrip⟩ := isSome_levels (m := m) (c := c) m.mode now later
    rw [hlater, hnow, hdriver, hstrip]
    exact ⟨id, id⟩

end Tick

end Machine
end SignalLights
