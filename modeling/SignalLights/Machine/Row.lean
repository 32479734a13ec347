import SignalLights.Machine.Context

/-!
# Rows of the machine

A row tells what a mode does on entry and on every tick. Off, steady and range finding follow the
request; a blink run ends only by expiring. An expired run turns both lights off and clears the
request.
-/

namespace SignalLights

/-- What a row answers on a tick: the context it leaves, the mode that comes next. -/
structure Outcome where
  context : Context
  next : Mode
  notices : List Notice

structure Row where
  mode : Mode
  enter : Option (Context → Context)
  update : Context → Outcome

namespace Row

/-- The lights as demanded, and on to the mode that serves the request. -/
def follow (c : Context) (d : Demand) : Outcome := ⟨{ c with demand := d }, c.wanted.mode, []⟩

/-- The end of a finite run. -/
def expire (c : Context) : Outcome :=
  ⟨{ c with demand := .both false, wanted := .off }, .off, [.runFinished c.elapsed]⟩

def off : Row where
  mode := .off
  enter := none
  update c := follow c (.both false)

def fixedOn : Row where
  mode := .fixedOn
  enter := none
  update c := follow c { c.demand with driver := some true }

def blinking : Row where
  mode := .blinking
  enter := some Context.latch
  update c :=
    if c.active.isExpired c.elapsed then expire c
    else ⟨{ c with demand := .both (c.active.isOn c.elapsed) }, .blinking, []⟩

/-- The indicator blinks, or is steady where blinking is disabled; the driver light stays on beside
a blinking strip. -/
def rangeDemand (c : Context) : Demand :=
  match c.rangeIndicator, c.rangeBlinkEnabled with
  | .driver, true => { c.demand with driver := some (c.active.isOn c.elapsed) }
  | .strip, true => ⟨some true, some (c.active.isOn c.elapsed)⟩
  | _, false => { c.demand with driver := some true }

def rangeFinding : Row where
  mode := .rangeFinding
  enter := some Context.latch
  update c :=
    if c.rangeFindingIsFinite && c.active.isExpired c.elapsed then expire c
    else follow c (rangeDemand c)

/-- The row of each mode. -/
def standard : Mode → Row
  | .off => off
  | .fixedOn => fixedOn
  | .blinking => blinking
  | .rangeFinding => rangeFinding

@[simp] theorem mode_standard (m : Mode) : (standard m).mode = m := by cases m <;> rfl

end Row
end SignalLights
