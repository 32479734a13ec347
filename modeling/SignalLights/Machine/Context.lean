import SignalLights.Config

/-!
# The context of the machine

What the rows of the machine read and write: the request, the cadences, the time spent in the
current mode, the settings of range finding and the levels demanded in this tick.
-/

namespace SignalLights

/-- Levels demanded of the two lights that the machine drives; `none` leaves a light as it is. -/
structure Demand where
  driver : Option Bool
  strip : Option Bool
deriving DecidableEq, Repr

namespace Demand

def nothing : Demand := ⟨none, none⟩
def both (on : Bool) : Demand := ⟨some on, some on⟩

end Demand

structure Context where
  wanted : Wanted
  /-- The cadence of a blink request. -/
  base : Cadence
  /-- The cadence the latest request chose. -/
  selected : Cadence
  /-- The cadence of the run in progress. -/
  active : Cadence
  /-- Seconds since the mode was entered. -/
  elapsed : Binary64
  rangeFindingIsFinite : Bool
  rangeIndicator : RangeIndicator
  rangeBlinkEnabled : Bool
  demand : Demand
deriving DecidableEq

namespace Context

def ofConfig (c : Config) : Context where
  wanted := .off
  base := c.blink
  selected := c.blink
  active := c.blink
  elapsed := .zero
  rangeFindingIsFinite := c.rangeFindingIsFinite
  rangeIndicator := c.rangeIndicator
  rangeBlinkEnabled := c.rangeBlinkEnabled
  demand := .nothing

/-- A request that blinks chooses its cadence: the base one, or for range finding and warnings the
base one hurried. -/
def request (c : Context) (w : Wanted) : Context :=
  match w with
  | .blink => { c with wanted := w, selected := c.base }
  | .findRange | .warn => { c with wanted := w, selected := c.base.hurried }
  | .off | .fixedOn => { c with wanted := w }

def requestNotices (c : Context) : Wanted → List Notice
  | .findRange | .warn => c.base.hurriedNotices
  | _ => []

/-- A cadence that applies at once, to a run in progress too. -/
def override (c : Context) (cadence : Cadence) : Context :=
  { c with selected := cadence, active := cadence }

/-- A new run starts with the selected cadence. -/
def latch (c : Context) : Context := { c with active := c.selected }

@[simp] theorem wanted_request (c : Context) (w : Wanted) : (c.request w).wanted = w := by
  cases w <;> rfl

@[simp] theorem base_request (c : Context) (w : Wanted) : (c.request w).base = c.base := by
  cases w <;> rfl

@[simp] theorem active_request (c : Context) (w : Wanted) : (c.request w).active = c.active := by
  cases w <;> rfl

end Context
end SignalLights
