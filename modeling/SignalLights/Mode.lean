import SignalLights.Enumerated

/-!
# Modes and requests

`Mode` is what the lights are doing, `Wanted` what was last asked for. Every request has one mode
that serves it; a warning is shown by the range-finding pattern.
-/

namespace SignalLights

inductive Mode where
  | off
  | fixedOn
  | blinking
  | rangeFinding
deriving DecidableEq, Repr

instance : Enumerated Mode where
  all := [.off, .fixedOn, .blinking, .rangeFinding]
  name
    | .off => "Off"
    | .fixedOn => "FixedOn"
    | .blinking => "Blinking"
    | .rangeFinding => "RangeFinding"
  mem_all a := by cases a <;> decide
  name_injective a b := by cases a <;> cases b <;> decide

def Mode.label : Mode → String
  | .off => "OFF"
  | .fixedOn => "FIXED_ON"
  | .blinking => "BLINKING"
  | .rangeFinding => "RANGE_FINDING"

inductive Wanted where
  | off
  | fixedOn
  | blink
  | findRange
  | warn
deriving DecidableEq, Repr

instance : Enumerated Wanted where
  all := [.off, .fixedOn, .blink, .findRange, .warn]
  name
    | .off => "Off"
    | .fixedOn => "FixedOn"
    | .blink => "Blink"
    | .findRange => "FindRange"
    | .warn => "Warn"
  mem_all a := by cases a <;> decide
  name_injective a b := by cases a <;> cases b <;> decide

namespace Wanted

def label : Wanted → String
  | .off => "OFF"
  | .fixedOn => "FIXED_ON"
  | .blink => "BLINK"
  | .findRange => "FIND_RANGE"
  | .warn => "WARN"

/-- The mode that serves a request. -/
def mode : Wanted → Mode
  | .off => .off
  | .fixedOn => .fixedOn
  | .blink => .blinking
  | .findRange | .warn => .rangeFinding

theorem mode_eq_rangeFinding_iff (w : Wanted) :
    w.mode = .rangeFinding ↔ w = .findRange ∨ w = .warn := by
  cases w <;> decide

end Wanted
end SignalLights
