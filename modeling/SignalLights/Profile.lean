import SignalLights.Enumerated

/-!
# Board profiles

A board either switches its lights through relays and has a status display, or drives a light and
a strip from plain digital outputs.
-/

namespace SignalLights

inductive Profile where
  | relay
  | digital
deriving DecidableEq, Repr

instance : Enumerated Profile where
  all := [.relay, .digital]
  name
    | .relay => "Relay"
    | .digital => "Digital"
  mem_all a := by cases a <;> decide
  name_injective a b := by cases a <;> cases b <;> decide

/-- Which output shows the range-finding pattern. -/
inductive RangeIndicator where
  | driver
  | strip
deriving DecidableEq, Repr

instance : Enumerated RangeIndicator where
  all := [.driver, .strip]
  name
    | .driver => "Driver"
    | .strip => "Strip"
  mem_all a := by cases a <;> decide
  name_injective a b := by cases a <;> cases b <;> decide

end SignalLights
