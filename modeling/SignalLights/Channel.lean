import SignalLights.Enumerated

/-!
# Output channels

The controller drives three lights, each on or off: the driver light, the range strip and the
vision lamp. `PerChannel` keeps one value for each.
-/

namespace SignalLights

inductive Channel where
  | driver
  | strip
  | lamp
deriving DecidableEq, Repr

instance : Enumerated Channel where
  all := [.driver, .strip, .lamp]
  name
    | .driver => "Driver"
    | .strip => "Strip"
    | .lamp => "Lamp"
  mem_all a := by cases a <;> decide
  name_injective a b := by cases a <;> cases b <;> decide

/-- The label on the board. -/
def Channel.label : Channel → String
  | .driver => "DriverLED"
  | .strip => "RangeLED"
  | .lamp => "VisionLamp"

@[ext] structure PerChannel (α : Type) where
  driver : α
  strip : α
  lamp : α
deriving DecidableEq, Repr

namespace PerChannel

variable {α : Type}

def all (a : α) : PerChannel α := ⟨a, a, a⟩

def get (p : PerChannel α) : Channel → α
  | .driver => p.driver
  | .strip => p.strip
  | .lamp => p.lamp

def set (p : PerChannel α) (c : Channel) (a : α) : PerChannel α :=
  match c with
  | .driver => { p with driver := a }
  | .strip => { p with strip := a }
  | .lamp => { p with lamp := a }

def ofFn (f : Channel → α) : PerChannel α := ⟨f .driver, f .strip, f .lamp⟩

@[simp] theorem get_all (a : α) (c : Channel) : (all a).get c = a := by cases c <;> rfl

@[simp] theorem get_ofFn (f : Channel → α) (c : Channel) : (ofFn f).get c = f c := by
  cases c <;> rfl

@[simp] theorem get_set_self (p : PerChannel α) (c : Channel) (a : α) : (p.set c a).get c = a := by
  cases c <;> rfl

theorem get_set_of_ne (p : PerChannel α) {c d : Channel} (a : α) (h : d ≠ c) :
    (p.set c a).get d = p.get d := by
  cases c <;> cases d <;> first | rfl | exact absurd rfl h

theorem get_set (p : PerChannel α) (c d : Channel) (a : α) :
    (p.set c a).get d = if d = c then a else p.get d := by
  split
  · next h => rw [h, get_set_self]
  · next h => exact get_set_of_ne p a h

end PerChannel

/-- Which channels a port has, and whether it has a link to the status display. -/
structure Equipment where
  channels : PerChannel Bool
  statusLink : Bool
deriving DecidableEq, Repr

def Equipment.has (e : Equipment) (c : Channel) : Bool := e.channels.get c

end SignalLights
