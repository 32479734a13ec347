import SignalLights.Notice

/-!
# Outputs

What a channel can be wired to: a relay with two coils, a digital output, or a pin whose writes may
fail. Lights use a relay in its forward position only. A failed pin write is noted and nothing more.
-/

namespace SignalLights

inductive RelayPosition where
  | off
  | on
  | forward
  | reverse
deriving DecidableEq, Repr

namespace RelayPosition

/-- Which coils are energised, forward and reverse. -/
def coils : RelayPosition → Bool × Bool
  | off => (false, false)
  | on => (true, true)
  | forward => (true, false)
  | reverse => (false, true)

def name : RelayPosition → String
  | off => "Off"
  | on => "On"
  | forward => "Forward"
  | reverse => "Reverse"

end RelayPosition

structure Relay where
  forwardPin : Int
  reversePin : Int
  position : RelayPosition
deriving DecidableEq, Repr

namespace Relay

def atRest (forwardPin reversePin : Int) : Relay := ⟨forwardPin, reversePin, .off⟩

def set (r : Relay) (on : Bool) : Relay :=
  { r with position := if on then .forward else .off }

def isOn (r : Relay) : Bool := r.position != .off

end Relay

structure DigitalOutput where
  pin : Int
  level : Bool
deriving DecidableEq, Repr

namespace DigitalOutput

def atRest (pin : Int) : DigitalOutput := ⟨pin, false⟩

def set (d : DigitalOutput) (on : Bool) : DigitalOutput := { d with level := on }

end DigitalOutput

/-- A pin that keeps what was written to it, and may describe a fault of a write. -/
structure PinOutput where
  fault : Bool → Option String
  writes : List Bool

namespace PinOutput

def set (p : PinOutput) (on : Bool) : PinOutput × List Notice :=
  ({ p with writes := p.writes ++ [on] },
    match p.fault on with
    | none => []
    | some description => [.pinFault description])

end PinOutput

/-- A serial link that counts the bytes it accepted. -/
structure SerialLink where
  port : Int
  sent : Nat
deriving DecidableEq, Repr

namespace SerialLink

def opened (port : Int) : SerialLink := ⟨port, 0⟩

/-- How many bytes of a write a port accepts. -/
def accepted (_port : Int) (bytes : List UInt8) : Nat := bytes.length

def write (l : SerialLink) (bytes : List UInt8) : SerialLink :=
  { l with sent := l.sent + accepted l.port bytes }

end SerialLink
end SignalLights
