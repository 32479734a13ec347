import SignalLights.Hardware.Output
import SignalLights.Hardware.Pins
import SignalLights.Effect

/-!
# Boards

A board has an output on some of the channels and perhaps a link to the status display. `acquire`
sets a board up for a profile and `verify` names what a profile misses. Writes to a channel without
an output are ignored. A probe is an output, or a link, that reports what reaches it.
-/

namespace SignalLights

inductive BoardOutput where
  | relay (r : Relay)
  | digital (d : DigitalOutput)
  | probe
deriving DecidableEq, Repr

inductive BoardLink where
  | serial (l : SerialLink)
  | probe
deriving DecidableEq, Repr

/-- What a probe reports. -/
inductive Signal where
  | level (channel : Channel) (on : Bool)
  | frame (bytes : List UInt8)
deriving DecidableEq, Repr

namespace BoardOutput

def set (on : Bool) : BoardOutput → BoardOutput
  | .relay r => .relay (r.set on)
  | .digital d => .digital (d.set on)
  | .probe => .probe

def signals (c : Channel) (on : Bool) : BoardOutput → List Signal
  | .probe => [.level c on]
  | _ => []

end BoardOutput

namespace BoardLink

def write (bytes : List UInt8) : BoardLink → BoardLink
  | .serial l => .serial (l.write bytes)
  | .probe => .probe

def signals (bytes : List UInt8) : BoardLink → List Signal
  | .probe => [.frame bytes]
  | _ => []

end BoardLink

structure Board where
  outputs : PerChannel (Option BoardOutput)
  link : Option BoardLink
deriving DecidableEq, Repr

namespace Board

def empty : Board := ⟨.all none, none⟩

def withOutput (b : Board) (c : Channel) (o : BoardOutput) : Board :=
  { b with outputs := b.outputs.set c (some o) }

def withLink (b : Board) (l : BoardLink) : Board := { b with link := some l }

/-- A board that only probes, on the given channels. -/
def probes (channels : List Channel) (link : Bool) : Board :=
  let b := channels.foldl (fun b c => b.withOutput c .probe) empty
  if link then b.withLink .probe else b

def has (b : Board) (c : Channel) : Bool := (b.outputs.get c).isSome

def equipment (b : Board) : Equipment := ⟨.ofFn b.has, b.link.isSome⟩

def setLevel (b : Board) (c : Channel) (on : Bool) : Board × List Signal :=
  match b.outputs.get c with
  | none => (b, [])
  | some o => ({ b with outputs := b.outputs.set c (some (o.set on)) }, o.signals c on)

def writeStatus (b : Board) (bytes : List UInt8) : Board × List Signal :=
  match b.link with
  | none => (b, [])
  | some l => ({ b with link := some (l.write bytes) }, l.signals bytes)

/-- The channels a profile cannot do without. -/
def required : Profile → List Channel
  | .relay => [.driver, .lamp]
  | .digital => [.driver, .strip]

/-- What a board misses for a profile: a channel first, then the status display. -/
def missing (b : Board) (p : Profile) : Option AcquisitionFault :=
  match (required p).find? (fun c => !b.has c) with
  | some c => some (.channelMissing c.label)
  | none => if p = .relay ∧ b.link = none then some (.channelMissing "StatusDisplay") else none

/-- The result of setting up a board, and what was noted on the way. -/
structure Acquisition where
  board : Except Fault Board
  notices : List Notice

def verify (b : Board) (p : Profile) : Acquisition :=
  match b.missing p with
  | some f => ⟨.error (.acquisition f), []⟩
  | none => ⟨.ok b, [.boardAcquired p]⟩

/-- The outputs and the link that belong to a profile. -/
def ofProfile : Profile → Board
  | .relay =>
    ((empty.withOutput .driver (.relay (.atRest Pins.driverForward Pins.driverReverse))).withOutput
      .lamp (.relay (.atRest Pins.lampForward Pins.lampReverse))).withLink
      (.serial (.opened Pins.statusPort))
  | .digital =>
    (empty.withOutput .driver (.digital (.atRest Pins.driverDigital))).withOutput
      .strip (.digital (.atRest Pins.rangeStrip))

/-- Without a platform to configure, setting up the pins is only noted. -/
def initNotices (p : Profile) : List Notice := [.outputsSimulated p]

def acquire (p : Profile) : Acquisition :=
  let r := (ofProfile p).verify p
  ⟨r.board, initNotices p ++ r.notices⟩

end Board
end SignalLights
