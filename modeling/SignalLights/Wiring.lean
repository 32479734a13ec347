import SignalLights.Hardware.Board

/-!
# Wiring

The effects of a controller go out through a port and a sink. `Wiring.carry` forwards them in order
and lists what can be seen from outside: the writes asked of the port, what probes of the board
report, events delivered to a collecting sink, and log records.
-/

namespace SignalLights

inductive Sink where
  | collect
  | log
  | discard
deriving DecidableEq, Repr

/-- A mock port has channels and a link, but nothing behind them. -/
inductive Port where
  | mock (equipment : Equipment)
  | board (board : Board)
deriving DecidableEq, Repr

def Port.equipment : Port → Equipment
  | .mock e => e
  | .board b => b.equipment

inductive Sighting where
  | level (channel : Channel) (on : Bool)
  | frame (bytes : List UInt8)
  | signal (s : Signal)
  | event (e : Event)
  | record (r : Record)
deriving DecidableEq, Repr

/-- Where an event goes. -/
def Sink.deliver : Sink → Event → List Sighting
  | .collect, e => [.event e]
  | .log, e => [.record e.record]
  | .discard, _ => []

structure Wiring where
  port : Option Port
  sink : Sink

namespace Wiring

/-- A call of the port reaches the board behind it, if there is one. -/
def forward (call : Step Board Signal) : Step Wiring Sighting := fun w =>
  match w.port with
  | some (.board b) =>
    let r := call b
    ({ w with port := some (.board r.1) }, r.2.map .signal)
  | _ => (w, [])

def see (x : Sighting) : Step Wiring Sighting := fun w => (w, [x])

def carryOne : Effect → Step Wiring Sighting
  | .level c on => .chain [see (.level c on), forward (·.setLevel c on)]
  | .frame bytes => .chain [see (.frame bytes), forward (·.writeStatus bytes)]
  | .event e => fun w => (w, w.sink.deliver e)
  | .notice n => see (.record n.record)

def carry (es : List Effect) : Step Wiring Sighting := .chain (es.map carryOne)

end Wiring
end SignalLights
