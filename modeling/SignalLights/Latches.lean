import SignalLights.Effect

/-!
# Latches

The latches remember what each output was last told, so that an output is written only when its
level changes. `WritePolicy.always` writes every commanded level instead.
-/

namespace SignalLights

structure Latches where
  levels : PerChannel (Option Bool)
  status : Option StatusCode
deriving DecidableEq, Repr

inductive WritePolicy where
  | onChange
  | always
deriving DecidableEq, Repr

namespace Latches

/-- Nothing was written yet. -/
def blank : Latches := ⟨.all none, none⟩

def level (l : Latches) (c : Channel) : Option Bool := l.levels.get c

/-- Whether a level has to be written. A channel the port lacks is never written. -/
def needsLevel (policy : WritePolicy) (port : Equipment) (l : Latches) (c : Channel) (on : Bool) :
    Bool :=
  port.has c && (policy == .always || l.level c != some on)

def needsStatus (policy : WritePolicy) (port : Equipment) (l : Latches) (code : StatusCode) : Bool :=
  port.statusLink && (policy == .always || l.status != some code)

def drive (policy : WritePolicy) (port : Equipment) (c : Channel) (on : Bool) : Step Latches Effect :=
  fun l =>
    if l.needsLevel policy port c on then
      ({ l with levels := l.levels.set c (some on) },
        [.level c on, .notice (.levelWritten c on), .event (.levelChanged c on)])
    else (l, [])

def display (policy : WritePolicy) (port : Equipment) (code : StatusCode) : Step Latches Effect :=
  fun l =>
    if l.needsStatus policy port code then
      ({ l with status := some code },
        [.frame code.frame, .notice (.statusWritten code), .event (.statusChanged code)])
    else (l, [])

end Latches
end SignalLights
