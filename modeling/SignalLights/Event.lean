import SignalLights.Notice

/-!
# Events

A controller reports every change an observer can see. `Snapshot.after` tells how an event changes
what the observer knows, so that a list of events amounts to a snapshot. `Event.record` is the line
an event leaves in the log.
-/

namespace SignalLights

structure Snapshot where
  initialized : Bool
  mode : Mode
  wanted : Wanted
  lights : PerChannel Bool
  status : StatusCode
  message : String
deriving DecidableEq, Repr

inductive Event where
  | initialized (ok : Bool)
  | modeChanged (source target : Mode)
  | wantedChanged (wanted : Wanted)
  | levelChanged (channel : Channel) (on : Bool)
  | statusChanged (code : StatusCode)
  | message (text : String)
  | snapshot (s : Snapshot)
deriving DecidableEq, Repr

namespace Snapshot

/-- What is known before the first event. -/
def blank : Snapshot := ⟨false, .off, .off, .all false, .off, ""⟩

def after (s : Snapshot) : Event → Snapshot
  | .initialized ok => { s with initialized := ok }
  | .modeChanged _ target => { s with mode := target }
  | .wantedChanged w => { s with wanted := w }
  | .levelChanged c on => { s with lights := s.lights.set c on }
  | .statusChanged code => { s with status := code }
  | .message text => { s with message := text }
  | .snapshot _ => s

def ofEvents (es : List Event) : Snapshot := es.foldl after blank

/-- The line that shows a snapshot on the dashboard. -/
def line (s : Snapshot) : String :=
  "DASH | initialized=" ++ toString s.initialized ++ " | state=" ++ s.mode.label ++
    " | wanted=" ++ s.wanted.label ++
    " | " ++ Channel.driver.label ++ "=" ++ toString s.lights.driver ++
    " " ++ Channel.strip.label ++ "=" ++ toString s.lights.strip ++
    " " ++ Channel.lamp.label ++ "=" ++ toString s.lights.lamp ++
    " | status=" ++ s.status.name ++ " | message=\"" ++ s.message ++ "\""

end Snapshot

def Event.record : Event → Record
  | .initialized ok => ⟨.info, "LED | initialized=" ++ toString ok⟩
  | .modeChanged s t => ⟨.info, "LED | state " ++ s.label ++ " -> " ++ t.label⟩
  | .wantedChanged w => ⟨.info, "LED | wanted=" ++ w.label⟩
  | .levelChanged c on => ⟨.debug, "LED | " ++ c.label ++ "=" ++ toString on⟩
  | .statusChanged c => ⟨.info, "LED | status=" ++ c.name ++ " (" ++ toString c.code ++ ")"⟩
  | .message text => ⟨.info, "LED | message=\"" ++ text ++ "\""⟩
  | .snapshot s => ⟨.info, s.line⟩

end SignalLights
