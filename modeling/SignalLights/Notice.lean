import SignalLights.Channel
import SignalLights.Decimal.Writing
import SignalLights.Fault
import SignalLights.Mode
import SignalLights.Profile
import SignalLights.StatusCode

/-!
# Notices

What the library has to tell the log, as causes. A notice has a severity and one wording; the two
make the log record.
-/

namespace SignalLights

inductive Severity where
  | error
  | warn
  | info
  | debug
deriving DecidableEq, Repr

def Severity.label : Severity → String
  | .error => "ERROR"
  | .warn => "WARN"
  | .info => "INFO"
  | .debug => "DEBUG"

structure Record where
  severity : Severity
  text : String
deriving DecidableEq, Repr

/-- The shortest period of a cadence, the double nearest to a thousandth. -/
def minPeriod : Binary64 := ⟨0x3f50624dd2f1a9fc⟩

inductive Notice where
  | periodClamped (period : Binary64)
  | configRejected (fault : Fault)
  | hardwareUnavailable (fault : Fault)
  | ready (profile : Profile)
  | starting (time : Binary64)
  | stopping (time : Binary64)
  | wanted (wanted : Wanted)
  | warning (text : String)
  | cadenceSet (count : UInt32) (period : Binary64)
  | rangeBlinking (on : Bool)
  | timeNotFinite (time : Binary64)
  | modeChanged (source target : Mode)
  | runFinished (elapsed : Binary64)
  | levelWritten (channel : Channel) (on : Bool)
  | statusWritten (code : StatusCode)
  | outputsSimulated (profile : Profile)
  | boardAcquired (profile : Profile)
  | pinFault (description : String)
  | loopSkipped
  | loopLate (name : String)
  | loopRegistered (name : String) (slot : Nat)
  | loopRefused (name : String)
  | schedulerStarted
  | schedulerStarting (loops : Nat)
  | schedulerStopping
  | timeHeld (time last : Binary64)
deriving DecidableEq, Repr

namespace Notice

open Decimal (plainText thousandths)

def severity : Notice → Severity
  | hardwareUnavailable _ => .error
  | periodClamped _ | configRejected _ | warning _ | timeNotFinite _ | pinFault _ | loopSkipped
  | loopLate _ | loopRefused _ | schedulerStarted | timeHeld _ _ => .warn
  | levelWritten _ _ | statusWritten _ => .debug
  | _ => .info

def onOff (on : Bool) : String := if on then "on" else "off"

def text : Notice → String
  | periodClamped p =>
    "Blink period " ++ plainText p ++ "s rejected, clamping to " ++ plainText minPeriod ++ "s"
  | configRejected f =>
    "LED config rejected (" ++ f.message ++ "), continuing with clamped values"
  | hardwareUnavailable f => "LED hardware unavailable: " ++ f.message
  | ready p => "LED subsystem ready (" ++ Enumerated.name p ++ " profile)"
  | starting t => "LED subsystem starting at " ++ thousandths t ++ "s"
  | stopping t => "LED subsystem stopping at " ++ thousandths t ++ "s"
  | wanted w => "LED wanted state " ++ w.label
  | warning t => "LED warning: " ++ t
  | cadenceSet c p => "LED blink cadence " ++ toString c.toNat ++ " x " ++ thousandths p ++ "s"
  | rangeBlinking on => "Range indicator blinking " ++ if on then "enabled" else "disabled"
  | timeNotFinite t =>
    "Non-finite LED timestamp " ++ plainText t ++ ", treating as no elapsed time"
  | modeChanged s t => "LED state " ++ s.label ++ " to " ++ t.label
  | runFinished e => "Blink run finished after " ++ thousandths e ++ "s"
  | levelWritten c on => c.label ++ " -> " ++ onOff on
  | statusWritten c => "Status -> " ++ c.name
  | outputsSimulated p => "hw_init(sim): " ++ Enumerated.name p ++ " output init skipped"
  | boardAcquired p => "LED hardware acquired for " ++ Enumerated.name p ++ " profile"
  | pinFault d => "Output pin write failed: " ++ d
  | loopSkipped => "LED subsystem not initialized, not registering its loop"
  | loopLate n => "Looper: cannot register " ++ n ++ " after start"
  | loopRegistered n slot => "Looper: registered " ++ n ++ " in slot " ++ toString slot
  | loopRefused n => "Looper: no free slot for " ++ n
  | schedulerStarted => "Looper: already started"
  | schedulerStarting n => "Looper: starting " ++ toString n ++ " loop(s)"
  | schedulerStopping => "Looper: stopping"
  | timeHeld t last =>
    "Looper: timestamp " ++ plainText t ++ " went backwards, holding " ++ plainText last

def record (n : Notice) : Record := ⟨n.severity, n.text⟩

end Notice
end SignalLights
