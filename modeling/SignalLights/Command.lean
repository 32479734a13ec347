import SignalLights.Binary64.Basic
import SignalLights.Mode
import SignalLights.StatusCode

/-!
# Commands

A request to a controller, as a message.
-/

namespace SignalLights

inductive Command where
  | setWanted (wanted : Wanted)
  | warn (text : String)
  | configureBlink (count : UInt32) (period : Binary64)
  | setStatus (code : StatusCode)
  | setLamp (on : Bool)
  | setRangeBlinking (on : Bool)
deriving DecidableEq, Repr

end SignalLights
