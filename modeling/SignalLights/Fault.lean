/-!
# Faults

Faults arise only while a controller is set up: an output cannot be acquired, or the configuration
is not sound.
-/

namespace SignalLights

/-- Why the outputs of a board could not be acquired; `rc` is the code the platform returned. -/
inductive AcquisitionFault where
  | gpioConfig (rc : Int)
  | uartConfig (rc : Int)
  | uartInstall (rc : Int)
  | channelMissing (label : String)
deriving DecidableEq, Repr

def AcquisitionFault.message : AcquisitionFault → String
  | .gpioConfig rc => "GPIO config failed (rc=" ++ toString rc ++ ")"
  | .uartConfig rc => "UART config failed (rc=" ++ toString rc ++ ")"
  | .uartInstall rc => "UART driver install failed (rc=" ++ toString rc ++ ")"
  | .channelMissing label => "channel '" ++ label ++ "' missing"

inductive Fault where
  | acquisition (cause : AcquisitionFault)
  | config (problem : String)
deriving DecidableEq, Repr

def Fault.message : Fault → String
  | .acquisition cause => "init: " ++ cause.message
  | .config problem => "config: " ++ problem

end SignalLights
