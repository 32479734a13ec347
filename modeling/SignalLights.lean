import SignalLights.Binary64.Arithmetic
import SignalLights.Binary64.Basic
import SignalLights.Binary64.Rounding
import SignalLights.Cadence
import SignalLights.Channel
import SignalLights.Command
import SignalLights.Config
import SignalLights.Controller.Basic
import SignalLights.Controller.Operation
import SignalLights.Decimal.Basic
import SignalLights.Decimal.Shortest
import SignalLights.Decimal.Writing
import SignalLights.Effect
import SignalLights.Enumerated
import SignalLights.Event
import SignalLights.Exchange.Command
import SignalLights.Exchange.Config
import SignalLights.Fault
import SignalLights.Hardware.Board
import SignalLights.Hardware.Output
import SignalLights.Hardware.Pins
import SignalLights.Installation
import SignalLights.Json.Failure
import SignalLights.Json.Lexis
import SignalLights.Json.Reader
import SignalLights.Json.Writer
import SignalLights.Latches
import SignalLights.Machine.Basic
import SignalLights.Machine.Context
import SignalLights.Machine.Row
import SignalLights.Mode
import SignalLights.Notice
import SignalLights.Packed.Codec
import SignalLights.Profile
import SignalLights.Rounding
import SignalLights.Scheduler
import SignalLights.StatusCode
import SignalLights.Step
import SignalLights.Text.Inspect
import SignalLights.Text.Printable
import SignalLights.Wiring
import SignalLights.Proofs.Binary64.Order
import SignalLights.Proofs.Binary64.Products
import SignalLights.Proofs.Cadence.Numbers
import SignalLights.Proofs.Controller.Parts
import SignalLights.Proofs.Controller.Reachable
import SignalLights.Proofs.Controller.Atoms
import SignalLights.Proofs.Controller.Writes
import SignalLights.Proofs.Controller.Suppression
import SignalLights.Proofs.Machine.Alike
import SignalLights.Proofs.Controller.Alike
import SignalLights.Proofs.Controller.Restart
import SignalLights.Proofs.Controller.Independence
import SignalLights.Proofs.StatusCode.Bytes
import SignalLights.Proofs.Controller.StatusLink
import SignalLights.Proofs.Controller.BlinkRun
import SignalLights.Proofs.Controller.Mirror
import SignalLights.Proofs.Scheduler.Lifecycle
import SignalLights.Proofs.Scheduler.Clock
import SignalLights.Proofs.Installation.BlinkRun
import SignalLights.Proofs.Controller.Requests
import SignalLights.Proofs.Controller.Message
import SignalLights.Proofs.Controller.Strip
import SignalLights.Proofs.Controller.RunEnd
import SignalLights.Proofs.Controller.Cadences
import SignalLights.Proofs.Controller.SelfClearing
import SignalLights.Proofs.Controller.Numbers
import SignalLights.Proofs.Controller.RunStart
import SignalLights.Proofs.Packed.Numbers
import SignalLights.Proofs.Packed.Lawful
import SignalLights.Proofs.Exchange.Packed
import SignalLights.Proofs.Binary64.Interval
import SignalLights.Proofs.Decimal.Digits
import SignalLights.Proofs.Decimal.Shortest
import SignalLights.Proofs.Json.Numerals
import SignalLights.Proofs.Json.Numbers
import SignalLights.Proofs.Json.Strings
import SignalLights.Proofs.Json.Readers
import SignalLights.Proofs.Exchange.Json
import SignalLights.Proofs.Controller.Lights
import SignalLights.Proofs.Installation.Lights
import SignalLights.Proofs.Scheduler.Latest
import SignalLights.Proofs.Controller.Elapsed
import SignalLights.Proofs.Installation.Elapsed
import SignalLights.Proofs.Installation.Inert
import SignalLights.Proofs.Binary64.Bounds
import SignalLights.Proofs.Cadence.AnyPeriod
import SignalLights.Proofs.Cadence.Phases
import SignalLights.Proofs.Controller.Pulses
import SignalLights.Proofs.Cadence.Expiry
import SignalLights.Proofs.Cadence.Hurried
import SignalLights.Proofs.Controller.TickRate
import SignalLights.Proofs.Controller.HeldClock
import SignalLights.Proofs.Binary64.Values
import SignalLights.Proofs.Cadence.Values
import SignalLights.Proofs.Cadence.SquareWave
import SignalLights.Proofs.Cadence.Iterates
import SignalLights.Proofs.Config.Admission
import SignalLights.Proofs.Json.Grammar
import SignalLights.Proofs.Json.Layouts
import SignalLights.Proofs.Exchange.Layouts
import SignalLights.Proofs.Event.Records
import SignalLights.Proofs.Controller.LogLines
