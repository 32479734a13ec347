import SignalLights.Command
import SignalLights.Latches
import SignalLights.Machine.Basic

/-!
# The controller

A controller joins the mode machine with the latches of a port and a message for the observer. It
is told timestamps and requests, and answers each with effects. Without hardware it is inert: every
operation leaves it as it is and has no effect.
-/

namespace SignalLights

structure Controller where
  policy : WritePolicy
  /-- What the port carries; `none` when the outputs could not be acquired. -/
  port : Option Equipment
  machine : Machine
  context : Context
  latches : Latches
  message : String
deriving DecidableEq

namespace Controller

def isInitialized (c : Controller) : Bool := c.port.isSome

/-! ## What a controller shows -/

def mode (c : Controller) : Mode := c.machine.mode
def wanted (c : Controller) : Wanted := c.context.wanted
def selectedCadence (c : Controller) : Cadence := c.context.selected
def activeCadence (c : Controller) : Cadence := c.context.active

/-- An output never written is off. -/
def isLit (c : Controller) (ch : Channel) : Bool := (c.latches.level ch).getD false

/-- The code last sent to the display, `off` before the first. -/
def status (c : Controller) : StatusCode := c.latches.status.getD .off

def snapshot (c : Controller) : Snapshot where
  initialized := c.isInitialized
  mode := c.mode
  wanted := c.wanted
  lights := .ofFn c.isLit
  status := c.status
  message := c.message

/-! ## Steps on one part -/

/-- A step of the latches, taken only where there is a port. -/
def onPort (f : Equipment → Step Latches Effect) : Step Controller Effect := fun c =>
  match c.port with
  | none => (c, [])
  | some port =>
    let r := f port c.latches
    ({ c with latches := r.1 }, r.2)

def drive (ch : Channel) (on : Bool) : Step Controller Effect := fun c =>
  onPort (fun port => Latches.drive c.policy port ch on) c

def setStatus (code : StatusCode) : Step Controller Effect := fun c =>
  onPort (fun port => Latches.display c.policy port code) c

def driveAll (on : Bool) : Step Controller Effect :=
  .chain [drive .driver on, drive .strip on, drive .lamp on]

/-- A demanded level is driven, others stay. -/
def driveDemand (ch : Channel) : Option Bool → Step Controller Effect
  | none => .skip
  | some on => drive ch on

/-- A message is reported when it changes. -/
def setMessage (text : String) : Step Controller Effect := fun c =>
  if c.message = text then (c, []) else ({ c with message := text }, [.event (.message text)])

/-- A step refused without hardware. -/
def guarded (f : Step Controller Effect) : Step Controller Effect := fun c =>
  if c.isInitialized then f c else (c, [])

def updateContext (f : Context → Context) : Step Controller Effect :=
  .modify fun c => { c with context := f c.context }

/-! ## Lifecycle -/

/-- Off and no request: the machine and the lights it drives start afresh, and no message is shown. -/
def start (now : Binary64) : Step Controller Effect := guarded fun c =>
  Step.chain
    [ .say (.starting now),
      .sayAll (Machine.timeNotices now),
      .modify fun c =>
        { c with machine := c.machine.reset now, context := { c.context with wanted := .off } },
      drive .driver false,
      drive .strip false,
      .onlyIf (c.mode != .off) (.emit (.modeChanged c.mode .off)),
      .onlyIf (c.wanted != .off) (.emit (.wantedChanged .off)),
      setMessage "" ] c

def reportTransition : Option Transition → Step Controller Effect
  | none => .skip
  | some t => .emit (.modeChanged t.source t.target)

/-- One tick: the machine decides, its demand is driven, the changes are reported. -/
def loop (now : Binary64) : Step Controller Effect := guarded fun c =>
  let t := c.machine.tick Row.standard c.context now
  Step.chain
    [ .sayAll t.notices,
      .modify fun c => { c with machine := t.machine, context := t.context },
      driveDemand .driver t.context.demand.driver,
      driveDemand .strip t.context.demand.strip,
      reportTransition t.transition,
      .onlyIf (t.context.wanted != c.wanted) (.emit (.wantedChanged t.context.wanted)) ] c

/-- Every light goes off; the display keeps its code. -/
def stop (now : Binary64) : Step Controller Effect :=
  guarded <| .chain [.say (.stopping now), driveAll false]

/-! ## Requests -/

/-- A request replaces the one before, and the message that went with it. -/
def want (w : Wanted) : Step Controller Effect := guarded fun c =>
  Step.chain
    [ .sayAll (c.context.requestNotices w),
      updateContext (·.request w),
      .say (.wanted w),
      .emit (.wantedChanged w),
      setMessage "" ] c

/-- The warning pattern, with a message beside it. -/
def warn (text : String) : Step Controller Effect :=
  guarded <| .chain [want .warn, .say (.warning text), setMessage text]

/-- A cadence of its own, for a run in progress too. -/
def configureBlink (count : UInt32) (period : Binary64) : Step Controller Effect :=
  let cadence := Cadence.clamp count period
  guarded <| .chain
    [ .sayAll (Cadence.clampNotices period),
      .say (.cadenceSet cadence.count cadence.period),
      updateContext (·.override cadence) ]

/-- The lamp is no business of the machine. -/
def setLamp (on : Bool) : Step Controller Effect := drive .lamp on

def setRangeBlinking (on : Bool) : Step Controller Effect :=
  guarded <| .chain
    [ .say (.rangeBlinking on), updateContext fun c => { c with rangeBlinkEnabled := on } ]

def publish : Step Controller Effect := guarded fun c => (c, [.event (.snapshot c.snapshot)])

def handle : Command → Step Controller Effect
  | .setWanted w => want w
  | .warn text => warn text
  | .configureBlink count period => configureBlink count period
  | .setStatus code => setStatus code
  | .setLamp on => setLamp on
  | .setRangeBlinking on => setRangeBlinking on

/-! ## Construction -/

/-- A controller as it is before its first write. -/
def initial (policy : WritePolicy) (config : Config) (port : Option Equipment) : Controller where
  policy := policy
  port := port
  machine := .initial
  context := .ofConfig config
  latches := .blank
  message := ""

def rejection (config : Config) : List Notice :=
  match config.validate with
  | none => []
  | some p => [.configRejected p.fault]

/-- A controller with a policy of its own for writes. With hardware every light is driven off and
the display cleared, so that the latches start from known outputs. -/
def build (policy : WritePolicy) (config : Config) : Except Fault Equipment → Controller × List Effect
  | .error f =>
    Step.chain
      [ .sayAll (rejection config), .say (.hardwareUnavailable f), .sayAll config.blinkNotices,
        .emit (.initialized false) ]
      (initial policy config none)
  | .ok port =>
    Step.chain
      [ .sayAll (rejection config), .sayAll config.blinkNotices,
        driveAll false, setStatus .off, .say (.ready config.profile),
        .emit (.initialized true) ]
      (initial policy config (some port))

def new (config : Config) (hardware : Except Fault Equipment) : Controller × List Effect :=
  build .onChange config hardware

end Controller
end SignalLights
