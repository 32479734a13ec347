import SignalLights.Controller.Operation
import SignalLights.Scheduler

/-!
# Installations

Several controllers share one scheduler, beside observers that only watch its calls. A call reaches
a controller as the lifecycle operation of that name. What happens is listed in order, with the
controller or observer it happens to.
-/

namespace SignalLights

/-- What a slot of the scheduler holds, by number. -/
inductive Target where
  | controller (i : Nat)
  | observer (i : Nat)
deriving DecidableEq, Repr

/-- The name a loop registers under. -/
def Target.name : Target → String
  | .controller _ => "LED"
  | .observer _ => "loop"

inductive Occurrence where
  | effect (controller : Nat) (e : Effect)
  | call (observer : Nat) (hook : Hook) (time : Binary64)
  | notice (n : Notice)
deriving DecidableEq, Repr

structure Installation where
  controllers : List Controller
  scheduler : Scheduler Target

def Hook.operation (time : Binary64) : Hook → Operation
  | .start => .start time
  | .loop => .loop time
  | .stop => .stop time

namespace Installation

inductive Action where
  /-- Register a controller, if it has hardware. -/
  | registerEnabled (i : Nat)
  | register (target : Target)
  | start (time : Binary64)
  | tick (time : Binary64)
  | stop (time : Binary64)
  | perform (i : Nat) (op : Operation)
deriving DecidableEq, Repr

def initial (controllers : List Controller) : Installation := ⟨controllers, .initial⟩

/-- What an action leaves behind; `slot` answers a registration. -/
structure Result where
  installation : Installation
  slot : Option Nat
  occurrences : List Occurrence

/-- An operation on one controller; a number that stands for none changes nothing. -/
def perform (i : Nat) (op : Operation) : Step Installation Occurrence := fun s =>
  match s.controllers[i]? with
  | none => (s, [])
  | some c =>
    let r := op.step c
    ({ s with controllers := s.controllers.set i r.1 }, r.2.map (.effect i))

def deliver (call : Call Target) : Step Installation Occurrence := fun s =>
  match call.target with
  | .controller i => perform i (call.hook.operation call.time) s
  | .observer i => (s, [.call i call.hook call.time])

def isEnabled (s : Installation) (i : Nat) : Bool :=
  match s.controllers[i]? with
  | none => false
  | some c => c.isInitialized

/-- The scheduler has acted; its calls go out after its notices. -/
def dispatch (s : Installation) (r : Scheduler.Result Target) : Result :=
  let t := Step.chain (r.calls.map deliver) { s with scheduler := r.scheduler }
  ⟨t.1, r.slot, r.notices.map .notice ++ t.2⟩

def register (s : Installation) (target : Target) : Result :=
  s.dispatch (s.scheduler.register target.name target)

def act (s : Installation) : Action → Result
  | .registerEnabled i =>
    if s.isEnabled i then s.register (.controller i) else ⟨s, none, [.notice .loopSkipped]⟩
  | .register target => s.register target
  | .start time => s.dispatch (s.scheduler.start time)
  | .tick time => s.dispatch (s.scheduler.tick time)
  | .stop time => s.dispatch (s.scheduler.stop time)
  | .perform i op =>
    let r := perform i op s
    ⟨r.1, none, r.2⟩

/-- What happens under a list of actions. -/
def run (actions : List Action) : Step Installation Occurrence :=
  .chain (actions.map fun a s => ((s.act a).installation, (s.act a).occurrences))

end Installation
end SignalLights
