import SignalLights.Notice
import SignalLights.Step

/-!
# The scheduler

A scheduler has four slots for loops. It starts them once, hands each tick to all of them in slot
order, and stops them once. All loops see one clock: a time that is NaN or lies before the last one
is replaced by the last one.
-/

namespace SignalLights

/-- What a loop is called for. -/
inductive Hook where
  | start
  | loop
  | stop
deriving DecidableEq, Repr

/-- A call of the loop in a slot. -/
structure Call (α : Type) where
  slot : Nat
  target : α
  hook : Hook
  time : Binary64
deriving DecidableEq, Repr

structure Scheduler (α : Type) where
  slots : List α
  started : Bool
  stopped : Bool
  last : Binary64
deriving DecidableEq, Repr

namespace Scheduler

variable {α : Type}

inductive Action (α : Type) where
  | register (name : String) (target : α)
  | start (time : Binary64)
  | tick (time : Binary64)
  | stop (time : Binary64)
deriving DecidableEq, Repr

/-- What an action leaves behind; `slot` answers a registration, and notices come before calls. -/
structure Result (α : Type) where
  scheduler : Scheduler α
  slot : Option Nat
  notices : List Notice
  calls : List (Call α)

def capacity : Nat := 4

def initial : Scheduler α := ⟨[], false, false, .negInfinity⟩

def isRunning (s : Scheduler α) : Bool := s.started && !s.stopped

def callAll (s : Scheduler α) (hook : Hook) (time : Binary64) : List (Call α) :=
  s.slots.mapIdx fun slot target => ⟨slot, target, hook, time⟩

/-! ## The clock -/

/-- Whether a time is replaced by the last one. -/
def holds (s : Scheduler α) (time : Binary64) : Bool := decide (time < s.last) || time.isNaN

/-- The time that the loops see. -/
def clock (s : Scheduler α) (time : Binary64) : Binary64 := if s.holds time then s.last else time

def clockNotices (s : Scheduler α) (time : Binary64) : List Notice :=
  if s.holds time then [.timeHeld time s.last] else []

/-! ## Actions -/

/-- A loop takes the next slot, unless the scheduler was started or is full. -/
def register (s : Scheduler α) (name : String) (target : α) : Result α :=
  if s.started then ⟨s, none, [.loopLate name], []⟩
  else if s.slots.length < capacity then
    ⟨{ s with slots := s.slots ++ [target] }, some s.slots.length,
      [.loopRegistered name s.slots.length], []⟩
  else ⟨s, none, [.loopRefused name], []⟩

/-- The clock starts at the given time, whatever it is. -/
def start (s : Scheduler α) (time : Binary64) : Result α :=
  if s.started then ⟨s, none, [.schedulerStarted], []⟩
  else
    ⟨{ s with started := true, last := time }, none, [.schedulerStarting s.slots.length],
      s.callAll .start time⟩

def tick (s : Scheduler α) (time : Binary64) : Result α :=
  if s.isRunning then
    ⟨{ s with last := s.clock time }, none, s.clockNotices time, s.callAll .loop (s.clock time)⟩
  else ⟨s, none, [], []⟩

/-- A scheduler can be stopped before it was started. -/
def stop (s : Scheduler α) (time : Binary64) : Result α :=
  if s.stopped then ⟨s, none, [], []⟩
  else
    ⟨{ s with stopped := true, last := s.clock time }, none,
      s.clockNotices time ++ [.schedulerStopping], s.callAll .stop (s.clock time)⟩

def act (s : Scheduler α) : Action α → Result α
  | .register name target => s.register name target
  | .start time => s.start time
  | .tick time => s.tick time
  | .stop time => s.stop time

/-- The calls that come of a list of actions. -/
def run (actions : List (Action α)) : Step (Scheduler α) (Call α) :=
  .chain (actions.map fun a s => ((s.act a).scheduler, (s.act a).calls))

end Scheduler
end SignalLights
