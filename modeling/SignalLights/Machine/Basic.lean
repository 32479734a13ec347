import SignalLights.Machine.Row

/-!
# The mode machine

The machine knows its mode and when it was entered, and is told the time at every tick. A time that
is not finite counts as the moment the mode was entered. On a change of mode the clock restarts and
the entered row may act.
-/

namespace SignalLights

structure Machine where
  mode : Mode
  since : Binary64
deriving DecidableEq

structure Transition where
  source : Mode
  target : Mode
deriving DecidableEq, Repr

namespace Machine

def initial : Machine := ⟨.off, .zero⟩

/-- The time a machine goes by. -/
def timeOf (m : Machine) (now : Binary64) : Binary64 := if now.isFinite then now else m.since

def timeNotices (now : Binary64) : List Notice := if now.isFinite then [] else [.timeNotFinite now]

def reset (m : Machine) (now : Binary64) : Machine := ⟨.off, m.timeOf now⟩

/-- What a tick leaves behind. -/
structure Tick where
  machine : Machine
  context : Context
  transition : Option Transition
  notices : List Notice

/-- The context as a row gets it: no demand yet, and the time spent in the mode. -/
def begin (m : Machine) (c : Context) (now : Binary64) : Context :=
  { c with demand := .nothing, elapsed := m.timeOf now - m.since }

/-- The entered row acts, if it has something to do. -/
def enter (r : Row) (c : Context) : Context :=
  match r.enter with
  | none => c
  | some f => f c

/-- One tick with `rows` in the seats of the modes: the row of the current mode runs, and a next
mode other than the row's own is entered. -/
def tick (rows : Mode → Row) (m : Machine) (c : Context) (now : Binary64) : Tick :=
  let row := rows m.mode
  let out := row.update (m.begin c now)
  if out.next = row.mode then
    ⟨m, out.context, none, timeNotices now ++ out.notices⟩
  else
    ⟨⟨out.next, m.timeOf now⟩, enter (rows out.next) out.context, some ⟨row.mode, out.next⟩,
      timeNotices now ++ out.notices ++ [.modeChanged row.mode (rows out.next).mode]⟩

theorem isFinite_timeOf {m : Machine} (h : m.since.isFinite) (now : Binary64) :
    (m.timeOf now).isFinite := by
  unfold timeOf; split <;> assumption

end Machine
end SignalLights
