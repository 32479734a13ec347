import SignalLights.Event
import SignalLights.Step

/-!
# Effects

What a controller does to the world is data: levels and frames written to its port, events, notices,
in the order in which they happen. Each kind can be listed by itself.
-/

namespace SignalLights

inductive Effect where
  | level (channel : Channel) (on : Bool)
  | frame (bytes : List UInt8)
  | event (e : Event)
  | notice (n : Notice)
deriving DecidableEq, Repr

namespace Effect

def level? : Effect → Option (Channel × Bool)
  | .level c on => some (c, on)
  | _ => none

def frame? : Effect → Option (List UInt8)
  | .frame bytes => some bytes
  | _ => none

def event? : Effect → Option Event
  | .event e => some e
  | _ => none

/-- The levels written, in order. -/
def levels (es : List Effect) : List (Channel × Bool) := es.filterMap level?

/-- The frames written, in order. -/
def frames (es : List Effect) : List (List UInt8) := es.filterMap frame?

def events (es : List Effect) : List Event := es.filterMap event?

@[simp] theorem levels_append (es fs : List Effect) : levels (es ++ fs) = levels es ++ levels fs :=
  List.filterMap_append

@[simp] theorem frames_append (es fs : List Effect) : frames (es ++ fs) = frames es ++ frames fs :=
  List.filterMap_append

theorem mem_events {e : Event} {es : List Effect} : e ∈ events es ↔ .event e ∈ es := by
  rw [events, List.mem_filterMap]
  constructor
  · rintro ⟨x, hx, he⟩
    cases x <;> simp_all [event?]
  · exact fun h => ⟨_, h, rfl⟩

@[simp] theorem events_append (es fs : List Effect) : events (es ++ fs) = events es ++ events fs :=
  List.filterMap_append

@[simp] theorem events_nil : events [] = [] := rfl

@[simp] theorem events_event (e : Event) : events [.event e] = [e] := rfl

@[simp] theorem levels_notices (ns : List Notice) : levels (ns.map .notice) = [] :=
  List.filterMap_eq_nil_iff.2 (by simp [level?])

@[simp] theorem frames_notices (ns : List Notice) : frames (ns.map .notice) = [] :=
  List.filterMap_eq_nil_iff.2 (by simp [frame?])

@[simp] theorem events_notices (ns : List Notice) : events (ns.map .notice) = [] :=
  List.filterMap_eq_nil_iff.2 (by simp [event?])

end Effect

namespace Step

variable {σ : Type}

def emit (e : Event) : Step σ Effect := fun s => (s, [.event e])
def say (n : Notice) : Step σ Effect := fun s => (s, [.notice n])
def sayAll (ns : List Notice) : Step σ Effect := fun s => (s, ns.map .notice)

@[simp] theorem emit_apply (e : Event) (s : σ) : emit e s = (s, [.event e]) := rfl

@[simp] theorem say_apply (n : Notice) (s : σ) : say n s = (s, [.notice n]) := rfl

@[simp] theorem sayAll_apply (ns : List Notice) (s : σ) : sayAll ns s = (s, ns.map .notice) := rfl

end Step
end SignalLights
