import SignalLights.Proofs.Controller.Parts

/-!
# Operations in atoms

An operation on a controller with hardware is a list of atoms: a notice, an event, a new core, a
light driven, a code displayed, a message posted. The core and what the controller shows tell which
atoms (`Operation.atoms`); what an atom does is its own business. So a law that every atom keeps is
a law of every operation (`step_eq_perform`) and of construction (`build_eq_perform`).
-/

namespace SignalLights

/-- The smallest steps of a controller. -/
inductive Atom where
  | say (n : Notice)
  | tell (e : Event)
  | move (core : Machine × Context)
  | drive (ch : Channel) (on : Bool)
  | display (code : StatusCode)
  | post (text : String)

namespace Atom

def step : Atom → Step Controller Effect
  | say n => .say n
  | tell e => .emit e
  | move core => .modify fun c => { c with machine := core.1, context := core.2 }
  | drive ch on => Controller.drive ch on
  | display code => Controller.setStatus code
  | post text => Controller.setMessage text

def tellIf (b : Bool) (e : Event) : List Atom := if b then [tell e] else []

def driveAll (on : Bool) : List Atom := [drive .driver on, drive .strip on, drive .lamp on]

theorem tell_mem_tellIf_iff {b : Bool} {e told : Event} :
    tell e ∈ tellIf b told ↔ b ∧ e = told := by
  cases b <;> simp [tellIf]

theorem post_notMem_tellIf (b : Bool) (told : Event) (text : String) :
    post text ∉ tellIf b told := by
  cases b <;> simp [tellIf]

end Atom

namespace Controller

def perform (atoms : List Atom) : Step Controller Effect := .chain (atoms.map Atom.step)

section Perform

variable (c : Controller)

@[simp] theorem perform_nil : perform [] c = (c, []) := rfl

@[simp] theorem perform_cons (a : Atom) (atoms : List Atom) :
    perform (a :: atoms) c =
      ((perform atoms (a.step c).1).1, (a.step c).2 ++ (perform atoms (a.step c).1).2) := rfl

@[simp] theorem perform_append (atoms later : List Atom) :
    perform (atoms ++ later) c =
      ((perform later (perform atoms c).1).1,
        (perform atoms c).2 ++ (perform later (perform atoms c).1).2) := by
  rw [perform, List.map_append, Step.chain_append]
  rfl

/-- Of what atoms bring about, each is brought about by one of them. -/
theorem exists_atom_of_mem_perform {x : Effect} {atoms : List Atom} {c : Controller}
    (h : x ∈ (perform atoms c).2) : ∃ a ∈ atoms, ∃ d, x ∈ (a.step d).2 := by
  induction atoms generalizing c with
  | nil => cases h
  | cons a atoms ih =>
    rw [perform_cons, List.mem_append] at h
    rcases h with h | h
    · exact ⟨a, List.mem_cons_self, c, h⟩
    · obtain ⟨b, hb, hx⟩ := ih h
      exact ⟨b, List.mem_cons_of_mem a hb, hx⟩

@[simp] theorem perform_say (ns : List Notice) : perform (ns.map .say) c = Step.sayAll ns c := by
  induction ns with
  | nil => rfl
  | cons n ns ih =>
    rw [List.map_cons, perform_cons]
    change ((perform (ns.map .say) c).1, [Effect.notice n] ++ (perform (ns.map .say) c).2) = _
    rw [ih]
    rfl

@[simp] theorem perform_tellIf (b : Bool) (e : Event) :
    perform (Atom.tellIf b e) c = Step.onlyIf b (.emit e) c := by
  cases b <;> rfl

@[simp] theorem perform_driveAll (on : Bool) :
    perform (Atom.driveAll on) c = driveAll on c := rfl

@[simp] theorem perform_demand (ch : Channel) (demand : Option Bool) :
    perform (demand.toList.map (.drive ch)) c = driveDemand ch demand c := by
  cases demand with
  | none => rfl
  | some on => simp [Atom.step, driveDemand]

@[simp] theorem perform_transition (t : Option Transition) :
    perform (t.toList.map fun t => .tell (.modeChanged t.source t.target)) c =
      reportTransition t c := by
  cases t <;> rfl

end Perform

end Controller

namespace Operation

def wantAtoms (w : Wanted) (c : Controller) : List Atom :=
  (c.context.requestNotices w).map .say ++
    [.move (c.machine, c.context.request w), .say (.wanted w), .tell (.wantedChanged w), .post ""]

/-- What an operation comes to, on a controller with hardware. -/
def atoms (op : Operation) (c : Controller) : List Atom :=
  match op.plain with
  | start now =>
    .say (.starting now) :: (Machine.timeNotices now).map .say ++
      [.move (c.machine.reset now, { c.context with wanted := .off }),
        .drive .driver false, .drive .strip false] ++
      Atom.tellIf (c.mode != .off) (.modeChanged c.mode .off) ++
      Atom.tellIf (c.wanted != .off) (.wantedChanged .off) ++ [.post ""]
  | loop now =>
    let t := c.machine.tick Row.standard c.context now
    t.notices.map .say ++ [.move (t.machine, t.context)] ++
      t.context.demand.driver.toList.map (.drive .driver) ++
      t.context.demand.strip.toList.map (.drive .strip) ++
      (t.transition.toList.map fun t => .tell (.modeChanged t.source t.target)) ++
      Atom.tellIf (t.context.wanted != c.wanted) (.wantedChanged t.context.wanted)
  | stop now => .say (.stopping now) :: Atom.driveAll false
  | want w => wantAtoms w c
  | warn text => wantAtoms .warn c ++ [.say (.warning text), .post text]
  | configureBlink count period =>
    let cadence := Cadence.clamp count period
    (Cadence.clampNotices period).map .say ++
      [.say (.cadenceSet cadence.count cadence.period),
        .move (c.machine, c.context.override cadence)]
  | setStatus code => [.display code]
  | setLamp on => [.drive .lamp on]
  | setRangeBlinking on =>
    [.say (.rangeBlinking on), .move (c.machine, { c.context with rangeBlinkEnabled := on })]
  | publish => [.tell (.snapshot c.snapshot)]
  | handle _ => []

end Operation

namespace Controller

variable {c : Controller}

theorem want_eq_perform (h : c.isInitialized) (w : Wanted) :
    want w c = perform (Operation.wantAtoms w c) c := by
  rw [want, guarded_apply _ h]
  simp [Operation.wantAtoms, Atom.step, updateContext]

theorem step_eq_perform (op : Operation) (h : c.isInitialized) :
    op.step c = perform (op.atoms c) c := by
  rw [← op.step_plain, Operation.atoms]
  generalize hq : op.plain = q
  cases q with
  | handle command => exact absurd hq (op.plain_ne_handle command)
  | start now =>
    rw [Operation.step, start, guarded_apply _ h]
    simp [Atom.step]
  | loop now =>
    rw [Operation.step, loop, guarded_apply _ h]
    simp [Atom.step]
  | stop now =>
    rw [Operation.step, stop, guarded_apply _ h]
    simp [Atom.step]
  | want w => exact want_eq_perform h w
  | warn text =>
    rw [Operation.step, warn, guarded_apply _ h]
    simp [Atom.step, want_eq_perform h]
  | configureBlink count period =>
    rw [Operation.step, configureBlink, guarded_apply _ h]
    simp [Atom.step, updateContext]
  | setStatus code => simp [Operation.step, Atom.step]
  | setLamp on => simp [Operation.step, setLamp, Atom.step]
  | setRangeBlinking on =>
    rw [Operation.step, setRangeBlinking, guarded_apply _ h]
    simp [Atom.step, updateContext]
  | publish =>
    rw [Operation.step, publish, guarded_apply _ h]
    simp [Atom.step]

/-- What the construction of a controller with hardware comes to. -/
def setup (config : Config) : List Atom :=
  (rejection config).map .say ++ config.blinkNotices.map .say ++ Atom.driveAll false ++
    [.display .off, .say (.ready config.profile), .tell (.initialized true)]

theorem build_eq_perform (policy : WritePolicy) (config : Config) (port : Equipment) :
    build policy config (.ok port) = perform (setup config) (initial policy config (some port)) := by
  simp [build, setup, Atom.step]

end Controller
end SignalLights
