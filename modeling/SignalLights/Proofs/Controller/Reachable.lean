import Mathlib.Data.List.Induction
import SignalLights.Proofs.Binary64.Order
import SignalLights.Proofs.Controller.Parts
import SignalLights.Proofs.Machine.Tick

/-!
# Controllers in use

A controller is *reachable* when it was built from some configuration and hardware and then used by
any operations. What holds of every built controller and is kept by every operation holds of every
reachable one: the moment a mode was entered is finite, and a light that is missing is never on.
-/

namespace SignalLights

namespace Machine

/-- Seconds spent in a mode entered at `since`, as a tick at `now` counts them. -/
def elapsedAt (since now : Binary64) : Binary64 := if now.isFinite then now - since else .zero

theorem timeOf_sub_since {m : Machine} (h : m.since.isFinite) (now : Binary64) :
    m.timeOf now - m.since = elapsedAt m.since now := by
  unfold timeOf elapsedAt
  split
  · rfl
  · exact Binary64.sub_self_of_isFinite h

end Machine

theorem Operation.isFinite_since_advance (op : Operation) {core : Machine × Context}
    (h : core.1.since.isFinite) : (op.advance core).1.since.isFinite := by
  obtain ⟨m, c⟩ := core
  unfold Operation.advance
  cases op.plain with
  | start now => exact Machine.isFinite_timeOf h now
  | loop now =>
    change (m.tick Row.standard c now).machine.since.isFinite
    rcases m.tick_cases c now with ⟨_, hm⟩ | ⟨next, _, _, hm⟩
    · rw [hm]
      exact h
    · rw [hm]
      exact Machine.isFinite_timeOf h now
  | _ => exact h

namespace Controller

/-- A controller from its construction through a list of operations, with all that happened. -/
def history (config : Config) (hardware : Except Fault Equipment) (ops : List Operation) :
    Controller × List Effect :=
  let built := new config hardware
  let used := run ops built.1
  (used.1, built.2 ++ used.2)

def Reachable (c : Controller) : Prop :=
  ∃ config hardware ops, c = (history config hardware ops).1

variable {c : Controller}

/-- What holds at construction and is kept by every operation holds in every reachable state. -/
theorem Reachable.holds {P : Controller → Prop} (hc : c.Reachable)
    (hnew : ∀ config hardware, P (new config hardware).1)
    (hstep : ∀ op d, P d → P (Operation.step op d).1) : P c := by
  obtain ⟨config, hardware, ops, rfl⟩ := hc
  exact run_keeps hstep ops _ (hnew config hardware)

theorem Reachable.run (hc : c.Reachable) (ops : List Operation) : (run ops c).1.Reachable := by
  obtain ⟨config, hardware, before, rfl⟩ := hc
  refine ⟨config, hardware, before ++ ops, ?_⟩
  simp only [history, run_append]

theorem Reachable.step (hc : c.Reachable) (op : Operation) : (op.step c).1.Reachable :=
  hc.run [op]

theorem isInitialized_step (op : Operation) (c : Controller) :
    (op.step c).1.isInitialized = c.isInitialized := congrArg Option.isSome (port_step op c)

theorem isInitialized_run (ops : List Operation) (c : Controller) :
    (Controller.run ops c).1.isInitialized = c.isInitialized :=
  run_keeps (P := fun d => d.isInitialized = c.isInitialized)
    (fun op d hd => (isInitialized_step op d).trans hd) ops c rfl

/-- The core goes through the operations one by one. -/
theorem core_run (hi : c.isInitialized) (ops : List Operation) :
    (Controller.run ops c).1.core = ops.foldl (fun core op => op.advance core) c.core := by
  induction ops generalizing c with
  | nil => rfl
  | cons op ops ih =>
    have hi' : (op.step c).1.isInitialized := (isInitialized_step op c).trans hi
    rw [run_cons, ih hi', core_step op hi, List.foldl_cons]

/-- Of what a run brings about, each is brought about by one operation. -/
theorem mem_run_iff {x : Effect} {ops : List Operation} :
    x ∈ (Controller.run ops c).2 ↔
      ∃ before op after, ops = before ++ op :: after ∧
        x ∈ (op.step (Controller.run before c).1).2 := by
  constructor
  · intro h
    induction ops generalizing c with
    | nil => cases h
    | cons op ops ih =>
      rw [run_cons, List.mem_append] at h
      rcases h with h | h
      · exact ⟨[], op, ops, rfl, h⟩
      · obtain ⟨before, op', after, rfl, hx⟩ := ih h
        exact ⟨op :: before, op', after, rfl, hx⟩
  · rintro ⟨before, op, after, rfl, hx⟩
    rw [run_append, run_cons]
    exact List.mem_append_right _ (List.mem_append_left _ hx)

/-- What holds after a run and did not before began with one operation, and has held since. -/
theorem run_began {P : Controller → Prop} {ops : List Operation} (hbefore : ¬ P c)
    (h : P (Controller.run ops c).1) :
    ∃ before op after, ops = before ++ op :: after ∧ ¬ P (Controller.run before c).1 ∧
      ∀ part, part <+: after → P (Controller.run (before ++ op :: part) c).1 := by
  induction ops using List.reverseRecOn with
  | nil => exact absurd h hbefore
  | append_singleton ops last ih =>
    by_cases hops : P (Controller.run ops c).1
    · obtain ⟨before, op, after, rfl, hnot, hsince⟩ := ih hops
      refine ⟨before, op, after ++ [last], by simp, hnot, ?_⟩
      intro part hpart
      rcases List.prefix_concat_iff.1 hpart with rfl | hpart
      · simpa using h
      · exact hsince part hpart
    · refine ⟨ops, last, [], rfl, hops, ?_⟩
      intro part hpart
      rwa [List.prefix_nil.1 hpart]

/-! ## Construction -/

theorem core_build (policy : WritePolicy) (config : Config) (hardware : Except Fault Equipment) :
    (build policy config hardware).1.core = (.initial, .ofConfig config) := by
  cases hardware
  case error => rfl
  case ok port => simp [build, initial]

@[simp] theorem message_build (policy : WritePolicy) (config : Config)
    (hardware : Except Fault Equipment) : (build policy config hardware).1.message = "" := by
  cases hardware <;> simp [build, initial, driveAll, setStatus]

@[simp] theorem level_blank (ch : Channel) : Latches.blank.level ch = none := by
  simp [Latches.level, Latches.blank]

theorem level_build (policy : WritePolicy) (config : Config) (hardware : Except Fault Equipment)
    (ch : Channel) :
    (build policy config hardware).1.latches.level ch =
      if (build policy config hardware).1.has ch then some false else none := by
  cases hardware with
  | error f => simp [build, initial, has]
  | ok port => simp [build, initial, level_driveAll, has]

theorem isInitialized_new (config : Config) (hardware : Except Fault Equipment) :
    (new config hardware).1.isInitialized = hardware.isOk := by
  cases hardware <;> simp [new, build, initial, isInitialized, Except.isOk, Except.toBool]

theorem isInitialized_history (config : Config) (port : Equipment) (ops : List Operation) :
    (history config (.ok port) ops).1.isInitialized :=
  (isInitialized_run ops _).trans (isInitialized_new config (.ok port))

/-! ## Invariants -/

theorem Reachable.isFinite_since (hc : c.Reachable) : c.machine.since.isFinite := by
  refine hc.holds (P := fun d => d.core.1.since.isFinite) ?_ ?_
  · intro config hardware
    rw [new, core_build]
    exact (by decide : Machine.initial.since.isFinite)
  · intro op d hd
    cases h : d.isInitialized with
    | false => rwa [step_inert op h]
    | true =>
      rw [core_step op h]
      exact op.isFinite_since_advance hd

/-- A missing light is never written. -/
theorem Reachable.level_eq_none (hc : c.Reachable) {ch : Channel} (hch : c.has ch = false) :
    c.latches.level ch = none := by
  refine hc.holds (P := fun d => d.has ch = false → d.latches.level ch = none) ?_ ?_ hch
  · intro config hardware h
    rw [new] at h ⊢
    rw [level_build, h]
    rfl
  · intro op d hd h
    have hp : d.has ch = false := by rwa [has_step] at h
    cases hi : d.isInitialized with
    | false => rw [step_inert op hi]; exact hd hp
    | true => rw [level_step op hi, hp]; exact hd hp

/-- A light takes the level commanded of it, if it is there to take one. -/
theorem Reachable.isLit_step (hc : c.Reachable) (hi : c.isInitialized) (op : Operation)
    {ch : Channel} {on : Bool} (hon : op.commanded c.core ch = some on) :
    (op.step c).1.isLit ch = (c.has ch && on) := by
  rw [isLit, level_step op hi, hon]
  cases h : c.has ch with
  | false => simp [hc.level_eq_none h]
  | true => rfl

/-- A light that nothing is commanded of stays as it is. -/
theorem isLit_step_of_none (hi : c.isInitialized) (op : Operation) {ch : Channel}
    (h : op.commanded c.core ch = none) : (op.step c).1.isLit ch = c.isLit ch := by
  rw [isLit, level_step op hi, h]
  simp [isLit]

/-! ## Ticks -/

variable {now : Binary64}

/-- The tick that finds a mode past its time. -/
theorem Reachable.loop_over (hc : c.Reachable) (hi : c.isInitialized)
    (h : c.machine.isOver c.context now) :
    (loop now c).1.mode = .off ∧ (loop now c).1.wanted = .off ∧
      (loop now c).1.isLit .driver = false ∧ (loop now c).1.isLit .strip = false := by
  obtain ⟨hmode, hwanted, hdemand⟩ := Machine.tick_over h
  have hdark {ch : Channel} (hd : (Operation.loop now).commanded c.core ch = some false) :
      (loop now c).1.isLit ch = false := by
    rw [← Bool.and_false (c.has ch)]
    exact hc.isLit_step hi (.loop now) hd
  refine ⟨?_, ?_, hdark ?_, hdark ?_⟩
  · exact (mode_step (.loop now) hi).trans hmode
  · exact (wanted_step (.loop now) hi).trans hwanted
  · exact congrArg Demand.driver hdemand
  · exact congrArg Demand.strip hdemand

/-- A tick that finds a mode within its time. -/
theorem loop_lasting (hi : c.isInitialized) (h : c.machine.isOver c.context now = false) :
    (loop now c).1.mode = c.mode.next c.wanted ∧ (loop now c).1.wanted = c.wanted := by
  obtain ⟨hmode, hwanted, -⟩ := Machine.tick_lasting h
  exact ⟨(mode_step (.loop now) hi).trans hmode, (wanted_step (.loop now) hi).trans hwanted⟩

end Controller
end SignalLights
