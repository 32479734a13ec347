import SignalLights.Controller.Operation

/-!
# What an operation does to each part

A controller decides with its machine and context alone, its *core*; the latches, the message and
the effects follow. `core_step` gives the next core as a function of the core, `level_step` the next
levels of the latches from what the operation commands, and `message_step` the message from what it
posts. Without hardware nothing happens.
-/

namespace SignalLights

/-- A tick stays in the mode, and reports no transition, or enters another mode and reports that. -/
theorem Machine.tick_cases (m : Machine) (c : Context) (now : Binary64) :
    ((m.tick Row.standard c now).transition = none ∧ (m.tick Row.standard c now).machine = m) ∨
      ∃ next, m.mode ≠ next ∧
        (m.tick Row.standard c now).transition = some ⟨m.mode, next⟩ ∧
        (m.tick Row.standard c now).machine = ⟨next, m.timeOf now⟩ := by
  unfold tick
  simp only [Row.mode_standard]
  split
  · exact .inl ⟨rfl, rfl⟩
  · next h => exact .inr ⟨_, Ne.symm h, rfl, rfl⟩

namespace Operation

/-- A command spelled out as the operation it asks for. -/
def plain : Operation → Operation
  | handle command => ofCommand command
  | op => op

theorem step_plain (op : Operation) : op.plain.step = op.step := by
  cases op
  case handle command => exact (step_handle command).symm
  all_goals rfl

theorem plain_ne_handle (op : Operation) (command : Command) : op.plain ≠ handle command := by
  cases op
  case handle given => cases given <;> nofun
  all_goals nofun

/-- The core after an operation. -/
def advance (op : Operation) : Machine × Context → Machine × Context
  | (m, c) =>
    match op.plain with
    | start now => (m.reset now, { c with wanted := .off })
    | loop now => ((m.tick Row.standard c now).machine, (m.tick Row.standard c now).context)
    | want w => (m, c.request w)
    | warn _ => (m, c.request .warn)
    | configureBlink count period => (m, c.override (.clamp count period))
    | setRangeBlinking on => (m, { c with rangeBlinkEnabled := on })
    | _ => (m, c)

/-- The level an operation commands of a light; `none` leaves the light as it is. -/
def commanded (op : Operation) (core : Machine × Context) : Channel → Option Bool :=
  match op.plain with
  | start _ => fun
    | .lamp => none
    | _ => some false
  | loop now => fun
    | .driver => (core.1.tick Row.standard core.2 now).context.demand.driver
    | .strip => (core.1.tick Row.standard core.2 now).context.demand.strip
    | .lamp => none
  | stop _ => fun _ => some false
  | setLamp on => fun
    | .lamp => some on
    | _ => none
  | _ => fun _ => none

/-- The message an operation leaves; `none` keeps the message there is. -/
def posts (op : Operation) : Option String :=
  match op.plain with
  | start _ | want _ => some ""
  | warn text => some text
  | _ => none

/-- An operation is a tick or none. -/
theorem eq_loop_or (op : Operation) : (∃ now, op = loop now) ∨ ∀ now, op ≠ loop now := by
  cases op with
  | loop now => exact .inl ⟨now, rfl⟩
  | _ => exact .inr nofun

theorem plain_eq_loop_iff {op : Operation} {now : Binary64} :
    op.plain = loop now ↔ op = loop now := by
  cases op with
  | handle command => cases command <;> simp [plain, ofCommand]
  | _ => simp [plain]

theorem plain_eq_publish_iff {op : Operation} : op.plain = publish ↔ op = publish := by
  cases op with
  | handle command => cases command <;> simp [plain, ofCommand]
  | _ => simp [plain]

theorem plain_ne_loop {op : Operation} (h : ∀ now, op ≠ loop now) (now : Binary64) :
    op.plain ≠ loop now := fun hq => h now (plain_eq_loop_iff.1 hq)

/-- Ticks apart, an operation puts the driver light and the strip out or leaves them as they are. -/
theorem commanded_of_ne_loop {op : Operation} (hop : ∀ now, op ≠ loop now) {ch : Channel}
    (hch : ch ≠ .lamp) (core : Machine × Context) :
    op.commanded core ch = none ∨ op.commanded core ch = some false := by
  have hplain := plain_ne_loop hop
  unfold commanded
  generalize op.plain = q at hplain
  cases ch with
  | lamp => exact absurd rfl hch
  | driver | strip =>
    cases q with
    | loop now => exact absurd rfl (hplain now)
    | start | stop => exact .inr rfl
    | _ => exact .inl rfl

/-- Ticks apart, an operation leads to off without a request or nowhere. -/
theorem mode_advance_of_ne_loop {op : Operation} (hop : ∀ now, op ≠ loop now)
    (core : Machine × Context) :
    (op.advance core).1.mode = core.1.mode ∨
      ((op.advance core).1.mode = .off ∧ (op.advance core).2.wanted = .off) := by
  have hplain := plain_ne_loop hop
  obtain ⟨m, c⟩ := core
  unfold advance
  generalize op.plain = q at hplain
  cases q with
  | loop now => exact absurd rfl (hplain now)
  | start => exact .inr ⟨rfl, rfl⟩
  | _ => exact .inl rfl

end Operation

theorem Latches.level_drive (policy : WritePolicy) (port : Equipment) (l : Latches)
    (ch d : Channel) (on : Bool) :
    (drive policy port ch on l).1.level d = if d = ch ∧ port.has d then some on else l.level d := by
  unfold drive
  by_cases hn : l.needsLevel policy port ch on
  · have hh : port.has ch := by
      rw [needsLevel, Bool.and_eq_true] at hn
      exact hn.1
    rw [if_pos hn]
    by_cases hd : d = ch <;> simp [level, PerChannel.get_set, hd, hh]
  · rw [if_neg hn]
    split
    · next h =>
      -- a light that is there and not written shows the level already
      obtain ⟨rfl, hh⟩ := h
      simp only [needsLevel, hh, Bool.true_and, Bool.or_eq_true, not_or] at hn
      simpa using hn.2
    · rfl

namespace Controller

/-- What a controller decides with. -/
def core (c : Controller) : Machine × Context := (c.machine, c.context)

/-- Whether a controller has the light of a channel. -/
def has (c : Controller) (ch : Channel) : Bool := c.port.any (·.has ch)

@[simp] theorem core_mk (policy : WritePolicy) (port : Option Equipment) (m : Machine) (x : Context)
    (l : Latches) (text : String) : core ⟨policy, port, m, x, l, text⟩ = (m, x) := rfl

@[simp] theorem has_with_core (c : Controller) (m : Machine) (x : Context) (ch : Channel) :
    has { c with machine := m, context := x } ch = c.has ch := rfl

/-! ## Writes -/

/-- A light is written, reported and remembered, or nothing happens at all. -/
theorem drive_cases (c : Controller) (ch : Channel) (on : Bool) :
    drive ch on c = (c, []) ∨
      drive ch on c = ({ c with latches := { c.latches with
          levels := c.latches.levels.set ch (some on) } },
        [.level ch on, .notice (.levelWritten ch on), .event (.levelChanged ch on)]) := by
  unfold drive onPort
  cases hp : c.port with
  | none => exact .inl rfl
  | some port =>
    simp only [Latches.drive]
    split
    · exact .inr (by rw [← hp])
    · exact .inl (by rw [← hp])

/-- The display is written, reported and remembered, or nothing happens at all. -/
theorem setStatus_cases (c : Controller) (code : StatusCode) :
    setStatus code c = (c, []) ∨
      setStatus code c = ({ c with latches := { c.latches with status := some code } },
        [.frame code.frame, .notice (.statusWritten code), .event (.statusChanged code)]) := by
  unfold setStatus onPort
  cases hp : c.port with
  | none => exact .inl rfl
  | some port =>
    simp only [Latches.display]
    split
    · exact .inr (by rw [← hp])
    · exact .inl (by rw [← hp])

/-! ## Steps that decide nothing -/

section Outward

variable (c : Controller)

@[simp] theorem core_onPort (f : Equipment → Step Latches Effect) :
    (onPort f c).1.core = c.core := by
  unfold onPort; split <;> rfl

@[simp] theorem port_onPort (f : Equipment → Step Latches Effect) :
    (onPort f c).1.port = c.port := by
  unfold onPort; split <;> simp_all

@[simp] theorem core_drive (ch : Channel) (on : Bool) : (drive ch on c).1.core = c.core :=
  core_onPort c _

@[simp] theorem port_drive (ch : Channel) (on : Bool) : (drive ch on c).1.port = c.port :=
  port_onPort c _

@[simp] theorem has_drive (ch d : Channel) (on : Bool) : (drive ch on c).1.has d = c.has d := by
  simp [has]

@[simp] theorem core_driveDemand (ch : Channel) (d : Option Bool) :
    (driveDemand ch d c).1.core = c.core := by
  cases d <;> simp [driveDemand]

@[simp] theorem port_driveDemand (ch : Channel) (d : Option Bool) :
    (driveDemand ch d c).1.port = c.port := by
  cases d <;> simp [driveDemand]

@[simp] theorem has_driveDemand (ch d : Channel) (demand : Option Bool) :
    (driveDemand ch demand c).1.has d = c.has d := by
  simp [has]

@[simp] theorem core_driveAll (on : Bool) : (driveAll on c).1.core = c.core := by
  simp [driveAll]

@[simp] theorem port_driveAll (on : Bool) : (driveAll on c).1.port = c.port := by
  simp [driveAll]

@[simp] theorem core_setStatus (code : StatusCode) : (setStatus code c).1.core = c.core :=
  core_onPort c _

@[simp] theorem port_setStatus (code : StatusCode) : (setStatus code c).1.port = c.port :=
  port_onPort c _

@[simp] theorem core_setMessage (text : String) : (setMessage text c).1.core = c.core := by
  unfold setMessage; split <;> rfl

@[simp] theorem port_setMessage (text : String) : (setMessage text c).1.port = c.port := by
  unfold setMessage; split <;> rfl

@[simp] theorem latches_setMessage (text : String) : (setMessage text c).1.latches = c.latches := by
  unfold setMessage; split <;> rfl

@[simp] theorem state_onlyIf_emit (b : Bool) (e : Event) : (Step.onlyIf b (.emit e) c).1 = c := by
  cases b <;> rfl

@[simp] theorem state_reportTransition (t : Option Transition) :
    (reportTransition t c).1 = c := by
  cases t <;> rfl

end Outward

/-! ## Without hardware -/

theorem guarded_apply (f : Step Controller Effect) {c : Controller} (h : c.isInitialized) :
    guarded f c = f c := if_pos h

theorem guarded_inert (f : Step Controller Effect) {c : Controller} (h : c.isInitialized = false) :
    guarded f c = (c, []) := if_neg (by simp [h])

theorem onPort_inert (f : Equipment → Step Latches Effect) {c : Controller}
    (h : c.isInitialized = false) : onPort f c = (c, []) := by
  rw [isInitialized, Option.isSome_eq_false_iff, Option.isNone_iff_eq_none] at h
  simp [onPort, h]

theorem step_inert (op : Operation) {c : Controller} (h : c.isInitialized = false) :
    op.step c = (c, []) := by
  rw [← op.step_plain]
  generalize hq : op.plain = q
  cases q with
  | handle command => exact absurd hq (op.plain_ne_handle command)
  | setStatus => exact onPort_inert _ h
  | setLamp => exact onPort_inert _ h
  | _ =>
    simp [Operation.step, start, loop, stop, want, warn, configureBlink, setRangeBlinking, publish,
      guarded_inert _ h]

theorem loop_inert (now : Binary64) {c : Controller} (h : c.isInitialized = false) :
    loop now c = (c, []) := step_inert (.loop now) h

theorem run_inert (ops : List Operation) {c : Controller} (h : c.isInitialized = false) :
    run ops c = (c, []) := by
  induction ops with
  | nil => rfl
  | cons op ops ih =>
    rw [run_cons, step_inert op h, ih]
    rfl

/-! ## The core -/

variable {c : Controller}

theorem core_want (h : c.isInitialized) (w : Wanted) :
    (want w c).1.core = (c.machine, c.context.request w) := by
  simp [want, updateContext, guarded_apply _ h]

theorem machine_want (h : c.isInitialized) (w : Wanted) : (want w c).1.machine = c.machine :=
  congrArg Prod.fst (core_want h w)

theorem context_want (h : c.isInitialized) (w : Wanted) :
    (want w c).1.context = c.context.request w := congrArg Prod.snd (core_want h w)

theorem port_want (h : c.isInitialized) (w : Wanted) : (want w c).1.port = c.port := by
  simp [want, updateContext, guarded_apply _ h]

theorem core_port_step (op : Operation) (h : c.isInitialized) :
    (op.step c).1.core = op.advance c.core ∧ (op.step c).1.port = c.port := by
  rw [← op.step_plain]
  change _ = op.advance (c.machine, c.context) ∧ _
  unfold Operation.advance
  generalize hq : op.plain = q
  cases q with
  | handle command => exact absurd hq (op.plain_ne_handle command)
  | start now => simp [Operation.step, start, guarded_apply _ h]
  | loop now => simp [Operation.step, loop, guarded_apply _ h]
  | stop now =>
    change (stop now c).1.core = c.core ∧ (stop now c).1.port = c.port
    simp [stop, guarded_apply _ h]
  | want w => exact ⟨core_want h w, port_want h w⟩
  | warn text => simp [Operation.step, warn, guarded_apply _ h, core_want h, port_want h]
  | configureBlink count period =>
    simp [Operation.step, configureBlink, updateContext, guarded_apply _ h]
  | setStatus code => exact ⟨core_setStatus c code, port_setStatus c code⟩
  | setLamp on => exact ⟨core_drive c .lamp on, port_drive c .lamp on⟩
  | setRangeBlinking on => simp [Operation.step, setRangeBlinking, updateContext, guarded_apply _ h]
  | publish => simp [Operation.step, publish, guarded_apply _ h, core]

/-- The core takes its next step from the core alone. -/
theorem core_step (op : Operation) (h : c.isInitialized) :
    (op.step c).1.core = op.advance c.core := (core_port_step op h).1

/-- The next core in every case: without hardware it stays. -/
theorem core_step_eq (op : Operation) (c : Controller) :
    (op.step c).1.core = if c.isInitialized then op.advance c.core else c.core := by
  cases hi : c.isInitialized with
  | false => rw [step_inert op hi]; rfl
  | true => exact core_step op hi

theorem mode_step (op : Operation) (h : c.isInitialized) :
    (op.step c).1.mode = (op.advance c.core).1.mode :=
  congrArg (fun core => core.1.mode) (core_step op h)

theorem wanted_step (op : Operation) (h : c.isInitialized) :
    (op.step c).1.wanted = (op.advance c.core).2.wanted :=
  congrArg (fun core => core.2.wanted) (core_step op h)

/-- A controller keeps its port. -/
theorem port_step (op : Operation) (c : Controller) : (op.step c).1.port = c.port := by
  cases h : c.isInitialized with
  | false => rw [step_inert op h]
  | true => exact (core_port_step op h).2

theorem has_step (op : Operation) (c : Controller) (ch : Channel) :
    (op.step c).1.has ch = c.has ch := by
  rw [has, port_step, has]

/-! ## The lights -/

theorem level_drive (c : Controller) (ch d : Channel) (on : Bool) :
    (drive ch on c).1.latches.level d =
      if d = ch ∧ c.has d then some on else c.latches.level d := by
  unfold drive onPort has
  cases hp : c.port with
  | none => simp
  | some port => exact Latches.level_drive c.policy port c.latches ch d on

theorem level_driveDemand (c : Controller) (ch d : Channel) (demand : Option Bool) :
    (driveDemand ch demand c).1.latches.level d =
      if d = ch ∧ c.has d then demand.or (c.latches.level d) else c.latches.level d := by
  cases demand with
  | none => simp [driveDemand]
  | some on => exact level_drive c ch d on

theorem level_driveAll (c : Controller) (d : Channel) (on : Bool) :
    (driveAll on c).1.latches.level d = if c.has d then some on else c.latches.level d := by
  cases d <;> simp [driveAll, level_drive]

@[simp] theorem latches_setStatus_level (c : Controller) (code : StatusCode) (ch : Channel) :
    (setStatus code c).1.latches.level ch = c.latches.level ch := by
  unfold setStatus onPort
  cases c.port with
  | none => rfl
  | some port => simp only [Latches.display, Latches.level]; split <;> rfl

theorem latches_want (h : c.isInitialized) (w : Wanted) : (want w c).1.latches = c.latches := by
  simp [want, updateContext, guarded_apply _ h]

/-- A light that is there takes the level commanded, if one is; all others keep theirs. -/
theorem level_step (op : Operation) (h : c.isInitialized) (ch : Channel) :
    (op.step c).1.latches.level ch =
      if c.has ch then (op.commanded c.core ch).or (c.latches.level ch)
      else c.latches.level ch := by
  rw [← op.step_plain]
  unfold Operation.commanded
  generalize hq : op.plain = q
  cases q with
  | handle command => exact absurd hq (op.plain_ne_handle command)
  | start now => cases ch <;> simp [Operation.step, start, guarded_apply _ h, level_drive]
  | loop now =>
    cases ch <;> simp [Operation.step, loop, guarded_apply _ h, level_driveDemand, core]
  | stop now => simp [Operation.step, stop, guarded_apply _ h, level_driveAll]
  | want w => simp [Operation.step, latches_want h]
  | warn text => simp [Operation.step, warn, guarded_apply _ h, latches_want h]
  | setStatus code => simp [Operation.step]
  | setLamp on => cases ch <;> simp [Operation.step, setLamp, level_drive]
  | _ =>
    simp [Operation.step, configureBlink, setRangeBlinking, publish, updateContext,
      guarded_apply _ h]

/-! ## The message -/

@[simp] theorem message_onPort (f : Equipment → Step Latches Effect) (c : Controller) :
    (onPort f c).1.message = c.message := by
  unfold onPort; split <;> rfl

@[simp] theorem message_drive (ch : Channel) (on : Bool) (c : Controller) :
    (drive ch on c).1.message = c.message := message_onPort _ c

@[simp] theorem message_driveDemand (ch : Channel) (demand : Option Bool) (c : Controller) :
    (driveDemand ch demand c).1.message = c.message := by
  cases demand <;> simp [driveDemand]

@[simp] theorem message_setMessage (text : String) (c : Controller) :
    (setMessage text c).1.message = text := by
  unfold setMessage
  split <;> simp_all

/-- The message is the one posted last. -/
theorem message_step (op : Operation) (h : c.isInitialized) :
    (op.step c).1.message = op.posts.getD c.message := by
  rw [← op.step_plain]
  unfold Operation.posts
  generalize hq : op.plain = q
  cases q with
  | handle command => exact absurd hq (op.plain_ne_handle command)
  | start now => simp [Operation.step, start, guarded_apply _ h]
  | loop now => simp [Operation.step, loop, guarded_apply _ h]
  | stop now => simp [Operation.step, stop, driveAll, guarded_apply _ h]
  | want w => simp [Operation.step, want, guarded_apply _ h]
  | warn text => simp [Operation.step, warn, guarded_apply _ h]
  | setStatus code => exact message_onPort _ c
  | setLamp on => exact message_drive .lamp on c
  | _ =>
    simp [Operation.step, configureBlink, setRangeBlinking, publish, updateContext,
      guarded_apply _ h]

end Controller
end SignalLights
