import SignalLights.Proofs.Controller.Alike

/-!
# A start is a fresh start

After a start a controller with any past drives its lights, and reports its mode, its request and
its message, just like one that was built a moment ago (`start_forgets`). What the past leaves
behind is a cadence that was selected or active, and the lamp and the display: controllers that
differ in these alone act alike.
-/

namespace SignalLights

namespace Context

/-- What a controller is configured with and never changes. -/
def settings (c : Context) : Cadence × Bool × RangeIndicator :=
  (c.base, c.rangeFindingIsFinite, c.rangeIndicator)

@[simp] theorem settings_request (c : Context) (w : Wanted) :
    (c.request w).settings = c.settings := by
  cases w <;> rfl

end Context

theorem Machine.settings_tick (m : Machine) (c : Context) (now : Binary64) :
    (m.tick Row.standard c now).context.settings = c.settings := by
  have hupdate (m : Mode) (c : Context) :
      ((Row.standard m).update c).context.settings = c.settings := by
    cases m with
    | off | fixedOn => rfl
    | blinking | rangeFinding =>
      simp only [Row.standard, Row.blinking, Row.rangeFinding]
      split <;> rfl
  have henter (m : Mode) (c : Context) : (enter (Row.standard m) c).settings = c.settings := by
    cases m <;> rfl
  simp only [tick]
  split
  · exact hupdate m.mode _
  · exact (henter _ _).trans (hupdate m.mode _)

theorem Operation.settings_advance (op : Operation) (core : Machine × Context) :
    (op.advance core).2.settings = core.2.settings := by
  obtain ⟨m, c⟩ := core
  unfold advance
  cases op.plain with
  | loop now => exact m.settings_tick c now
  | want | warn => exact c.settings_request _
  | _ => rfl

namespace Controller

/-! ## What a start leaves -/

theorem settings_step (op : Operation) (c : Controller) :
    (op.step c).1.context.settings = c.context.settings := by
  cases hi : c.isInitialized with
  | false => rw [step_inert op hi]
  | true =>
    have hcore := congrArg (fun core => core.2.settings) (core_step op hi)
    exact hcore.trans (op.settings_advance c.core)

theorem settings_history (config : Config) (hardware : Except Fault Equipment)
    (ops : List Operation) :
    (history config hardware ops).1.context.settings = (Context.ofConfig config).settings := by
  refine run_keeps (P := fun c => c.context.settings = (Context.ofConfig config).settings)
    (fun op c hc => (settings_step op c).trans hc) ops _ ?_
  exact congrArg (fun core => core.2.settings) (core_build .onChange config hardware)

theorem message_start (h : c.isInitialized) (now : Binary64) : (start now c).1.message = "" :=
  message_step (.start now) h

/-- After a start a light is off, or there is none. -/
theorem Reachable.level_start (hc : c.Reachable) (hi : c.isInitialized) (now : Binary64)
    {ch : Channel} (hch : ch ≠ .lamp) :
    (start now c).1.latches.level ch = if c.has ch then some false else none := by
  have hl := level_step (.start now) hi ch
  have hcommanded : (Operation.start now).commanded c.core ch = some false := by
    cases ch with
    | driver | strip => rfl
    | lamp => exact absurd rfl hch
  rw [hcommanded] at hl
  rw [show start now c = (Operation.start now).step c from rfl, hl]
  split
  · rfl
  · next h => exact hc.level_eq_none (by simpa using h)

/-- What a start makes of a controller with any past. -/
structure Started (port : Equipment) (now : Binary64) (before after : Controller) : Prop where
  policy : after.policy = .onChange
  port_eq : after.port = some port
  machine : after.machine = ⟨.off, now⟩
  context : after.context = { before.context with wanted := .off }
  message : after.message = ""
  level : ∀ ch, ch ≠ .lamp →
    after.latches.level ch = if port.has ch then some false else none

theorem started_history (config : Config) (port : Equipment) (ops : List Operation)
    {now : Binary64} (hnow : now.isFinite) :
    Started port now (history config (.ok port) ops).1
      (start now (history config (.ok port) ops).1).1 := by
  obtain ⟨-, hport, hpolicy⟩ := accounts_historyUnder .onChange config port ops
  rw [← history_eq] at hport hpolicy
  have hr : (history config (.ok port) ops).1.Reachable := ⟨_, _, _, rfl⟩
  generalize (history config (.ok port) ops).1 = c at hport hpolicy hr ⊢
  have hi : c.isInitialized := by simp [isInitialized, hport]
  obtain ⟨-, hport', hpolicy'⟩ := accounts_step (.start now) c hport
  have hcore : (start now c).1.core = (c.machine.reset now, { c.context with wanted := .off }) :=
    core_step (.start now) hi
  have hreset : c.machine.reset now = ⟨.off, now⟩ := by
    rw [Machine.reset, Machine.timeOf, if_pos hnow]
  refine ⟨hpolicy'.trans hpolicy, hport', (congrArg Prod.fst hcore).trans hreset,
    congrArg Prod.snd hcore, message_start hi now, ?_⟩
  intro ch hch
  rw [hr.level_start hi now hch, has, hport, Option.any_some]

/-- Two controllers with the same settings are alike after a start. -/
theorem Started.alike {port port' : Equipment} {now : Binary64} {c d s t : Controller}
    (hc : Started port now c s) (hd : Started port' now d t)
    (hport : port'.channels = port.channels) (hsettings : d.context.settings = c.context.settings)
    (hrange : d.context.rangeBlinkEnabled = c.context.rangeBlinkEnabled) : s.Alike t := by
  have hhas (ch : Channel) : port'.has ch = port.has ch := congrArg (·.get ch) hport
  simp only [Context.settings, Prod.mk.injEq] at hsettings
  obtain ⟨hbase, hfinite, hindicator⟩ := hsettings
  constructor
  case policy => rw [hc.policy, hd.policy]
  case isInitialized => rw [isInitialized, isInitialized, hc.port_eq, hd.port_eq]; rfl
  case machine => rw [hc.machine, hd.machine]
  case context =>
    rw [mode, hc.machine, hc.context, hd.context]
    exact .of_off rfl rfl hbase hfinite hindicator hrange
  case message => rw [hc.message, hd.message]
  case has =>
    intro ch _
    rw [has, has, hc.port_eq, hd.port_eq, Option.any_some, Option.any_some, hhas]
  case level =>
    intro ch hch
    rw [hc.level ch hch, hd.level ch hch, hhas]

/-- **A start forgets the past.** A controller with any past on a port, and one built afresh from
the same configuration on a port with the same channels and told the range blinking of the first,
are both started at one finite time. From then on, whatever is done to both, they write the same
levels to the driver light and the strip, report the same changes of mode, request and message, and
end in the same mode with the same request. -/
theorem start_forgets (config : Config) (port port' : Equipment)
    (hport : port'.channels = port.channels) (past : List Operation) (now : Binary64)
    (hnow : now.isFinite) (ops : List Operation) :
    let old := (history config (.ok port) past).1
    let fresh := (setRangeBlinking old.context.rangeBlinkEnabled (new config (.ok port')).1).1
    let a := run ops (start now old).1
    let b := run ops (start now fresh).1
    Effect.machineLevels a.2 = Effect.machineLevels b.2 ∧
      Effect.machineEvents a.2 = Effect.machineEvents b.2 ∧
      a.1.mode = b.1.mode ∧ a.1.wanted = b.1.wanted := by
  intro old fresh a b
  have hfresh : fresh =
      (history config (.ok port') [.setRangeBlinking old.context.rangeBlinkEnabled]).1 := rfl
  have hold : Started port now old (start now old).1 := started_history config port past hnow
  have hnew : Started port' now fresh (start now fresh).1 :=
    hfresh ▸ started_history config port' _ hnow
  have hsettings : fresh.context.settings = old.context.settings := by
    rw [hfresh, settings_history, settings_history]
  have hrange : fresh.context.rangeBlinkEnabled = old.context.rangeBlinkEnabled := by
    have hi : (new config (.ok port')).1.isInitialized := isInitialized_history config port' []
    exact congrArg (fun core => core.2.rangeBlinkEnabled) (core_step (.setRangeBlinking _) hi)
  have halike : (start now old).1.Alike (start now fresh).1 :=
    hold.alike hnew hport hsettings hrange
  obtain ⟨hshown, hend⟩ := actAlike_run ops _ _ halike
  refine ⟨?_, ?_, hend.mode_eq.symm, hend.wanted_eq.symm⟩
  · rw [← Effect.levels_ofMachine, ← Effect.levels_ofMachine, hshown]
  · rw [← Effect.events_ofMachine, ← Effect.events_ofMachine, hshown]

/-- A warning shown at a cadence set meanwhile, without range blinking, and the lamp left on. -/
def strayPast : List Operation :=
  [.setRangeBlinking false, .warn "low", .loop .zero, .configureBlink 9 (.ofNat 7), .setLamp true,
    .setStatus .red, .loop (.ofNat 1)]

/-- A blink run and a warning, each seen through two ticks. -/
def common : List Operation :=
  [.want .blink, .loop (.ofNat 2), .loop (.ofNat 2), .loop (.ofNat 9), .handle (.warn "hot"),
    .loop (.ofNat 9), .loop (.ofNat 9)]

theorem start_forgets_strayPast :
    let old := (history .standard (.ok ⟨.all true, true⟩) strayPast).1
    let fresh :=
      (setRangeBlinking old.context.rangeBlinkEnabled (new .standard (.ok ⟨.all true, false⟩)).1).1
    let a := run common (start (.ofNat 1) old).1
    let b := run common (start (.ofNat 1) fresh).1
    old.activeCadence ≠ fresh.activeCadence ∧ old.isLit .lamp ≠ fresh.isLit .lamp ∧
      Effect.machineLevels a.2 =
        [(.driver, true), (.strip, true), (.driver, false), (.strip, false), (.driver, true)] ∧
      Effect.machineLevels a.2 = Effect.machineLevels b.2 ∧
      Effect.machineEvents a.2 = Effect.machineEvents b.2 ∧ a.1.mode = b.1.mode ∧
      a.1.wanted = b.1.wanted := by
  have h := start_forgets .standard ⟨.all true, true⟩ ⟨.all true, false⟩ rfl strayPast (.ofNat 1)
    (by decide +kernel) common
  exact ⟨by decide +kernel, by decide +kernel, by decide +kernel, h⟩

end Controller
end SignalLights
