import SignalLights.Proofs.Installation.Delivery

/-!
# Controllers without hardware

A controller whose outputs could not be acquired says so once, when it is built. From then on it
stays as it was built and does nothing, whatever is asked of it, and no scheduler takes it up
(`inert_history`). The same goes for it in an installation (`inert_run`).
-/

namespace SignalLights

namespace Controller

/-- Construction without hardware leaves the outputs alone, and one event tells of it. -/
theorem new_error (config : Config) (f : Fault) :
    (new config (.error f)).1 = initial .onChange config none ∧
      Effect.levels (new config (.error f)).2 = [] ∧
      Effect.frames (new config (.error f)).2 = [] ∧
      Effect.events (new config (.error f)).2 = [.initialized false] := by
  have heffects : (new config (.error f)).2 =
      (rejection config ++ .hardwareUnavailable f :: config.blinkNotices).map .notice ++
        [.event (.initialized false)] := by
    simp [new, build]
  rw [heffects]
  refine ⟨rfl, ?_, ?_, ?_⟩
  · rw [Effect.levels_append, Effect.levels_notices]
    rfl
  · rw [Effect.frames_append, Effect.frames_notices]
    rfl
  · rw [Effect.events_append, Effect.events_notices]
    rfl

/-- Before its first write a controller without hardware shows nothing. -/
theorem snapshot_initial (policy : WritePolicy) (config : Config) :
    (initial policy config none).snapshot = .blank := rfl

end Controller

namespace Installation

variable {s : Installation} {i : Nat} {c : Controller}

/-- A controller without hardware is not registered, and its scheduler stays as it is. -/
theorem registerEnabled_inert (hget : s.controllers[i]? = some c) (h : c.isInitialized = false) :
    s.act (.registerEnabled i) = ⟨s, none, [.notice .loopSkipped]⟩ := by
  have henabled : s.isEnabled i = false := by rwa [isEnabled, hget]
  rw [act, henabled, if_neg Bool.false_ne_true]

/-- Whatever is done to an installation, a controller without hardware stays as it is, and nothing
happens to it. -/
theorem inert_run (hget : s.controllers[i]? = some c) (h : c.isInitialized = false)
    (actions : List Action) :
    (run actions s).1.controllers[i]? = some c ∧ effectsOn i (run actions s).2 = [] := by
  obtain ⟨hcontrollers, heffects⟩ := meets_run i actions s
  rw [hget, Option.map_some, Controller.run_inert _ h] at hcontrollers
  rw [hget, Option.elim_some, Controller.run_inert _ h] at heffects
  exact ⟨hcontrollers, heffects⟩

end Installation

namespace Controller

/-- **A controller without hardware is inert.** Whatever it is asked, it writes nothing, tells one
event, that it is not initialized, and all that it holds stays as constructed. No installation that
has it gives it a slot, or changes its scheduler on being asked to. -/
theorem inert_history (config : Config) (f : Fault) (ops : List Operation) :
    let r := history config (.error f) ops
    r.1 = (new config (.error f)).1 ∧
      Effect.levels r.2 = [] ∧ Effect.frames r.2 = [] ∧ Effect.events r.2 = [.initialized false] ∧
      r.1.snapshot = .blank ∧ r.1.latches = .blank ∧
      r.1.selectedCadence = config.blink ∧ r.1.activeCadence = config.blink ∧
      ∀ (s : Installation) (i : Nat), s.controllers[i]? = some r.1 →
        (s.act (.registerEnabled i)).installation = s ∧
          (s.act (.registerEnabled i)).slot = none := by
  intro r
  obtain ⟨hnew, hlevels, hframes, hevents⟩ := new_error config f
  have hr : r = new config (.error f) := by
    simp only [r, history, run_inert ops (c := (new config (.error f)).1) rfl, List.append_nil]
  rw [hr, hnew]
  refine ⟨rfl, hlevels, hframes, hevents, snapshot_initial _ config, rfl, rfl, rfl, ?_⟩
  intro s i hget
  rw [Installation.registerEnabled_inert hget rfl]
  exact ⟨rfl, rfl⟩

/-- A board whose serial line could not be set up, after a start, requests and ticks. -/
def unwired : Controller :=
  (history .standard (.error (.acquisition (.uartConfig (-1))))
    [.start .zero, .want .fixedOn, .warn "ignored", .setStatus .red, .setLamp true,
      .configureBlink 1 .half, .loop .zero, .publish, .stop (.ofNat 1)]).1

theorem inert_history_unwired :
    unwired.snapshot = .blank ∧
      ((Installation.initial [unwired]).act (.registerEnabled 0)).installation =
        Installation.initial [unwired] ∧
      ((Installation.initial [unwired]).act (.registerEnabled 0)).slot = none := by
  obtain ⟨-, -, -, -, hsnapshot, -, -, -, hregister⟩ :=
    inert_history .standard (.acquisition (.uartConfig (-1)))
      [.start .zero, .want .fixedOn, .warn "ignored", .setStatus .red, .setLamp true,
        .configureBlink 1 .half, .loop .zero, .publish, .stop (.ofNat 1)]
  exact ⟨hsnapshot, hregister (Installation.initial [unwired]) 0 rfl⟩

end Controller
end SignalLights
