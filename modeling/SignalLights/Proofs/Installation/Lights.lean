import SignalLights.Proofs.Controller.Lights
import SignalLights.Proofs.Installation.Delivery
import SignalLights.Proofs.Scheduler.Phases

/-!
# Lights under a scheduler

Controllers that nobody but their scheduler starts, ticks and stops light the driver light and the
strip only while it runs, and are dark from its stop on (`lit_only_while_running`). A stop resets no
machine: what keeps the lights out is that no tick follows, though a start may.
-/

namespace SignalLights

/-- What a scheduler calls a controller for. -/
def Operation.isLifecycle : Operation → Bool
  | start _ | loop _ | stop _ => true
  | _ => false

theorem Hook.eq_loop_of_operation {hook : Hook} {time now : Binary64}
    (h : hook.operation time = .loop now) : hook = .loop := by
  cases hook with
  | loop => rfl
  | start | stop => cases h

namespace Installation

/-- An action that starts, ticks or stops no controller past the scheduler. -/
def Action.leavesLifecycle : Action → Bool
  | .perform _ op => !op.isLifecycle
  | _ => true

variable {s : Installation} {i : Nat} {a : Action}

/-! ## Ticks come from the scheduler -/

/-- An action that does not start, tick or stop one controller past the scheduler. -/
def Action.leavesLifecycleOf (i : Nat) (a : Action) : Bool :=
  (a.direct i).all fun op => !op.isLifecycle

theorem Action.isLifecycle_of_mem_direct (ha : a.leavesLifecycleOf i) {op : Operation}
    (hop : op ∈ a.direct i) : op.isLifecycle = false := by
  simpa using List.all_eq_true.1 ha op hop

theorem Action.leavesLifecycleOf_of (ha : a.leavesLifecycle) (i : Nat) : a.leavesLifecycleOf i := by
  cases a with
  | perform j op =>
    have hop : (!op.isLifecycle) = true := ha
    by_cases hj : j = i <;> simp [leavesLifecycleOf, direct, hj, hop]
  | _ => rfl

theorem Action.loop_notMem_direct (ha : a.leavesLifecycleOf i) (now : Binary64) :
    .loop now ∉ a.direct i := by
  intro h
  cases isLifecycle_of_mem_direct ha h

/-- A controller is ticked only by a tick of a scheduler that runs. -/
theorem isRunning_of_loop {now : Binary64} (ha : a.leavesLifecycleOf i)
    (h : .loop now ∈ s.sent i a) : (∃ t, a = .tick t) ∧ s.scheduler.isRunning := by
  have hcalls := (List.mem_append.1 h).resolve_left (Action.loop_notMem_direct ha now)
  obtain ⟨call, hcall, hop⟩ := List.mem_filterMap.1 hcalls
  split at hop
  · have hhook := Hook.eq_loop_of_operation (Option.some.inj hop)
    unfold calls at hcall
    cases hb : s.asks a with
    | none =>
      rw [hb] at hcall
      cases hcall
    | some b =>
      rw [hb] at hcall
      obtain ⟨⟨t, rfl⟩, hr⟩ := Scheduler.isRunning_of_loop hcall hhook
      exact ⟨⟨t, eq_of_asks hb⟩, hr⟩
  · cases hop

theorem stopped_act (h : s.scheduler.stopped) (a : Action) :
    (s.act a).installation.scheduler.stopped := by
  rw [scheduler_act]
  split
  · exact h
  · exact Scheduler.stopped_act h _

/-- Under a scheduler that was stopped no controller is ticked any more. -/
theorem loop_notMem_received (h : s.scheduler.stopped) {actions : List Action}
    (hactions : ∀ a ∈ actions, a.leavesLifecycle) (now : Binary64) :
    .loop now ∉ received i actions s := by
  induction actions generalizing s with
  | nil => exact List.not_mem_nil
  | cons a actions ih =>
    rw [received, List.mem_append]
    rintro (hnow | hlater)
    · have ha := Action.leavesLifecycleOf_of (hactions a List.mem_cons_self) i
      have hr := (isRunning_of_loop ha hnow).2
      simp [Scheduler.isRunning, h] at hr
    · exact ih (stopped_act h a) (fun b hb => hactions b (List.mem_cons_of_mem a hb)) hlater

/-- The first stop reaches a controller once for every slot it holds. -/
theorem act_stop (h : s.scheduler.stopped = false) (t : Binary64) :
    (s.act (.stop t)).installation.scheduler.stopped ∧
      s.sent i (.stop t) =
        .replicate (s.scheduler.slots.count (.controller i)) (.stop (s.scheduler.clock t)) := by
  constructor
  · rw [scheduler_act]
    simp [asks, Scheduler.act, Scheduler.stop, h]
  · have hcalls : s.calls (.stop t) = s.scheduler.callAll .stop (s.scheduler.clock t) := by
      simp [calls, asks, Scheduler.act, Scheduler.stop, h]
    rw [sent, hcalls]
    exact addressed_callAll i s.scheduler .stop _

/-! ## Light and dark -/

variable {c : Controller} {ch : Channel}

theorem tick_of_lit (ha : a.leavesLifecycle) (hch : ch ≠ .lamp)
    (h : .effect i (.level ch true) ∈ (s.act a).occurrences) :
    (∃ t, a = .tick t) ∧ s.scheduler.isRunning := by
  have hlit := mem_effectsOn_iff.2 h
  rw [(meets_act i s a).effects] at hlit
  cases hget : s.controllers[i]? with
  | none =>
    rw [hget] at hlit
    cases hlit
  | some c =>
    rw [hget] at hlit
    obtain ⟨now, hnow⟩ := Controller.exists_loop_of_lit hch hlit
    exact isRunning_of_loop (Action.leavesLifecycleOf_of ha i) hnow

/-- After a stop a controller of the scheduler is dark, and its driver light and strip stay so. -/
theorem dark_since_stop (hget : s.controllers[i]? = some c) (hc : c.Reachable)
    (hslot : .controller i ∈ s.scheduler.slots) (h : s.scheduler.stopped = false) (t : Binary64) :
    let stopped := (s.act (.stop t)).installation
    (∃ d, stopped.controllers[i]? = some d ∧ ∀ ch, d.isLit ch = false) ∧
      ∀ later : List Action, (∀ a ∈ later, a.leavesLifecycle) →
        ∃ d, (run later stopped).1.controllers[i]? = some d ∧
          d.isLit .driver = false ∧ d.isLit .strip = false := by
  intro stopped
  obtain ⟨hstopped, hsent⟩ := act_stop (i := i) h t
  have hcount : 0 < s.scheduler.slots.count (.controller i) := List.count_pos_iff.2 hslot
  have hget' := controllers_act i s (.stop t)
  rw [hget, hsent, Option.map_some] at hget'
  have hdark := hc.dark_stops hcount (s.scheduler.clock t)
  refine ⟨⟨_, hget', hdark⟩, fun later hlater => ?_⟩
  -- a start may follow, but no tick, and nothing else lights a light again
  have hend := controllers_run i later stopped
  rw [hget', Option.map_some] at hend
  have hkeeps {ch : Channel} (hch : ch ≠ .lamp) :=
    (hc.run _).dark_run hch (hdark ch) (loop_notMem_received (i := i) hstopped hlater)
  exact ⟨_, hend, hkeeps (by decide), hkeeps (by decide)⟩

/-- **The lights belong to the scheduler.** Construction lights nothing. Whatever was done to an
installation, an action that leaves the lifecycle to the scheduler turns on a driver light or a
strip only as a tick of a running scheduler. The stop that takes effect leaves the controllers in
its slots with every light dark, and as long as the lifecycle is left to the scheduler, their driver
lights and strips stay dark. -/
theorem lit_only_while_running {controllers : List Controller}
    (hc : ∀ c ∈ controllers, c.Reachable) (actions : List Action) :
    let s := (run actions (initial controllers)).1
    (∀ config hardware ch, .level ch true ∉ (Controller.new config hardware).2) ∧
      (∀ a : Action, a.leavesLifecycle → ∀ i ch, ch ≠ .lamp →
        .effect i (.level ch true) ∈ (s.act a).occurrences →
          (∃ t, a = .tick t) ∧ s.scheduler.isRunning) ∧
      ∀ t, s.scheduler.stopped = false →
        ∀ i c, s.controllers[i]? = some c → .controller i ∈ s.scheduler.slots →
          let stopped := (s.act (.stop t)).installation
          (∃ d, stopped.controllers[i]? = some d ∧ ∀ ch, d.isLit ch = false) ∧
            ∀ later : List Action, (∀ a ∈ later, a.leavesLifecycle) →
              ∃ d, (run later stopped).1.controllers[i]? = some d ∧
                d.isLit .driver = false ∧ d.isLit .strip = false := by
  intro s
  refine ⟨fun config hardware ch => Controller.not_lit_new config hardware, ?_, ?_⟩
  · exact fun a ha i ch hch hlit => tick_of_lit ha hch hlit
  · intro t hrunning i c hget hslot
    exact dark_since_stop hget (reachable_run hc hget) hslot hrunning t

/-- A board in the first slot, its lamp on, at the first tick of steady light. -/
def steadying : List Action :=
  [.registerEnabled 0, .start .zero, .perform 0 (.setLamp true), .perform 0 (.want .fixedOn),
    .tick .zero]

/-- A start after the stop, a request, ticks, and another stop. -/
def afterStop : List Action :=
  [.start (.ofNat 3), .perform 0 (.want .blink), .tick (.ofNat 4), .stop (.ofNat 5),
    .tick (.ofNat 6)]

/-- One board with every output after a list of actions. -/
def boardAfter (actions : List Action) : Installation :=
  (run actions (initial [(Controller.history .standard (.ok ⟨.all true, true⟩) []).1])).1

theorem lit_only_while_running_steady :
    let lit := boardAfter (steadying ++ [.tick (.ofNat 1)])
    let stopped := (lit.act (.stop (.ofNat 2))).installation
    (boardAfter steadying).scheduler.isRunning ∧
      (∃ c, lit.controllers[0]? = some c ∧ c.isLit .driver ∧ c.isLit .lamp) ∧
      (∃ d, stopped.controllers[0]? = some d ∧ ∀ ch, d.isLit ch = false) ∧
      ∃ d, (run afterStop stopped).1.controllers[0]? = some d ∧
        d.isLit .driver = false ∧ d.isLit .strip = false := by
  have hboard : ∀ c ∈ [(Controller.history .standard (.ok ⟨.all true, true⟩) []).1],
      c.Reachable := fun c hc => ⟨_, _, _, List.mem_singleton.1 hc⟩
  obtain ⟨-, hticks, -⟩ := lit_only_while_running hboard steadying
  obtain ⟨-, hrunning⟩ := hticks (.tick (.ofNat 1)) rfl 0 .driver (by decide) (by decide +kernel)
  obtain ⟨-, -, hstops⟩ := lit_only_while_running hboard (steadying ++ [.tick (.ofNat 1)])
  have hlit : ∃ c ∈ (boardAfter (steadying ++ [.tick (.ofNat 1)])).controllers[0]?,
      c.isLit .driver ∧ c.isLit .lamp := by
    decide +kernel
  obtain ⟨c, hget, hshows⟩ := hlit
  obtain ⟨hdark, hlater⟩ :=
    hstops (.ofNat 2) (by decide +kernel) 0 c hget (by decide +kernel)
  exact ⟨hrunning, ⟨c, hget, hshows⟩, hdark, hlater afterStop (by decide)⟩

end Installation
end SignalLights
