import SignalLights.Proofs.Controller.Reachable

/-!
# The law of a blink run

A blink run ends only by its own timeout. Until a tick comes later than the length of the run, no
request and no other operation moves its mode, its cadence or its start; the first tick that does
goes to off, clears the request made meanwhile and leaves both lights off. Only setting a cadence
and starting afresh are left out: they are meant to change a run.
-/

namespace SignalLights

namespace Operation

/-- Whether an operation sets a cadence, by itself or as a command. -/
def configures (op : Operation) : Bool :=
  match op.plain with
  | configureBlink _ _ => true
  | _ => false

/-- Whether an operation starts the controller afresh. -/
def starts (op : Operation) : Bool :=
  match op.plain with
  | start _ => true
  | _ => false

/-- Whether an operation leaves a blink run to its timeout. -/
def sparesRun (op : Operation) : Bool := !op.configures && !op.starts

end Operation

namespace Machine

variable {m : Machine} {c : Context} {now : Binary64}

theorem tick_blinking (hm : m.mode = .blinking)
    (h : c.active.isExpired (m.timeOf now - m.since) = false) :
    (m.tick Row.standard c now).machine = m ∧
      (m.tick Row.standard c now).context.active = c.active := by
  simp [tick, hm, Row.standard, Row.blinking, begin, h]

theorem isOver_of_blinking (hm : m.mode = .blinking)
    (h : c.active.isExpired (m.timeOf now - m.since) = true) : m.isOver c now := by
  rw [isOver, hm, h]
  rfl

end Machine

/-- In a blink run only an expiring tick moves the machine or the active cadence. -/
theorem Operation.advance_blinking {op : Operation} {m : Machine} {c : Context}
    (hop : op.sparesRun) (hm : m.mode = .blinking)
    (h : ∀ now, op = .loop now → c.active.isExpired (m.timeOf now - m.since) = false) :
    (op.advance (m, c)).1 = m ∧ (op.advance (m, c)).2.active = c.active := by
  have hplain : ∀ now, op.plain = .loop now → op = .loop now := fun _ => plain_eq_loop_iff.1
  simp only [sparesRun, configures, starts, Bool.and_eq_true, Bool.not_eq_true'] at hop
  unfold Operation.advance
  generalize op.plain = q at hop hplain
  cases q with
  | start => exact absurd hop.2 (by simp)
  | configureBlink => exact absurd hop.1 (by simp)
  | loop now => exact Machine.tick_blinking hm (h now (hplain now rfl))
  | want | warn => exact ⟨rfl, Context.active_request _ _⟩
  | _ => exact ⟨rfl, rfl⟩

namespace Controller

variable {c : Controller}

/-- A tick at `now` finds more seconds gone by than a run of the active cadence has. -/
def IsOverdue (c : Controller) (now : Binary64) : Prop :=
  c.activeCadence.total + tolerance < Machine.elapsedAt c.machine.since now

instance (c : Controller) (now : Binary64) : Decidable (c.IsOverdue now) :=
  inferInstanceAs (Decidable (_ < _))

theorem Reachable.isExpired_iff (hc : c.Reachable) (now : Binary64) :
    c.context.active.isExpired (c.machine.timeOf now - c.machine.since) = true ↔
      c.IsOverdue now := by
  rw [Machine.timeOf_sub_since hc.isFinite_since, Cadence.isExpired, decide_eq_true_eq]
  rfl

/-- Two states of one blink run. -/
def SameRun (c d : Controller) : Prop :=
  d.mode = .blinking ∧ d.activeCadence = c.activeCadence ∧ d.machine.since = c.machine.since

theorem SameRun.refl (hm : c.mode = .blinking) : c.SameRun c := ⟨hm, rfl, rfl⟩

theorem SameRun.trans {d e : Controller} (h : c.SameRun d) (h' : d.SameRun e) : c.SameRun e :=
  ⟨h'.1, h'.2.1.trans h.2.1, h'.2.2.trans h.2.2⟩

theorem SameRun.isOverdue_iff {d : Controller} (h : c.SameRun d) (now : Binary64) :
    d.IsOverdue now ↔ c.IsOverdue now := by
  rw [IsOverdue, IsOverdue, h.2.1, h.2.2]

/-- One operation: a run goes on unless an overdue tick ends it. -/
theorem Reachable.sameRun_step (hc : c.Reachable) (hi : c.isInitialized) (hm : c.mode = .blinking)
    {op : Operation} (hop : op.sparesRun) (h : ∀ now, op = .loop now → ¬ c.IsOverdue now) :
    c.SameRun (op.step c).1 := by
  have hcore := core_step op hi
  have hadv := Operation.advance_blinking hop hm (c := c.context) (by
    intro now hnow
    have := (hc.isExpired_iff now).not.2 (h now hnow)
    exact Bool.eq_false_iff.2 this)
  have hmachine : (op.step c).1.machine = c.machine :=
    (congrArg Prod.fst hcore).trans hadv.1
  have hactive : (op.step c).1.activeCadence = c.activeCadence :=
    (congrArg (fun core => core.2.active) hcore).trans hadv.2
  exact ⟨(congrArg Machine.mode hmachine).trans hm, hactive, congrArg Machine.since hmachine⟩

/-- Any number of operations: a run goes on until an overdue tick. -/
theorem Reachable.sameRun_run (hc : c.Reachable) (hi : c.isInitialized) (hm : c.mode = .blinking)
    {ops : List Operation} (hops : ∀ op ∈ ops, op.sparesRun)
    (h : ∀ now, .loop now ∈ ops → ¬ c.IsOverdue now) : c.SameRun (Controller.run ops c).1 := by
  induction ops generalizing c with
  | nil => exact .refl hm
  | cons op ops ih =>
    have hstep := hc.sameRun_step hi hm (hops op List.mem_cons_self)
      (fun now hnow => h now (hnow ▸ List.mem_cons_self))
    have hrest := ih (hc.step op) ((isInitialized_step op c).trans hi) hstep.1
      (fun op' hop' => hops op' (List.mem_cons_of_mem _ hop'))
      (fun now hnow => (hstep.isOverdue_iff now).not.2 (h now (List.mem_cons_of_mem _ hnow)))
    exact hstep.trans hrest

/-- The tick that ends a run. -/
theorem Reachable.loop_overdue (hc : c.Reachable) (hi : c.isInitialized) (hm : c.mode = .blinking)
    {now : Binary64} (h : c.IsOverdue now) :
    (loop now c).1.mode = .off ∧ (loop now c).1.wanted = .off ∧
      (loop now c).1.isLit .driver = false ∧ (loop now c).1.isLit .strip = false := by
  exact hc.loop_over hi (Machine.isOver_of_blinking hm ((hc.isExpired_iff now).2 h))

/-- **The law of a blink run.** Operations that spare the run, with no overdue tick among them,
leave it as it was; then a tick that is not overdue leaves it, too, and one that is ends it in off,
with the request cleared and both lights off. -/
theorem blinking_until_overdue (hc : c.Reachable) (hi : c.isInitialized) (hm : c.mode = .blinking)
    {ops : List Operation} (hops : ∀ op ∈ ops, op.sparesRun)
    (h : ∀ now, .loop now ∈ ops → ¬ c.IsOverdue now) (now : Binary64) :
    let d := (Controller.run ops c).1
    let e := (loop now d).1
    c.SameRun d ∧ (¬ c.IsOverdue now → c.SameRun e) ∧
      (c.IsOverdue now → e.mode = .off ∧ e.wanted = .off ∧
        e.isLit .driver = false ∧ e.isLit .strip = false) := by
  intro d e
  have hd : c.SameRun d := hc.sameRun_run hi hm hops h
  have hdr : d.Reachable := hc.run ops
  have hdi : d.isInitialized := (isInitialized_run ops c).trans hi
  refine ⟨hd, ?_, ?_⟩
  · intro hnow
    have hspares : (Operation.loop now).sparesRun := rfl
    have he : d.SameRun e := hdr.sameRun_step hdi hd.1 hspares (by
      rintro _ ⟨⟩
      exact (hd.isOverdue_iff now).not.2 hnow)
    exact hd.trans he
  · intro hnow
    exact hdr.loop_overdue hdi hd.1 ((hd.isOverdue_iff now).2 hnow)

/-- A board with every output, at the first tick of a blink run. -/
def atRunStart : Controller :=
  (history .standard (.ok ⟨.all true, true⟩) [.want .blink, .loop .zero]).1

/-- A request for steady light, a tick after 0.2 s, one without a time, and the lamp. -/
def duringRun : List Operation :=
  [.want .fixedOn, .loop Cadence.standardPeriod, .loop .nan, .handle (.setLamp true)]

theorem blinking_until_overdue_atRunStart :
    let e := (loop (.ofNat 1) (Controller.run duringRun atRunStart).1).1
    atRunStart.SameRun (Controller.run duringRun atRunStart).1 ∧ e.mode = .off ∧ e.wanted = .off ∧
      e.isLit .driver = false ∧ e.isLit .strip = false := by
  have hearly : ∀ now, .loop now ∈ duringRun → ¬ atRunStart.IsOverdue now := by
    intro now hnow
    simp only [duringRun, List.mem_cons, List.not_mem_nil, Operation.loop.injEq, reduceCtorEq,
      false_or, or_false] at hnow
    rcases hnow with rfl | rfl <;> decide +kernel
  have h := blinking_until_overdue ⟨_, _, _, rfl⟩ (by decide +kernel) (by decide +kernel)
    (by decide) hearly (.ofNat 1)
  exact ⟨h.1, h.2.2 (by decide +kernel)⟩

end Controller
end SignalLights
