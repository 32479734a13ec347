import Mathlib.Data.List.Infix
import SignalLights.Proofs.Controller.Ticks

/-!
# When a run counts from

The time of a run counts from the tick that entered it, if that tick came at a finite time. A tick
without one is taken to come at the moment the mode before was entered, so the run counts from
there: the longer the mode before has lasted, the sooner the run is over. Where times do not go
back, that is the only way in which a run is cut short (`run_lasts_iff`).
-/

namespace SignalLights

namespace Operation

/-- The time that a start or a tick comes at. -/
def time? : Operation → Option Binary64
  | start now | loop now => some now
  | _ => none

/-- The finite times of the starts and ticks, in order. -/
def finiteTimes (ops : List Operation) : List Binary64 := (ops.filterMap time?).filter (·.isFinite)

/-- The finite times of starts and ticks never go back. -/
def InOrder (ops : List Operation) : Prop := (finiteTimes ops).Pairwise (· ≤ ·)

instance (ops : List Operation) : Decidable (InOrder ops) :=
  inferInstanceAs (Decidable (List.Pairwise _ _))

/-- The largest finite time of the starts and ticks. -/
def IsLatest (latest : Binary64) (ops : List Operation) : Prop :=
  latest ∈ finiteTimes ops ∧ ∀ t ∈ finiteTimes ops, t ≤ latest

instance (latest : Binary64) (ops : List Operation) : Decidable (IsLatest latest ops) :=
  inferInstanceAs (Decidable (_ ∧ _))

variable {before : List Operation} {entry latest : Binary64}

theorem IsLatest.isFinite {ops : List Operation} (h : IsLatest latest ops) : latest.isFinite :=
  (List.mem_filter.1 h.1).2

/-- Where times do not go back, none is later than a finite time that came last. -/
theorem IsLatest.le_entry (hentry : entry.isFinite) (horder : InOrder (before ++ [loop entry]))
    (h : IsLatest latest (before ++ [loop entry])) : latest ≤ entry := by
  have hsplit : finiteTimes (before ++ [loop entry]) = finiteTimes before ++ [entry] := by
    simp [finiteTimes, time?, List.filterMap_append, hentry]
  rw [InOrder, hsplit, List.pairwise_append] at horder
  have hmem := h.1
  rw [hsplit, List.mem_append, List.mem_singleton] at hmem
  rcases hmem with hbefore | rfl
  · exact horder.2.2 latest hbefore entry List.mem_cons_self
  · exact Binary64.le_refl_of_isFinite hentry

end Operation

namespace Controller

open Operation (InOrder IsLatest)

variable {c : Controller}

/-- A tick that enters another mode sets its clock to the time the machine goes by. -/
theorem since_loop (hi : c.isInitialized) {entry : Binary64} (h : (loop entry c).1.mode ≠ c.mode) :
    (loop entry c).1.machine.since = c.machine.timeOf entry := by
  have hmachine : (loop entry c).1.machine =
      (c.machine.tick Row.standard c.context entry).machine :=
    congrArg Prod.fst (core_step (.loop entry) hi)
  rcases c.machine.tick_cases c.context entry with ⟨-, hsame⟩ | ⟨next, -, -, hnext⟩
  · exact absurd (congrArg Machine.mode (hmachine.trans hsame)) h
  · rw [hmachine, hnext]

/-- An operation that sets no cadence and leaves a blink run blinking leaves it the same run. -/
theorem Reachable.sameRun_of_blinking (hc : c.Reachable) (hi : c.isInitialized)
    (hm : c.mode = .blinking) {op : Operation} (hop : op.configures = false)
    (hm' : (op.step c).1.mode = .blinking) : c.SameRun (op.step c).1 := by
  have hstarts : op.starts = false := by
    have hmode := mode_step op hi
    rw [hm', Operation.advance.eq_def] at hmode
    unfold Operation.starts
    cases hq : op.plain with
    | start now => simp [core, hq, Machine.reset] at hmode
    | _ => rfl
  refine hc.sameRun_step hi hm (by simp [Operation.sparesRun, hop, hstarts]) ?_
  rintro now rfl hover
  cases hm'.symm.trans (hc.loop_overdue hi hm hover).1

/-- What holds of one operation holds of a stay: as long as it lasts it is the same run. -/
theorem Reachable.sameRun_of_stays (hc : c.Reachable) (hi : c.isInitialized)
    (hm : c.mode = .blinking) {ops : List Operation} (hops : ∀ op ∈ ops, op.configures = false)
    (hstays : ∀ part, part <+: ops → (Controller.run part c).1.mode = .blinking) :
    c.SameRun (Controller.run ops c).1 := by
  induction ops generalizing c with
  | nil => exact .refl hm
  | cons op ops ih =>
    have hm' : (op.step c).1.mode = .blinking := hstays [op] ⟨ops, rfl⟩
    have hfirst := hc.sameRun_of_blinking hi hm (hops op List.mem_cons_self) hm'
    refine hfirst.trans (ih (hc.step op) ((isInitialized_step op c).trans hi) hm' ?_ ?_)
    · exact fun later hlater => hops later (List.mem_cons_of_mem _ hlater)
    · exact fun part hpart => hstays (op :: part) (List.cons_prefix_cons.2 ⟨rfl, hpart⟩)

/-- **When a run is cut short.** Times have not gone back, a tick enters a blink run, and the run
goes on through operations that set no cadence. A tick no later than the length of the run after the
largest time so far leaves it running, unless the run was entered without a finite time and the tick
comes too late for a run that began with the mode before. -/
theorem run_lasts_iff (config : Config) (hardware : Except Fault Equipment)
    (before after : List Operation) (entry now latest : Binary64) :
    let c := (history config hardware before).1
    let d := (loop entry c).1
    c.mode ≠ .blinking → d.mode = .blinking →
    InOrder (before ++ [.loop entry]) → IsLatest latest (before ++ [.loop entry]) →
    (∀ op ∈ after, op.configures = false) →
    (∀ part, part <+: after → (run part d).1.mode = .blinking) →
    now.isFinite → ¬ d.activeCadence.total < now - latest →
    ((loop now (run after d).1).1.mode = .blinking ↔
      entry.isFinite ∨ ¬ d.activeCadence.total + tolerance < now - c.machine.since) := by
  intro c d hbefore hentered horder hlatest hafter hstays hnow hwithin
  have hc : c.Reachable := ⟨config, hardware, before, rfl⟩
  have hd : d.Reachable := hc.step (.loop entry)
  have hi : c.isInitialized := by
    by_contra hnot
    have hinert : loop entry c = (c, []) := step_inert (.loop entry) (Bool.eq_false_iff.2 hnot)
    exact hbefore ((congrArg (fun r => mode r.1) hinert).symm.trans hentered)
  have hdi : d.isInitialized := (isInitialized_step (.loop entry) c).trans hi
  have hsince : d.machine.since = c.machine.timeOf entry :=
    since_loop hi fun hsame => hbefore (hsame.symm.trans hentered)
  have hrun : d.SameRun (run after d).1 := hd.sameRun_of_stays hdi hentered hafter hstays
  have hlasts : (loop now (run after d).1).1.mode = .blinking ↔ ¬ d.IsOverdue now := by
    rw [← hrun.isOverdue_iff now]
    have hei : (run after d).1.isInitialized := (isInitialized_run after d).trans hdi
    constructor
    · intro hmode hover
      cases hmode.symm.trans ((hd.run after).loop_overdue hei hrun.1 hover).1
    · intro hover
      have hspares : (Operation.loop now).sparesRun := rfl
      refine ((hd.run after).sameRun_step hei hrun.1 hspares ?_).1
      rintro _ ⟨⟩
      exact hover
  rw [hlasts, isOverdue_iff_of_isFinite hnow, hsince]
  cases hentry : entry.isFinite with
  | false => simp [Machine.timeOf, hentry]
  | true =>
    refine iff_of_true ?_ (.inl rfl)
    rw [Machine.timeOf, if_pos hentry]
    intro hover
    have hle : now - entry ≤ now - latest :=
      Binary64.sub_le_sub_left hnow hlatest.isFinite hentry
        (IsLatest.le_entry hentry horder hlatest)
    exact hwithin (Binary64.lt_of_le_of_lt d.activeCadence.total_le_total_add_tolerance
      (Binary64.lt_of_lt_of_le hover hle))

def hundred : Binary64 := .ofNat 100

/-- Off since the start, until a request to blink comes after a hundred seconds. -/
def longOff : List Operation := [.start .zero, .loop hundred, .want .blink]

/-- A request for steady light, a tick without a time, and the lamp. -/
def midRun : List Operation := [.want .fixedOn, .loop .nan, .setLamp true]

theorem run_lasts_longOff :
    let d := (loop hundred (history .standard (.ok ⟨.all true, true⟩) longOff).1).1
    d.mode = .blinking ∧ (loop hundred (run midRun d).1).1.mode = .blinking := by
  intro d
  have hentered : d.mode = .blinking := by decide +kernel
  have hstays : ∀ part ∈ midRun.inits, (run part d).1.mode = .blinking := by decide +kernel
  have h := run_lasts_iff .standard (.ok ⟨.all true, true⟩) longOff midRun hundred hundred hundred
    (by decide +kernel) hentered (by decide +kernel) (by decide +kernel) (by decide)
    (fun part hpart => hstays part ((List.mem_inits _ _).2 hpart)) (by decide +kernel)
    (by decide +kernel)
  exact ⟨hentered, h.2 (.inl (by decide +kernel))⟩

/-- Entered by a tick without a time, the run is over at once: it counts from the start of the mode
before, a hundred seconds ago. -/
theorem timeless_entry_cuts_run :
    let c := (history .standard (.ok ⟨.all true, true⟩) longOff).1
    let d := (loop .nan c).1
    c.mode = .off ∧ d.mode = .blinking ∧ InOrder (longOff ++ [.loop .nan, .loop hundred]) ∧
      IsLatest hundred (longOff ++ [.loop .nan]) ∧
      ¬ d.activeCadence.total < hundred - hundred ∧ (loop hundred d).1.mode = .off :=
  ⟨by decide +kernel, by decide +kernel, by decide +kernel, by decide +kernel, by decide +kernel,
    by decide +kernel⟩

end Controller
end SignalLights
