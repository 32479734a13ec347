import SignalLights.Proofs.Cadence.Hurried
import SignalLights.Proofs.Controller.BlinkRun
import SignalLights.Proofs.Controller.Restart

/-!
# Which cadence a run has

The cadence selected is the one that the latest operation chose: one that was set, the base cadence
for a blink request, the base cadence hurried once for range finding and warnings. The active one is
what was selected when a mode that blinks was last entered or a cadence last set. So a run keeps its
cadence through the requests made meanwhile (`cadences_history`). Range finding and warnings last as
long as a blink request, unless their count or their period is held (`hurried_total_history`).
-/

namespace SignalLights

namespace Machine

section Tick

variable (m : Machine) (c : Context) (now : Binary64)

/-- A tick makes the selected cadence the active one on entry to a mode that blinks, and leaves the
cadences as they are otherwise. -/
theorem cadences_tick :
    let t := m.tick Row.standard c now
    t.context.selected = c.selected ∧
      t.context.active =
        if t.machine.mode ≠ m.mode ∧ t.machine.mode.blinks then c.selected else c.active := by
  have hupdate (k : Mode) (d : Context) :
      ((Row.standard k).update d).context.selected = d.selected ∧
        ((Row.standard k).update d).context.active = d.active := by
    rw [Row.update_standard]
    split <;> exact ⟨rfl, rfl⟩
  have henter (k : Mode) (d : Context) :
      (enter (Row.standard k) d).selected = d.selected ∧
        (enter (Row.standard k) d).active = if k.blinks then d.selected else d.active := by
    cases k <;> exact ⟨rfl, rfl⟩
  obtain ⟨hselected, hactive⟩ := hupdate m.mode (m.begin c now)
  simp only [tick, Row.mode_standard]
  split
  · simpa using ⟨hselected, hactive⟩
  · next hne =>
    obtain ⟨hselected', hactive'⟩ := henter _ _
    rw [hselected', hactive', hselected, hactive]
    simp only [ne_eq, hne, not_false_eq_true, true_and]
    exact ⟨rfl, rfl⟩

end Tick

end Machine

namespace Operation

/-- The cadence an operation chooses, where `base` is the one of a blink request. -/
def chooses (base : Cadence) (op : Operation) : Option Cadence :=
  match op.plain with
  | configureBlink count period => some (.clamp count period)
  | want .blink => some base
  | want .findRange | want .warn | warn _ => some base.hurried
  | _ => none

/-- The requests that hurry. -/
def hurries (op : Operation) : Bool :=
  match op.plain with
  | want .findRange | want .warn | warn _ => true
  | _ => false

theorem chooses_of_hurries {op : Operation} (hop : op.hurries) (base : Cadence) :
    op.chooses base = some base.hurried := by
  unfold hurries at hop
  unfold chooses
  split at hop
  · next h => rw [h]
  · next h => rw [h]
  · next h => rw [h]
  · cases hop

theorem selected_advance (op : Operation) (core : Machine × Context) :
    (op.advance core).2.selected = (op.chooses core.2.base).getD core.2.selected := by
  obtain ⟨m, c⟩ := core
  unfold advance chooses
  cases op.plain with
  | loop now => exact (m.cadences_tick c now).1
  | want w => cases w <;> rfl
  | _ => rfl

/-- Ticks apart, the active cadence changes only when one is set. -/
theorem active_advance {op : Operation} (hop : ∀ now, op ≠ loop now) (core : Machine × Context) :
    (op.advance core).2.active =
      if op.configures then (op.advance core).2.selected else core.2.active := by
  have hplain := plain_ne_loop hop
  obtain ⟨m, c⟩ := core
  unfold advance configures
  generalize op.plain = q at hplain
  cases q with
  | loop now => exact absurd rfl (hplain now)
  | want | warn => exact Context.active_request _ _
  | _ => rfl

end Operation

namespace Controller

variable {c : Controller}

/-- A tick that enters a mode that blinks. -/
def entersRun (c : Controller) : Operation → Bool
  | .loop now => (loop now c).1.mode != c.mode && (loop now c).1.mode.blinks
  | _ => false

/-- Entering such a mode makes the selected cadence the active one; so does setting a cadence. -/
def activates (c : Controller) (op : Operation) : Bool := c.entersRun op || op.configures

/-- The cadences that become active in a run, in order: what is selected each time a mode that
blinks is entered or a cadence is set. -/
def activated : List Operation → Controller → List Cadence
  | [], _ => []
  | op :: ops, c =>
    let rest := activated ops (op.step c).1
    if c.activates op then (op.step c).1.selectedCadence :: rest else rest

theorem base_step (op : Operation) (c : Controller) :
    (op.step c).1.context.base = c.context.base := congrArg Prod.fst (settings_step op c)

theorem selectedCadence_step (op : Operation) (hi : c.isInitialized) :
    (op.step c).1.selectedCadence = (op.chooses c.context.base).getD c.selectedCadence :=
  (congrArg (fun core => core.2.selected) (core_step op hi)).trans (op.selected_advance c.core)

theorem activates_loop_iff (now : Binary64) :
    c.activates (.loop now) ↔ (loop now c).1.mode ≠ c.mode ∧ (loop now c).1.mode.blinks := by
  simp [activates, entersRun, Operation.configures, Operation.plain]

theorem activates_of_ne_loop {op : Operation} (hop : ∀ now, op ≠ .loop now) :
    c.activates op = op.configures := by
  cases op with
  | loop now => exact absurd rfl (hop now)
  | _ => rfl

theorem activeCadence_step (op : Operation) (hi : c.isInitialized) :
    (op.step c).1.activeCadence =
      if c.activates op then (op.step c).1.selectedCadence else c.activeCadence := by
  have hactive : (op.step c).1.activeCadence = (op.advance c.core).2.active :=
    congrArg (fun core => core.2.active) (core_step op hi)
  have hselected : (op.step c).1.selectedCadence = (op.advance c.core).2.selected :=
    congrArg (fun core => core.2.selected) (core_step op hi)
  rw [hactive, hselected]
  rcases op.eq_loop_or with ⟨now, rfl⟩ | hop
  · obtain ⟨hkept, htick⟩ := c.machine.cadences_tick c.context now
    have hmode : (loop now c).1.mode = (c.machine.tick Row.standard c.context now).machine.mode :=
      mode_step (.loop now) hi
    simp only [activates_loop_iff, hmode]
    change _ = if _ then (c.machine.tick Row.standard c.context now).context.selected else _
    rw [hkept]
    exact htick
  · rw [activates_of_ne_loop hop]
    exact Operation.active_advance hop c.core

theorem selectedCadence_run (hi : c.isInitialized) (ops : List Operation) :
    (run ops c).1.selectedCadence =
      (ops.filterMap (·.chooses c.context.base)).getLast?.getD c.selectedCadence := by
  induction ops generalizing c with
  | nil => rfl
  | cons op ops ih =>
    have hi' : (op.step c).1.isInitialized := (isInitialized_step op c).trans hi
    rw [run_cons, ih hi', base_step, selectedCadence_step op hi, List.filterMap_cons]
    cases op.chooses c.context.base with
    | none => rfl
    | some cadence => simp [List.getLast?_cons]

theorem activeCadence_run (hi : c.isInitialized) (ops : List Operation) :
    (run ops c).1.activeCadence = (activated ops c).getLast?.getD c.activeCadence := by
  induction ops generalizing c with
  | nil => rfl
  | cons op ops ih =>
    have hi' : (op.step c).1.isInitialized := (isInitialized_step op c).trans hi
    rw [run_cons, ih hi', activeCadence_step op hi, activated]
    split
    · simp [List.getLast?_cons]
    · rfl

/-- **Which cadence a run has.** After any operations on a controller with hardware the base cadence
is the configured one, the selected cadence is the one chosen last, and the active cadence is what
was selected the last time it became active; each is the base cadence as long as there was none. So
another operation changes the selected cadence only by choosing one, and the active cadence only by
setting one or entering a mode that blinks. -/
theorem cadences_history (config : Config) (port : Equipment) (ops : List Operation) :
    let built := (new config (.ok port)).1
    let c := (history config (.ok port) ops).1
    c.context.base = config.blink ∧
      c.selectedCadence =
        (ops.filterMap (·.chooses config.blink)).getLast?.getD config.blink ∧
      c.activeCadence = (activated ops built).getLast?.getD config.blink ∧
      ∀ op : Operation,
        (op.step c).1.context.base = c.context.base ∧
        (op.step c).1.selectedCadence = (op.chooses config.blink).getD c.selectedCadence ∧
        (op.step c).1.activeCadence =
          if c.activates op then (op.step c).1.selectedCadence else c.activeCadence := by
  intro built c
  have hcontext : built.context = .ofConfig config :=
    congrArg Prod.snd (core_build .onChange config (.ok port))
  have hbuiltSelected : built.selectedCadence = config.blink :=
    congrArg Context.selected hcontext
  have hbuiltActive : built.activeCadence = config.blink := congrArg Context.active hcontext
  have hbuilt : built.isInitialized := isInitialized_history config port []
  have hi : c.isInitialized := isInitialized_history config port ops
  have hbase : c.context.base = config.blink :=
    congrArg Prod.fst (settings_history config (.ok port) ops)
  have hselected := selectedCadence_run hbuilt ops
  have hactive := activeCadence_run hbuilt ops
  rw [hcontext, hbuiltSelected] at hselected
  rw [hbuiltActive] at hactive
  refine ⟨hbase, hselected, hactive, fun op => ⟨base_step op c, ?_, activeCadence_step op hi⟩⟩
  rw [selectedCadence_step op hi, hbase]

/-! ## The length of a hurried run -/

theorem selectedCadence_of_hurries {op : Operation} (hop : op.hurries) (hi : c.isInitialized) :
    (op.step c).1.selectedCadence = c.context.base.hurried := by
  rw [selectedCadence_step op hi, Operation.chooses_of_hurries hop, Option.getD_some]

/-- **How long range finding and warnings last.** On a controller with hardware their cadence has
twice the cycles of the base cadence, held at the largest count, each half as long, held at the
shortest period. Where neither is held the run lasts as long as one of the base cadence, to the bit.
It is shorter where the count alone is held, unless both last forever, and not shorter where the
period alone is. -/
theorem hurried_total_history (config : Config) (port : Equipment) (ops : List Operation)
    {op : Operation} (hop : op.hurries) :
    let c := (op.step (history config (.ok port) ops).1).1
    let base := c.context.base
    let hurried := c.selectedCadence
    base = config.blink ∧
      hurried.count.toNat = min (2 * base.count.toNat) 0xffffffff ∧
      hurried.period = (if minPeriod ≤ base.halfPeriod then base.halfPeriod else minPeriod) ∧
      (2 * base.count.toNat ≤ 0xffffffff → minPeriod ≤ base.halfPeriod ∨ base.count = 0 →
        hurried.total = base.total) ∧
      (0xffffffff < 2 * base.count.toNat → minPeriod ≤ base.halfPeriod →
        hurried.total < base.total ∨ hurried.total = .infinity ∧ base.total = .infinity) ∧
      (2 * base.count.toNat ≤ 0xffffffff → base.total ≤ hurried.total) := by
  intro c base hurried
  have hbase : base = (history config (.ok port) ops).1.context.base := base_step op _
  have hconfig : base = config.blink :=
    hbase.trans (congrArg Prod.fst (settings_history config (.ok port) ops))
  have hchosen : hurried = base.hurried := by
    rw [hbase]
    exact selectedCadence_of_hurries hop (isInitialized_history config port ops)
  rw [hchosen]
  exact ⟨hconfig, base.count_hurried, base.period_hurried, Cadence.total_hurried,
    Cadence.total_hurried_lt_or, Cadence.total_le_total_hurried⟩

/-- Eight cycles of 0.1 s last as long as four of 0.2 s. -/
theorem hurried_total_standard :
    ((Operation.want .findRange).step
      (history .standard (.ok ⟨.all true, true⟩) []).1).1.selectedCadence.total =
      Cadence.standard.total :=
  (hurried_total_history .standard ⟨.all true, true⟩ []
    (show (Operation.want .findRange).hurries from rfl)).2.2.2.1 (by decide)
    (.inl (by decide +kernel))

/-- A period that cannot be halved makes the run longer, a count that cannot be doubled shorter. -/
theorem hurried_total_ne :
    let shortest := { Config.standard with blinkPeriod := minPeriod }
    let most := { Config.standard with blinkCount := 0xffffffff }
    let hurried (config : Config) := ((Operation.want .findRange).step
      (history config (.ok ⟨.all true, true⟩) []).1).1.selectedCadence
    shortest.validate = none ∧ shortest.blink.total < (hurried shortest).total ∧
      most.validate = none ∧ (hurried most).total < most.blink.total := by
  decide +kernel

end Controller
end SignalLights
