import SignalLights.Proofs.Controller.Writes

/-!
# Suppressing writes changes nothing that is seen

A controller that writes every level and code it is commanded, needed or not, goes through the same
states as one that suppresses writes (`historyUnder_withPolicy`), and its outputs show the same
after every operation (`suppression_transparent`). For a port is in the state the latches remember,
and what a command leaves there does not depend on whether it had to be written.
-/

namespace SignalLights

theorem PerChannel.set_get {α : Type} (p : PerChannel α) (ch : Channel) :
    p.set ch (p.get ch) = p := by
  cases ch <;> rfl

namespace Latches

variable (policy : WritePolicy) (port : Equipment) (l : Latches)

/-- A channel that is there is left at the level it was driven to, written or not. -/
theorem drive_state (ch : Channel) (on : Bool) :
    (drive policy port ch on l).1 =
      if port.has ch then { l with levels := l.levels.set ch (some on) } else l := by
  unfold drive
  by_cases hn : l.needsLevel policy port ch on
  · have hch : port.has ch := by
      rw [needsLevel, Bool.and_eq_true] at hn
      exact hn.1
    rw [if_pos hn, if_pos hch]
  · rw [if_neg hn]
    split
    · next hch =>
      -- nothing was written, so the latch held this level before
      have hl : l.levels.get ch = some on := by
        simp only [needsLevel, hch, Bool.true_and, Bool.or_eq_true, not_or] at hn
        simpa [level] using hn.2
      rw [← hl, PerChannel.set_get]
    · rfl

theorem display_state (code : StatusCode) :
    (display policy port code l).1 =
      if port.statusLink then { l with status := some code } else l := by
  unfold display
  by_cases hn : l.needsStatus policy port code
  · have hlink : port.statusLink := by
      rw [needsStatus, Bool.and_eq_true] at hn
      exact hn.1
    rw [if_pos hn, if_pos hlink]
  · rw [if_neg hn]
    split
    · next hlink =>
      have hl : l.status = some code := by
        simp only [needsStatus, hlink, Bool.true_and, Bool.or_eq_true, not_or] at hn
        simpa using hn.2
      rw [← hl]
    · rfl

end Latches

namespace Controller

def withPolicy (policy : WritePolicy) (c : Controller) : Controller := { c with policy := policy }

section WithPolicy

variable (policy : WritePolicy) (c : Controller)

/-- A step of the latches that leaves them the same under either policy leaves the controller so. -/
theorem onPort_withPolicy {f g : Equipment → Step Latches Effect}
    (h : ∀ port l, (f port l).1 = (g port l).1) :
    (onPort f (c.withPolicy policy)).1 = (onPort g c).1.withPolicy policy := by
  cases hp : c.port with
  | none => simp [onPort, withPolicy, hp]
  | some port =>
    rw [onPort_apply f (c := c.withPolicy policy) hp, onPort_apply g hp]
    simp [withPolicy, h]

theorem atom_withPolicy (a : Atom) :
    (a.step (c.withPolicy policy)).1 = (a.step c).1.withPolicy policy := by
  cases a with
  | drive ch on =>
    refine onPort_withPolicy policy c ?_
    intro port l
    rw [Latches.drive_state, Latches.drive_state]
  | display code =>
    refine onPort_withPolicy policy c ?_
    intro port l
    rw [Latches.display_state, Latches.display_state]
  | post text =>
    by_cases h : c.message = text <;> simp [Atom.step, setMessage, withPolicy, h]
  | _ => rfl

theorem perform_withPolicy (atoms : List Atom) :
    (perform atoms (c.withPolicy policy)).1 = (perform atoms c).1.withPolicy policy := by
  refine Step.chain_commutes ?_ c
  intro f hf c
  obtain ⟨a, -, rfl⟩ := List.mem_map.1 hf
  exact atom_withPolicy policy c a

theorem step_withPolicy (op : Operation) :
    (op.step (c.withPolicy policy)).1 = (op.step c).1.withPolicy policy := by
  cases hi : c.isInitialized with
  | false => rw [step_inert op hi, step_inert op (c := c.withPolicy policy) hi]
  | true =>
    rw [step_eq_perform op hi, step_eq_perform op (c := c.withPolicy policy) hi,
      ← perform_withPolicy]
    rfl

theorem run_withPolicy (ops : List Operation) :
    (run ops (c.withPolicy policy)).1 = (run ops c).1.withPolicy policy := by
  refine Step.chain_commutes ?_ c
  intro f hf c
  obtain ⟨op, -, rfl⟩ := List.mem_map.1 hf
  exact step_withPolicy policy c op

end WithPolicy

/-- Whatever the policy for writes, a controller goes through the same states. -/
theorem historyUnder_withPolicy (policy : WritePolicy) (config : Config) (port : Equipment)
    (ops : List Operation) :
    (historyUnder policy config port ops).1 =
      (history config (.ok port) ops).1.withPolicy policy := by
  have hbuild : (build policy config (.ok port)).1 =
      (new config (.ok port)).1.withPolicy policy := by
    rw [new, build_eq_perform, build_eq_perform, ← perform_withPolicy]
    rfl
  rw [historyUnder, history, hbuild, run_withPolicy]

/-- **Suppression is transparent.** After any operations from construction on, a controller that
suppresses writes and one that makes them all have left every channel at the same level and the
display at the same frame, and show the same mode, request, cadences and message. -/
theorem suppression_transparent (config : Config) (port : Equipment) (ops : List Operation) :
    let lazy := history config (.ok port) ops
    let eager := historyUnder .always config port ops
    (∀ ch, (Effect.levelsOn ch lazy.2).getLast? = (Effect.levelsOn ch eager.2).getLast?) ∧
      (Effect.frames lazy.2).getLast? = (Effect.frames eager.2).getLast? ∧
      lazy.1.mode = eager.1.mode ∧ lazy.1.wanted = eager.1.wanted ∧
      lazy.1.selectedCadence = eager.1.selectedCadence ∧
      lazy.1.activeCadence = eager.1.activeCadence ∧ lazy.1.message = eager.1.message := by
  intro lazy eager
  have hlazy : Latches.Writes .onChange port .blank lazy.2 lazy.1.latches :=
    writes_historyUnder .onChange config port ops
  have heager : Latches.Writes .always port .blank eager.2 eager.1.latches :=
    writes_historyUnder .always config port ops
  have hstate : eager.1 = lazy.1.withPolicy .always :=
    historyUnder_withPolicy .always config port ops
  have hlatches : eager.1.latches = lazy.1.latches := by
    rw [hstate]
    rfl
  refine ⟨?_, ?_, ?_⟩
  · intro ch
    have h := heager.level_eq ch
    rw [hlatches, hlazy.level_eq ch, level_blank, Option.or_none, Option.or_none] at h
    exact h
  · have h : (Effect.reportedCodes lazy.2).getLast? = (Effect.reportedCodes eager.2).getLast? := by
      have hs := heager.status_eq
      rw [hlatches, hlazy.status_eq, status_blank, Option.or_none, Option.or_none] at hs
      exact hs
    rw [hlazy.frames_eq, heager.frames_eq, List.getLast?_map, List.getLast?_map, h]
  · rw [hstate]
    exact ⟨rfl, rfl, rfl, rfl, rfl⟩

end Controller
end SignalLights
