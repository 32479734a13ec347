import Mathlib.Data.List.Forall2
import SignalLights.Proofs.Controller.Writes
import SignalLights.Proofs.Machine.Alike

/-!
# Controllers that act alike

Two controllers side by side. `Alike` says that they differ at most in what the machine has no part
in, the lamp and the display, and in cadences out of use. Whatever is done to both keeps them alike,
and they show the same of the machine: the same writes to its lights and the same events about it,
in the same order (`actAlike_run`).
-/

namespace SignalLights

/-- Events about the machine and the message. -/
def Event.ofMachine : Event → Bool
  | modeChanged _ _ | wantedChanged _ | message _ => true
  | _ => false

namespace Effect

/-- Writes to the lights of the machine, and events about it. -/
def ofMachine : Effect → Bool
  | level ch _ => ch != .lamp
  | event e => e.ofMachine
  | _ => false

/-- The levels written to the lights of the machine, in order. -/
def machineLevels (es : List Effect) : List (Channel × Bool) := (levels es).filter (·.1 != .lamp)

/-- The events about the machine and the message, in order. -/
def machineEvents (es : List Effect) : List Event := (events es).filter Event.ofMachine

theorem levels_ofMachine (es : List Effect) :
    levels (es.filter ofMachine) = machineLevels es := by
  rw [machineLevels, levels, levels, List.filterMap_filter, List.filter_filterMap]
  refine List.filterMap_congr ?_
  intro e _
  cases e with
  | level ch on => simp [ofMachine, level?, Option.filter]
  | event e => cases e <;> rfl
  | _ => rfl

theorem events_ofMachine (es : List Effect) :
    (events (es.filter ofMachine)) = machineEvents es := by
  rw [machineEvents, events, events, List.filterMap_filter, List.filter_filterMap]
  refine List.filterMap_congr ?_
  intro e _
  cases e with
  | level ch on => simp [ofMachine, event?]
  | event e => cases e <;> rfl
  | _ => rfl

end Effect

namespace Controller

/-- Two controllers that differ at most in their lamp, their display and cadences out of use. -/
structure Alike (c d : Controller) : Prop where
  policy : d.policy = c.policy
  isInitialized : d.isInitialized = c.isInitialized
  machine : d.machine = c.machine
  context : c.context.Alike c.mode d.context
  message : d.message = c.message
  has : ∀ ch, ch ≠ .lamp → d.has ch = c.has ch
  level : ∀ ch, ch ≠ .lamp → d.latches.level ch = c.latches.level ch

namespace Alike

variable {c d e : Controller}

theorem refl (c : Controller) : c.Alike c :=
  ⟨rfl, rfl, rfl, .refl _ _, rfl, fun _ _ => rfl, fun _ _ => rfl⟩

theorem mode_eq (h : c.Alike d) : d.mode = c.mode := congrArg Machine.mode h.machine

theorem wanted_eq (h : c.Alike d) : d.wanted = c.wanted := h.context.wanted

theorem symm (h : c.Alike d) : d.Alike c where
  policy := h.policy.symm
  isInitialized := h.isInitialized.symm
  machine := h.machine.symm
  context := h.mode_eq ▸ h.context.symm
  message := h.message.symm
  has ch hch := (h.has ch hch).symm
  level ch hch := (h.level ch hch).symm

theorem trans (h : c.Alike d) (h' : d.Alike e) : c.Alike e where
  policy := h'.policy.trans h.policy
  isInitialized := h'.isInitialized.trans h.isInitialized
  machine := h'.machine.trans h.machine
  context := h.context.trans (h.mode_eq ▸ h'.context)
  message := h'.message.trans h.message
  has ch hch := (h'.has ch hch).trans (h.has ch hch)
  level ch hch := (h'.level ch hch).trans (h.level ch hch)

end Alike

/-- Two steps that keep controllers alike and show the same of the machine. -/
def ActAlike (f g : Step Controller Effect) : Prop :=
  ∀ c d, c.Alike d →
    (f c).2.filter Effect.ofMachine = (g d).2.filter Effect.ofMachine ∧ (f c).1.Alike (g d).1

/-- A step that does nothing to the machine and its lights. -/
def Aside (f : Step Controller Effect) : Prop :=
  ∀ c, (f c).2.filter Effect.ofMachine = [] ∧ c.Alike (f c).1

theorem Aside.actAlike {f g : Step Controller Effect} (hf : Aside f) (hg : Aside g) :
    ActAlike f g := by
  intro c d h
  obtain ⟨hshown, hkept⟩ := hf c
  obtain ⟨hshown', hkept'⟩ := hg d
  exact ⟨hshown.trans hshown'.symm, (hkept.symm.trans h).trans hkept'⟩

/-! ## Atoms side by side -/

/-- Whether driving a channel comes to a write. -/
def needsWrite (c : Controller) (ch : Channel) (on : Bool) : Bool :=
  c.has ch && (c.policy == .always || c.latches.level ch != some on)

theorem drive_eq (c : Controller) (ch : Channel) (on : Bool) :
    drive ch on c =
      if c.needsWrite ch on then
        ({ c with latches := { c.latches with levels := c.latches.levels.set ch (some on) } },
          [.level ch on, .notice (.levelWritten ch on), .event (.levelChanged ch on)])
      else (c, []) := by
  rcases Option.eq_none_or_eq_some c.port with hp | ⟨port, hp⟩
  · simp [drive, onPort, needsWrite, has, hp]
  · have hn : c.latches.needsLevel c.policy port ch on = c.needsWrite ch on := by
      simp [needsWrite, Latches.needsLevel, has, hp]
    rw [drive, onPort_apply _ hp, Latches.drive, hn]
    split <;> rfl

theorem aside_lamp (on : Bool) : Aside (drive .lamp on) := by
  intro c
  rcases drive_cases c .lamp on with h | h
  · rw [h]
    exact ⟨rfl, .refl c⟩
  · rw [h]
    exact ⟨rfl, { Alike.refl c with level := fun ch hch => PerChannel.get_set_of_ne _ _ hch }⟩

theorem aside_setStatus (code : StatusCode) : Aside (setStatus code) := by
  intro c
  rcases setStatus_cases c code with h | h
  · rw [h]
    exact ⟨rfl, .refl c⟩
  · rw [h]
    exact ⟨rfl, { Alike.refl c with }⟩

theorem aside_say (n : Notice) : Aside (.say n) := fun c => ⟨rfl, .refl c⟩

theorem actAlike_drive (ch : Channel) (on : Bool) : ActAlike (drive ch on) (drive ch on) := by
  by_cases hch : ch = .lamp
  · subst hch
    exact (aside_lamp on).actAlike (aside_lamp on)
  · intro c d h
    have hn : d.needsWrite ch on = c.needsWrite ch on := by
      rw [needsWrite, h.has ch hch, h.policy, h.level ch hch, needsWrite]
    rw [drive_eq, drive_eq, hn]
    split
    · refine ⟨rfl, { h with level := fun e he => ?_ }⟩
      have hl : d.latches.levels.get e = c.latches.levels.get e := h.level e he
      rw [Latches.level, Latches.level, PerChannel.get_set, PerChannel.get_set, hl]
    · exact ⟨rfl, h⟩

theorem actAlike_move {m : Machine} {x y : Context} (h : x.Alike m.mode y) :
    ActAlike (Atom.move (m, x)).step (Atom.move (m, y)).step := fun _ _ hcd =>
  ⟨rfl, { hcd with machine := rfl, context := h }⟩

theorem actAlike_atom (a : Atom) : ActAlike a.step a.step := by
  cases a with
  | say n => exact (aside_say n).actAlike (aside_say n)
  | tell e => exact fun c d h => ⟨rfl, h⟩
  | move core => exact actAlike_move (.refl core.1.mode core.2)
  | drive ch on => exact actAlike_drive ch on
  | display code => exact (aside_setStatus code).actAlike (aside_setStatus code)
  | post text =>
    intro c d h
    simp only [Atom.step, setMessage, h.message]
    split
    · exact ⟨rfl, h⟩
    · exact ⟨rfl, { h with message := rfl }⟩

/-! ## Operations side by side -/

/-- Two chains act alike if their steps do, one by one. -/
theorem actAlike_chain {fs gs : List (Step Controller Effect)} (h : List.Forall₂ ActAlike fs gs) :
    ActAlike (.chain fs) (.chain gs) := by
  induction h with
  | nil => exact fun c d hcd => ⟨rfl, hcd⟩
  | cons hfg _ ih =>
    intro c d hcd
    obtain ⟨hshown, hkept⟩ := hfg c d hcd
    obtain ⟨hshown', hkept'⟩ := ih _ _ hkept
    refine ⟨?_, hkept'⟩
    rw [Step.chain_cons, Step.chain_cons, List.filter_append, List.filter_append, hshown, hshown']

/-- Two lists of atoms that act alike, one by one. -/
def AlikeAtoms : List Atom → List Atom → Prop :=
  List.Forall₂ fun a b => ActAlike a.step b.step

namespace AlikeAtoms

variable {as as' bs bs' : List Atom}

theorem refl (as : List Atom) : AlikeAtoms as as :=
  List.forall₂_same.2 fun a _ => actAlike_atom a

theorem append (h : AlikeAtoms as bs) (h' : AlikeAtoms as' bs') :
    AlikeAtoms (as ++ as') (bs ++ bs') :=
  List.rel_append h h'

/-- Lists of atoms that differ only in a move, to cores that act alike. -/
theorem around {m : Machine} {x y : Context} (h : x.Alike m.mode y) (before after : List Atom) :
    AlikeAtoms (before ++ .move (m, x) :: after) (before ++ .move (m, y) :: after) :=
  (refl before).append (.cons (actAlike_move h) (refl after))

theorem perform (h : AlikeAtoms as bs) : ActAlike (perform as) (perform bs) := by
  refine actAlike_chain ?_
  rwa [List.forall₂_map_left_iff, List.forall₂_map_right_iff]

end AlikeAtoms

variable {c d : Controller}

theorem Alike.wantAtoms (h : c.Alike d) (w : Wanted) :
    AlikeAtoms (Operation.wantAtoms w c) (Operation.wantAtoms w d) := by
  have hn : d.context.requestNotices w = c.context.requestNotices w := by
    cases w <;> simp [Context.requestNotices, h.context.base]
  rw [Operation.wantAtoms, Operation.wantAtoms, hn, h.machine]
  exact .around (h.context.request w) _ _

theorem Alike.atoms (h : c.Alike d) (op : Operation) : AlikeAtoms (op.atoms c) (op.atoms d) := by
  unfold Operation.atoms
  cases op.plain with
  | start now =>
    have hx : Context.Alike .off { c.context with wanted := .off }
        { d.context with wanted := .off } :=
      .of_off rfl rfl h.context.base h.context.rangeFindingIsFinite h.context.rangeIndicator
        h.context.rangeBlinkEnabled
    simp only [h.machine, h.mode_eq, h.wanted_eq]
    refine .append (.append (.append ?_ ?_) ?_) ?_
    · exact .around (m := c.machine.reset now) hx _ _
    all_goals exact .refl _
  | loop now =>
    obtain ⟨hm, hx, hd, ht, hn⟩ := Machine.tick_alike h.context now
    simp only [h.machine, h.wanted_eq, hm, hd, ht, hn, hx.wanted]
    refine .append (.append (.append (.append ?_ ?_) ?_) ?_) ?_
    · exact .around hx _ _
    all_goals exact .refl _
  | want w => exact h.wantAtoms w
  | warn text => exact (h.wantAtoms .warn).append (.refl _)
  | configureBlink count period =>
    simp only [h.machine]
    exact .append (.refl _) (.around (h.context.override _) [_] [])
  | setRangeBlinking on =>
    simp only [h.machine]
    refine .around ?_ [_] []
    exact { h.context with rangeBlinkEnabled := rfl }
  | publish =>
    have haside (s : Snapshot) : Aside (Atom.tell (.snapshot s)).step := fun c => ⟨rfl, .refl c⟩
    exact .cons ((haside _).actAlike (haside _)) .nil
  | _ => exact .refl _

/-- Whatever is done to both of two controllers keeps them alike, and shows the same. -/
theorem actAlike_step (op : Operation) : ActAlike op.step op.step := by
  intro c d h
  cases hi : c.isInitialized with
  | false =>
    rw [step_inert op hi, step_inert op (h.isInitialized.trans hi)]
    exact ⟨rfl, h⟩
  | true =>
    rw [step_eq_perform op hi, step_eq_perform op (h.isInitialized.trans hi)]
    exact (h.atoms op).perform c d h

theorem actAlike_run (ops : List Operation) : ActAlike (run ops) (run ops) := by
  refine actAlike_chain (List.forall₂_same.2 ?_)
  intro f hf
  obtain ⟨op, -, rfl⟩ := List.mem_map.1 hf
  exact actAlike_step op

end Controller
end SignalLights
