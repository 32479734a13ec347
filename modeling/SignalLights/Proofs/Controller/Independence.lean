import SignalLights.Proofs.Controller.Alike

/-!
# The lamp and the display are independent of the machine

Nothing that is asked of the lamp, the display or the dashboard is ever felt by the machine, and
nothing that the machine does reaches the lamp or the display. So either side of a controller goes
its way as if the operations that are for the other side alone had never come
(`lamp_and_display_independent`).
-/

namespace SignalLights

namespace Effect

/-- Writes to the lamp and to the display. -/
def ofDisplays : Effect → Bool
  | level .lamp _ | frame _ => true
  | _ => false

theorem levelsOn_ofDisplays (es : List Effect) :
    levelsOn .lamp (es.filter ofDisplays) = levelsOn .lamp es := by
  rw [levelsOn, levelsOn, levels, levels, List.filterMap_filter, List.filterMap_filterMap,
    List.filterMap_filterMap]
  refine List.filterMap_congr ?_
  intro e _
  cases e with
  | level ch on => cases ch <;> rfl
  | _ => rfl

theorem frames_ofDisplays (es : List Effect) : frames (es.filter ofDisplays) = frames es := by
  rw [frames, frames, List.filterMap_filter]
  refine List.filterMap_congr ?_
  intro e _
  cases e with
  | level ch on => cases ch <;> rfl
  | _ => rfl

end Effect

namespace Operation

/-- Whether an operation is for the lamp, the display or the dashboard alone. -/
def isAside (op : Operation) : Bool :=
  match op.plain with
  | setLamp _ | setStatus _ | publish => true
  | _ => false

/-- Whether an operation may write to the lamp or the display. -/
def reachesDisplays (op : Operation) : Bool :=
  match op.plain with
  | setLamp _ | setStatus _ | stop _ => true
  | _ => false

end Operation

namespace Controller

/-! ## The machine without the displays -/

theorem aside_of_isAside {op : Operation} (h : op.isAside) : Aside op.step := by
  rw [← op.step_plain]
  unfold Operation.isAside at h
  generalize op.plain = q at h
  cases q with
  | setLamp on => exact aside_lamp on
  | setStatus code => exact aside_setStatus code
  | publish =>
    intro c
    change (publish c).2.filter Effect.ofMachine = [] ∧ c.Alike (publish c).1
    unfold publish guarded
    split <;> exact ⟨rfl, .refl c⟩
  | _ => cases h

theorem advance_of_isAside {op : Operation} (h : op.isAside) (core : Machine × Context) :
    op.advance core = core := by
  unfold Operation.isAside at h
  unfold Operation.advance
  generalize op.plain = q at h
  cases q with
  | setLamp | setStatus | publish => rfl
  | _ => cases h

variable {c d e : Controller}

/-- Without the operations that are for the displays alone the machine does the same. -/
theorem machine_run_filter (ops : List Operation) (h : c.Alike d) (hcore : d.core = c.core) :
    (run ops c).2.filter Effect.ofMachine =
        (run (ops.filter fun op => !op.isAside) d).2.filter Effect.ofMachine ∧
      (run ops c).1.Alike (run (ops.filter fun op => !op.isAside) d).1 ∧
      (run (ops.filter fun op => !op.isAside) d).1.core = (run ops c).1.core := by
  refine Step.chain_filter (R := fun c d : Controller => c.Alike d ∧ d.core = c.core) ?_ ?_ ops
    ⟨h, hcore⟩
  · rintro op - c d ⟨hcd, hcore⟩
    obtain ⟨hshown, hkept⟩ := actAlike_step op c d hcd
    refine ⟨hshown, hkept, ?_⟩
    rw [core_step_eq, core_step_eq, hcd.isInitialized, hcore]
  · rintro op hop c d ⟨hcd, hcore⟩
    have haside : op.isAside := by simpa using hop
    obtain ⟨hshown, hkept⟩ := aside_of_isAside haside c
    refine ⟨hshown, hkept.symm.trans hcd, ?_⟩
    rw [core_step_eq, advance_of_isAside haside, ite_self, hcore]

/-! ## The displays without the machine -/

/-- Two controllers whose lamps and displays were told the same. -/
structure SameDisplays (c d : Controller) : Prop where
  policy : d.policy = c.policy
  port : d.port = c.port
  lamp : d.latches.level .lamp = c.latches.level .lamp
  status : d.latches.status = c.latches.status

namespace SameDisplays

theorem refl (c : Controller) : c.SameDisplays c := ⟨rfl, rfl, rfl, rfl⟩

theorem symm (h : c.SameDisplays d) : d.SameDisplays c :=
  ⟨h.policy.symm, h.port.symm, h.lamp.symm, h.status.symm⟩

theorem trans (h : c.SameDisplays d) (h' : d.SameDisplays e) : c.SameDisplays e :=
  ⟨h'.policy.trans h.policy, h'.port.trans h.port, h'.lamp.trans h.lamp,
    h'.status.trans h.status⟩

end SameDisplays

end Controller

/-- Whether an atom may write to the lamp or the display. -/
def Atom.reachesDisplays : Atom → Bool
  | drive .lamp _ | display _ => true
  | _ => false

/-- The atoms of an operation that may write to the lamp or the display. They are the same for every
controller. -/
def Operation.displayAtoms (op : Operation) : List Atom :=
  match op.plain with
  | setLamp on => [.drive .lamp on]
  | setStatus code => [.display code]
  | stop _ => [.drive .lamp false]
  | _ => []

theorem Atom.filter_drives {ch : Channel} (h : ch ≠ .lamp) (demand : Option Bool) :
    (demand.toList.map (drive ch)).filter reachesDisplays = [] := by
  cases ch with
  | lamp => exact absurd rfl h
  | driver | strip => cases demand <;> rfl

theorem Operation.filter_atoms (op : Operation) (c : Controller) :
    (op.atoms c).filter Atom.reachesDisplays = op.displayAtoms := by
  unfold atoms displayAtoms
  cases op.plain with
  | loop now =>
    simp [Atom.filter_drives, Atom.tellIf, Atom.reachesDisplays]
  | _ => simp [wantAtoms, Atom.tellIf, Atom.driveAll, Atom.reachesDisplays, List.filter_cons]

namespace Controller

variable {c d : Controller}

theorem sameDisplays_drive_lamp (h : c.SameDisplays d) (on : Bool) :
    (drive .lamp on c).2 = (drive .lamp on d).2 ∧
      (drive .lamp on c).1.SameDisplays (drive .lamp on d).1 := by
  have hn : d.needsWrite .lamp on = c.needsWrite .lamp on := by
    rw [needsWrite, needsWrite, has, has, h.port, h.policy, h.lamp]
  rw [drive_eq, drive_eq, hn]
  split
  · exact ⟨rfl, { h with lamp := rfl }⟩
  · exact ⟨rfl, h⟩

theorem sameDisplays_setStatus (h : c.SameDisplays d) (code : StatusCode) :
    (setStatus code c).2 = (setStatus code d).2 ∧
      (setStatus code c).1.SameDisplays (setStatus code d).1 := by
  rcases Option.eq_none_or_eq_some c.port with hp | ⟨port, hp⟩
  · have hc : c.isInitialized = false := by simp [isInitialized, hp]
    have hd : d.isInitialized = false := by simp [isInitialized, h.port, hp]
    rw [setStatus, onPort_inert _ hc, setStatus, onPort_inert _ hd]
    exact ⟨rfl, h⟩
  · have hn : d.latches.needsStatus d.policy port code =
        c.latches.needsStatus c.policy port code := by
      rw [Latches.needsStatus, Latches.needsStatus, h.policy, h.status]
    rw [setStatus, onPort_apply _ hp, setStatus, onPort_apply _ (h.port.trans hp), Latches.display,
      Latches.display, hn]
    split
    · exact ⟨rfl, { h with status := rfl }⟩
    · exact ⟨rfl, h⟩

/-- Only driving the lamp and displaying a code is felt by the displays. -/
theorem atom_sparesDisplays {a : Atom} (ha : a.reachesDisplays = false) (c : Controller) :
    (a.step c).2.filter Effect.ofDisplays = [] ∧ (a.step c).1.SameDisplays c := by
  cases a with
  | drive ch on =>
    have hch : ch ≠ .lamp := by
      rintro rfl
      cases ha
    rcases drive_cases c ch on with h | h
    · rw [Atom.step, h]
      exact ⟨rfl, .refl c⟩
    · rw [Atom.step, h]
      refine ⟨?_, { SameDisplays.refl c with lamp := ?_ }⟩
      · cases ch with
        | lamp => exact absurd rfl hch
        | driver | strip => rfl
      · exact (PerChannel.get_set_of_ne _ _ hch.symm).symm
  | display code => cases ha
  | post text =>
    simp only [Atom.step, setMessage]
    split
    · exact ⟨rfl, .refl c⟩
    · exact ⟨rfl, { SameDisplays.refl c with }⟩
  | say n => exact ⟨rfl, .refl c⟩
  | tell e => exact ⟨rfl, .refl c⟩
  | move core => exact ⟨rfl, { SameDisplays.refl c with }⟩

/-- Of an operation the displays feel no more than its display atoms. -/
theorem displays_step (op : Operation) (h : c.SameDisplays d) (hi : c.isInitialized) :
    (op.step c).2.filter Effect.ofDisplays =
        (perform op.displayAtoms d).2.filter Effect.ofDisplays ∧
      (op.step c).1.SameDisplays (perform op.displayAtoms d).1 := by
  rw [step_eq_perform op hi, ← op.filter_atoms c]
  refine Step.chain_filter (R := SameDisplays) ?_ ?_ (op.atoms c) h
  · intro a ha c d hcd
    cases a with
    | drive ch on =>
      cases ch with
      | lamp =>
        obtain ⟨hshown, hsame⟩ := sameDisplays_drive_lamp hcd on
        exact ⟨congrArg (List.filter _) hshown, hsame⟩
      | driver | strip => cases ha
    | display code =>
      obtain ⟨hshown, hsame⟩ := sameDisplays_setStatus hcd code
      exact ⟨congrArg (List.filter _) hshown, hsame⟩
    | say | tell | move | post => cases ha
  · intro a ha c d hcd
    obtain ⟨hshown, hsame⟩ := atom_sparesDisplays ha c
    exact ⟨hshown, hsame.trans hcd⟩

theorem displayAtoms_eq_nil {op : Operation} (h : op.reachesDisplays = false) :
    op.displayAtoms = [] := by
  unfold Operation.reachesDisplays at h
  unfold Operation.displayAtoms
  generalize op.plain = q at h
  cases q with
  | setLamp | setStatus | stop => cases h
  | _ => rfl

/-- With no more than the operations that may write to them the displays are told the same. -/
theorem displays_run_filter (ops : List Operation) (h : c.SameDisplays d) :
    (run ops c).2.filter Effect.ofDisplays =
        (run (ops.filter Operation.reachesDisplays) d).2.filter Effect.ofDisplays ∧
      (run ops c).1.SameDisplays (run (ops.filter Operation.reachesDisplays) d).1 := by
  refine Step.chain_filter (R := SameDisplays) ?_ ?_ ops h
  · intro op _ c d hcd
    have hport : d.isInitialized = c.isInitialized := congrArg Option.isSome hcd.port
    cases hi : c.isInitialized with
    | false =>
      rw [step_inert op hi, step_inert op (hport.trans hi)]
      exact ⟨rfl, hcd⟩
    | true =>
      obtain ⟨hshown, hsame⟩ := displays_step op hcd hi
      obtain ⟨hshown', hsame'⟩ := displays_step op (.refl d) (hport.trans hi)
      exact ⟨hshown.trans hshown'.symm, hsame.trans hsame'.symm⟩
  · intro op hop c d hcd
    cases hi : c.isInitialized with
    | false =>
      rw [step_inert op hi]
      exact ⟨rfl, hcd⟩
    | true =>
      have hstep := displays_step op hcd hi
      rwa [displayAtoms_eq_nil hop] at hstep

/-- **The lamp and the display are independent of the machine, and the machine of them.** Leave out
of the operations on a controller all that are for the lamp, the display or the dashboard alone: it
writes the same levels to the driver light and the strip, reports the same changes of mode, request
and message, and ends with the same machine, the same context with its request, cadences and
settings, and the same message. Leave in only those that ask for the lamp, the display or a stop: it
writes the same levels to the lamp and sends the same frames. -/
theorem lamp_and_display_independent (config : Config) (hardware : Except Fault Equipment)
    (ops : List Operation) :
    let a := history config hardware ops
    let b := history config hardware (ops.filter fun op => !op.isAside)
    let d := history config hardware (ops.filter Operation.reachesDisplays)
    (Effect.machineLevels a.2 = Effect.machineLevels b.2 ∧
        Effect.machineEvents a.2 = Effect.machineEvents b.2 ∧
        a.1.core = b.1.core ∧ a.1.message = b.1.message) ∧
      Effect.levelsOn .lamp a.2 = Effect.levelsOn .lamp d.2 ∧
      Effect.frames a.2 = Effect.frames d.2 := by
  intro a b d
  obtain ⟨hmachine, halike, hcore⟩ :=
    machine_run_filter ops (.refl (new config hardware).1) rfl
  obtain ⟨hdisplays, -⟩ := displays_run_filter ops (.refl (new config hardware).1)
  have hab : a.2.filter Effect.ofMachine = b.2.filter Effect.ofMachine := by
    simp only [a, b, history, List.filter_append, hmachine]
  have had : a.2.filter Effect.ofDisplays = d.2.filter Effect.ofDisplays := by
    simp only [a, d, history, List.filter_append, hdisplays]
  have hlamp := congrArg (Effect.levelsOn .lamp) had
  have hframes := congrArg Effect.frames had
  rw [Effect.levelsOn_ofDisplays, Effect.levelsOn_ofDisplays] at hlamp
  rw [Effect.frames_ofDisplays, Effect.frames_ofDisplays] at hframes
  refine ⟨⟨?_, ?_, hcore.symm, halike.message.symm⟩, hlamp, hframes⟩
  · rw [← Effect.levels_ofMachine, ← Effect.levels_ofMachine, hab]
  · rw [← Effect.events_ofMachine, ← Effect.events_ofMachine, hab]

end Controller
end SignalLights
