import SignalLights.Proofs.Controller.Atoms
import SignalLights.Proofs.Controller.Reachable

/-!
# What lights a light

A level is written only where it is commanded. So nothing but a tick turns on the driver light or
the strip, whatever else is done with a controller, and a stop leaves every light dark.
-/

namespace SignalLights

variable {c : Controller} {ch : Channel} {on : Bool}

theorem Atom.eq_drive_of_mem {a : Atom} (h : .level ch on ∈ (a.step c).2) : a = .drive ch on := by
  cases a with
  | drive d b =>
    change .level ch on ∈ (Controller.drive d b c).2 at h
    rcases Controller.drive_cases c d b with hd | hd
    · rw [hd] at h
      cases h
    · obtain ⟨rfl, rfl⟩ : ch = d ∧ on = b := by simpa [hd] using h
      rfl
  | display code =>
    change .level ch on ∈ (Controller.setStatus code c).2 at h
    rcases Controller.setStatus_cases c code with hs | hs
    · rw [hs] at h
      cases h
    · simp [hs] at h
  | post text =>
    simp only [step, Controller.setMessage] at h
    split at h
    · cases h
    · simp at h
  | say | tell | move => simp [step] at h

theorem Atom.drive_notMem_tellIf (b : Bool) (e : Event) : drive ch on ∉ tellIf b e := by
  cases b <;> simp [tellIf]

/-- An operation drives the lights it commands. -/
theorem Operation.drive_mem_atoms_iff {op : Operation} :
    .drive ch on ∈ op.atoms c ↔ op.commanded c.core ch = some on := by
  unfold atoms commanded
  cases op.plain with
  | start now => cases ch <;> simp [Atom.drive_notMem_tellIf]
  | loop now => cases ch <;> simp [Atom.drive_notMem_tellIf, Controller.core]
  | stop now => cases ch <;> simp [Atom.driveAll]
  | setLamp b => cases ch <;> simp [eq_comm]
  | _ => simp [wantAtoms]

namespace Controller

/-! ## Lighting -/

theorem drive_mem_of_mem_perform {atoms : List Atom} (h : .level ch on ∈ (perform atoms c).2) :
    .drive ch on ∈ atoms := by
  obtain ⟨a, ha, d, hd⟩ := exists_atom_of_mem_perform h
  exact Atom.eq_drive_of_mem hd ▸ ha

/-- A level is written only where it is commanded. -/
theorem commanded_of_mem_step {op : Operation} (h : .level ch on ∈ (op.step c).2) :
    op.commanded c.core ch = some on := by
  cases hi : c.isInitialized with
  | false =>
    rw [step_inert op hi] at h
    cases h
  | true =>
    rw [step_eq_perform op hi] at h
    exact Operation.drive_mem_atoms_iff.1 (drive_mem_of_mem_perform h)

theorem eq_loop_of_lit (hch : ch ≠ .lamp) {op : Operation} (h : .level ch true ∈ (op.step c).2) :
    ∃ now, op = .loop now := by
  rcases op.eq_loop_or with hop | hop
  · exact hop
  · have hon := commanded_of_mem_step h
    rcases op.commanded_of_ne_loop hop hch c.core with hc | hc
    · rw [hc] at hon
      cases hon
    · rw [hc] at hon
      cases hon

/-- In a run that lights the driver light or the strip there is a tick. -/
theorem exists_loop_of_lit (hch : ch ≠ .lamp) {ops : List Operation}
    (h : .level ch true ∈ (run ops c).2) : ∃ now, .loop now ∈ ops := by
  obtain ⟨before, op, after, rfl, hop⟩ := mem_run_iff.1 h
  obtain ⟨now, rfl⟩ := eq_loop_of_lit hch hop
  exact ⟨now, List.mem_append_right before List.mem_cons_self⟩

/-- Construction lights nothing. -/
theorem not_lit_new (config : Config) (hardware : Except Fault Equipment) :
    .level ch true ∉ (new config hardware).2 := by
  intro h
  cases hardware with
  | error f => simp [new, build] at h
  | ok port =>
    rw [new, build_eq_perform] at h
    simpa [setup, Atom.driveAll] using drive_mem_of_mem_perform h

/-! ## Darkness -/

theorem Reachable.dark_step (hc : c.Reachable) (hch : ch ≠ .lamp) (h : c.isLit ch = false)
    {op : Operation} (hop : ∀ now, op ≠ .loop now) : (op.step c).1.isLit ch = false := by
  cases hi : c.isInitialized with
  | false => rwa [step_inert op hi]
  | true =>
    rcases op.commanded_of_ne_loop hop hch c.core with hnone | hoff
    · rwa [isLit_step_of_none hi op hnone]
    · rw [hc.isLit_step hi op hoff, Bool.and_false]

/-- The driver light and the strip, once dark, are lit by no run without a tick. -/
theorem Reachable.dark_run (hc : c.Reachable) (hch : ch ≠ .lamp) (h : c.isLit ch = false)
    {ops : List Operation} (hops : ∀ now, .loop now ∉ ops) :
    (Controller.run ops c).1.isLit ch = false := by
  induction ops generalizing c with
  | nil => exact h
  | cons op ops ih =>
    have hop : ∀ now, op ≠ .loop now := fun now he => hops now (he ▸ List.mem_cons_self)
    refine ih (hc.step op) (hc.dark_step hch h hop) ?_
    exact fun now hnow => hops now (List.mem_cons_of_mem op hnow)

/-- A stop puts out every light; without hardware none was lit. -/
theorem Reachable.dark_stop (hc : c.Reachable) (now : Binary64) (ch : Channel) :
    (stop now c).1.isLit ch = false := by
  change ((Operation.stop now).step c).1.isLit ch = false
  cases hi : c.isInitialized with
  | false =>
    have hmissing : c.has ch = false := by
      rw [isInitialized, Option.isSome_eq_false_iff, Option.isNone_iff_eq_none] at hi
      simp [has, hi]
    rw [step_inert _ hi, isLit, hc.level_eq_none hmissing]
    rfl
  | true =>
    rw [hc.isLit_step hi (.stop now) rfl, Bool.and_false]

theorem Reachable.dark_stops (hc : c.Reachable) {n : Nat} (hn : 0 < n) (now : Binary64)
    (ch : Channel) : (Controller.run (.replicate n (.stop now)) c).1.isLit ch = false := by
  obtain ⟨m, rfl⟩ := Nat.exists_eq_add_one.2 hn
  rw [List.replicate_succ', run_append]
  exact (hc.run _).dark_stop now ch

end Controller
end SignalLights
