import SignalLights.Scheduler

/-!
# The phases of a scheduler

A scheduler is fresh, running, stopped before it was started, or halted after a run. What an action
does depends on the phase: each lemma here lists all that can happen in one of them.
-/

namespace SignalLights
namespace Scheduler

variable {α : Type} {s : Scheduler α}

@[simp] theorem run_nil (s : Scheduler α) : run [] s = (s, []) := rfl

@[simp] theorem run_cons (a : Action α) (actions : List (Action α)) (s : Scheduler α) :
    run (a :: actions) s =
      ((run actions (s.act a).scheduler).1,
        (s.act a).calls ++ (run actions (s.act a).scheduler).2) := rfl

theorem act_of_fresh (h : s.started = false ∧ s.stopped = false) (a : Action α) :
    (∃ t, a = .start t ∧ (s.act a).scheduler = { s with started := true, last := t } ∧
      (s.act a).calls = s.callAll .start t) ∨
    (∃ t, a = .stop t ∧ (s.act a).scheduler = { s with stopped := true, last := s.clock t } ∧
      (s.act a).calls = s.callAll .stop (s.clock t)) ∨
    ((∀ t, a ≠ .start t ∧ a ≠ .stop t) ∧ (s.act a).calls = [] ∧
      (s.act a).scheduler.started = false ∧ (s.act a).scheduler.stopped = false) := by
  cases a with
  | register name target =>
    refine .inr (.inr ⟨by simp, ?_⟩)
    simp only [act, register, h.1, Bool.false_eq_true, if_false]
    split <;> simp [h]
  | start t => exact .inl ⟨t, rfl, by simp [act, start, h.1], by simp [act, start, h.1]⟩
  | tick t => exact .inr (.inr ⟨by simp, by simp [act, tick, isRunning, h]⟩)
  | stop t => exact .inr (.inl ⟨t, rfl, by simp [act, stop, h.2], by simp [act, stop, h.2]⟩)

theorem act_of_running (h : s.started = true ∧ s.stopped = false) (a : Action α) :
    (∃ t, a = .tick t ∧ (s.act a).scheduler = { s with last := s.clock t } ∧
      (s.act a).calls = s.callAll .loop (s.clock t)) ∨
    (∃ t, a = .stop t ∧ (s.act a).scheduler = { s with stopped := true, last := s.clock t } ∧
      (s.act a).calls = s.callAll .stop (s.clock t)) ∨
    ((∀ t, a ≠ .tick t ∧ a ≠ .stop t) ∧ (s.act a).scheduler = s ∧ (s.act a).calls = []) := by
  cases a with
  | register name target => exact .inr (.inr (by simp [act, register, h]))
  | start t => exact .inr (.inr (by simp [act, start, h]))
  | tick t => exact .inl ⟨t, rfl, by simp [act, tick, isRunning, h]⟩
  | stop t => exact .inr (.inl ⟨t, rfl, by simp [act, stop, h]⟩)

theorem act_of_stoppedUnstarted (h : s.started = false ∧ s.stopped = true) (a : Action α) :
    (∃ t, (s.act a).scheduler = { s with started := true, last := t } ∧
      (s.act a).calls = s.callAll .start t) ∨
    ((s.act a).calls = [] ∧ (s.act a).scheduler.started = false ∧
      (s.act a).scheduler.stopped = true) := by
  cases a with
  | register name target =>
    right
    simp only [act, register, h.1, Bool.false_eq_true, if_false]
    split <;> simp [h]
  | start t => exact .inl ⟨t, by simp [act, start, h]⟩
  | tick t => exact .inr (by simp [act, tick, isRunning, h])
  | stop t => exact .inr (by simp [act, stop, h])

theorem act_of_halted (h : s.started = true ∧ s.stopped = true) (a : Action α) :
    (s.act a).scheduler = s ∧ (s.act a).calls = [] := by
  cases a <;> simp [act, register, start, tick, stop, isRunning, h]

/-! ## Across the phases -/

/-- An action calls no loop, or every loop for one hook, each hook behind its guard. -/
theorem calls_act_cases (s : Scheduler α) (a : Action α) :
    (s.act a).calls = [] ∨
      (∃ t, a = .start t ∧ s.started = false ∧ (s.act a).calls = s.callAll .start t) ∨
      (∃ t, a = .tick t ∧ s.isRunning ∧ (s.act a).calls = s.callAll .loop (s.clock t)) ∨
      ∃ t, a = .stop t ∧ s.stopped = false ∧ (s.act a).calls = s.callAll .stop (s.clock t) := by
  cases a with
  | register name target =>
    left
    simp only [act, register]
    split
    · rfl
    · split <;> rfl
  | start t =>
    by_cases h : s.started
    · exact .inl (by rw [act, start, if_pos h])
    · exact .inr (.inl ⟨t, rfl, by simpa using h, by rw [act, start, if_neg h]⟩)
  | tick t =>
    by_cases h : s.isRunning
    · exact .inr (.inr (.inl ⟨t, rfl, h, by rw [act, tick, if_pos h]⟩))
    · exact .inl (by rw [act, tick, if_neg h])
  | stop t =>
    by_cases h : s.stopped
    · exact .inl (by rw [act, stop, if_pos h])
    · exact .inr (.inr (.inr ⟨t, rfl, by simpa using h, by rw [act, stop, if_neg h]⟩))

/-- Once started, a scheduler keeps its slots. It calls all loops at the time that its clock then
shows, or no loop while its clock stands, and it starts none. -/
theorem act_of_started (h : s.started = true) (a : Action α) :
    (s.act a).scheduler.started = true ∧ (s.act a).scheduler.slots = s.slots ∧
      (((s.act a).calls = [] ∧ (s.act a).scheduler.last = s.last) ∨
        ∃ hook t, hook ≠ .start ∧ (s.act a).calls = s.callAll hook (s.clock t) ∧
          (s.act a).scheduler.last = s.clock t) := by
  cases hstopped : s.stopped with
  | true =>
    obtain ⟨hs, hc⟩ := act_of_halted ⟨h, hstopped⟩ a
    rw [hs]
    exact ⟨h, rfl, .inl ⟨hc, rfl⟩⟩
  | false =>
    rcases act_of_running ⟨h, hstopped⟩ a with ⟨t, -, hs, hc⟩ | ⟨t, -, hs, hc⟩ | ⟨-, hs, hc⟩
    · rw [hs]
      exact ⟨h, rfl, .inr ⟨.loop, t, by decide, hc, rfl⟩⟩
    · rw [hs]
      exact ⟨h, rfl, .inr ⟨.stop, t, by decide, hc, rfl⟩⟩
    · rw [hs]
      exact ⟨h, rfl, .inl ⟨hc, rfl⟩⟩

theorem hook_of_mem_callAll {call : Call α} {hook : Hook} {t : Binary64}
    (h : call ∈ s.callAll hook t) : call.hook = hook := by
  obtain ⟨slot, hslot, rfl⟩ := List.mem_mapIdx.1 h
  rfl

/-- Loops are called only for a tick of a scheduler that runs. -/
theorem isRunning_of_loop {a : Action α} {call : Call α} (h : call ∈ (s.act a).calls)
    (hl : call.hook = .loop) : (∃ t, a = .tick t) ∧ s.isRunning := by
  rcases s.calls_act_cases a with hc | ⟨t, -, -, hc⟩ | ⟨t, ha, hr, -⟩ | ⟨t, -, -, hc⟩
  · rw [hc] at h
    cases h
  · rw [hc] at h
    cases (hook_of_mem_callAll h).symm.trans hl
  · exact ⟨⟨t, ha⟩, hr⟩
  · rw [hc] at h
    cases (hook_of_mem_callAll h).symm.trans hl

/-- A scheduler that was stopped stays so. -/
theorem stopped_act (h : s.stopped) (a : Action α) : (s.act a).scheduler.stopped := by
  cases a with
  | register name target =>
    simp only [act, register]
    split
    · exact h
    · split <;> exact h
  | start t =>
    simp only [act, start]
    split <;> exact h
  | tick t =>
    simp only [act, tick]
    split <;> exact h
  | stop t => rwa [act, stop, if_pos h]

end Scheduler
end SignalLights
