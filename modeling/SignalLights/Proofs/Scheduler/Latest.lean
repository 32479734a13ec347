import SignalLights.Proofs.Binary64.Order
import SignalLights.Proofs.Scheduler.Phases

/-!
# The time that loops are told

The clock of a scheduler is a running maximum. From an effective start on, all loops are told one
time, the latest that the scheduler was told so far: NaN counts only as long as nothing else came
(`calls_at_latest`). What the scheduler ignores does not move its clock.
-/

namespace SignalLights
namespace Scheduler

variable {α : Type} {s : Scheduler α} {times : List Binary64}

/-! ## The latest time -/

/-- One of some times, with no number among them that is later. -/
structure IsLatest (now : Binary64) (times : List Binary64) : Prop where
  mem : now ∈ times
  le : ∀ t ∈ times, t.isNaN ∨ t ≤ now

theorem isLatest_singleton (t : Binary64) : IsLatest t [t] := by
  refine ⟨List.mem_cons_self, ?_⟩
  intro u hu
  obtain rfl := List.mem_singleton.1 hu
  cases h : u.isNaN with
  | true => exact .inl rfl
  | false => exact .inr (Binary64.le_refl_of_isNaN_eq_false h)

/-- Only where there is no number is the latest time none. -/
theorem IsLatest.isNaN_iff {now : Binary64} (h : IsLatest now times) :
    now.isNaN ↔ ∀ t ∈ times, t.isNaN := by
  constructor
  · intro hnow t ht
    rcases h.le t ht with hnan | hle
    · exact hnan
    · rw [(Binary64.le_iff.1 hle).2.1] at hnow
      cases hnow
  · exact fun hall => hall now h.mem

/-- The clock takes a time, or holds the one it has, so as to stand at the latest. -/
theorem IsLatest.clock (h : IsLatest s.last times) (t : Binary64) :
    IsLatest (s.clock t) (times ++ [t]) := by
  unfold Scheduler.clock
  cases hheld : s.holds t with
  | true =>
    rw [if_pos rfl]
    rw [holds, Bool.or_eq_true, decide_eq_true_eq] at hheld
    refine ⟨List.mem_append_left _ h.mem, ?_⟩
    intro u hu
    rcases List.mem_append.1 hu with hu | hu
    · exact h.le u hu
    · obtain rfl := List.mem_singleton.1 hu
      exact hheld.symm.imp_right Binary64.le_of_lt
  | false =>
    rw [if_neg Bool.false_ne_true]
    rw [holds, Bool.or_eq_false_iff, decide_eq_false_iff_not] at hheld
    obtain ⟨hnotBefore, hnumber⟩ := hheld
    refine ⟨List.mem_append_right _ List.mem_cons_self, ?_⟩
    intro u hu
    rcases List.mem_append.1 hu with hu | hu
    · -- a number among the times so far is not after the one kept, which then is a number itself
      refine (h.le u hu).imp_right fun hle => ?_
      have hlast : s.last.isNaN = false := (Binary64.le_iff.1 hle).2.1
      exact Binary64.le_trans hle (Binary64.le_of_not_lt hnumber hlast hnotBefore)
    · obtain rfl := List.mem_singleton.1 hu
      exact .inr (Binary64.le_refl_of_isNaN_eq_false hnumber)

/-- A clock that shows a number does not go back. -/
theorem le_clock (h : s.last.isNaN = false) (t : Binary64) : s.last ≤ s.clock t := by
  have hlatest := (isLatest_singleton s.last).clock t
  rcases hlatest.le s.last List.mem_cons_self with hnan | hle
  · rw [h] at hnan
    cases hnan
  · exact hle

/-! ## Runs -/

/-- The time of a tick that is handed on to the loops. -/
def ticks (s : Scheduler α) : Action α → List Binary64
  | .tick t => if s.isRunning then [t] else []
  | _ => []

/-- The times of all ticks that are handed on, in order. -/
def ticked : List (Action α) → Scheduler α → List Binary64
  | [], _ => []
  | a :: actions, s => s.ticks a ++ ticked actions (s.act a).scheduler

/-- A scheduler that was started keeps its slots, and until it is stopped its clock stands at the
latest of the time it was started with and the ticks since. -/
theorem isLatest_run (h : s.started = true) (hlast : s.stopped = false → IsLatest s.last times)
    (actions : List (Action α)) :
    (run actions s).1.started = true ∧ (run actions s).1.slots = s.slots ∧
      ((run actions s).1.stopped = false →
        IsLatest (run actions s).1.last (times ++ ticked actions s)) := by
  induction actions generalizing s times with
  | nil => exact ⟨h, rfl, by simpa [ticked] using hlast⟩
  | cons a actions ih =>
    rw [run_cons, ticked, ← List.append_assoc]
    cases hstopped : s.stopped with
    | true =>
      obtain ⟨hs, -⟩ := act_of_halted ⟨h, hstopped⟩ a
      rw [hs]
      exact ih h fun hnot => absurd (hstopped.symm.trans hnot) (by decide)
    | false =>
      rcases act_of_running ⟨h, hstopped⟩ a with ⟨t, rfl, hs, -⟩ | ⟨t, rfl, hs, -⟩ | ⟨hne, hs, -⟩
      · have hticks : s.ticks (.tick t) = [t] := by simp [ticks, isRunning, h, hstopped]
        rw [hs, hticks]
        exact ih (s := { s with last := s.clock t }) h fun _ => (hlast hstopped).clock t
      · rw [hs]
        refine ih (s := { s with stopped := true, last := s.clock t }) h ?_
        intro hrunning
        cases hrunning
      · have hticks : s.ticks a = [] := by
          cases a with
          | tick t => exact absurd rfl (hne t).1
          | _ => rfl
        rw [hs, hticks, List.append_nil]
        exact ih h hlast

/-! ## What the loops are told -/

/-- Every slot is called once for `hook`, in slot order, and all at one time, the latest of `times`;
there the clock stands afterwards. -/
def Result.CallsAtLatest (r : Result α) (slots : List α) (hook : Hook) (times : List Binary64) :
    Prop :=
  ∃ now, IsLatest now times ∧ (now.isNaN ↔ ∀ t ∈ times, t.isNaN) ∧
    r.calls = slots.mapIdx (fun slot target => ⟨slot, target, hook, now⟩) ∧
    r.scheduler.slots = slots ∧ r.scheduler.last = now

/-- A registration that fails leaves the scheduler as it is. -/
theorem register_of_slot_eq_none {name : String} {target : α}
    (h : (s.register name target).slot = none) :
    (s.register name target).scheduler = s ∧ (s.register name target).calls = [] := by
  unfold register at h ⊢
  split
  · exact ⟨rfl, rfl⟩
  · split
    · next hstarted hfree =>
      rw [if_neg hstarted, if_pos hfree] at h
      cases h
    · exact ⟨rfl, rfl⟩

theorem callsAtLatest_clock {r : Result α} {hook : Hook} {t : Binary64}
    (h : IsLatest s.last times) (hcalls : r.calls = s.callAll hook (s.clock t))
    (hslots : r.scheduler.slots = s.slots) (hlast : r.scheduler.last = s.clock t) :
    r.CallsAtLatest s.slots hook (times ++ [t]) :=
  ⟨s.clock t, h.clock t, (h.clock t).isNaN_iff, hcalls, hslots, hlast⟩

/-- **Loops are told the latest time.** After an effective start and any actions, a tick of a
running scheduler calls every slot once, in slot order, all at the latest of the time of the start
and the times of the ticks handed on, its own among them. The first stop does the same. Any other
action calls no loop and leaves slots and clock as they are, and so does a registration that fails,
whenever it is made. -/
theorem calls_at_latest (h : s.started = false) (t₀ : Binary64) (actions : List (Action α)) :
    let u := (run actions (s.start t₀).scheduler).1
    let times := t₀ :: ticked actions (s.start t₀).scheduler
    (∀ t, u.isRunning → (u.tick t).CallsAtLatest s.slots .loop (times ++ [t])) ∧
      (∀ t, u.stopped = false → (u.stop t).CallsAtLatest s.slots .stop (times ++ [t])) ∧
      (∀ a, (∀ t, a = .tick t → u.isRunning = false) → (∀ t, a = .stop t → u.stopped) →
        (u.act a).scheduler = u ∧ (u.act a).calls = []) ∧
      ∀ (v : Scheduler α) name target, (v.register name target).slot = none →
        (v.register name target).scheduler = v ∧ (v.register name target).calls = [] := by
  intro u times
  have hstart : (s.start t₀).scheduler = { s with started := true, last := t₀ } := by
    simp [start, h]
  have hfirst : IsLatest (s.start t₀).scheduler.last [t₀] := by
    rw [hstart]
    exact isLatest_singleton t₀
  obtain ⟨hstarted, hkept, hlatest⟩ :
      u.started = true ∧ u.slots = (s.start t₀).scheduler.slots ∧
        (u.stopped = false → IsLatest u.last times) :=
    isLatest_run (by rw [hstart]) (fun _ => hfirst) actions
  have hslots : u.slots = s.slots := hkept.trans (by rw [hstart])
  have hrunning (hu : u.isRunning) : u.stopped = false := by
    simpa [isRunning, hstarted] using hu
  refine ⟨?_, ?_, ?_, fun v name target => register_of_slot_eq_none⟩
  · intro t hu
    rw [← hslots]
    refine callsAtLatest_clock (hlatest (hrunning hu)) ?_ ?_ ?_ <;> simp [tick, hu]
  · intro t hu
    rw [← hslots]
    refine callsAtLatest_clock (hlatest hu) ?_ ?_ ?_ <;> simp [stop, hu]
  · intro a htick hstop
    cases a with
    | register name target => simp [act, register, hstarted]
    | start t => simp [act, start, hstarted]
    | tick t => simp [act, tick, htick t rfl]
    | stop t => simp [act, stop, hstop t rfl]

/-- Two loops whose scheduler was started without a time. -/
def pair : Scheduler Nat :=
  (run [.register "loop" 0, .register "loop" 1] initial).1

theorem calls_at_latest_pair :
    let started := (pair.start .nan).scheduler
    let u := (run [.tick .nan, .tick (.ofNat 2), .start .zero, .tick (.ofNat 1)] started).1
    pair.started = false ∧ u.isRunning ∧
      (u.tick .nan).CallsAtLatest [0, 1] .loop
        [.nan, .nan, .ofNat 2, .ofNat 1, .nan] ∧
      (u.stop .zero).CallsAtLatest [0, 1] .stop
        [.nan, .nan, .ofNat 2, .ofNat 1, .zero] := by
  intro started u
  have hrunning : u.isRunning := by decide +kernel
  obtain ⟨hticks, hstops, -⟩ := calls_at_latest (s := pair) rfl .nan
    [.tick .nan, .tick (.ofNat 2), .start .zero, .tick (.ofNat 1)]
  exact ⟨rfl, hrunning, hticks .nan hrunning, hstops .zero (by decide +kernel)⟩

end Scheduler
end SignalLights
