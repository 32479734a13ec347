import Mathlib.Data.List.Induction
import SignalLights.Proofs.Scheduler.Phases

/-!
# The life of a loop

A loop should be started, called, and stopped, in that order, and started and stopped at most once.
A scheduler that is stopped before it was started breaks this for the loops that it has by then:
they are told to stop first, and may be told to start later. There is no other way to break it
(`lifecycle_hooksAt_iff`).
-/

namespace SignalLights
namespace Scheduler

variable {α : Type} {s : Scheduler α} {slot : Nat}

/-! ## Lives -/

/-- What the loop in a slot is called for. -/
def hooksAt (slot : Nat) (calls : List (Call α)) : List Hook :=
  (calls.filter fun c => c.slot = slot).map (·.hook)

def Lifecycle (hooks : List Hook) : Prop :=
  ∃ n, hooks <+: .start :: (List.replicate n .loop ++ [.stop])

/-- The first to come of a start and a stop is a stop, and the slot is taken by then. -/
def StoppedUnstarted (slot : Nat) (s : Scheduler α) (actions : List (Action α)) : Prop :=
  ∃ before time after, actions = before ++ .stop time :: after ∧
    (∀ u, .start u ∉ before ∧ .stop u ∉ before) ∧ slot < (run before s).1.slots.length

@[simp] theorem hooksAt_nil : hooksAt slot ([] : List (Call α)) = [] := rfl

@[simp] theorem hooksAt_append (cs ds : List (Call α)) :
    hooksAt slot (cs ++ ds) = hooksAt slot cs ++ hooksAt slot ds := by
  simp [hooksAt]

theorem hooksAt_callAll (s : Scheduler α) (hook : Hook) (time : Binary64) :
    hooksAt slot (s.callAll hook time) = if slot < s.slots.length then [hook] else [] := by
  unfold callAll
  induction s.slots using List.reverseRecOn with
  | nil => simp
  | append_singleton targets target ih =>
    rw [List.mapIdx_concat, hooksAt_append, ih, List.length_append, List.length_singleton]
    rcases Nat.lt_trichotomy slot targets.length with h | h | h
    · simp [hooksAt, h, Nat.lt_succ_of_lt h, Nat.ne_of_gt h]
    · simp [hooksAt, h]
    · have : ¬ slot < targets.length + 1 := by omega
      simp [hooksAt, Nat.ne_of_lt h, Nat.lt_asymm h, this]

theorem lifecycle_nil : Lifecycle [] := ⟨0, List.nil_prefix⟩

theorem lifecycle_start : Lifecycle [.start] := ⟨0, [.stop], rfl⟩

theorem not_lifecycle_stop_cons (hooks : List Hook) : ¬ Lifecycle (.stop :: hooks) := by
  rintro ⟨n, h⟩
  have := (List.cons_prefix_cons.mp h).1
  contradiction

/-! ## When a stop comes before a start -/

section StoppedUnstarted

variable {actions : List (Action α)} {time : Binary64}

theorem not_stoppedUnstarted_nil : ¬ StoppedUnstarted slot s [] := by
  rintro ⟨before, _, _, h, -⟩
  cases before <;> cases h

theorem not_stoppedUnstarted_start : ¬ StoppedUnstarted slot s (.start time :: actions) := by
  rintro ⟨before, _, _, h, hb, -⟩
  cases before with
  | nil => cases h
  | cons =>
    cases h
    exact (hb time).1 List.mem_cons_self

theorem stoppedUnstarted_stop_iff :
    StoppedUnstarted slot s (.stop time :: actions) ↔ slot < s.slots.length := by
  constructor
  · rintro ⟨before, _, _, h, hb, hs⟩
    cases before with
    | nil => exact hs
    | cons =>
      cases h
      exact absurd List.mem_cons_self (hb time).2
  · exact fun hs => ⟨[], time, actions, rfl, by simp, hs⟩

theorem stoppedUnstarted_cons_iff {a : Action α} (ha : ∀ u, a ≠ .start u ∧ a ≠ .stop u) :
    StoppedUnstarted slot s (a :: actions) ↔ StoppedUnstarted slot (s.act a).scheduler actions := by
  constructor
  · rintro ⟨before, time, after, h, hb, hs⟩
    cases before with
    | nil =>
      cases h
      exact absurd rfl (ha time).2
    | cons =>
      cases h
      refine ⟨_, time, after, rfl, fun u => ?_, hs⟩
      exact ⟨fun hm => (hb u).1 (List.mem_cons_of_mem _ hm),
        fun hm => (hb u).2 (List.mem_cons_of_mem _ hm)⟩
  · rintro ⟨before, time, after, rfl, hb, hs⟩
    refine ⟨a :: before, time, after, rfl, fun u => ?_, hs⟩
    simp only [List.mem_cons, not_or]
    exact ⟨⟨(ha u).1.symm, (hb u).1⟩, ⟨(ha u).2.symm, (hb u).2⟩⟩

end StoppedUnstarted

/-! ## Calls from each phase on -/

theorem calls_run_of_halted (h : s.started = true ∧ s.stopped = true) (actions : List (Action α)) :
    (run actions s).2 = [] := by
  induction actions with
  | nil => rfl
  | cons a actions ih =>
    obtain ⟨hs, hc⟩ := act_of_halted h a
    rw [run_cons, hs, hc, ih, List.append_nil]

theorem hooksAt_run_of_running (slot : Nat) (h : s.started = true ∧ s.stopped = false)
    (actions : List (Action α)) :
    (slot < s.slots.length →
      ∃ n, hooksAt slot (run actions s).2 <+: .replicate n .loop ++ [.stop]) ∧
    (¬ slot < s.slots.length → hooksAt slot (run actions s).2 = []) := by
  induction actions generalizing s with
  | nil => exact ⟨fun _ => ⟨0, List.nil_prefix⟩, fun _ => rfl⟩
  | cons a actions ih =>
    rcases act_of_running h a with ⟨t, -, hs, hc⟩ | ⟨t, -, hs, hc⟩ | ⟨-, hs, hc⟩
    · rw [run_cons, hs, hc, hooksAt_append, hooksAt_callAll]
      obtain ⟨hin, hout⟩ := ih (s := { s with last := s.clock t }) h
      refine ⟨fun hl => ?_, fun hl => ?_⟩
      · obtain ⟨n, hn⟩ := hin hl
        refine ⟨n + 1, ?_⟩
        rw [if_pos hl, List.replicate_succ]
        exact List.cons_prefix_cons.mpr ⟨rfl, hn⟩
      · rw [if_neg hl, hout hl, List.append_nil]
    · rw [run_cons, hs, hc, hooksAt_append, hooksAt_callAll,
        calls_run_of_halted (s := { s with stopped := true, last := s.clock t }) ⟨h.1, rfl⟩]
      refine ⟨fun hl => ⟨0, ?_⟩, fun hl => ?_⟩
      · rw [if_pos hl]
        exact List.prefix_refl _
      · rw [if_neg hl, hooksAt_nil, List.append_nil]
    · rw [run_cons, hs, hc]
      exact ih h

theorem hooksAt_run_of_stoppedUnstarted (slot : Nat) (h : s.started = false ∧ s.stopped = true)
    (actions : List (Action α)) :
    hooksAt slot (run actions s).2 = [] ∨ hooksAt slot (run actions s).2 = [.start] := by
  induction actions generalizing s with
  | nil => exact .inl rfl
  | cons a actions ih =>
    rcases act_of_stoppedUnstarted h a with ⟨t, hs, hc⟩ | ⟨hc, hs⟩
    · rw [run_cons, hs, hc, hooksAt_append, hooksAt_callAll,
        calls_run_of_halted (s := { s with started := true, last := t }) ⟨rfl, h.2⟩]
      split
      · exact .inr rfl
      · exact .inl rfl
    · rw [run_cons, hc]
      exact ih hs

theorem hooksAt_run_of_fresh (slot : Nat) (h : s.started = false ∧ s.stopped = false)
    (actions : List (Action α)) :
    (¬ StoppedUnstarted slot s actions → Lifecycle (hooksAt slot (run actions s).2)) ∧
    (StoppedUnstarted slot s actions →
      hooksAt slot (run actions s).2 = [.stop] ∨
        hooksAt slot (run actions s).2 = [.stop, .start]) := by
  induction actions generalizing s with
  | nil => exact ⟨fun _ => lifecycle_nil, fun hu => absurd hu not_stoppedUnstarted_nil⟩
  | cons a actions ih =>
    rcases act_of_fresh h a with ⟨t, rfl, hs, hc⟩ | ⟨t, rfl, hs, hc⟩ | ⟨ha, hc, hs⟩
    · refine ⟨fun _ => ?_, fun hu => absurd hu not_stoppedUnstarted_start⟩
      obtain ⟨hin, hout⟩ := hooksAt_run_of_running slot
        (s := { s with started := true, last := t }) ⟨rfl, h.2⟩ actions
      rw [run_cons, hs, hc, hooksAt_append, hooksAt_callAll]
      split
      next hl =>
        obtain ⟨n, hn⟩ := hin hl
        exact ⟨n, List.cons_prefix_cons.mpr ⟨rfl, hn⟩⟩
      next hl =>
        rw [hout hl]
        exact lifecycle_nil
    · have hrest := hooksAt_run_of_stoppedUnstarted slot
        (s := { s with stopped := true, last := s.clock t }) ⟨h.1, rfl⟩ actions
      rw [stoppedUnstarted_stop_iff, run_cons, hs, hc, hooksAt_append, hooksAt_callAll]
      refine ⟨fun hl => ?_, fun hl => ?_⟩
      · rw [if_neg hl, List.nil_append]
        rcases hrest with hh | hh
        · rw [hh]
          exact lifecycle_nil
        · rw [hh]
          exact lifecycle_start
      · rw [if_pos hl]
        rcases hrest with hh | hh
        · exact .inl (by rw [hh]; rfl)
        · exact .inr (by rw [hh]; rfl)
    · rw [stoppedUnstarted_cons_iff ha, run_cons, hc]
      exact ih hs

/-- A loop has a proper life unless its scheduler is stopped before it was started. -/
theorem lifecycle_hooksAt_iff (slot : Nat) (actions : List (Action α)) :
    (Lifecycle (hooksAt slot (run actions initial).2) ↔ ¬ StoppedUnstarted slot initial actions) ∧
    (StoppedUnstarted slot initial actions →
      hooksAt slot (run actions initial).2 = [.stop] ∨
        hooksAt slot (run actions initial).2 = [.stop, .start]) := by
  obtain ⟨hproper, hbad⟩ := hooksAt_run_of_fresh (s := initial) slot ⟨rfl, rfl⟩ actions
  refine ⟨⟨fun hl hu => ?_, hproper⟩, hbad⟩
  rcases hbad hu with hh | hh
  · exact not_lifecycle_stop_cons _ (hh ▸ hl)
  · exact not_lifecycle_stop_cons _ (hh ▸ hl)

/-- A loop registered with a scheduler that is stopped at once. -/
theorem not_lifecycle_of_register_stop :
    ¬ Lifecycle (hooksAt 0 (run [.register "loop" (), .stop .zero] initial).2) :=
  not_lifecycle_stop_cons []

end Scheduler
end SignalLights
