import SignalLights.Proofs.Controller.BlinkRun
import SignalLights.Proofs.Controller.Numbers

/-!
# Time spent in a mode

Only a start and a tick move the moment a mode was entered, and a tick moves it at most to its own
time. So as long as the times of ticks do not go back, no tick finds a mode that was entered later
(`since_le_of_inOrder`), and none counts a time below zero.
-/

namespace SignalLights

namespace Operation

/-- The time of a tick. -/
def loopTime? : Operation → Option Binary64
  | loop now => some now
  | _ => none

/-- The times of the ticks, in order. -/
def loopTimes (ops : List Operation) : List Binary64 := ops.filterMap loopTime?

variable {op : Operation}

@[simp] theorem loopTimes_nil : loopTimes [] = [] := rfl

@[simp] theorem loopTimes_cons_loop (now : Binary64) (ops : List Operation) :
    loopTimes (loop now :: ops) = now :: loopTimes ops := rfl

theorem loopTimes_cons_of_ne_loop (hop : ∀ now, op ≠ loop now) (ops : List Operation) :
    loopTimes (op :: ops) = loopTimes ops := by
  cases op with
  | loop now => exact absurd rfl (hop now)
  | _ => rfl

@[simp] theorem loopTimes_append (ops more : List Operation) :
    loopTimes (ops ++ more) = loopTimes ops ++ loopTimes more := List.filterMap_append

theorem mem_loopTimes_iff {ops : List Operation} {now : Binary64} :
    now ∈ loopTimes ops ↔ .loop now ∈ ops := by
  rw [loopTimes, List.mem_filterMap]
  constructor
  · rintro ⟨op, hop, htime⟩
    cases op with
    | loop t =>
      cases htime
      exact hop
    | _ => cases htime
  · exact fun h => ⟨_, h, rfl⟩

/-- Neither a start nor a tick: the machine stays as it is. -/
theorem machine_advance_of_ne_loop (hop : ∀ now, op ≠ loop now) (hstarts : op.starts = false)
    (core : Machine × Context) : (op.advance core).1 = core.1 := by
  have hplain := plain_ne_loop hop
  unfold starts at hstarts
  unfold advance
  generalize op.plain = q at hplain hstarts
  cases q with
  | loop now => exact absurd rfl (hplain now)
  | start now => cases hstarts
  | _ => rfl

end Operation

namespace Controller

open Operation (loopTimes)

variable {c : Controller} {now : Binary64}

theorem machine_step_of_ne_loop {op : Operation} (hop : ∀ now, op ≠ .loop now)
    (hstarts : op.starts = false) : (op.step c).1.machine = c.machine := by
  cases hi : c.isInitialized with
  | false => rw [step_inert op hi]
  | true =>
    have hmachine : (op.step c).1.machine = (op.advance c.core).1 :=
      congrArg Prod.fst (core_step op hi)
    rw [hmachine, Operation.machine_advance_of_ne_loop hop hstarts]
    rfl

/-- A tick that does not come before the mode was entered leaves one that was entered by then. -/
theorem since_loop_le (h : c.machine.since ≤ now) : (loop now c).1.machine.since ≤ now := by
  cases hi : c.isInitialized with
  | false => rwa [loop_inert now hi]
  | true =>
    have hmachine : (loop now c).1.machine =
        (c.machine.tick Row.standard c.context now).machine :=
      congrArg Prod.fst (core_step (.loop now) hi)
    rw [hmachine]
    rcases c.machine.tick_cases c.context now with ⟨-, hsame⟩ | ⟨next, -, -, hnext⟩
    · rwa [hsame]
    · rw [hnext]
      unfold Machine.timeOf
      split
      · next hfinite => exact Binary64.le_refl_of_isFinite hfinite
      · exact h

/-- As long as ticks come in order, and none before the mode was entered, no tick finds a mode that
was entered later. -/
theorem since_le_of_inOrder {ops later : List Operation}
    (hstarts : ∀ op ∈ ops, op.starts = false)
    (horder : (c.machine.since :: loopTimes (ops ++ .loop now :: later)).Pairwise (· ≤ ·)) :
    (run ops c).1.machine.since ≤ now := by
  induction ops generalizing c with
  | nil => exact List.rel_of_pairwise_cons horder List.mem_cons_self
  | cons op ops ih =>
    have hrest : ∀ op' ∈ ops, op'.starts = false :=
      fun op' hop' => hstarts op' (List.mem_cons_of_mem op hop')
    rw [run_cons]
    rcases op.eq_loop_or with ⟨t, rfl⟩ | hop
    · rw [List.cons_append, Operation.loopTimes_cons_loop, List.pairwise_cons] at horder
      obtain ⟨hsince, hticks⟩ := horder
      have hentered : (loop t c).1.machine.since ≤ t := since_loop_le (hsince t List.mem_cons_self)
      obtain ⟨hlater, hticks'⟩ := List.pairwise_cons.1 hticks
      refine ih hrest (List.pairwise_cons.2 ⟨?_, hticks'⟩)
      exact fun u hu => Binary64.le_trans hentered (hlater u hu)
    · rw [List.cons_append, Operation.loopTimes_cons_of_ne_loop hop] at horder
      refine ih hrest ?_
      rwa [machine_step_of_ne_loop hop (hstarts op List.mem_cons_self)]

/-- A controller with hardware counts from the last of some starts at a finite time. -/
theorem since_starts (hi : c.isInitialized) {t : Binary64}
    (ht : t.isFinite) {n : Nat} (hn : 0 < n) :
    (run (.replicate n (.start t)) c).1.machine.since = t := by
  obtain ⟨k, rfl⟩ := Nat.exists_eq_succ_of_ne_zero hn.ne'
  rw [List.replicate_succ', run_append]
  have hi' := (isInitialized_run (.replicate k (.start t)) c).trans hi
  refine (congrArg (fun core => core.1.since) (core_step (.start t) hi')).trans ?_
  exact if_pos ht

/-- The time spent in a mode, as a tick counts it. -/
theorem elapsed_loop (hi : c.isInitialized) (now : Binary64) :
    (loop now c).1.context.elapsed = c.machine.timeOf now - c.machine.since := by
  have hcontext : (loop now c).1.context = (c.machine.tick Row.standard c.context now).context :=
    congrArg Prod.snd (core_step (.loop now) hi)
  rw [hcontext, Machine.elapsed_tick]

theorem Reachable.elapsed_of_inert (hc : c.Reachable) (hi : c.isInitialized = false) :
    c.context.elapsed = .zero := by
  refine hc.holds (P := fun d => d.isInitialized = false → d.core.2.elapsed = .zero) ?_ ?_ hi
  · intro config hardware _
    rw [new, core_build]
    rfl
  · intro op d hd hop
    rw [isInitialized_step] at hop
    rw [step_inert op hop]
    exact hd hop

/-- A tick that does not come before the mode was entered counts no time below zero. -/
theorem Reachable.zero_le_elapsed_loop (hc : c.Reachable)
    (h : c.isInitialized → c.machine.since ≤ now) : .zero ≤ (loop now c).1.context.elapsed := by
  cases hi : c.isInitialized with
  | false =>
    rw [loop_inert now hi, hc.elapsed_of_inert hi]
    exact Binary64.le_refl_of_isFinite (by decide)
  | true =>
    have hsince := hc.isFinite_since
    rw [elapsed_loop hi, Machine.timeOf_sub_since hsince, Machine.elapsedAt]
    split
    · next hnow =>
      rw [← Binary64.sub_self_of_isFinite hsince]
      exact Binary64.sub_le_sub_right hsince hnow hsince (h hi)
    · exact Binary64.le_refl_of_isFinite (by decide)

end Controller
end SignalLights
