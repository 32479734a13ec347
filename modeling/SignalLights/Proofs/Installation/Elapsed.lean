import SignalLights.Proofs.Controller.Elapsed
import SignalLights.Proofs.Installation.Lights
import SignalLights.Proofs.Scheduler.Latest

/-!
# Time spent in a mode, under a scheduler

A scheduler started at a finite time tells its loops times in order from then on, and a machine
takes over no time that it was not told. So a controller that leaves its lifecycle to the scheduler
never finds its mode entered later than now, whatever times the ticks come with
(`elapsed_nonneg`).
-/

namespace SignalLights

theorem Operation.starts_of_isLifecycle_eq_false {op : Operation} (h : op.isLifecycle = false) :
    op.starts = false := by
  cases op with
  | handle command => cases command <;> rfl
  | start | loop | stop => cases h
  | _ => rfl

/-- Times in order, with one of them told any number of times. -/
theorem Binary64.inOrder_replicate {last now : Binary64} {times : List Binary64} (h : last ≤ now)
    (htimes : (now :: times).Pairwise (· ≤ ·)) (n : Nat) :
    (last :: (.replicate n now ++ times)).Pairwise (· ≤ ·) := by
  induction n generalizing last with
  | zero =>
    obtain ⟨hnow, hrest⟩ := List.pairwise_cons.1 htimes
    exact List.pairwise_cons.2 ⟨fun t ht => le_trans h (hnow t ht), hrest⟩
  | succ n ih =>
    have hself : now ≤ now := le_refl_of_isNaN_eq_false (le_iff.1 h).2.1
    rw [List.replicate_succ, List.cons_append]
    refine List.pairwise_cons.2 ⟨?_, ih hself⟩
    intro t ht
    rcases List.mem_cons.1 ht with rfl | ht
    · exact h
    · exact le_trans h (List.rel_of_pairwise_cons (ih hself) ht)

namespace Installation

open Operation (loopTimes)

variable {s : Installation} {i : Nat} {a : Action} {actions : List Action} {now : Binary64}

theorem Action.loopTimes_direct (ha : a.leavesLifecycleOf i) : loopTimes (a.direct i) = [] := by
  refine List.eq_nil_iff_forall_not_mem.2 fun t ht => ?_
  exact loop_notMem_direct ha t (Operation.mem_loopTimes_iff.1 ht)

/-! ## Since the start -/

/-- Once the scheduler was started, a controller receives what is performed on it, or calls at the
time that the clock then shows. -/
theorem sent_of_started (h : s.scheduler.started = true) (i : Nat) (a : Action) :
    (s.act a).installation.scheduler.started = true ∧
      ((s.sent i a = a.direct i ∧ (s.act a).installation.scheduler.last = s.scheduler.last) ∨
        ∃ (hook : Hook) (t : Binary64) (n : Nat), hook ≠ .start ∧
          s.sent i a = .replicate n (hook.operation (s.scheduler.clock t)) ∧
          (s.act a).installation.scheduler.last = s.scheduler.clock t) := by
  rw [scheduler_act]
  unfold sent calls
  cases hb : s.asks a with
  | none => exact ⟨h, .inl ⟨List.append_nil _, rfl⟩⟩
  | some b =>
    dsimp only
    obtain ⟨hs, -, ⟨hc, hl⟩ | ⟨hook, t, hne, hc, hl⟩⟩ := Scheduler.act_of_started h b
    · refine ⟨hs, .inl ⟨?_, hl⟩⟩
      rw [hc]
      exact List.append_nil _
    · refine ⟨hs, .inr ⟨hook, t, s.scheduler.slots.count (.controller i), hne, ?_, hl⟩⟩
      rw [direct_of_asks hb, hc]
      exact addressed_callAll i s.scheduler hook _

theorem started_run (h : s.scheduler.started = true) (actions : List Action) :
    (run actions s).1.scheduler.started = true := by
  induction actions generalizing s with
  | nil => exact h
  | cons a actions ih => exact ih (sent_of_started h 0 a).1

/-- A controller that leaves its lifecycle to the scheduler is not ticked before the start. -/
theorem started_of_loop (hactions : ∀ a ∈ actions, a.leavesLifecycleOf i)
    (h : .loop now ∈ received i actions s) : (run actions s).1.scheduler.started = true := by
  induction actions generalizing s with
  | nil => cases h
  | cons a actions ih =>
    have ha := hactions a List.mem_cons_self
    rw [received, List.mem_append] at h
    rcases h with hnow | hlater
    · obtain ⟨-, hrunning⟩ := isRunning_of_loop ha hnow
      have hstarted : s.scheduler.started = true := (Bool.and_eq_true_iff.1 hrunning).1
      exact started_run hstarted (a :: actions)
    · exact ih (fun b hb => hactions b (List.mem_cons_of_mem a hb)) hlater

theorem loopTimes_calls (n : Nat) (hook : Hook) (t : Binary64) :
    ∃ m, loopTimes (.replicate n (hook.operation t)) = .replicate m t := by
  cases hook with
  | loop => exact ⟨n, List.filterMap_replicate_of_some rfl⟩
  | start | stop => exact ⟨0, List.filterMap_replicate_of_none rfl⟩

/-- From the start on, a controller that leaves its lifecycle to the scheduler is ticked in order of
time, never before the time of the clock, and not started again. -/
theorem received_of_started (h : s.scheduler.started = true)
    (hlast : s.scheduler.last.isNaN = false) (hactions : ∀ a ∈ actions, a.leavesLifecycleOf i) :
    (s.scheduler.last :: loopTimes (received i actions s)).Pairwise (· ≤ ·) ∧
      ∀ op ∈ received i actions s, op.starts = false := by
  induction actions generalizing s with
  | nil => exact ⟨List.pairwise_singleton _ _, nofun⟩
  | cons a actions ih =>
    have ha := hactions a List.mem_cons_self
    have hrest : ∀ b ∈ actions, b.leavesLifecycleOf i :=
      fun b hb => hactions b (List.mem_cons_of_mem a hb)
    rw [received, Operation.loopTimes_append]
    rcases sent_of_started h i a with ⟨hs, ⟨hsent, hl⟩ | ⟨hook, t, n, hne, hsent, hl⟩⟩
    · obtain ⟨horder, hstarts⟩ := ih hs (by rwa [hl]) hrest
      rw [hsent, Action.loopTimes_direct ha, ← hl]
      refine ⟨horder, fun op hop => ?_⟩
      rcases List.mem_append.1 hop with hop | hop
      · exact Operation.starts_of_isLifecycle_eq_false (Action.isLifecycle_of_mem_direct ha hop)
      · exact hstarts op hop
    · have hclock : s.scheduler.last ≤ s.scheduler.clock t := Scheduler.le_clock hlast t
      obtain ⟨horder, hstarts⟩ := ih hs (by rw [hl]; exact (Binary64.le_iff.1 hclock).2.1) hrest
      obtain ⟨m, hm⟩ := loopTimes_calls n hook (s.scheduler.clock t)
      rw [hl] at horder
      rw [hsent, hm]
      refine ⟨Binary64.inOrder_replicate hclock horder m, fun op hop => ?_⟩
      rcases List.mem_append.1 hop with hop | hop
      · rw [List.eq_of_mem_replicate hop]
        cases hook with
        | start => exact absurd rfl hne
        | loop | stop => rfl
      · exact hstarts op hop

/-! ## From the construction on -/

/-- What comes first of two lists that together hold `x` does not hold it. -/
theorem exists_append_of_notMem {α : Type} {x : α} {first second before after : List α}
    (h : first ++ second = before ++ x :: after) (hx : x ∉ first) :
    ∃ between, before = first ++ between ∧ second = between ++ x :: after := by
  rcases List.append_eq_append_iff.1 h with ⟨between, hbefore, hsecond⟩ | ⟨rest, hfirst, hsecond⟩
  · exact ⟨between, hbefore, hsecond⟩
  · cases rest with
    | nil => exact ⟨[], by simpa using hfirst.symm, hsecond.symm⟩
    | cons y rest =>
      obtain ⟨rfl, -⟩ := List.cons.inj hsecond
      exact absurd (by simp [hfirst]) hx

/-- **Time is never negative.** A scheduler is started at a finite time, with a controller in its
slots that nobody else starts, ticks or stops. Whatever else is done before and after, and whatever
times the ticks come with, every tick that the controller receives finds its mode entered by then,
and counts no time below zero. -/
theorem elapsed_nonneg {controllers : List Controller}
    (hc : ∀ c ∈ controllers, c.Reachable) {before after : List Action} {t₀ : Binary64}
    (ht₀ : t₀.isFinite)
    (hstarted : (run before (initial controllers)).1.scheduler.started = false)
    (hslot : .controller i ∈ (run before (initial controllers)).1.scheduler.slots)
    (hactions : ∀ a ∈ before ++ after, a.leavesLifecycleOf i) {c : Controller}
    (hget : controllers[i]? = some c) {ops later : List Operation}
    (hops : received i (before ++ .start t₀ :: after) (initial controllers) =
      ops ++ .loop now :: later) :
    let d := (Controller.run ops c).1
    (d.isInitialized → d.machine.since ≤ now) ∧
      .zero ≤ (Controller.loop now d).1.context.elapsed := by
  intro d
  let s := (run before (initial controllers)).1
  obtain ⟨hscheduler, hsent⟩ := act_start (s := s) (i := i) hstarted t₀
  rw [received_append, received, hsent] at hops
  have hbefore : .loop now ∉ received i before (initial controllers) := fun hnow => by
    have h := started_of_loop (fun a ha => hactions a (List.mem_append_left _ ha)) hnow
    exact absurd (h.symm.trans hstarted) (by decide)
  have hstart : .loop now ∉
      List.replicate (s.scheduler.slots.count (.controller i)) (Operation.start t₀) :=
    fun hnow => by cases List.eq_of_mem_replicate hnow
  obtain ⟨since, rfl, hsince⟩ := exists_append_of_notMem hops hbefore
  obtain ⟨recent, rfl, hrecent⟩ := exists_append_of_notMem hsince hstart
  obtain ⟨horder, hstarts⟩ := received_of_started (s := (s.act (.start t₀)).installation)
    (by rw [hscheduler])
    (by rw [hscheduler]; exact Binary64.isNaN_eq_false_of_isFinite ht₀)
    (fun a ha => hactions a (List.mem_append_right before ha))
  rw [hrecent] at horder hstarts
  have hentered (hi : d.isInitialized) : d.machine.since ≤ now := by
    simp only [d, Controller.run_append, Controller.isInitialized_run] at hi ⊢
    have hfrom := Controller.since_starts
      ((Controller.isInitialized_run (received i before (initial controllers)) c).trans hi) ht₀
      (List.count_pos_iff.2 hslot)
    rw [hscheduler, ← hfrom] at horder
    refine Controller.since_le_of_inOrder ?_ horder
    exact fun op hop => hstarts op (List.mem_append_left _ hop)
  exact ⟨hentered, ((hc c (List.mem_of_getElem? hget)).run _).zero_le_elapsed_loop hentered⟩

/-- A board with every output. -/
def board : Controller := (Controller.history .standard (.ok ⟨.all true, true⟩) []).1

/-- Ticks at 6 s, back at 3 s, without a time and at infinity, and requests between them. -/
def restless : List Action :=
  [.perform 0 (.want .blink), .tick (.ofNat 6), .tick (.ofNat 3), .perform 0 (.want .off),
    .tick .nan, .tick .infinity, .tick .zero]

/-- The board when its second tick comes, one held at 6 s. -/
def heldBack : Controller :=
  (Controller.run [.start (.ofNat 5), .want .blink, .loop (.ofNat 6)] board).1

theorem elapsed_nonneg_restless :
    received 0 (.registerEnabled 0 :: .start (.ofNat 5) :: restless) (initial [board]) =
        [.start (.ofNat 5), .want .blink, .loop (.ofNat 6), .loop (.ofNat 6), .want .off,
          .loop (.ofNat 6), .loop .infinity, .loop .infinity] ∧
      heldBack.machine.since ≤ .ofNat 6 ∧
      .zero ≤ (Controller.loop (.ofNat 6) heldBack).1.context.elapsed := by
  have hops : received 0 (.registerEnabled 0 :: .start (.ofNat 5) :: restless) (initial [board]) =
      [.start (.ofNat 5), .want .blink, .loop (.ofNat 6), .loop (.ofNat 6), .want .off,
        .loop (.ofNat 6), .loop .infinity, .loop .infinity] := by
    decide +kernel
  have hboard : ∀ c ∈ [board], c.Reachable := fun c hc => ⟨_, _, _, List.mem_singleton.1 hc⟩
  have h := @elapsed_nonneg 0 (.ofNat 6) [board] hboard [.registerEnabled 0]
    restless (.ofNat 5) (by decide +kernel) (by decide +kernel) (by decide +kernel)
    (by decide +kernel) board rfl [.start (.ofNat 5), .want .blink, .loop (.ofNat 6)] _ hops
  unfold heldBack
  exact ⟨hops, h.1 (by decide +kernel), h.2⟩

end Installation
end SignalLights
