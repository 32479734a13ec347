import SignalLights.Proofs.Controller.RunStart
import SignalLights.Proofs.Controller.SelfClearing
import SignalLights.Proofs.Controller.TickRate

/-!
# A clock that stands still

A scheduler repeats the last time when its clock fails. The first tick at that time may change the
mode, and then no time has gone by in the new one: the second tick does not end it, and what was
asked for is what has been entered. So the second tick stays, and shows the levels of that mode; to
a third one there is nothing left to do (`held_clock_settles`).
-/

namespace SignalLights

def Event.isModeChange : Event → Bool
  | modeChanged _ _ => true
  | _ => false

namespace Effect

/-- The changes of mode reported, in order. -/
def modeChanges (es : List Effect) : List Event := (events es).filter Event.isModeChange

theorem modeChanges_append (es fs : List Effect) :
    modeChanges (es ++ fs) = modeChanges es ++ modeChanges fs := by
  rw [modeChanges, events_append, List.filter_append]
  rfl

theorem modeChanges_notices (ns : List Notice) : modeChanges (ns.map .notice) = [] := by
  rw [modeChanges, events_notices]
  rfl

theorem modeChanges_eq (es : List Effect) :
    modeChanges es = (machineEvents es).filter Event.isModeChange := by
  rw [modeChanges, machineEvents, List.filter_filter]
  apply List.filter_congr
  intro e _
  cases e <;> rfl

end Effect

namespace Controller

open Effect (levels frames events modeChanges)

variable {c : Controller} {now : Binary64}

/-! ## Changes of mode -/

theorem modeChanges_loop (hi : c.isInitialized) (now : Binary64) :
    modeChanges (loop now c).2 =
      (c.machine.tick Row.standard c.context now).transition.toList.map
        fun t => .modeChanged t.source t.target := by
  rw [Effect.modeChanges_eq, machineEvents_loop hi now, List.filter_append]
  generalize c.machine.tick Row.standard c.context now = t
  have hwanted : (if t.context.wanted = c.wanted then []
      else [.wantedChanged t.context.wanted]).filter Event.isModeChange = [] := by
    split <;> rfl
  rw [hwanted, List.append_nil]
  cases t.transition <;> rfl

theorem length_modeChanges_loop_le (now : Binary64) (c : Controller) :
    (modeChanges (loop now c).2).length ≤ 1 := by
  cases hi : c.isInitialized with
  | false =>
    rw [loop_inert now hi]
    exact Nat.zero_le 1
  | true =>
    rw [modeChanges_loop hi now, List.length_map]
    cases (c.machine.tick Row.standard c.context now).transition with
    | none => exact Nat.zero_le 1
    | some t => exact Nat.le_refl 1

theorem modeChanges_loop_of_stays (hi : c.isInitialized) (h : (loop now c).1.mode = c.mode) :
    modeChanges (loop now c).2 = [] := by
  rw [modeChanges_loop hi now, Machine.tick_of_stays (mode_tick_of_stays hi h)]
  rfl

/-- No time has gone by in a mode that was entered just now. -/
theorem not_isOverdue_of_entered (hi : c.isInitialized) (h : (loop now c).1.mode ≠ c.mode) :
    ¬ (loop now c).1.IsOverdue now := by
  have helapsed : Machine.elapsedAt (loop now c).1.machine.since now = .zero := by
    rw [Machine.elapsedAt, since_loop hi h]
    split
    · next hfin =>
      rw [Machine.timeOf, if_pos hfin]
      exact Binary64.sub_self_of_isFinite hfin
    · rfl
  rw [IsOverdue, helapsed]
  exact Cadence.not_total_add_tolerance_lt_zero _

/-- The second of two ticks at one time stays in the mode. -/
theorem Reachable.mode_loop_loop (hc : c.Reachable) (hi : c.isInitialized) (now : Binary64) :
    (loop now (loop now c).1).1.mode = (loop now c).1.mode := by
  by_cases hsame : (loop now c).1.mode = c.mode
  · exact congrArg mode (loop_loop hsame now).1
  · have hd : (loop now c).1.Reachable := hc.step (.loop now)
    have hdi : (loop now c).1.isInitialized := (isInitialized_step (.loop now) c).trans hi
    have hlasts : ¬ (loop now c).1.IsOver now := fun h => not_isOverdue_of_entered hi hsame h.2
    rw [((hd.loop_decides hdi now).2 hlasts).1]
    rcases hc.mode_loop hi now with hserves | hblinks
    · rw [Mode.next, ← hserves]
      split
      · next h => exact h.symm
      · rfl
    · rw [hblinks]
      rfl

/-! ## Nothing left to do -/

theorem driveDemand_of_shown {ch : Channel} {demand : Option Bool} (hpolicy : c.policy = .onChange)
    (h : ∀ on, demand = some on → c.has ch → c.latches.level ch = some on) :
    driveDemand ch demand c = (c, []) := by
  cases demand with
  | none => rfl
  | some on =>
    have hshown : c.needsWrite ch on = false := by
      cases hhas : c.has ch with
      | false => simp [needsWrite, hhas]
      | true => simp [needsWrite, hpolicy, h on rfl hhas]
    change drive ch on c = (c, [])
    rw [drive_eq, hshown]
    rfl

theorem tick_of_fixed (hi : c.isInitialized) (h : (loop now c).1 = c) :
    c.machine.tick Row.standard c.context now =
      ⟨c.machine, c.context, none, Machine.timeNotices now⟩ := by
  have hcore : (Operation.loop now).advance c.core = c.core :=
    (core_step (.loop now) hi).symm.trans (congrArg core h)
  have hcontext : (c.machine.tick Row.standard c.context now).context = c.context :=
    congrArg Prod.snd hcore
  rw [Machine.tick_of_stays (mode_tick_of_stays hi (congrArg mode h))] at hcontext ⊢
  exact congrArg (Machine.Tick.mk c.machine · none (Machine.timeNotices now)) hcontext

/-- A tick that leaves everything as it is has no effect, but for the notice of a time that is not
finite. -/
theorem Reachable.loop_of_fixed (hc : c.Reachable) (hi : c.isInitialized)
    (h : (loop now c).1 = c) : loop now c = (c, (Machine.timeNotices now).map .notice) := by
  have htick := tick_of_fixed hi h
  have hdrive {ch : Channel} {demand : Option Bool}
      (hdemand : (Operation.loop now).commanded c.core ch = demand) :
      driveDemand ch demand c = (c, []) := by
    apply driveDemand_of_shown (hc.policy_eq hi)
    intro on hon hhas
    have hlevel := level_step (.loop now) hi ch
    rwa [Operation.step, h, if_pos hhas, hdemand, hon] at hlevel
  have hdriver : driveDemand .driver c.context.demand.driver c = (c, []) :=
    hdrive (congrArg (·.context.demand.driver) htick)
  have hstrip : driveDemand .strip c.context.demand.strip c = (c, []) :=
    hdrive (congrArg (·.context.demand.strip) htick)
  rw [loop, guarded_apply _ hi]
  simp [htick, hdriver, hstrip, reportTransition, wanted, Step.onlyIf]

/-- The second of two ticks at one time leads to where a third one stays. -/
theorem Reachable.loop_settled (hc : c.Reachable) (hi : c.isInitialized) (now : Binary64) :
    let e := (Controller.run (.replicate 2 (.loop now)) c).1
    loop now e = (e, (Machine.timeNotices now).map .notice) := by
  have hd : (loop now c).1.Reachable := hc.step (.loop now)
  have hdi : (loop now c).1.isInitialized := (isInitialized_step (.loop now) c).trans hi
  exact (hd.step (.loop now)).loop_of_fixed ((isInitialized_step (.loop now) _).trans hdi)
    (loop_loop (hc.mode_loop_loop hi now) now).1

theorem run_replicate_of_fixed {ns : List Notice} (h : loop now c = (c, ns.map .notice)) (n : Nat) :
    ∃ ms : List Notice, run (.replicate n (.loop now)) c = (c, ms.map .notice) := by
  induction n with
  | zero => exact ⟨[], rfl⟩
  | succ n ih =>
    obtain ⟨ms, hms⟩ := ih
    refine ⟨ns ++ ms, ?_⟩
    rw [List.replicate_succ, run_cons, show (Operation.loop now).step c = _ from h, hms,
      List.map_append]

/-- **A held clock settles.** Of any number of ticks at one time, finite or not, at most one reports
a change of mode, and only the first. From the third on they leave everything as it is, write
nothing and report nothing. -/
theorem held_clock_settles (hc : c.Reachable) (hi : c.isInitialized) (now : Binary64) (n : Nat) :
    let d := (loop now c).1
    let e := (run (.replicate 2 (.loop now)) c).1
    let r := run (.replicate n (.loop now)) e
    (modeChanges (run (.replicate n (.loop now)) c).2).length ≤ 1 ∧
      modeChanges (run (.replicate n (.loop now)) d).2 = [] ∧
      r.1 = e ∧ levels r.2 = [] ∧ frames r.2 = [] ∧ events r.2 = [] := by
  intro d e r
  have hdi : d.isInitialized := (isInitialized_step (.loop now) c).trans hi
  have hsettled (k : Nat) :
      ∃ ms : List Notice, run (.replicate k (.loop now)) e = (e, ms.map .notice) :=
    run_replicate_of_fixed (hc.loop_settled hi now) k
  have hsecond (k : Nat) : modeChanges (run (.replicate k (.loop now)) d).2 = [] := by
    cases k with
    | zero => rfl
    | succ k =>
      obtain ⟨ms, hms⟩ := hsettled k
      have hstays : modeChanges (loop now d).2 = [] :=
        modeChanges_loop_of_stays hdi (hc.mode_loop_loop hi now)
      rw [List.replicate_succ, run_cons, Effect.modeChanges_append]
      change modeChanges (loop now d).2 ++ modeChanges (run _ e).2 = []
      rw [hstays, hms, Effect.modeChanges_notices]
      rfl
  refine ⟨?_, hsecond n, ?_⟩
  · cases n with
    | zero => exact Nat.zero_le 1
    | succ n =>
      rw [List.replicate_succ, run_cons, Effect.modeChanges_append]
      change (modeChanges (loop now c).2 ++ modeChanges (run _ d).2).length ≤ 1
      rw [hsecond n, List.append_nil]
      exact length_modeChanges_loop_le now c
  · obtain ⟨ms, hms⟩ := hsettled n
    simp [r, hms]

/-- The clock stops at the end of a blink run: the first of five ticks ends it, the last three do
nothing. -/
theorem held_clock_settles_atRunEnd :
    let c := (history .standard (.ok ⟨.all true, true⟩) [.want .blink, .loop .zero]).1
    let e := (run (.replicate 2 (.loop (.ofNat 1))) c).1
    modeChanges (loop (.ofNat 1) c).2 = [.modeChanged .blinking .off] ∧
      (modeChanges (run (.replicate 5 (.loop (.ofNat 1))) c).2).length ≤ 1 ∧
      (run (.replicate 3 (.loop (.ofNat 1))) e).1 = e ∧
      events (run (.replicate 3 (.loop (.ofNat 1))) e).2 = [] := by
  intro c e
  have hc : c.Reachable := ⟨_, _, _, rfl⟩
  have hi : c.isInitialized := isInitialized_history _ _ _
  obtain ⟨-, -, hstate, -, -, hevents⟩ := held_clock_settles hc hi (.ofNat 1) 3
  exact ⟨by decide +kernel, (held_clock_settles hc hi (.ofNat 1) 5).1, hstate, hevents⟩

end Controller
end SignalLights
