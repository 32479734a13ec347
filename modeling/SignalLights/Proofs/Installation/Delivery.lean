import Mathlib.Data.List.Induction
import SignalLights.Installation
import SignalLights.Proofs.Controller.Reachable

/-!
# What reaches a controller

In an installation a controller meets the operations performed on it and the calls of its slots, and
nothing else: after any actions it is, and has done, what it would have alone under the operations it
*received* (`meets_run`).
-/

namespace SignalLights
namespace Installation

variable {s : Installation}

@[simp] theorem run_nil (s : Installation) : run [] s = (s, []) := rfl

@[simp] theorem run_cons (a : Action) (actions : List Action) (s : Installation) :
    run (a :: actions) s =
      ((run actions (s.act a).installation).1,
        (s.act a).occurrences ++ (run actions (s.act a).installation).2) := rfl

theorem run_append (actions more : List Action) (s : Installation) :
    run (actions ++ more) s =
      ((run more (run actions s).1).1, (run actions s).2 ++ (run more (run actions s).1).2) := by
  rw [run, List.map_append, Step.chain_append]
  rfl

/-! ## What is sent -/

/-- What an action asks of the scheduler. -/
def asks (s : Installation) : Action → Option (Scheduler.Action Target)
  | .registerEnabled i =>
    if s.isEnabled i then some (.register (Target.controller i).name (.controller i)) else none
  | .register target => some (.register target.name target)
  | .start time => some (.start time)
  | .tick time => some (.tick time)
  | .stop time => some (.stop time)
  | .perform _ _ => none

/-- Only a start starts the scheduler, and so on. -/
theorem eq_of_asks {a : Action} {b : Scheduler.Action Target} (h : s.asks a = some b) :
    match b with
    | .register _ _ => True
    | .start t => a = .start t
    | .tick t => a = .tick t
    | .stop t => a = .stop t := by
  cases a
  case registerEnabled j =>
    by_cases hj : s.isEnabled j
    · rw [asks, if_pos hj] at h
      cases h
      trivial
    · rw [asks, if_neg hj] at h
      cases h
  all_goals cases h
  all_goals trivial

/-- The calls that come of an action. -/
def calls (s : Installation) (a : Action) : List (Call Target) :=
  match s.asks a with
  | none => []
  | some b => (s.scheduler.act b).calls

/-- The calls of a controller, as operations. -/
def addressed (i : Nat) (calls : List (Call Target)) : List Operation :=
  calls.filterMap fun call =>
    if call.target = .controller i then some (call.hook.operation call.time) else none

/-- The operation that an action performs on a controller, past the scheduler. -/
def Action.direct (i : Nat) : Action → List Operation
  | .perform j op => if j = i then [op] else []
  | _ => []

/-- The operations that an action brings to a controller. -/
def sent (i : Nat) (s : Installation) (a : Action) : List Operation :=
  a.direct i ++ addressed i (s.calls a)

def received (i : Nat) : List Action → Installation → List Operation
  | [], _ => []
  | a :: actions, s => s.sent i a ++ received i actions (s.act a).installation

theorem received_append (i : Nat) (actions more : List Action) (s : Installation) :
    received i (actions ++ more) s =
      received i actions s ++ received i more (run actions s).1 := by
  induction actions generalizing s with
  | nil => rfl
  | cons a actions ih =>
    rw [List.cons_append, received, ih, run_cons, received, List.append_assoc]

/-- What is asked of the scheduler is not performed on a controller. -/
theorem direct_of_asks {i : Nat} {a : Action} {b : Scheduler.Action Target}
    (h : s.asks a = some b) : a.direct i = [] := by
  cases a with
  | perform j op => cases h
  | _ => rfl

theorem addressed_callAll (i : Nat) (s : Scheduler Target) (hook : Hook) (time : Binary64) :
    addressed i (s.callAll hook time) =
      .replicate (s.slots.count (.controller i)) (hook.operation time) := by
  unfold Scheduler.callAll
  induction s.slots using List.reverseRecOn with
  | nil => rfl
  | append_singleton targets target ih =>
    rw [List.mapIdx_concat, addressed, List.filterMap_append, List.count_append,
      ← List.replicate_append_replicate, List.count_singleton]
    refine congrArg₂ (· ++ ·) ih ?_
    by_cases h : target = .controller i <;> simp [h]

/-! ## What a controller meets -/

/-- The effect that an occurrence is on a controller. -/
def effectOn? (i : Nat) : Occurrence → Option Effect
  | .effect j e => if j = i then some e else none
  | _ => none

/-- What happened to a controller, in order. -/
def effectsOn (i : Nat) (os : List Occurrence) : List Effect := os.filterMap (effectOn? i)

@[simp] theorem effectsOn_append (i : Nat) (os more : List Occurrence) :
    effectsOn i (os ++ more) = effectsOn i os ++ effectsOn i more := List.filterMap_append

@[simp] theorem effectsOn_notices (i : Nat) (ns : List Notice) :
    effectsOn i (ns.map .notice) = [] := List.filterMap_eq_nil_iff.2 (by simp [effectOn?])

theorem effectsOn_effects (i j : Nat) (es : List Effect) :
    effectsOn i (es.map (.effect j)) = if j = i then es else [] := by
  rw [effectsOn, List.filterMap_map]
  by_cases h : j = i <;> simp [h, Function.comp_def, effectOn?]

theorem mem_effectsOn_iff {i : Nat} {e : Effect} {os : List Occurrence} :
    e ∈ effectsOn i os ↔ .effect i e ∈ os := by
  rw [effectsOn, List.mem_filterMap]
  constructor
  · rintro ⟨o, ho, he⟩
    cases o with
    | effect j e' =>
      obtain ⟨rfl, rfl⟩ : j = i ∧ e' = e := by simpa [effectOn?] using he
      exact ho
    | call | notice => cases he
  · exact fun h => ⟨_, h, if_pos rfl⟩

/-- On the way from one installation to the next, a controller met these operations and nothing
else: it became what they make of it alone, and what happened to it is what they do. -/
structure Meets (i : Nat) (ops : List Operation) (s : Installation)
    (r : Installation × List Occurrence) : Prop where
  controllers : r.1.controllers[i]? = s.controllers[i]?.map fun c => (Controller.run ops c).1
  effects : effectsOn i r.2 = s.controllers[i]?.elim [] fun c => (Controller.run ops c).2

theorem Meets.nil {i : Nat} {os : List Occurrence} (h : effectsOn i os = []) (s : Installation) :
    Meets i [] s (s, os) := by
  constructor
  · simp
  · cases s.controllers[i]? <;> simpa

theorem Meets.append {i : Nat} {ops more : List Operation} {r t : Installation × List Occurrence}
    (h : Meets i ops s r) (h' : Meets i more r.1 t) :
    Meets i (ops ++ more) s (t.1, r.2 ++ t.2) := by
  constructor
  · rw [h'.controllers, h.controllers, Option.map_map]
    congr 1
    funext c
    rw [Controller.run_append]
    rfl
  · rw [effectsOn_append, h.effects, h'.effects, h.controllers]
    cases s.controllers[i]? with
    | none => rfl
    | some c => simp [Controller.run_append]

theorem meets_perform (i j : Nat) (op : Operation) (s : Installation) :
    Meets i ((Action.perform j op).direct i) s (perform j op s) := by
  unfold perform
  by_cases h : j = i
  · subst h
    rw [Action.direct, if_pos rfl]
    cases hj : s.controllers[j]? with
    | none => constructor <;> simp [hj, effectsOn]
    | some c =>
      have hlt : j < s.controllers.length := (List.getElem?_eq_some_iff.1 hj).1
      constructor
      · simp [List.getElem?_set_self hlt, hj]
      · simp [effectsOn_effects, hj]
  · rw [Action.direct, if_neg h]
    cases s.controllers[j]? with
    | none => exact .nil rfl s
    | some c =>
      constructor
      · simp [List.getElem?_set_ne h]
      · cases s.controllers[i]? <;> simp [effectsOn_effects, h]

theorem scheduler_perform (j : Nat) (op : Operation) (s : Installation) :
    (perform j op s).1.scheduler = s.scheduler := by
  unfold perform
  split <;> rfl

theorem meets_deliver (i : Nat) (call : Call Target) (s : Installation) :
    Meets i (addressed i [call]) s (deliver call s) := by
  unfold deliver
  cases h : call.target with
  | controller j =>
    have hdirect : addressed i [call] =
        (Action.perform j (call.hook.operation call.time)).direct i := by
      by_cases hj : j = i <;> simp [addressed, Action.direct, h, hj]
    rw [hdirect]
    exact meets_perform i j _ s
  | observer j =>
    have hnone : addressed i [call] = [] := by simp [addressed, h]
    rw [hnone]
    exact .nil rfl s

theorem scheduler_deliver (call : Call Target) (s : Installation) :
    (deliver call s).1.scheduler = s.scheduler := by
  unfold deliver
  split
  · exact scheduler_perform _ _ s
  · rfl

theorem meets_deliver_all (i : Nat) (calls : List (Call Target)) (s : Installation) :
    Meets i (addressed i calls) s (Step.chain (calls.map deliver) s) := by
  induction calls generalizing s with
  | nil => exact .nil rfl s
  | cons call calls ih =>
    have happ : addressed i (call :: calls) = addressed i [call] ++ addressed i calls := by
      rw [← List.singleton_append, addressed, List.filterMap_append]
      rfl
    rw [happ]
    exact (meets_deliver i call s).append (ih _)

theorem scheduler_deliver_all (calls : List (Call Target)) (s : Installation) :
    (Step.chain (calls.map deliver) s).1.scheduler = s.scheduler := by
  refine Step.chain_keeps (P := fun t => t.scheduler = s.scheduler) ?_ s rfl
  intro f hf t ht
  obtain ⟨call, -, rfl⟩ := List.mem_map.1 hf
  exact (scheduler_deliver call t).trans ht

theorem meets_dispatch (i : Nat) (s : Installation) (r : Scheduler.Result Target) :
    Meets i (addressed i r.calls) s
      ((s.dispatch r).installation, (s.dispatch r).occurrences) := by
  obtain ⟨hc, he⟩ := meets_deliver_all i r.calls { s with scheduler := r.scheduler }
  refine ⟨hc, ?_⟩
  rw [dispatch, effectsOn_append, effectsOn_notices, List.nil_append]
  exact he

theorem scheduler_act (s : Installation) (a : Action) :
    (s.act a).installation.scheduler =
      match s.asks a with
      | none => s.scheduler
      | some b => (s.scheduler.act b).scheduler := by
  have hdispatch (r : Scheduler.Result Target) :
      (s.dispatch r).installation.scheduler = r.scheduler := scheduler_deliver_all r.calls _
  cases a with
  | registerEnabled i =>
    by_cases h : s.isEnabled i
    · simp only [act, asks, h, if_true]
      exact hdispatch _
    · simp [act, asks, h]
  | perform j op => exact scheduler_perform j op s
  | _ => exact hdispatch _

/-- The start that takes effect reaches a controller once for every slot it holds. -/
theorem act_start (h : s.scheduler.started = false) (t : Binary64) :
    (s.act (.start t)).installation.scheduler = { s.scheduler with started := true, last := t } ∧
      s.sent i (.start t) = .replicate (s.scheduler.slots.count (.controller i)) (.start t) := by
  constructor
  · rw [scheduler_act]
    simp [asks, Scheduler.act, Scheduler.start, h]
  · have hcalls : s.calls (.start t) = s.scheduler.callAll .start t := by
      simp [calls, asks, Scheduler.act, Scheduler.start, h]
    rw [sent, hcalls]
    exact addressed_callAll i s.scheduler .start t

/-- A controller meets what an action sends to it. -/
theorem meets_act (i : Nat) (s : Installation) (a : Action) :
    Meets i (s.sent i a) s ((s.act a).installation, (s.act a).occurrences) := by
  cases a with
  | registerEnabled j =>
    by_cases h : s.isEnabled j
    · simp only [act, sent, calls, asks, h, if_true]
      exact meets_dispatch i s _
    · have hnone : s.sent i (.registerEnabled j) = [] := by
        simp [sent, calls, asks, h, Action.direct, addressed]
      rw [hnone, act, if_neg h]
      exact .nil rfl s
  | perform j op =>
    have hsent : s.sent i (.perform j op) = (Action.perform j op).direct i := List.append_nil _
    rw [hsent]
    exact meets_perform i j op s
  | _ => exact meets_dispatch i s _

theorem meets_run (i : Nat) (actions : List Action) (s : Installation) :
    Meets i (received i actions s) s (run actions s) := by
  induction actions generalizing s with
  | nil => exact .nil rfl s
  | cons a actions ih => exact (meets_act i s a).append (ih _)

theorem controllers_act (i : Nat) (s : Installation) (a : Action) :
    (s.act a).installation.controllers[i]? =
      s.controllers[i]?.map fun c => (Controller.run (s.sent i a) c).1 :=
  (meets_act i s a).controllers

/-- A controller becomes what the operations it received make of it. -/
theorem controllers_run (i : Nat) (actions : List Action) (s : Installation) :
    (run actions s).1.controllers[i]? =
      s.controllers[i]?.map fun c => (Controller.run (received i actions s) c).1 :=
  (meets_run i actions s).controllers

theorem reachable_run {i : Nat} {c : Controller} {actions : List Action}
    {controllers : List Controller} (hc : ∀ c ∈ controllers, c.Reachable)
    (hget : (run actions (initial controllers)).1.controllers[i]? = some c) : c.Reachable := by
  rw [controllers_run, Option.map_eq_some_iff] at hget
  obtain ⟨c₀, h₀, rfl⟩ := hget
  exact (hc c₀ (List.mem_of_getElem? h₀)).run _

end Installation
end SignalLights
