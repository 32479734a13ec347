import SignalLights.Proofs.Controller.Ticks
import SignalLights.Proofs.Installation.Delivery
import SignalLights.Proofs.Scheduler.Clock

/-!
# Blink runs under a scheduler

A scheduler that was started at a finite time ends every blink run of its controllers in time,
whatever times its ticks come with, but for one: once a tick comes at infinity, all later ticks are
held there, the machines count infinity as no time at all, and a run in progress never ends
(`blinks_tick_iff`).
-/

namespace SignalLights
namespace Installation

variable {s : Installation} {i : Nat} {actions : List Action}

/-! ## The scheduler at work -/

def IsFresh (s : Installation) : Prop := s.scheduler.started = false ∧ s.scheduler.stopped = false

def IsRunning (s : Installation) : Prop := s.scheduler.started = true ∧ s.scheduler.stopped = false

theorem isFresh_run (h : s.IsFresh) (ha : ∀ t, .start t ∉ actions ∧ .stop t ∉ actions) :
    (run actions s).1.IsFresh := by
  induction actions generalizing s with
  | nil => exact h
  | cons a actions ih =>
    have hrest : ∀ t, .start t ∉ actions ∧ .stop t ∉ actions := fun t =>
      ⟨fun hm => (ha t).1 (List.mem_cons_of_mem _ hm),
        fun hm => (ha t).2 (List.mem_cons_of_mem _ hm)⟩
    refine ih (s := (s.act a).installation) ?_ hrest
    rw [IsFresh, scheduler_act]
    cases hb : s.asks a with
    | none => exact h
    | some b =>
      rcases Scheduler.act_of_fresh h b with ⟨t, rfl, -⟩ | ⟨t, rfl, -⟩ | ⟨-, -, hs⟩
      · obtain rfl : a = .start t := eq_of_asks hb
        exact absurd List.mem_cons_self (ha t).1
      · obtain rfl : a = .stop t := eq_of_asks hb
        exact absurd List.mem_cons_self (ha t).2
      · exact hs

theorem scheduler_start (h : s.IsFresh) (t : Binary64) :
    (s.act (.start t)).installation.scheduler =
      { s.scheduler with started := true, last := t } :=
  (act_start (i := 0) h.1 t).1

/-- While the scheduler is at work a tick calls every slot at the clock's time; any other action but
a stop reaches a controller directly or not at all. -/
theorem act_of_running (h : s.IsRunning) {a : Action} (ha : ∀ t, a ≠ .stop t) :
    (∃ t, a = .tick t ∧
      (s.act a).installation.scheduler = { s.scheduler with last := s.scheduler.clock t } ∧
      ∀ i, s.sent i a =
        .replicate (s.scheduler.slots.count (.controller i)) (.loop (s.scheduler.clock t))) ∨
    ((∀ t, a ≠ .tick t) ∧ (s.act a).installation.scheduler = s.scheduler ∧
      ∀ i, s.sent i a = a.direct i) := by
  rw [scheduler_act]
  unfold sent calls
  cases hb : s.asks a with
  | none =>
    refine .inr ⟨?_, rfl, fun i => List.append_nil _⟩
    rintro t rfl
    cases hb
  | some b =>
    rcases Scheduler.act_of_running h b with ⟨t, rfl, hs, hc⟩ | ⟨t, rfl, -⟩ | ⟨hne, hs, hc⟩
    · obtain rfl : a = .tick t := eq_of_asks hb
      refine .inl ⟨t, rfl, hs, fun i => ?_⟩
      dsimp only
      rw [hc]
      exact addressed_callAll i s.scheduler .loop _
    · exact absurd (eq_of_asks hb) (ha t)
    · refine .inr ⟨?_, hs, fun i => ?_⟩
      · rintro t rfl
        cases hb
        exact (hne t).1 rfl
      · dsimp only
        rw [hc]
        exact List.append_nil _

theorem sent_tick (h : s.IsRunning) (i : Nat) (t : Binary64) :
    s.sent i (.tick t) =
      .replicate (s.scheduler.slots.count (.controller i)) (.loop (s.scheduler.clock t)) := by
  rcases act_of_running h (a := .tick t) (by simp) with ⟨_, ⟨⟩, -, hsent⟩ | ⟨hne, -⟩
  · exact hsent i
  · exact absurd rfl (hne t)

/-- The clock of a scheduler at work stands at infinity just when a tick has taken it there. -/
theorem timed_run (h : s.IsRunning) (ht : s.scheduler.Timed) (ha : ∀ t, .stop t ∉ actions) :
    (run actions s).1.IsRunning ∧ (run actions s).1.scheduler.slots = s.scheduler.slots ∧
      (run actions s).1.scheduler.Timed ∧
      ((run actions s).1.scheduler.last = .infinity ↔
        s.scheduler.last = .infinity ∨ .tick .infinity ∈ actions) := by
  induction actions generalizing s with
  | nil => exact ⟨h, rfl, ht, by simp⟩
  | cons a actions ih =>
    have hrest : ∀ t, .stop t ∉ actions := fun t hm => ha t (List.mem_cons_of_mem _ hm)
    have hne : ∀ t, a ≠ .stop t := fun t he => ha t (he ▸ List.mem_cons_self)
    rcases act_of_running h hne with ⟨t, rfl, hs, -⟩ | ⟨hnot, hs, -⟩
    · obtain ⟨htimed, hinf⟩ := Scheduler.timed_clock ht t
      obtain ⟨hr, hl, hd, hi⟩ := ih (s := (s.act (.tick t)).installation)
        (by rw [IsRunning, hs]; exact h) (by rw [Scheduler.Timed, hs]; exact htimed) hrest
      refine ⟨hr, hl.trans (by rw [hs]), hd, hi.trans ?_⟩
      rw [hs, hinf, List.mem_cons, Action.tick.injEq, or_assoc, eq_comm (a := t)]
    · obtain ⟨hr, hl, hd, hi⟩ := ih (s := (s.act a).installation)
        (by rw [IsRunning, hs]; exact h) (by rw [hs]; exact ht) hrest
      refine ⟨hr, hl.trans (by rw [hs]), hd, hi.trans ?_⟩
      rw [hs, List.mem_cons, or_iff_right (a := Action.tick .infinity = a)]
      exact fun he => hnot _ he.symm

/-- What holds of the clock since the start. -/
theorem timed_started (h : s.IsFresh) {before after : List Action} {t₀ : Binary64}
    (hbefore : ∀ u, .start u ∉ before ∧ .stop u ∉ before) (ht₀ : t₀.isFinite)
    (hafter : ∀ u, .stop u ∉ after) :
    let u := (run (before ++ .start t₀ :: after) s).1
    u.IsRunning ∧ u.scheduler.Timed ∧ (u.scheduler.last = .infinity ↔ .tick .infinity ∈ after) := by
  have hfresh := isFresh_run h hbefore
  have hstart := scheduler_start hfresh t₀
  obtain ⟨hrun, -, htimed, hinf⟩ :=
    timed_run (s := ((run before s).1.act (.start t₀)).installation)
      (by rw [IsRunning, hstart]; exact ⟨rfl, hfresh.2⟩)
      (by rw [Scheduler.Timed, hstart]; exact .inl ht₀) hafter
  rw [run_append, run_cons]
  refine ⟨hrun, htimed, hinf.trans ?_⟩
  rw [hstart]
  exact or_iff_right (Binary64.ne_infinity ht₀)

/-! ## Runs -/

/-- The mode of a controller, if there is one of that number. -/
def modeOf (i : Nat) (s : Installation) : Option Mode := s.controllers[i]?.map (·.mode)

/-- A controller blinks now and after every action. -/
def Blinks (i : Nat) : Installation → List Action → Prop
  | s, [] => s.modeOf i = some .blinking
  | s, a :: actions => s.modeOf i = some .blinking ∧ Blinks i (s.act a).installation actions

instance decidableBlinks (i : Nat) :
    (s : Installation) → (actions : List Action) → Decidable (Blinks i s actions)
  | _, [] => inferInstanceAs (Decidable (_ = _))
  | s, a :: actions =>
    have := decidableBlinks i (s.act a).installation actions
    inferInstanceAs (Decidable (_ ∧ _))

theorem Blinks.now (h : Blinks i s actions) : s.modeOf i = some .blinking := by
  cases actions with
  | nil => exact h
  | cons => exact h.1

theorem blinks_concat_iff (a : Action) :
    Blinks i s (actions ++ [a]) ↔
      Blinks i s actions ∧ (run (actions ++ [a]) s).1.modeOf i = some .blinking := by
  induction actions generalizing s with
  | nil => exact Iff.rfl
  | cons b actions ih =>
    rw [List.cons_append, Blinks, ih, run_cons, Blinks, and_assoc]

/-- An action that leaves a run of a controller to the scheduler: it neither stops the scheduler nor
sets a cadence, starts or ticks the controller past it. -/
def Action.Spares (i : Nat) : Action → Prop
  | .stop _ => False
  | .perform j op => j = i → op.sparesRun ∧ ∀ now, op ≠ .loop now
  | _ => True

theorem Action.Spares.ne_stop {a : Action} (h : a.Spares i) (t : Binary64) : a ≠ .stop t := by
  rintro rfl
  exact h

theorem Action.Spares.of_mem_direct {a : Action} (h : a.Spares i) {op : Operation}
    (hop : op ∈ a.direct i) : op.sparesRun ∧ ∀ now, op ≠ .loop now := by
  cases a
  case perform j op' =>
    by_cases hj : j = i
    · rw [Action.direct, if_pos hj, List.mem_singleton] at hop
      exact hop ▸ h hj
    · rw [Action.direct, if_neg hj] at hop
      exact absurd hop List.not_mem_nil
  all_goals exact absurd hop List.not_mem_nil

/-- The scheduler is at work, and the controller is still in the run of `c`. -/
structure InRun (i : Nat) (c : Controller) (s : Installation) : Prop where
  isRunning : s.IsRunning
  holds : ∃ d, s.controllers[i]? = some d ∧ d.Reachable ∧ d.isInitialized ∧ c.SameRun d

variable {c : Controller}

theorem InRun.act (h : InRun i c s) {a : Action} (ha : a.Spares i)
    (hm : (s.act a).installation.modeOf i = some .blinking) : InRun i c (s.act a).installation := by
  obtain ⟨hrun, d, hd, hreach, hinit, hsame⟩ := h
  have hd' := controllers_act i s a
  rw [hd, Option.map_some] at hd'
  rw [modeOf, hd', Option.map_some, Option.some.injEq] at hm
  have hkeeps (hr : c.SameRun (Controller.run (s.sent i a) d).1)
      (hs : (s.act a).installation.IsRunning) :
      InRun i c (s.act a).installation :=
    ⟨hs, _, hd', hreach.run _, (Controller.isInitialized_run _ d).trans hinit, hr⟩
  rcases act_of_running hrun ha.ne_stop with ⟨t, rfl, hs, hsent⟩ | ⟨-, hs, hsent⟩
  · refine hkeeps ?_ (by rw [IsRunning, hs]; exact hrun)
    rw [hsent] at hm ⊢
    obtain ⟨hin, hout⟩ := hreach.run_loops hinit hsame.1
      (s.scheduler.slots.count (.controller i)) (s.scheduler.clock t)
    by_cases hover : d.IsOverdue (s.scheduler.clock t)
    · cases hn : s.scheduler.slots.count (.controller i) with
      | zero => exact hsame
      | succ n =>
        have hoff := hout hover (by omega)
        rw [hm] at hoff
        cases hoff
    · exact hsame.trans (hin hover)
  · refine hkeeps ?_ (by rw [IsRunning, hs]; exact hrun)
    rw [hsent]
    refine hsame.trans (hreach.sameRun_run hinit hsame.1 ?_ ?_)
    · exact fun op hop => (ha.of_mem_direct hop).1
    · intro now hnow
      exact absurd rfl ((ha.of_mem_direct hnow).2 now)

theorem InRun.run (h : InRun i c s) (ha : ∀ a ∈ actions, a.Spares i) (hb : Blinks i s actions) :
    InRun i c (run actions s).1 := by
  induction actions generalizing s with
  | nil => exact h
  | cons a actions ih =>
    refine ih (h.act (ha a List.mem_cons_self) hb.2.now) ?_ hb.2
    exact fun b hm => ha b (List.mem_cons_of_mem _ hm)

/-- A finite overdue tick ends the run, unless the clock stands at infinity. -/
theorem InRun.blinking_tick_iff (h : InRun i c s) (htimed : s.scheduler.Timed)
    (hslot : .controller i ∈ s.scheduler.slots) {t : Binary64} (ht : t.isFinite)
    (hover : c.IsOverdue t) :
    (s.act (.tick t)).installation.modeOf i = some .blinking ↔ s.scheduler.last = .infinity := by
  obtain ⟨hrun, d, hd, hreach, hinit, hsame⟩ := h
  have hcount : 0 < s.scheduler.slots.count (.controller i) := List.count_pos_iff.2 hslot
  obtain ⟨hon, hoff⟩ := hreach.run_loops hinit hsame.1
    (s.scheduler.slots.count (.controller i)) (s.scheduler.clock t)
  rw [modeOf, controllers_act, sent_tick hrun, hd, Option.map_some, Option.map_some,
    Option.some.injEq]
  rcases htimed with hfin | hstall
  · rcases Scheduler.clock_of_isFinite hfin t with ⟨rfl, -⟩ | ⟨-, hclock, hle⟩
    · exact absurd rfl (Binary64.ne_infinity ht)
    · refine iff_of_false ?_ (Binary64.ne_infinity hfin)
      have hover' : d.IsOverdue (s.scheduler.clock t) :=
        hreach.isOverdue_of_le ht hclock (hle ht) ((hsame.isOverdue_iff t).2 hover)
      rw [hoff hover' hcount]
      decide
  · refine iff_of_true ?_ hstall
    rw [Scheduler.clock_of_infinity hstall] at hon ⊢
    exact (hon d.not_isOverdue_infinity).1

/-- Under a scheduler that was started at a finite time an overdue tick at a finite time ends the
run, unless a tick has come at infinity before; then the run goes on. -/
theorem blinks_tick_iff {controllers : List Controller} (hc : ∀ c ∈ controllers, c.Reachable)
    {before after further : List Action} {t₀ t : Binary64}
    (hbefore : ∀ u, .start u ∉ before ∧ .stop u ∉ before) (ht₀ : t₀.isFinite)
    (hafter : ∀ u, .stop u ∉ after)
    (hs : s = (run (before ++ .start t₀ :: after) (initial controllers)).1)
    (hslot : .controller i ∈ s.scheduler.slots) (hget : s.controllers[i]? = some c)
    (hi : c.isInitialized) (hm : c.mode = .blinking) (hfurther : ∀ a ∈ further, a.Spares i)
    (ht : t.isFinite) (hover : c.activeCadence.total + tolerance < t - c.machine.since) :
    Blinks i s (further ++ [.tick t]) ↔
      Blinks i s further ∧ .tick .infinity ∈ after ++ further := by
  have hreach : c.Reachable := reachable_run hc (hs ▸ hget)
  obtain ⟨hrun, htimed, hinf⟩ :=
    timed_started (s := initial controllers) ⟨rfl, rfl⟩ hbefore ht₀ hafter
  rw [← hs] at hrun htimed hinf
  rw [blinks_concat_iff]
  refine and_congr_right fun hb => ?_
  -- the last tick finds the controller in its run, and the clock where the ticks so far took it
  have hin : InRun i c (run further s).1 :=
    InRun.run ⟨hrun, c, hget, hreach, hi, .refl hm⟩ hfurther hb
  obtain ⟨-, hslots, htimed', hinf'⟩ :=
    timed_run hrun htimed fun u hu => (hfurther _ hu).ne_stop u rfl
  rw [List.mem_append, ← hinf, ← hinf', run_append, run_cons, run_nil]
  exact hin.blinking_tick_iff htimed' (hslots ▸ hslot) ht
    ((Controller.isOverdue_iff_of_isFinite ht).2 hover)

/-- One board with every output, in the first slot of a scheduler started at zero, at the first tick
of a blink run. -/
def soloBlinking : Installation :=
  (run ([.registerEnabled 0] ++ .start .zero :: [.perform 0 (.want .blink), .tick .zero])
    (initial [(Controller.history .standard (.ok ⟨.all true, true⟩) []).1])).1

def soloRun : Controller :=
  (Controller.history .standard (.ok ⟨.all true, true⟩) [.start .zero, .want .blink, .loop .zero]).1

theorem soloBlinking_ends :
    ¬ Blinks 0 soloBlinking
      ([.tick .nan, .tick .negInfinity, .perform 0 (.want .fixedOn)] ++ [.tick (.ofNat 1)]) := by
  intro h
  have hc : ∀ c ∈ [(Controller.history .standard (.ok ⟨.all true, true⟩) []).1], c.Reachable := by
    intro c hm
    exact ⟨_, _, _, List.mem_singleton.1 hm⟩
  have hget : soloBlinking.controllers[0]? = some soloRun := by decide +kernel
  have hend := (blinks_tick_iff hc (by simp) (by decide) (by simp) rfl (by decide +kernel) hget
    (by decide +kernel) (by decide +kernel) (by simp [Action.Spares, Operation.sparesRun,
      Operation.configures, Operation.starts, Operation.plain]) (by decide +kernel)
    (by decide +kernel)).1 h
  exact absurd hend.2 (by decide)

theorem soloBlinking_stalls :
    soloBlinking.controllers[0]? = some soloRun ∧
      soloRun.activeCadence.total + tolerance < .ofNat 1 - soloRun.machine.since ∧
      Blinks 0 soloBlinking [.tick .infinity, .tick (.ofNat 1)] := by
  decide +kernel

end Installation
end SignalLights
