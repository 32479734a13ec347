import SignalLights.Proofs.Controller.Reachable

/-!
# The events mirror the controller

An observer who hears every event from construction on knows the controller: the events so far
amount to its snapshot after every operation (`ofEvents_history`). A snapshot event says what was
known already, and a change of mode starts in the mode last reported and ends in another one.

The proof is a logic of steps. `Reports P f Q` says that `f` takes an observer and a controller from
`P` to `Q` by events that are true when they come. Within an operation the observer lags behind:
`Knows` says which mode and request were reported last.
-/

namespace SignalLights

namespace Snapshot

/-- Whether an event may come when `k` is known. -/
def Admits (k : Snapshot) : Event → Prop
  | .snapshot s => s = k
  | .modeChanged source target => source = k.mode ∧ source ≠ target
  | _ => True

/-- The events take an observer from one snapshot to another, each admitted when it comes. -/
inductive Leads : Snapshot → List Event → Snapshot → Prop
  | nil (k : Snapshot) : Leads k [] k
  | cons {k k' : Snapshot} {e : Event} {es : List Event} :
      k.Admits e → Leads (k.after e) es k' → Leads k (e :: es) k'

variable {k k' k'' : Snapshot} {es fs : List Event} {e : Event}

theorem Leads.append (h : Leads k es k') (h' : Leads k' fs k'') : Leads k (es ++ fs) k'' := by
  induction h with
  | nil => exact h'
  | cons ha _ ih => exact .cons ha (ih h')

theorem Leads.foldl_eq (h : Leads k es k') : es.foldl after k = k' := by
  induction h with
  | nil => rfl
  | cons _ _ ih => exact ih

theorem Leads.admits (h : Leads k (es ++ e :: fs) k') : (es.foldl after k).Admits e := by
  induction es generalizing k with
  | nil => cases h with | cons ha _ => exact ha
  | cons _ es ih => cases h with | cons _ hl => exact ih hl

end Snapshot

namespace Controller

/-! ## Steps and what they report -/

def Reports (P : Snapshot → Controller → Prop) (f : Step Controller Effect)
    (Q : Snapshot → Controller → Prop) : Prop :=
  ∀ k c, P k c → ∃ k', Snapshot.Leads k (Effect.events (f c).2) k' ∧ Q k' (f c).1

section Rules

variable {P Q R : Snapshot → Controller → Prop} {f : Step Controller Effect}

theorem Reports.done : Reports P (.chain []) P := fun k _ h => ⟨k, .nil k, h⟩

theorem Reports.next {fs : List (Step Controller Effect)} (h : Reports P f R)
    (h' : Reports R (.chain fs) Q) : Reports P (.chain (f :: fs)) Q := by
  intro k c hP
  obtain ⟨k', hl, hR⟩ := h k c hP
  obtain ⟨k'', hl', hQ⟩ := h' k' _ hR
  refine ⟨k'', ?_, hQ⟩
  rw [Step.chain_cons, Effect.events_append]
  exact hl.append hl'

theorem Reports.sayAll (ns : List Notice) : Reports P (.sayAll ns) P := fun k c h =>
  ⟨k, by rw [Step.sayAll_apply, Effect.events_notices]; exact .nil k, h⟩

theorem Reports.say (n : Notice) : Reports P (.say n) P := .sayAll [n]

theorem Reports.modify {g : Controller → Controller} (h : ∀ k c, P k c → Q k (g c)) :
    Reports P (.modify g) Q := fun k c hP => ⟨k, .nil k, h k c hP⟩

theorem Reports.emit {e : Event} (h : ∀ k c, P k c → k.Admits e ∧ Q (k.after e) c) :
    Reports P (.emit e) Q := fun k c hP =>
  ⟨k.after e, .cons (h k c hP).1 (.nil _), (h k c hP).2⟩

end Rules

/-! ## What the observer knows within an operation -/

/-- The observer knows the controller but for its hardware, mode and request, of which it was told
`ok`, `m` and `w`. -/
structure Knows (ok : Bool) (m : Mode) (w : Wanted) (core : Machine × Context)
    (port : Option Equipment) (k : Snapshot) (c : Controller) : Prop where
  known : k = { c.snapshot with initialized := ok, mode := m, wanted := w }
  core_eq : c.core = core
  port_eq : c.port = port

section Knows

variable {ok : Bool} {m m' : Mode} {w w' : Wanted} {core : Machine × Context}
  {port : Option Equipment}

theorem reports_drive (ch : Channel) (on : Bool) :
    Reports (Knows ok m w core port) (drive ch on) (Knows ok m w core port) := by
  rintro k c ⟨rfl, rfl, rfl⟩
  rcases drive_cases c ch on with h | h
  · rw [h]
    exact ⟨_, .nil _, rfl, rfl, rfl⟩
  · rw [h]
    refine ⟨_, .cons trivial (.nil _), ?_, rfl, rfl⟩
    cases ch <;> rfl

theorem reports_setStatus (code : StatusCode) :
    Reports (Knows ok m w core port) (setStatus code) (Knows ok m w core port) := by
  rintro k c ⟨rfl, rfl, rfl⟩
  rcases setStatus_cases c code with h | h
  · rw [h]
    exact ⟨_, .nil _, rfl, rfl, rfl⟩
  · rw [h]
    exact ⟨_, .cons trivial (.nil _), rfl, rfl, rfl⟩

theorem reports_setMessage (text : String) :
    Reports (Knows ok m w core port) (setMessage text) (Knows ok m w core port) := by
  rintro k c ⟨rfl, rfl, rfl⟩
  unfold setMessage
  split
  · exact ⟨_, .nil _, rfl, rfl, rfl⟩
  · exact ⟨_, .cons trivial (.nil _), rfl, rfl, rfl⟩

theorem reports_driveAll (on : Bool) :
    Reports (Knows ok m w core port) (driveAll on) (Knows ok m w core port) :=
  .next (reports_drive _ _) (.next (reports_drive _ _) (.next (reports_drive _ _) .done))

theorem reports_driveDemand (ch : Channel) (demand : Option Bool) :
    Reports (Knows ok m w core port) (driveDemand ch demand) (Knows ok m w core port) := by
  cases demand with
  | none => exact fun k _ h => ⟨k, .nil k, h⟩
  | some on => exact reports_drive ch on

theorem reports_emit_modeChanged (h : m ≠ m') :
    Reports (Knows ok m w core port) (.emit (.modeChanged m m')) (Knows ok m' w core port) := by
  refine Reports.emit ?_
  rintro k c ⟨rfl, rfl, rfl⟩
  exact ⟨⟨rfl, h⟩, rfl, rfl, rfl⟩

/-- A change of mode, told if it is one. -/
theorem reports_modeChanged :
    Reports (Knows ok m w core port) (.onlyIf (m != m') (.emit (.modeChanged m m')))
      (Knows ok m' w core port) := by
  by_cases h : m = m'
  · subst h
    simp only [bne_self_eq_false]
    exact fun k _ hk => ⟨k, .nil k, hk⟩
  · rw [bne_iff_ne.2 h]
    exact reports_emit_modeChanged h

theorem reports_wanted :
    Reports (Knows ok m w core port) (.emit (.wantedChanged w')) (Knows ok m w' core port) := by
  refine Reports.emit ?_
  rintro k c ⟨rfl, rfl, rfl⟩
  exact ⟨trivial, rfl, rfl, rfl⟩

/-- A change of request is told; where it is not, there was none. -/
theorem reports_wantedChanged {b : Bool} (hb : b = false → w' = w) :
    Reports (Knows ok m w core port) (.onlyIf b (.emit (.wantedChanged w')))
      (Knows ok m w' core port) := by
  cases b with
  | false =>
    obtain rfl := hb rfl
    exact fun k _ hk => ⟨k, .nil k, hk⟩
  | true => exact reports_wanted

theorem reports_transition (x : Context) (now : Binary64) (c : Machine) :
    Reports (Knows ok c.mode w core port) (reportTransition (c.tick Row.standard x now).transition)
      (Knows ok (c.tick Row.standard x now).machine.mode w core port) := by
  rcases c.tick_cases x now with ⟨ht, hm⟩ | ⟨next, hne, ht, hm⟩
  · rw [ht, hm]
    exact fun k _ hk => ⟨k, .nil k, hk⟩
  · rw [ht, hm]
    exact reports_emit_modeChanged hne

/-- The core moves, and the observer lags behind. -/
theorem reports_core (g : Machine × Context → Machine × Context) :
    Reports (Knows ok m w core port)
      (.modify fun c => { c with machine := (g c.core).1, context := (g c.core).2 })
      (Knows ok m w (g core) port) := by
  refine Reports.modify ?_
  rintro k c ⟨rfl, rfl, rfl⟩
  exact ⟨rfl, rfl, rfl⟩

theorem reports_initialized (ok' : Bool) :
    Reports (Knows ok m w core port) (.emit (.initialized ok')) (Knows ok' m w core port) := by
  refine Reports.emit ?_
  rintro k c ⟨rfl, rfl, rfl⟩
  exact ⟨trivial, rfl, rfl, rfl⟩

end Knows

/-! ## Operations -/

/-- The observer knows the controller. -/
def Mirrors (k : Snapshot) (c : Controller) : Prop := k = c.snapshot

def Faithful (f : Step Controller Effect) : Prop := Reports Mirrors f Mirrors

section Faithful

variable {k : Snapshot} {c : Controller} {f : Step Controller Effect}

theorem Mirrors.knows (h : Mirrors k c) :
    Knows c.port.isSome c.core.1.mode c.core.2.wanted c.core c.port k c := ⟨h, rfl, rfl⟩

theorem Knows.mirrors {ok : Bool} {m : Mode} {w : Wanted} {core : Machine × Context}
    {port : Option Equipment} (h : Knows ok m w core port k c) (hok : ok = port.isSome)
    (hm : m = core.1.mode) (hw : w = core.2.wanted) : Mirrors k c := by
  obtain ⟨rfl, rfl, rfl⟩ := h
  subst hok hm hw
  rfl

/-- A step that catches up with the core it leaves is faithful where it is taken. -/
theorem Mirrors.after (hk : Mirrors k c) (core : Machine × Context)
    (h : Reports (Knows c.port.isSome c.core.1.mode c.core.2.wanted c.core c.port) f
      (Knows c.port.isSome core.1.mode core.2.wanted core c.port)) :
    ∃ k', Snapshot.Leads k (Effect.events (f c).2) k' ∧ Mirrors k' (f c).1 := by
  obtain ⟨k', hl, hk'⟩ := h k c hk.knows
  exact ⟨k', hl, hk'.mirrors rfl rfl rfl⟩

theorem faithful_of_knows (h : ∀ ok m w core port,
    Reports (Knows ok m w core port) f (Knows ok m w core port)) : Faithful f :=
  fun _ c hk => hk.after c.core (h _ _ _ _ _)

theorem faithful_guarded
    (h : ∀ k c, Mirrors k c →
      ∃ k', Snapshot.Leads k (Effect.events (f c).2) k' ∧ Mirrors k' (f c).1) :
    Faithful (guarded f) := by
  intro k c hk
  unfold guarded
  split
  · exact h k c hk
  · exact ⟨k, .nil k, hk⟩

end Faithful

theorem faithful_start (now : Binary64) : Faithful (start now) := by
  refine faithful_guarded fun k c hk => ?_
  refine hk.after (f := .chain _) (c.machine.reset now, { c.context with wanted := .off }) ?_
  exact .next (.say _) <| .next (.sayAll _) <|
    .next (reports_core fun core => (core.1.reset now, { core.2 with wanted := .off })) <|
    .next (reports_drive _ _) <| .next (reports_drive _ _) <| .next reports_modeChanged <|
    .next (reports_wantedChanged fun h => (bne_eq_false_iff_eq.1 h).symm) <|
    .next (reports_setMessage _) .done

theorem faithful_loop (now : Binary64) : Faithful (loop now) := by
  refine faithful_guarded fun k c hk => ?_
  let t := c.machine.tick Row.standard c.context now
  refine hk.after (f := .chain _) (t.machine, t.context) ?_
  exact .next (.sayAll _) <| .next (reports_core fun _ => (t.machine, t.context)) <|
    .next (reports_driveDemand _ _) <| .next (reports_driveDemand _ _) <|
    .next (reports_transition _ _ _) <|
    .next (reports_wantedChanged fun h => bne_eq_false_iff_eq.1 h) .done

theorem faithful_stop (now : Binary64) : Faithful (stop now) :=
  faithful_guarded fun _ c hk =>
    hk.after (f := .chain _) c.core <| .next (.say _) <| .next (reports_driveAll _) .done

theorem faithful_want (w : Wanted) : Faithful (want w) := by
  refine faithful_guarded fun k c hk => ?_
  refine hk.after (f := .chain _) (c.machine, c.context.request w) ?_
  rw [Context.wanted_request]
  exact .next (.sayAll _) <| .next (reports_core fun core => (core.1, core.2.request w)) <|
    .next (.say _) <| .next reports_wanted <| .next (reports_setMessage _) .done

theorem faithful_setMessage (text : String) : Faithful (setMessage text) :=
  faithful_of_knows fun _ _ _ _ _ => reports_setMessage text

theorem faithful_warn (text : String) : Faithful (warn text) :=
  faithful_guarded <| Reports.next (faithful_want _) <| .next (.say _) <|
    .next (faithful_setMessage text) .done

theorem faithful_configureBlink (count : UInt32) (period : Binary64) :
    Faithful (configureBlink count period) :=
  faithful_guarded <| Reports.next (.sayAll _) <| .next (.say _) <|
    .next (.modify fun _ _ hk => hk) .done

theorem faithful_setRangeBlinking (on : Bool) : Faithful (setRangeBlinking on) :=
  faithful_guarded <| Reports.next (.say _) <| .next (.modify fun _ _ hk => hk) .done

theorem faithful_publish : Faithful publish :=
  faithful_guarded fun k _ hk => ⟨k, .cons hk.symm (.nil k), hk⟩

theorem faithful_step (op : Operation) : Faithful op.step := by
  rw [← op.step_plain]
  generalize hq : op.plain = q
  cases q with
  | handle command => exact absurd hq (op.plain_ne_handle command)
  | start now => exact faithful_start now
  | loop now => exact faithful_loop now
  | stop now => exact faithful_stop now
  | want w => exact faithful_want w
  | warn text => exact faithful_warn text
  | configureBlink count period => exact faithful_configureBlink count period
  | setStatus code => exact faithful_of_knows fun _ _ _ _ _ => reports_setStatus code
  | setLamp on => exact faithful_of_knows fun _ _ _ _ _ => reports_drive .lamp on
  | setRangeBlinking on => exact faithful_setRangeBlinking on
  | publish => exact faithful_publish

theorem faithful_run (ops : List Operation) : Faithful (run ops) := by
  induction ops with
  | nil => exact .done
  | cons op ops ih => exact .next (faithful_step op) ih

/-! ## From construction on -/

theorem reports_build (policy : WritePolicy) (config : Config)
    (hardware : Except Fault Equipment) :
    ∃ k, Snapshot.Leads .blank (Effect.events (build policy config hardware).2) k ∧
      Mirrors k (build policy config hardware).1 := by
  have hstart (port : Option Equipment) :
      Knows false .off .off (.initial, .ofConfig config) port .blank
        (initial policy config port) := ⟨rfl, rfl, rfl⟩
  cases hardware with
  | error f =>
    obtain ⟨k, hl, hk⟩ := Reports.next (.sayAll (rejection config)) (.next
      (.say (.hardwareUnavailable f)) (.next (.sayAll config.blinkNotices)
        (.next (reports_initialized false) .done))) _ _ (hstart none)
    exact ⟨k, hl, hk.mirrors rfl rfl rfl⟩
  | ok port =>
    obtain ⟨k, hl, hk⟩ := Reports.next (.sayAll (rejection config)) (.next
      (.sayAll config.blinkNotices) (.next (reports_driveAll false) (.next (reports_setStatus .off)
        (.next (.say (.ready config.profile)) (.next (reports_initialized true) .done)))))
      _ _ (hstart (some port))
    exact ⟨k, hl, hk.mirrors rfl rfl rfl⟩

theorem leads_history (config : Config) (hardware : Except Fault Equipment)
    (ops : List Operation) :
    Snapshot.Leads .blank (Effect.events (history config hardware ops).2)
      (history config hardware ops).1.snapshot := by
  obtain ⟨k, hl, hk⟩ := reports_build .onChange config hardware
  obtain ⟨k', hl', hk'⟩ := faithful_run ops k _ hk
  obtain rfl : k' = _ := hk'
  rw [history, Effect.events_append]
  exact hl.append hl'

/-- **The events mirror the controller.** From construction on, the events so far amount to the
snapshot after every operation; a snapshot event says what the events before it amount to; and
changes of mode form a chain that starts in off, each to another mode. -/
theorem ofEvents_history (config : Config) (hardware : Except Fault Equipment)
    (ops : List Operation) :
    let es := Effect.events (history config hardware ops).2
    Snapshot.ofEvents es = (history config hardware ops).1.snapshot ∧
      (∀ before s after, es = before ++ .snapshot s :: after → s = Snapshot.ofEvents before) ∧
      (∀ before source target after, es = before ++ .modeChanged source target :: after →
        source = (Snapshot.ofEvents before).mode ∧ source ≠ target) := by
  have h := leads_history config hardware ops
  refine ⟨h.foldl_eq, ?_, ?_⟩
  · intro before s after he
    rw [he] at h
    exact h.admits
  · intro before source target after he
    rw [he] at h
    exact h.admits

end Controller
end SignalLights
