import SignalLights.Proofs.Controller.Requests

/-!
# The message and the warning it goes with

A text is posted with a warning, and every request and every start replaces it. A run that ends
clears the request as well, but not the text: a warning that comes to its end in this way leaves its
text on show, until the next request or start (`showsStale_history_iff`).
-/

namespace SignalLights

namespace Operation

/-- An operation that posts no text asks for nothing; what it does to the request it does as a
tick. -/
theorem wanted_advance_of_posts_eq_none {op : Operation} (h : op.posts = none)
    (hloop : ∀ now, op ≠ loop now) (core : Machine × Context) :
    (op.advance core).2.wanted = core.2.wanted := by
  have hplain := plain_ne_loop hloop
  unfold posts at h
  unfold advance
  generalize op.plain = q at h hplain
  cases q with
  | loop now => exact absurd rfl (hplain now)
  | start | want | warn => cases h
  | _ => rfl

/-- A text is posted with a warning, or is no text at all. -/
theorem eq_empty_or_warn_of_posts {op : Operation} {text : String} (h : op.posts = some text)
    (core : Machine × Context) : text = "" ∨ (op.advance core).2.wanted = .warn := by
  unfold posts at h
  unfold advance
  generalize op.plain = q at h
  cases q with
  | start | want =>
    cases h
    exact .inl rfl
  | warn => exact .inr (Context.wanted_request _ _)
  | _ => cases h

end Operation

namespace Controller

variable {c : Controller}

/-- A warning is shown: the request for it, and a text. -/
def ShowsWarning (c : Controller) : Prop := c.message ≠ "" ∧ c.wanted = .warn

/-- A text is shown without the request for a warning. -/
def ShowsStale (c : Controller) : Prop := c.message ≠ "" ∧ c.wanted ≠ .warn

/-- Without hardware nothing is ever shown. -/
theorem Reachable.message_eq_empty (hc : c.Reachable) (hi : c.isInitialized = false) :
    c.message = "" := by
  refine hc.holds (P := fun d => d.isInitialized = false → d.message = "") ?_ ?_ hi
  · intro config hardware _
    exact message_build _ _ _
  · intro op d hd h
    have hd' : d.isInitialized = false := by rwa [isInitialized, port_step] at h
    rw [step_inert op hd']
    exact hd hd'

/-- A new text is never stale. -/
theorem not_showsStale_of_posts (hi : c.isInitialized) {op : Operation} {text : String}
    (h : op.posts = some text) : ¬ (op.step c).1.ShowsStale := by
  rintro ⟨hmessage, hwanted⟩
  rw [message_step op hi, h, Option.getD_some] at hmessage
  rw [wanted_step op hi] at hwanted
  rcases Operation.eq_empty_or_warn_of_posts h c.core with htext | hwarn
  · exact hmessage htext
  · exact hwanted hwarn

/-- A tick makes a text stale when it ends the warning. -/
theorem Reachable.showsStale_loop_iff (hc : c.Reachable) (hi : c.isInitialized) (now : Binary64) :
    (loop now c).1.ShowsStale ↔ c.ShowsStale ∨ (c.ShowsWarning ∧ c.IsOver now) := by
  have hmessage : (loop now c).1.message = c.message := message_step (.loop now) hi
  obtain ⟨hover, hlasting⟩ := hc.loop_decides hi now
  unfold ShowsStale ShowsWarning
  rw [hmessage]
  by_cases h : c.IsOver now
  · rw [(hover h).2]
    by_cases hw : c.wanted = .warn <;> simp [h, hw]
  · rw [(hlasting h).2]
    simp [h]

/-- One operation: a stale text is left by a tick that ends a warning, and stays until the next
text. -/
theorem Reachable.showsStale_step_iff (hc : c.Reachable) (op : Operation) :
    (op.step c).1.ShowsStale ↔
      (op.posts = none ∧ c.ShowsStale) ∨
        ∃ now, op = .loop now ∧ c.ShowsWarning ∧ c.IsOver now := by
  cases hi : c.isInitialized with
  | false => simp [step_inert op hi, ShowsStale, ShowsWarning, hc.message_eq_empty hi]
  | true =>
    cases hp : op.posts with
    | some text =>
      have hloop : ∀ now, op ≠ .loop now := by
        rintro now rfl
        cases hp
      simp [not_showsStale_of_posts hi hp, hloop]
    | none =>
      rcases op.eq_loop_or with ⟨now, rfl⟩ | hne
      · have h := hc.showsStale_loop_iff hi now
        simpa [Operation.step] using h
      · have hwanted := Operation.wanted_advance_of_posts_eq_none hp hne c.core
        have hsame : (op.step c).1.ShowsStale ↔ c.ShowsStale := by
          rw [ShowsStale, message_step op hi, hp, wanted_step op hi, hwanted]
          rfl
        simp [hsame, hne]

theorem Reachable.showsStale_run (hc : c.Reachable) (h : c.ShowsStale) {ops : List Operation}
    (hops : ∀ op ∈ ops, op.posts = none) : (Controller.run ops c).1.ShowsStale := by
  induction ops generalizing c with
  | nil => exact h
  | cons op ops ih =>
    obtain ⟨hop, hrest⟩ := List.forall_mem_cons.1 hops
    exact ih (hc.step op) ((hc.showsStale_step_iff op).2 (.inl ⟨hop, h⟩)) hrest

/-- **When a text outlives its warning.** A text is on show without the request for a warning just
when some tick has ended a warning shown with a text, by ending a blink run or finite range finding,
and there was no request and no start since. -/
theorem showsStale_history_iff (config : Config) (hardware : Except Fault Equipment)
    (ops : List Operation) :
    (history config hardware ops).1.ShowsStale ↔
      ∃ before now after, ops = before ++ .loop now :: after ∧
        (history config hardware before).1.ShowsWarning ∧
        (history config hardware before).1.IsOver now ∧ ∀ op ∈ after, op.posts = none := by
  have hstep (past : List Operation) (op : Operation) :
      (history config hardware (past ++ [op])).1.ShowsStale ↔
        (op.posts = none ∧ (history config hardware past).1.ShowsStale) ∨
          ∃ now, op = .loop now ∧ (history config hardware past).1.ShowsWarning ∧
            (history config hardware past).1.IsOver now := by
    have hreach : (history config hardware past).1.Reachable := ⟨_, _, _, rfl⟩
    rw [← hreach.showsStale_step_iff op]
    simp [history, run_append]
  constructor
  · intro h
    have hfresh : ¬ (new config hardware).1.ShowsStale := fun h => h.1 (message_build _ _ _)
    obtain ⟨before, first, after, rfl, hnot, hsince⟩ := run_began hfresh h
    rcases (hstep before first).1 (hsince [] List.nil_prefix) with ⟨-, hstale⟩ | htick
    · exact absurd hstale hnot
    obtain ⟨now, rfl, hwarns, hover⟩ := htick
    refine ⟨before, now, after, rfl, hwarns, hover, ?_⟩
    -- the text is stale before and after every later operation, which therefore posts none
    intro op hop
    obtain ⟨part, rest, rfl⟩ := List.append_of_mem hop
    have hlast := hsince (part ++ [op]) ⟨rest, by simp⟩
    rw [← List.cons_append, ← List.append_assoc] at hlast
    rcases (hstep _ op).1 hlast with ⟨hposts, -⟩ | ⟨later, rfl, -⟩
    · exact hposts
    · rfl
  · rintro ⟨before, now, after, rfl, hwarns, hover, hafter⟩
    have hstale := (hstep before (.loop now)).2 (.inr ⟨now, rfl, hwarns, hover⟩)
    have hreach : (history config hardware (before ++ [.loop now])).1.Reachable := ⟨_, _, _, rfl⟩
    have hkept := hreach.showsStale_run hstale hafter
    rw [List.append_cons]
    simpa [history, run_append] using hkept

/-- A warning under finite range finding, which ends within a second, and its text is still there. -/
theorem ranging_leaves_text :
    let c := (history (.forProfile .digital) (.ok ⟨.all true, true⟩)
      [.warn "low", .loop .zero, .loop (.ofNat 1)]).1
    c.message = "low" ∧ c.wanted = .off ∧ c.mode = .off := by
  decide +kernel

end Controller
end SignalLights
