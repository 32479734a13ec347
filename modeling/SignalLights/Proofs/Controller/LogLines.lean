import SignalLights.Proofs.Controller.Atoms
import SignalLights.Proofs.Controller.Reachable
import SignalLights.Proofs.Event.Records

/-!
# Lines of the log

Of an event the log shows the text that it carries as it is, and the texts come from warnings
(`note_of_mem_step`). So the records of a run take one line each just when no warning brings a text
of several lines, and a dashboard record takes more than one just when such a text is on show
(`line_breaks_history_iff`).
-/

namespace SignalLights

/-- A warning with a text of several lines. -/
def Operation.WarnsInLines (op : Operation) : Prop :=
  ∃ text, op.plain = .warn text ∧ 0 < lineBreaks text

variable {c : Controller} {e : Event}

/-! ## Events of an operation -/

/-- An atom tells an event, or posts a text, or reports what it wrote. -/
theorem Atom.of_event_mem {a : Atom} (h : .event e ∈ (a.step c).2) :
    a = .tell e ∨ (∃ text, a = .post text ∧ e = .message text) ∨ e.note = "" := by
  cases a with
  | tell told =>
    obtain rfl : e = told := by simpa [step] using h
    exact .inl rfl
  | drive ch on =>
    change .event e ∈ (Controller.drive ch on c).2 at h
    rcases Controller.drive_cases c ch on with hd | hd
    · simp [hd] at h
    · obtain rfl : e = .levelChanged ch on := by simpa [hd] using h
      exact .inr (.inr rfl)
  | display code =>
    change .event e ∈ (Controller.setStatus code c).2 at h
    rcases Controller.setStatus_cases c code with hs | hs
    · simp [hs] at h
    · obtain rfl : e = .statusChanged code := by simpa [hs] using h
      exact .inr (.inr rfl)
  | post text =>
    simp only [step, Controller.setMessage] at h
    split at h
    · cases h
    · exact .inr (.inl ⟨text, rfl, by simpa using h⟩)
  | say | move => simp [step] at h

namespace Operation

variable {op : Operation} {text : String}

/-- A snapshot alone is told with a text. -/
theorem note_of_tell_mem (h : .tell e ∈ op.atoms c) :
    e.note = "" ∨ (op.plain = .publish ∧ e = .snapshot c.snapshot) := by
  unfold atoms at h
  generalize op.plain = q at h ⊢
  cases q with
  | publish => exact .inr ⟨rfl, by simpa using h⟩
  | start now =>
    simp only [List.mem_append, List.mem_cons, Atom.tell_mem_tellIf_iff] at h
    left
    grind [Event.note]
  | loop now =>
    simp only [List.mem_append, List.mem_cons, Atom.tell_mem_tellIf_iff] at h
    left
    grind [Event.note]
  | want w =>
    obtain rfl : e = .wantedChanged w := by simpa [wantAtoms] using h
    exact .inl rfl
  | warn text =>
    obtain rfl : e = .wantedChanged .warn := by simpa [wantAtoms] using h
    exact .inl rfl
  | _ => simp [Atom.driveAll] at h

/-- A text is posted by a warning. -/
theorem warns_of_post_mem (h : .post text ∈ op.atoms c) : text = "" ∨ op.plain = .warn text := by
  unfold atoms at h
  generalize op.plain = q at h ⊢
  cases q with
  | warn given =>
    have hgiven : text = "" ∨ text = given := by simpa [wantAtoms] using h
    exact hgiven.imp_right fun h => by rw [h]
  | _ => simp_all [wantAtoms, Atom.driveAll, Atom.post_notMem_tellIf]

/-- A text other than the empty one is posted by a warning. -/
theorem posts_eq_some_iff (h : text ≠ "") : op.posts = some text ↔ op.plain = .warn text := by
  unfold posts
  generalize op.plain = q
  cases q <;> simp [h.symm]

end Operation

namespace Controller

variable {op : Operation} {ops : List Operation} {text : String}

/-- One operation: an event with a text is the message of a warning or the snapshot published. -/
theorem note_of_mem_step (hi : c.isInitialized) (h : .event e ∈ (op.step c).2) :
    e.note = "" ∨ (∃ text, op.plain = .warn text ∧ e = .message text) ∨
      (op = .publish ∧ e = .snapshot c.snapshot) := by
  rw [step_eq_perform op hi] at h
  obtain ⟨a, ha, d, hd⟩ := exists_atom_of_mem_perform h
  rcases Atom.of_event_mem hd with rfl | ⟨text, rfl, rfl⟩ | hnote
  · rw [← Operation.plain_eq_publish_iff]
    exact (Operation.note_of_tell_mem ha).imp_right .inr
  · exact (Operation.warns_of_post_mem ha).imp_right fun hwarns => .inl ⟨text, hwarns, rfl⟩
  · exact .inl hnote

theorem note_of_mem_new {config : Config} {hardware : Except Fault Equipment}
    (h : .event e ∈ (new config hardware).2) : e.note = "" := by
  cases hardware with
  | error f =>
    obtain rfl : e = .initialized false := by simpa [new, build] using h
    rfl
  | ok port =>
    rw [new, build_eq_perform] at h
    obtain ⟨a, ha, d, hd⟩ := exists_atom_of_mem_perform h
    rcases Atom.of_event_mem hd with rfl | ⟨text, rfl, -⟩ | hnote
    · obtain rfl : e = .initialized true := by simpa [setup, Atom.driveAll] using ha
      rfl
    · simp [setup, Atom.driveAll] at ha
    · exact hnote

/-- A warning reports its text, whatever was shown before. -/
theorem message_mem_step (hi : c.isInitialized) (h : op.plain = .warn text) (htext : text ≠ "") :
    .event (.message text) ∈ (op.step c).2 := by
  have hcleared : (want .warn c).1.message = "" := message_step (.want .warn) hi
  rw [← op.step_plain, h]
  change _ ∈ (warn text c).2
  rw [warn, guarded_apply _ hi]
  simp [setMessage, hcleared, htext.symm]

/-! ## Lines of a run -/

/-- The message is the text posted last. -/
theorem message_run (hi : c.isInitialized) (ops : List Operation) :
    (run ops c).1.message = (ops.reverse.findSome? Operation.posts).getD c.message := by
  induction ops generalizing c with
  | nil => rfl
  | cons op ops ih =>
    have hi' : (op.step c).1.isInitialized := (isInitialized_step op c).trans hi
    rw [run_cons, ih hi', message_step op hi, List.reverse_cons, List.findSome?_append]
    cases ops.reverse.findSome? Operation.posts <;> simp

/-- A message that came with a run came with the last warning of it. -/
theorem message_run_eq_iff (hi : c.isInitialized) (hc : c.message = "") (htext : text ≠ "") :
    (run ops c).1.message = text ↔
      ∃ before op between, ops = before ++ op :: between ∧ op.plain = .warn text ∧
        ∀ later ∈ between, later.posts = none := by
  have hlast : (run ops c).1.message = text ↔
      ops.reverse.findSome? Operation.posts = some text := by
    rw [message_run hi, hc]
    cases ops.reverse.findSome? Operation.posts <;> simp [htext.symm]
  rw [hlast, List.findSome?_eq_some_iff]
  simp only [Operation.posts_eq_some_iff htext]
  constructor
  · rintro ⟨between, op, before, hops, hop, hbetween⟩
    refine ⟨before.reverse, op, between.reverse, ?_, hop, by simpa using hbetween⟩
    rw [← List.reverse_reverse ops, hops]
    simp
  · rintro ⟨before, op, between, rfl, hop, hbetween⟩
    exact ⟨between.reverse, op, before.reverse, by simp, hop, by simpa using hbetween⟩

/-- A message of several lines came with the last warning. -/
theorem lineBreaks_message_iff (hi : c.isInitialized) (hc : c.message = "") :
    0 < lineBreaks (run ops c).1.message ↔
      ∃ before op between, ops = before ++ op :: between ∧ op.WarnsInLines ∧
        ∀ later ∈ between, later.posts = none := by
  constructor
  · intro h
    obtain ⟨before, op, between, hops, hop, hbetween⟩ :=
      (message_run_eq_iff hi hc (ne_empty_of_lineBreaks h)).1 rfl
    exact ⟨before, op, between, hops, ⟨_, hop, h⟩, hbetween⟩
  · rintro ⟨before, op, between, hops, ⟨text, hop, htext⟩, hbetween⟩
    rwa [(message_run_eq_iff hi hc (ne_empty_of_lineBreaks htext)).2
      ⟨before, op, between, hops, hop, hbetween⟩]

/-- Warnings bring the texts of several lines, and all of them are told. -/
theorem lineBreaks_note_run_iff (hi : c.isInitialized) (hc : c.message = "") :
    (∃ e, .event e ∈ (run ops c).2 ∧ 0 < lineBreaks e.note) ↔ ∃ op ∈ ops, op.WarnsInLines := by
  have hi' (before : List Operation) : (run before c).1.isInitialized :=
    (isInitialized_run before c).trans hi
  constructor
  · rintro ⟨e, he, hbreaks⟩
    obtain ⟨before, op, after, rfl, hstep⟩ := mem_run_iff.1 he
    rcases note_of_mem_step (hi' before) hstep with hnote | ⟨text, hop, rfl⟩ | ⟨-, rfl⟩
    · exact absurd hnote (ne_empty_of_lineBreaks hbreaks)
    · exact ⟨op, by simp, text, hop, hbreaks⟩
    · -- the text on show at that time came with an earlier warning
      obtain ⟨-, warning, -, rfl, hwarning, -⟩ := (lineBreaks_message_iff hi hc).1 hbreaks
      exact ⟨warning, by simp, hwarning⟩
  · rintro ⟨op, hop, text, hplain, htext⟩
    obtain ⟨before, after, rfl⟩ := List.append_of_mem hop
    have htold := message_mem_step (hi' before) hplain (ne_empty_of_lineBreaks htext)
    exact ⟨.message text, mem_run_iff.2 ⟨before, op, after, rfl, htold⟩, htext⟩

/-- A snapshot has a text of several lines just when it is asked for while that text is on show. -/
theorem lineBreaks_snapshot_run_iff (hi : c.isInitialized) (hc : c.message = "") :
    (∃ s, .event (.snapshot s) ∈ (run ops c).2 ∧ 0 < lineBreaks s.message) ↔
      ∃ before op between after, ops = before ++ op :: (between ++ .publish :: after) ∧
        op.WarnsInLines ∧ ∀ later ∈ between, later.posts = none := by
  have hi' (before : List Operation) : (run before c).1.isInitialized :=
    (isInitialized_run before c).trans hi
  constructor
  · rintro ⟨s, hs, hbreaks⟩
    obtain ⟨past, op, after, rfl, hstep⟩ := mem_run_iff.1 hs
    rcases note_of_mem_step (hi' past) hstep with hnote | ⟨_, _, hmessage⟩ | ⟨rfl, hshown⟩
    · exact absurd hnote (ne_empty_of_lineBreaks hbreaks)
    · cases hmessage
    · obtain rfl := Event.snapshot.inj hshown
      obtain ⟨before, warning, between, rfl, hwarning, hbetween⟩ :=
        (lineBreaks_message_iff hi hc).1 hbreaks
      exact ⟨before, warning, between, after, by simp, hwarning, hbetween⟩
  · rintro ⟨before, warning, between, after, rfl, hwarning, hbetween⟩
    let past := before ++ warning :: between
    have hpublished : .event (.snapshot (run past c).1.snapshot) ∈ (publish (run past c).1).2 := by
      rw [publish, guarded_apply _ (hi' past)]
      exact List.mem_singleton_self _
    refine ⟨(run past c).1.snapshot,
      mem_run_iff.2 ⟨past, .publish, after, by simp [past], hpublished⟩, ?_⟩
    exact (lineBreaks_message_iff hi hc).2 ⟨before, warning, between, rfl, hwarning, hbetween⟩

/-- **What breaks the lines of the log.** In a run some record takes several lines just when there is
hardware and some warning has a text of several lines. A dashboard record does just when it is asked
for while such a text is on show: no request and no start has come since the warning. -/
theorem line_breaks_history_iff (config : Config) (hardware : Except Fault Equipment)
    (ops : List Operation) :
    let happened := Effect.events (history config hardware ops).2
    ((∃ e ∈ happened, 0 < lineBreaks e.record.text) ↔
        hardware.isOk ∧ ∃ op ∈ ops, op.WarnsInLines) ∧
      ((∃ s, .snapshot s ∈ happened ∧ 0 < lineBreaks s.line) ↔
        hardware.isOk ∧ ∃ before op between after,
          ops = before ++ op :: (between ++ .publish :: after) ∧ op.WarnsInLines ∧
            ∀ later ∈ between, later.posts = none) := by
  intro happened
  have hused {e : Event} : e ∈ happened ∧ 0 < lineBreaks e.note ↔
      .event e ∈ (run ops (new config hardware).1).2 ∧ 0 < lineBreaks e.note := by
    refine and_congr_left fun hbreaks => ?_
    rw [Effect.mem_events, history, List.mem_append]
    exact or_iff_right fun h => ne_empty_of_lineBreaks hbreaks (note_of_mem_new h)
  have hsnapshot {s : Snapshot} : .snapshot s ∈ happened ∧ 0 < lineBreaks s.line ↔
      .event (.snapshot s) ∈ (run ops (new config hardware).1).2 ∧ 0 < lineBreaks s.message := by
    rw [Snapshot.lineBreaks_line]
    exact hused
  simp only [lineBreaks_record, hused, hsnapshot]
  rw [← isInitialized_new config hardware]
  cases hi : (new config hardware).1.isInitialized with
  | false => simp [run_inert ops hi]
  | true =>
    have hmessage : (new config hardware).1.message = "" := message_build _ _ _
    rw [lineBreaks_note_run_iff hi hmessage, lineBreaks_snapshot_run_iff hi hmessage]
    simp only [true_and, and_self]

/-- A warning can end its line and go on with the record of an event. Here the mode never changes,
and a line of the dashboard record says that it did. -/
theorem warning_forges_record :
    let change := Event.modeChanged .off .blinking
    let text := "low\"" ++ "\n" ++ change.record.text ++ "\n"
    let happened := Effect.events
      (history (.forProfile .relay) (.ok ⟨.all true, true⟩) [.warn text, .publish]).2
    change ∉ happened ∧ ∃ s before after, .snapshot s ∈ happened ∧
      s.line = before ++ "\n" ++ change.record.text ++ "\n" ++ after := by
  intro change text happened
  let shown : Snapshot := ⟨true, .off, .warn, .all false, .off, text⟩
  have hshown : .snapshot shown ∈ happened := by decide +kernel
  obtain ⟨before, hline⟩ : ∃ before, shown.line = before ++ (text ++ "\"") := by
    unfold Snapshot.line
    rw [String.append_assoc]
    exact ⟨_, rfl⟩
  refine ⟨by decide +kernel, shown, before ++ "low\"", "\"", hshown, ?_⟩
  rw [hline]
  simp only [text, String.append_assoc]

end Controller
end SignalLights
