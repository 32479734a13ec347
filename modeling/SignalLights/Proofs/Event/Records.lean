import SignalLights.Event

/-!
# Records of events

The log keeps the record of an event and nothing else of it, and that is enough: different events
leave different records (`record_eq_record_iff`). A record opens with words that tell the kind of the
event, and then shows its contents. Modes, requests, codes, channels and truth values are spelled by
words, so whatever is no part of a word ends it (`SpelledByWords.cancel`). A message can have any
characters. It is shown last, and what is left but for the closing quote is the message. So a record
has the line breaks of the text that the event carries, and no other (`lineBreaks_record`).
-/

namespace SignalLights

/-! ## Words -/

/-- The characters of the words in records. -/
def isWordChar (c : Char) : Bool := c.isAlpha || c == '_'

/-- Each value is spelled by a word, and by one of its own. -/
structure SpelledByWords {α : Type} (spell : α → String) : Prop where
  injective : ∀ a b, spell a = spell b → a = b
  letters : ∀ a, (spell a).toList.all isWordChar

theorem append_sign_inj {sign : Char} {u v s t : List Char} (hu : sign ∉ u) (hv : sign ∉ v)
    (h : u ++ sign :: s = v ++ sign :: t) : u = v ∧ s = t := by
  induction u generalizing v with
  | nil => cases v <;> grind
  | cons c u ih => cases v <;> grind

/-- A text that does not go on with the word before it. -/
def endsWord (gap : String) : Bool := gap.toList.head?.any fun c => !isWordChar c

/-- A word is known where it ends, and so is what comes after. -/
theorem SpelledByWords.cancel {α : Type} {spell : α → String} (h : SpelledByWords spell)
    {gap : String} (hgap : endsWord gap) {a b : α} {s t : String}
    (he : spell a ++ (gap ++ s) = spell b ++ (gap ++ t)) : a = b ∧ s = t := by
  obtain ⟨sign, hhead, hsign⟩ := (Option.any_eq_true _ _).1 hgap
  obtain ⟨rest, hrest⟩ := List.head?_eq_some_iff.1 hhead
  have hnot (a : α) : sign ∉ (spell a).toList := by
    intro hmem
    rw [List.all_eq_true.1 (h.letters a) sign hmem] at hsign
    cases hsign
  have hlists := congrArg String.toList he
  simp only [String.toList_append, hrest, List.cons_append] at hlists
  obtain ⟨hword, htail⟩ := append_sign_inj (hnot a) (hnot b) hlists
  exact ⟨h.injective a b (String.toList_inj.1 hword),
    String.toList_inj.1 (List.append_cancel_left htail)⟩

theorem Mode.spelledByWords : SpelledByWords Mode.label where
  injective a b := by cases a <;> cases b <;> decide
  letters a := by cases a <;> decide

theorem Wanted.spelledByWords : SpelledByWords Wanted.label where
  injective a b := by cases a <;> cases b <;> decide
  letters a := by cases a <;> decide

theorem Channel.spelledByWords : SpelledByWords Channel.label where
  injective a b := by cases a <;> cases b <;> decide
  letters a := by cases a <;> decide

theorem StatusCode.spelledByWords : SpelledByWords StatusCode.name where
  injective := Enumerated.name_injective
  letters a := by cases a <;> decide

theorem spelledByWords_bool : SpelledByWords (toString : Bool → String) where
  injective := by decide
  letters := by decide

/-! ## Snapshots -/

namespace Snapshot

/-- A dashboard line shows the whole snapshot. -/
theorem line_inj {s t : Snapshot} (h : s.line = t.line) : s = t := by
  unfold line at h
  simp only [String.append_assoc, String.append_right_inj] at h
  obtain ⟨hok, h⟩ := spelledByWords_bool.cancel (by decide) h
  obtain ⟨hmode, h⟩ := Mode.spelledByWords.cancel (by decide) h
  obtain ⟨hwanted, h⟩ := Wanted.spelledByWords.cancel (by decide) h
  simp only [String.append_right_inj] at h
  obtain ⟨hdriver, h⟩ := spelledByWords_bool.cancel (by decide) h
  simp only [String.append_right_inj] at h
  obtain ⟨hstrip, h⟩ := spelledByWords_bool.cancel (by decide) h
  simp only [String.append_right_inj] at h
  obtain ⟨hlamp, h⟩ := spelledByWords_bool.cancel (by decide) h
  obtain ⟨hstatus, h⟩ := StatusCode.spelledByWords.cancel (by decide) h
  have hmessage : s.message = t.message := (String.append_left_inj _).1 h
  cases s
  cases t
  rw [mk.injEq]
  exact ⟨hok, hmode, hwanted, PerChannel.ext hdriver hstrip hlamp, hstatus, hmessage⟩

end Snapshot

/-! ## Records -/

namespace Event

/-- The words that a record opens with. -/
def opening : Event → String
  | .initialized _ => "LED | initialized="
  | .modeChanged _ _ => "LED | state "
  | .wantedChanged _ => "LED | wanted="
  | .levelChanged _ _ => "LED | "
  | .statusChanged _ => "LED | status="
  | .message _ => "LED | message=\""
  | .snapshot _ => "DASH | initialized="

theorem exists_text_eq (e : Event) : ∃ rest, e.record.text = e.opening ++ rest := by
  cases e with
  | snapshot s =>
    change ∃ rest, s.line = _
    unfold Snapshot.line
    simp only [String.append_assoc]
    exact ⟨_, rfl⟩
  | _ =>
    simp only [record, String.append_assoc]
    exact ⟨_, rfl⟩

/-- Among the records of one severity no opening is the beginning of another. -/
theorem opening_eq {a b : Event} (h : a.record = b.record) : a.opening = b.opening := by
  obtain ⟨s, hs⟩ := a.exists_text_eq
  obtain ⟨t, ht⟩ := b.exists_text_eq
  have hseverity := congrArg Record.severity h
  have hlists : a.opening.toList ++ s.toList = b.opening.toList ++ t.toList := by
    rw [← String.toList_append, ← String.toList_append, ← hs, ← ht, h]
  have hbegins := List.prefix_or_prefix_of_prefix ⟨_, rfl⟩ ⟨_, hlists.symm⟩
  clear hs ht hlists h
  cases a <;> cases b <;> revert hseverity hbegins <;> simp only [record, opening] <;> decide

/-- **Records tell events apart.** Events with one record are one event, whatever their texts: the
record of a dashboard, say, shows the whole snapshot. -/
theorem record_eq_record_iff (a b : Event) : a.record = b.record ↔ a = b := by
  refine ⟨fun h => ?_, congrArg record⟩
  have hopening := opening_eq h
  have htext := congrArg Record.text h
  cases a <;> cases b
  case initialized.initialized ok ok' =>
    simp only [record, String.append_right_inj] at htext
    rw [spelledByWords_bool.injective _ _ htext]
  case modeChanged.modeChanged s t s' t' =>
    simp only [record, String.append_assoc, String.append_right_inj] at htext
    obtain ⟨hs, ht⟩ := Mode.spelledByWords.cancel (by decide) htext
    rw [hs, Mode.spelledByWords.injective _ _ ht]
  case wantedChanged.wantedChanged w w' =>
    simp only [record, String.append_right_inj] at htext
    rw [Wanted.spelledByWords.injective _ _ htext]
  case levelChanged.levelChanged ch on ch' on' =>
    simp only [record, String.append_assoc, String.append_right_inj] at htext
    obtain ⟨hch, hon⟩ := Channel.spelledByWords.cancel (by decide) htext
    rw [hch, spelledByWords_bool.injective _ _ hon]
  case statusChanged.statusChanged code code' =>
    simp only [record, String.append_assoc, String.append_right_inj] at htext
    obtain ⟨hcode, -⟩ := StatusCode.spelledByWords.cancel (by decide) htext
    rw [hcode]
  case message.message text text' =>
    simp only [record, String.append_right_inj, String.append_left_inj] at htext
    rw [htext]
  case snapshot.snapshot s t => rw [Snapshot.line_inj htext]
  -- events of different kinds open differently
  all_goals exact absurd hopening (by simp [opening])

end Event

/-! ## Line breaks -/

/-- The characters that end a line. -/
def lineEnds : List Char := ['\n', '\x0b', '\x0c', '\r', '\x85', '\u2028', '\u2029']

def isLineBreak (c : Char) : Bool := lineEnds.contains c

def lineBreaks (s : String) : Nat := s.toList.countP isLineBreak

@[simp] theorem lineBreaks_append (s t : String) :
    lineBreaks (s ++ t) = lineBreaks s + lineBreaks t := by
  rw [lineBreaks, String.toList_append, List.countP_append]
  rfl

theorem isLineBreak_of_isWordChar {c : Char} (h : isWordChar c) : isLineBreak c = false := by
  have hends : lineEnds.all fun b => !isWordChar b := by decide
  cases hbreak : isLineBreak c with
  | false => rfl
  | true =>
    have hc := List.all_eq_true.1 hends c (List.contains_iff_mem.1 hbreak)
    rw [h] at hc
    cases hc

theorem SpelledByWords.lineBreaks_eq {α : Type} {spell : α → String} (h : SpelledByWords spell)
    (a : α) : lineBreaks (spell a) = 0 := by
  refine List.countP_eq_zero.2 fun c hc => ?_
  rw [isLineBreak_of_isWordChar (List.all_eq_true.1 (h.letters a) c hc)]
  exact Bool.false_ne_true

/-- The text that an event carries. -/
def Event.note : Event → String
  | .message text => text
  | .snapshot s => s.message
  | _ => ""

@[simp] theorem lineBreaks_empty : lineBreaks "" = 0 := rfl

theorem Snapshot.lineBreaks_line (s : Snapshot) : lineBreaks s.line = lineBreaks s.message := by
  unfold line
  simp only [lineBreaks_append, spelledByWords_bool.lineBreaks_eq, Mode.spelledByWords.lineBreaks_eq,
    Wanted.spelledByWords.lineBreaks_eq, Channel.spelledByWords.lineBreaks_eq,
    StatusCode.spelledByWords.lineBreaks_eq]
  simp [lineBreaks, isLineBreak, lineEnds]

theorem StatusCode.lineBreaks_code (code : StatusCode) : lineBreaks (toString code.code) = 0 := by
  cases code <;> decide

theorem lineBreaks_record (e : Event) : lineBreaks e.record.text = lineBreaks e.note := by
  cases e with
  | snapshot s => exact s.lineBreaks_line
  | _ =>
    simp only [Event.record, Event.note, lineBreaks_append, spelledByWords_bool.lineBreaks_eq,
      Mode.spelledByWords.lineBreaks_eq, Wanted.spelledByWords.lineBreaks_eq,
      Channel.spelledByWords.lineBreaks_eq, StatusCode.spelledByWords.lineBreaks_eq,
      StatusCode.lineBreaks_code]
    simp [lineBreaks, isLineBreak, lineEnds]

theorem ne_empty_of_lineBreaks {s : String} (h : 0 < lineBreaks s) : s ≠ "" := by
  rintro rfl
  exact absurd h (by simp)

end SignalLights
