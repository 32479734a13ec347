import Mathlib.Data.List.Chain
import SignalLights.Proofs.Controller.Atoms
import SignalLights.Proofs.Controller.Reachable

/-!
# Writes are needed, reported and remembered

From construction on, a controller writes an output only when its level changes, reports every
write right after it, and remembers the last one; an output its port lacks is never written
(`writes_history`).

`Latches.Writes` says this of a list of effects, as an account that leads from what the latches held
before to what they hold after. Every atom keeps such an account, so every run does.
-/

namespace SignalLights

def Event.level? : Event → Option (Channel × Bool)
  | levelChanged ch on => some (ch, on)
  | _ => none

def Event.code? : Event → Option StatusCode
  | statusChanged code => some code
  | _ => none

namespace Effect

/-- Writes to a port and the reports of them. -/
def isOutput : Effect → Bool
  | level _ _ | frame _ | event (.levelChanged _ _) | event (.statusChanged _) => true
  | _ => false

/-- The levels written to one channel, in order. -/
def levelsOn (ch : Channel) (es : List Effect) : List Bool :=
  (levels es).filterMap fun w => if w.1 = ch then some w.2 else none

def reportedLevels (es : List Effect) : List (Channel × Bool) := (events es).filterMap Event.level?

def reportedCodes (es : List Effect) : List StatusCode := (events es).filterMap Event.code?

section Other

variable {e : Effect} (h : e.isOutput = false) (es : List Effect)
include h

theorem levels_cons_other : levels (e :: es) = levels es := by
  cases e with
  | level => cases h
  | _ => rfl

theorem frames_cons_other : frames (e :: es) = frames es := by
  cases e with
  | frame => cases h
  | _ => rfl

theorem reportedLevels_cons_other : reportedLevels (e :: es) = reportedLevels es := by
  cases e with
  | event e => cases e <;> first | rfl | cases h
  | _ => rfl

theorem reportedCodes_cons_other : reportedCodes (e :: es) = reportedCodes es := by
  cases e with
  | event e => cases e <;> first | rfl | cases h
  | _ => rfl

theorem levelsOn_cons_other (ch : Channel) : levelsOn ch (e :: es) = levelsOn ch es := by
  rw [levelsOn, levels_cons_other h, levelsOn]

end Other

theorem levelsOn_write (ch d : Channel) (on : Bool) (es : List Effect) :
    levelsOn d
        (.level ch on :: .notice (.levelWritten ch on) :: .event (.levelChanged ch on) :: es) =
      if ch = d then on :: levelsOn d es else levelsOn d es := by
  change List.filterMap _ ((ch, on) :: levels es) = _
  by_cases h : ch = d <;> simp [levelsOn, h]

theorem reportedCodes_write (code : StatusCode) (es : List Effect) :
    reportedCodes
        (.frame code.frame :: .notice (.statusWritten code) :: .event (.statusChanged code) :: es) =
      code :: reportedCodes es := rfl

end Effect

/-! ## Accounts of the latches -/

section Last

variable {α : Type} {o : Option α} {a : α}

/-- Of a row that starts with a value, what was there before it is never the last. -/
theorem getLast?_cons_or (as : List α) : (a :: as).getLast?.or o = as.getLast?.or (some a) := by
  rw [List.getLast?_cons]
  cases as.getLast? <;> rfl

theorem isChain_toList (o : Option α) : o.toList.IsChain (· ≠ ·) := by
  cases o with
  | none => exact .nil
  | some a => exact .singleton a

/-- A row without repeats stays one after what was there before, if its first value is another. -/
theorem isChain_toList_append {as : List α} (hne : o ≠ some a)
    (h : (a :: as).IsChain (· ≠ ·)) : (o.toList ++ a :: as).IsChain (· ≠ ·) := by
  cases o with
  | none => exact h
  | some b =>
    rw [ne_eq, Option.some.injEq] at hne
    exact .cons_cons hne h

end Last

namespace Latches

/-- The effects take the latches of a port from one state to another by writes, each needed when it
comes and reported at once. -/
inductive Writes (policy : WritePolicy) (port : Equipment) : Latches → List Effect → Latches → Prop
  | nil (l : Latches) : Writes policy port l [] l
  | other {l l' : Latches} {e : Effect} {es : List Effect} :
      e.isOutput = false → Writes policy port l es l' → Writes policy port l (e :: es) l'
  | level {l l' : Latches} {ch : Channel} {on : Bool} {es : List Effect} :
      l.needsLevel policy port ch on →
      Writes policy port { l with levels := l.levels.set ch (some on) } es l' →
      Writes policy port l
        (.level ch on :: .notice (.levelWritten ch on) :: .event (.levelChanged ch on) :: es) l'
  | code {l l' : Latches} {code : StatusCode} {es : List Effect} :
      l.needsStatus policy port code →
      Writes policy port { l with status := some code } es l' →
      Writes policy port l
        (.frame code.frame :: .notice (.statusWritten code) :: .event (.statusChanged code) :: es) l'

namespace Writes

variable {policy : WritePolicy} {port : Equipment} {l l' l'' : Latches} {es fs : List Effect}

theorem append (h : Writes policy port l es l') (h' : Writes policy port l' fs l'') :
    Writes policy port l (es ++ fs) l'' := by
  induction h with
  | nil => exact h'
  | other he _ ih => exact .other he (ih h')
  | level hn _ ih => exact .level hn (ih h')
  | code hn _ ih => exact .code hn (ih h')

/-- Every level written is reported, in order, and nothing else is. -/
theorem reportedLevels_eq (h : Writes policy port l es l') :
    Effect.reportedLevels es = Effect.levels es := by
  induction h with
  | nil => rfl
  | other he _ ih => rw [Effect.reportedLevels_cons_other he, Effect.levels_cons_other he, ih]
  | level _ _ ih => exact congrArg (_ :: ·) ih
  | code _ _ ih => exact ih

/-- Every frame written is the frame of a code reported, in order. -/
theorem frames_eq (h : Writes policy port l es l') :
    Effect.frames es = (Effect.reportedCodes es).map StatusCode.frame := by
  induction h with
  | nil => rfl
  | other he _ ih => rw [Effect.reportedCodes_cons_other he, Effect.frames_cons_other he, ih]
  | level _ _ ih => exact ih
  | code _ _ ih => exact congrArg (_ :: ·) ih

/-- A channel shows the last level written to it, or the one it showed before. -/
theorem level_eq (h : Writes policy port l es l') (ch : Channel) :
    l'.level ch = (Effect.levelsOn ch es).getLast?.or (l.level ch) := by
  induction h with
  | nil => rfl
  | other he _ ih => rw [Effect.levelsOn_cons_other he, ih]
  | @level l l' d on es _ _ ih =>
    rw [ih, Effect.levelsOn_write, Latches.level, Latches.level, PerChannel.get_set]
    by_cases hd : d = ch
    · rw [if_pos hd.symm, if_pos hd, getLast?_cons_or]
    · rw [if_neg (Ne.symm hd), if_neg hd]
  | code _ _ ih => exact ih

/-- The display shows the last code sent to it, or the one it showed before. -/
theorem status_eq (h : Writes policy port l es l') :
    l'.status = (Effect.reportedCodes es).getLast?.or l.status := by
  induction h with
  | nil => rfl
  | other he _ ih => rw [Effect.reportedCodes_cons_other he, ih]
  | level _ _ ih => exact ih
  | code _ _ ih => rw [ih, Effect.reportedCodes_write, getLast?_cons_or]

/-- A channel that the port lacks is not written. -/
theorem levelsOn_eq_nil (h : Writes policy port l es l') {ch : Channel}
    (hch : port.has ch = false) : Effect.levelsOn ch es = [] := by
  induction h with
  | nil => rfl
  | other he _ ih => rw [Effect.levelsOn_cons_other he, ih]
  | @level l l' d on es hn _ ih =>
    have hd : d ≠ ch := by
      rintro rfl
      simp [needsLevel, hch] at hn
    rw [Effect.levelsOn_write, if_neg hd, ih]
  | code _ _ ih => exact ih

/-- Without a link no frame is written. -/
theorem frames_eq_nil (h : Writes policy port l es l') (hlink : port.statusLink = false) :
    Effect.frames es = [] := by
  induction h with
  | nil => rfl
  | other he _ ih => rw [Effect.frames_cons_other he, ih]
  | level _ _ ih => exact ih
  | code hn _ ih => simp [needsStatus, hlink] at hn

/-- Under suppression a channel is written only to change what it shows. -/
theorem levelsOn_isChain (h : Writes .onChange port l es l') (ch : Channel) :
    ((l.level ch).toList ++ Effect.levelsOn ch es).IsChain (· ≠ ·) := by
  induction h with
  | nil l =>
    rw [show Effect.levelsOn ch [] = [] from rfl, List.append_nil]
    exact isChain_toList (l.level ch)
  | other he _ ih => rwa [Effect.levelsOn_cons_other he]
  | @level l l' d on es hn _ ih =>
    rw [Latches.level, PerChannel.get_set] at ih
    rw [Effect.levelsOn_write]
    by_cases hd : d = ch
    · subst hd
      have hne : l.level d ≠ some on := by
        simp only [needsLevel, Bool.and_eq_true, Bool.or_eq_true] at hn
        simpa using hn.2
      rw [if_pos rfl] at ih ⊢
      exact isChain_toList_append hne ih
    · rw [if_neg (Ne.symm hd)] at ih
      rw [if_neg hd]
      exact ih
  | code _ _ ih => exact ih

/-- Under suppression the display is written only to change what it shows. -/
theorem reportedCodes_isChain (h : Writes .onChange port l es l') :
    (l.status.toList ++ Effect.reportedCodes es).IsChain (· ≠ ·) := by
  induction h with
  | nil l =>
    rw [show Effect.reportedCodes [] = [] from rfl, List.append_nil]
    exact isChain_toList l.status
  | other he _ ih => rwa [Effect.reportedCodes_cons_other he]
  | level _ _ ih => exact ih
  | @code l l' code es hn _ ih =>
    have hne : l.status ≠ some code := by
      simp only [needsStatus, Bool.and_eq_true, Bool.or_eq_true] at hn
      simpa using hn.2
    rw [Effect.reportedCodes_write]
    exact isChain_toList_append hne ih

/-- So no frame is sent twice in a row. -/
theorem frames_isChain (h : Writes .onChange port l es l') :
    (Effect.frames es).IsChain (· ≠ ·) := by
  have hcodes := h.reportedCodes_isChain.right_of_append
  rw [h.frames_eq, List.isChain_map]
  exact hcodes.imp fun _ _ hne heq => hne (StatusCode.frame_injective heq)

end Writes
end Latches

/-! ## Steps that keep the account -/

/-- Whether an atom reports a write that it does not make. -/
def Atom.reportsWrite : Atom → Bool
  | .tell e => (Effect.event e).isOutput
  | _ => false

namespace Operation

theorem not_reportsWrite_wantAtoms (w : Wanted) (c : Controller) :
    ∀ a ∈ wantAtoms w c, a.reportsWrite = false := by
  simp [wantAtoms, Atom.reportsWrite, Effect.isOutput, or_imp, forall_and]

/-- Only the writing atoms of an operation report writes. -/
theorem not_reportsWrite (op : Operation) (c : Controller) :
    ∀ a ∈ op.atoms c, a.reportsWrite = false := by
  unfold atoms
  cases op.plain with
  | want w => exact not_reportsWrite_wantAtoms w c
  | warn text =>
    exact List.forall_mem_append.2
      ⟨not_reportsWrite_wantAtoms .warn c, by simp [Atom.reportsWrite]⟩
  | _ =>
    simp [Atom.tellIf, Atom.driveAll, Atom.reportsWrite, Effect.isOutput, or_imp, forall_and]

end Operation

namespace Controller

/-- On a controller with this port, a step keeps the account of its writes. -/
def Accounts (port : Equipment) (f : Step Controller Effect) : Prop :=
  ∀ c, c.port = some port →
    Latches.Writes c.policy port c.latches (f c).2 (f c).1.latches ∧
      (f c).1.port = some port ∧ (f c).1.policy = c.policy

variable {port : Equipment}

theorem onPort_apply (f : Equipment → Step Latches Effect) {c : Controller}
    (h : c.port = some port) :
    onPort f c = ({ c with latches := (f port c.latches).1 }, (f port c.latches).2) := by
  simp [onPort, h]

theorem accounts_chain {fs : List (Step Controller Effect)} (h : ∀ f ∈ fs, Accounts port f) :
    Accounts port (.chain fs) := by
  induction fs with
  | nil => exact fun c hc => ⟨.nil _, hc, rfl⟩
  | cons f fs ih =>
    intro c hc
    obtain ⟨hw, hp, hq⟩ := h f List.mem_cons_self c hc
    obtain ⟨hw', hp', hq'⟩ := ih (fun g hg => h g (List.mem_cons_of_mem f hg)) _ hp
    rw [hq] at hw'
    exact ⟨hw.append hw', hp', hq'.trans hq⟩

theorem accounts_drive (ch : Channel) (on : Bool) : Accounts port (drive ch on) := by
  intro c hc
  rw [drive, onPort_apply _ hc, Latches.drive]
  split
  · next hn => exact ⟨.level hn (.nil _), hc, rfl⟩
  · exact ⟨.nil _, hc, rfl⟩

theorem accounts_setStatus (code : StatusCode) : Accounts port (setStatus code) := by
  intro c hc
  rw [setStatus, onPort_apply _ hc, Latches.display]
  split
  · next hn => exact ⟨.code hn (.nil _), hc, rfl⟩
  · exact ⟨.nil _, hc, rfl⟩

theorem accounts_atom {a : Atom} (h : a.reportsWrite = false) : Accounts port a.step := by
  cases a with
  | say n => exact fun c hc => ⟨.other rfl (.nil _), hc, rfl⟩
  | tell e => exact fun c hc => ⟨.other h (.nil _), hc, rfl⟩
  | move core => exact fun c hc => ⟨.nil _, hc, rfl⟩
  | drive ch on => exact accounts_drive ch on
  | display code => exact accounts_setStatus code
  | post text =>
    intro c hc
    simp only [Atom.step, setMessage]
    split
    · exact ⟨.nil _, hc, rfl⟩
    · exact ⟨.other rfl (.nil _), hc, rfl⟩

theorem accounts_perform {atoms : List Atom} (h : ∀ a ∈ atoms, a.reportsWrite = false) :
    Accounts port (perform atoms) := by
  refine accounts_chain ?_
  intro f hf
  obtain ⟨a, ha, rfl⟩ := List.mem_map.1 hf
  exact accounts_atom (h a ha)

theorem accounts_step (op : Operation) : Accounts port op.step := by
  intro c hc
  rw [step_eq_perform op (by simp [isInitialized, hc])]
  exact accounts_perform (op.not_reportsWrite c) c hc

theorem accounts_run (ops : List Operation) : Accounts port (run ops) := by
  refine accounts_chain ?_
  intro f hf
  obtain ⟨op, -, rfl⟩ := List.mem_map.1 hf
  exact accounts_step op

/-! ## From construction on -/

/-- A controller on a port from its construction through a list of operations, under a policy for
writes of its own. -/
def historyUnder (policy : WritePolicy) (config : Config) (port : Equipment)
    (ops : List Operation) : Controller × List Effect :=
  let built := build policy config (.ok port)
  let used := run ops built.1
  (used.1, built.2 ++ used.2)

theorem history_eq (config : Config) (port : Equipment) (ops : List Operation) :
    history config (.ok port) ops = historyUnder .onChange config port ops := rfl

theorem accounts_setup (config : Config) : Accounts port (perform (setup config)) := by
  refine accounts_perform ?_
  simp [setup, Atom.driveAll, Atom.reportsWrite, Effect.isOutput, or_imp, forall_and]

/-- A history is one account of all its writes, on one port and under one policy. -/
theorem accounts_historyUnder (policy : WritePolicy) (config : Config) (port : Equipment)
    (ops : List Operation) :
    let r := historyUnder policy config port ops
    Latches.Writes policy port .blank r.2 r.1.latches ∧
      r.1.port = some port ∧ r.1.policy = policy := by
  obtain ⟨hw, hp, hq⟩ := accounts_setup config (initial policy config (some port)) rfl
  rw [← build_eq_perform] at hw hp hq
  obtain ⟨hw', hp', hq'⟩ := accounts_run ops _ hp
  rw [hq] at hw'
  exact ⟨hw.append hw', hp', hq'.trans hq⟩

theorem writes_historyUnder (policy : WritePolicy) (config : Config) (port : Equipment)
    (ops : List Operation) :
    Latches.Writes policy port .blank (historyUnder policy config port ops).2
      (historyUnder policy config port ops).1.latches :=
  (accounts_historyUnder policy config port ops).1

theorem Reachable.policy_eq {c : Controller} (hc : c.Reachable) (hi : c.isInitialized) :
    c.policy = .onChange := by
  obtain ⟨config, hardware, ops, rfl⟩ := hc
  cases hardware with
  | error f =>
    rw [history, isInitialized_run] at hi
    cases hi
  | ok port => exact (accounts_historyUnder .onChange config port ops).2.2

theorem status_blank : Latches.blank.status = none := rfl

/-- **Every write is needed, reported and remembered.** From construction on: the levels reported
are the levels written, and the frames written are the codes reported, as decimal numbers in ASCII;
two levels in a row on one channel differ, and so do two codes and two frames in a row; what the port
lacks is never written; and the controller shows the last level of every channel and the last
code. -/
theorem writes_history (config : Config) (port : Equipment) (ops : List Operation) :
    let c := (history config (.ok port) ops).1
    let es := (history config (.ok port) ops).2
    (Effect.reportedLevels es = Effect.levels es ∧
        Effect.frames es =
          (Effect.reportedCodes es).map fun code => (toString code.code).toUTF8.data.toList) ∧
      ((∀ ch, (Effect.levelsOn ch es).IsChain (· ≠ ·)) ∧
        (Effect.reportedCodes es).IsChain (· ≠ ·) ∧ (Effect.frames es).IsChain (· ≠ ·)) ∧
      ((∀ ch, port.has ch = false → Effect.levelsOn ch es = []) ∧
        (port.statusLink = false → Effect.frames es = [])) ∧
      (∀ ch, c.isLit ch = (Effect.levelsOn ch es).getLast?.getD false) ∧
        c.status = (Effect.reportedCodes es).getLast?.getD .off := by
  intro c es
  have h : Latches.Writes .onChange port .blank es c.latches :=
    writes_historyUnder .onChange config port ops
  have hframes : Effect.frames es =
      (Effect.reportedCodes es).map fun code => (toString code.code).toUTF8.data.toList := by
    rw [h.frames_eq]
    exact List.map_congr_left fun code _ => code.frame_eq_toUTF8
  refine ⟨⟨h.reportedLevels_eq, hframes⟩, ⟨?_, h.reportedCodes_isChain, h.frames_isChain⟩,
    ⟨fun ch hch => h.levelsOn_eq_nil hch, fun hlink => h.frames_eq_nil hlink⟩, ?_, ?_⟩
  · intro ch
    have hchain := h.levelsOn_isChain ch
    rwa [level_blank] at hchain
  · intro ch
    rw [isLit, h.level_eq ch, level_blank, Option.or_none]
  · rw [status, h.status_eq, status_blank, Option.or_none]

end Controller
end SignalLights
