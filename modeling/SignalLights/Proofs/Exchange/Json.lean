import SignalLights.Exchange.Command
import SignalLights.Exchange.Config
import SignalLights.Proofs.Json.Readers

/-!
# JSON values

A configuration and a command are read back from their JSON texts if all doubles in them are
finite, and only then (`json_values`).
-/

namespace SignalLights

open Json Reader

/-! ## Configurations -/

namespace Config

/-- The doubles of a configuration. -/
def doubles (c : Config) : List Binary64 := [c.blinkPeriod]

section Fields

variable {α : Type} {name : String} {get : Draft → Option α} {set : Draft → α → Draft}
  {reader : Json.Reader α} {v : List Char} {d : Draft} {ms : List Member} {r : Except Failure Draft}

/-- A field that is not yet in a draft is put there. -/
theorem readsMembers_field {a : α}
    (hfind : fields.find? (·.name == name) = some (draftField name get set reader))
    (habsent : (get d).isSome = false) (hread : Reads reader v (.ok a))
    (htail : ReadsMembers fields (set d a) ms r) : ReadsMembers fields d ((name, v) :: ms) r :=
  .known hfind habsent (hread.map (set d)) htail

theorem readsMembers_fault {e : Failure}
    (hfind : fields.find? (·.name == name) = some (draftField name get set reader))
    (habsent : (get d).isSome = false) (hread : Reads reader v (.error e)) :
    ReadsMembers fields d ((name, v) :: ms) (.error e) :=
  .fault hfind habsent (hread.map (set d))

end Fields

/-- The members of the JSON text of a configuration. -/
def members (c : Config) : List Member :=
  [ ("profile", Json.Writer.enumerated c.profile),
    ("blink_count", Json.Writer.uint32 c.blinkCount),
    ("blink_period_secs", Json.Writer.binary64 c.blinkPeriod),
    ("range_finding_is_finite", Json.Writer.bool c.rangeFindingIsFinite),
    ("range_indicator", Json.Writer.enumerated c.rangeIndicator),
    ("range_blink_enabled", Json.Writer.bool c.rangeBlinkEnabled),
    ("loop_interval_ms", Json.Writer.uint32 c.loopInterval) ]

theorem toJson_eq_map_members (c : Config) : c.toJson = Json.Writer.map c.members := rfl

/-- The draft of which all fields were read. -/
def Draft.full (c : Config) : Draft :=
  ⟨some c.profile, some c.blinkCount, some c.blinkPeriod, some c.rangeFindingIsFinite,
    some c.rangeIndicator, some c.rangeBlinkEnabled, some c.loopInterval⟩

theorem readsMembers_members (c : Config) :
    ReadsMembers fields .blank c.members
      (if c.doubles.all (·.isFinite) then .ok (.full c) else .error nullDouble) := by
  have hperiod := reads_binary64 c.blinkPeriod
  refine readsMembers_field rfl rfl (reads_enumerated c.profile) ?_
  refine readsMembers_field rfl rfl (reads_uint32 c.blinkCount) ?_
  cases hfinite : c.blinkPeriod.isFinite with
  | true =>
    rw [if_pos hfinite] at hperiod
    rw [if_pos (by simp [doubles, hfinite])]
    refine readsMembers_field rfl rfl hperiod ?_
    refine readsMembers_field rfl rfl (reads_bool c.rangeFindingIsFinite) ?_
    refine readsMembers_field rfl rfl (reads_enumerated c.rangeIndicator) ?_
    refine readsMembers_field rfl rfl (reads_bool c.rangeBlinkEnabled) ?_
    exact readsMembers_field rfl rfl (reads_uint32 c.loopInterval) .nil
  | false =>
    rw [hfinite] at hperiod
    rw [if_neg (by simp [doubles, hfinite])]
    exact readsMembers_fault rfl rfl hperiod

theorem reads_toJson (c : Config) :
    Reads fromJson c.toJson
      (if c.doubles.all (·.isFinite) then .ok c else .error nullDouble) := by
  have h : Reads fromJson (Json.Writer.map c.members) _ :=
    reads_structured c.readsMembers_members
  rw [toJson_eq_map_members]
  cases hfinite : c.doubles.all (·.isFinite) <;> rwa [hfinite] at h

end Config

/-! ## Commands -/

namespace Command

/-- The doubles of a command. -/
def doubles : Command → List Binary64
  | .configureBlink _ period => [period]
  | _ => []

/-- The members of the JSON text of a cadence. -/
def cadenceMembers (count : UInt32) (period : Binary64) : List Member :=
  [("count", Json.Writer.uint32 count), ("period_secs", Json.Writer.binary64 period)]

theorem readsMembers_cadence (count : UInt32) (period : Binary64) :
    ReadsMembers cadenceFields ⟨none, none⟩ (cadenceMembers count period)
      (if period.isFinite then .ok ⟨some count, some period⟩ else .error nullDouble) := by
  have hperiod := (reads_binary64 period).map fun a => CadenceDraft.mk (some count) (some a)
  refine .known rfl rfl ((reads_uint32 count).map fun a => CadenceDraft.mk (some a) none) ?_
  cases hfinite : period.isFinite with
  | true =>
    rw [hfinite] at hperiod
    exact .known rfl rfl hperiod .nil
  | false =>
    rw [hfinite] at hperiod
    exact .fault rfl rfl hperiod

theorem reads_payload (c : Command) :
    Reads (payloadFromJson c.kind) c.payloadJson
      (if c.doubles.all (·.isFinite) then .ok c else .error nullDouble) := by
  cases c with
  | setWanted w => exact (reads_enumerated w).map _
  | warn text => exact (reads_text text).map _
  | configureBlink count period =>
    have h : Reads (Json.Reader.structured cadenceShape)
        (Json.Writer.map (cadenceMembers count period)) _ :=
      reads_structured (readsMembers_cadence count period)
    rw [doubles, List.all_cons, List.all_nil, Bool.and_true]
    cases hfinite : period.isFinite <;> rwa [hfinite] at h
  | setStatus code => exact (reads_enumerated code).map _
  | setLamp on => exact (reads_bool on).map _
  | setRangeBlinking on => exact (reads_bool on).map _

theorem reads_toJson (c : Command) :
    Reads fromJson c.toJson
      (if c.doubles.all (·.isFinite) then .ok c else .error nullDouble) :=
  reads_variant c.reads_payload

end Command

/-- **JSON values.** A configuration or a command is read back from its JSON text as it is, doubles
bit for bit and texts character for character, if all doubles in it are finite. Any other double is
written as `null`, and the text is refused with the complaint about its type. -/
theorem json_values :
    (∀ c : Config, whole Config.fromJson (String.ofList c.toJson) =
      if c.doubles.all (·.isFinite) then .ok c else .error (.data (.invalidType .null "f64"))) ∧
    ∀ c : Command, whole Command.fromJson (String.ofList c.toJson) =
      if c.doubles.all (·.isFinite) then .ok c else .error (.data (.invalidType .null "f64")) :=
  ⟨fun c => whole_of_reads c.reads_toJson, fun c => whole_of_reads c.reads_toJson⟩

end SignalLights
