import SignalLights.Command
import SignalLights.Json.Reader
import SignalLights.Json.Writer
import SignalLights.Packed.Codec

/-!
# Commands as data

A command as a JSON variant with a payload and as packed bytes, its number first.
-/

namespace SignalLights.Command

/-- What a command is about. -/
inductive Kind where
  | setWanted
  | warn
  | configureBlink
  | setStatus
  | setLamp
  | setRangeBlinking
deriving DecidableEq, Repr

instance : Enumerated Kind where
  all := [.setWanted, .warn, .configureBlink, .setStatus, .setLamp, .setRangeBlinking]
  name
    | .setWanted => "SetWanted"
    | .warn => "Warn"
    | .configureBlink => "ConfigureBlink"
    | .setStatus => "SetStatus"
    | .setLamp => "SetLamp"
    | .setRangeBlinking => "SetRangeBlinking"
  mem_all a := by cases a <;> decide
  name_injective a b := by cases a <;> cases b <;> decide

def kind : Command → Kind
  | .setWanted _ => .setWanted
  | .warn _ => .warn
  | .configureBlink _ _ => .configureBlink
  | .setStatus _ => .setStatus
  | .setLamp _ => .setLamp
  | .setRangeBlinking _ => .setRangeBlinking

/-! ## JSON -/

def payloadJson : Command → List Char
  | .setWanted w => Json.Writer.enumerated w
  | .warn text => Json.Writer.text text
  | .configureBlink count period =>
    Json.Writer.map
      [("count", Json.Writer.uint32 count), ("period_secs", Json.Writer.binary64 period)]
  | .setStatus code => Json.Writer.enumerated code
  | .setLamp on => Json.Writer.bool on
  | .setRangeBlinking on => Json.Writer.bool on

def toJson (c : Command) : List Char :=
  Json.Writer.map [(Enumerated.name c.kind, c.payloadJson)]

/-- A cadence of which some fields were read. -/
structure CadenceDraft where
  count : Option UInt32
  period : Option Binary64
deriving DecidableEq

open Json.Reader (FieldReader Shape)

def cadenceFields : List (FieldReader CadenceDraft) :=
  [ { name := "count"
      present := (·.count.isSome)
      read := fun d s => do
        let (a, r) ← Json.Reader.uint32 s
        return ({ d with count := some a }, r) },
    { name := "period_secs"
      present := (·.period.isSome)
      read := fun d s => do
        let (a, r) ← Json.Reader.binary64 s
        return ({ d with period := some a }, r) } ]

def cadenceShape : Shape CadenceDraft Command where
  expected := "struct variant LedCommand::ConfigureBlink"
  fields := cadenceFields
  blank := ⟨none, none⟩
  finish d :=
    match d.count, d.period with
    | none, _ => .error (.missingField "count")
    | some _, none => .error (.missingField "period_secs")
    | some count, some period => .ok (.configureBlink count period)

def expectedPayload : Kind → String
  | .configureBlink => "struct variant"
  | _ => "newtype variant"

def readPayload {α : Type} (f : α → Command) (reader : Json.Reader α) : Json.Reader Command :=
  fun s => do
    let (a, r) ← reader s
    return (f a, r)

def payloadFromJson : Kind → Json.Reader Command
  | .setWanted => readPayload .setWanted Json.Reader.enumerated
  | .warn => readPayload .warn Json.Reader.text
  | .configureBlink => Json.Reader.structured cadenceShape
  | .setStatus => readPayload .setStatus Json.Reader.enumerated
  | .setLamp => readPayload .setLamp Json.Reader.bool
  | .setRangeBlinking => readPayload .setRangeBlinking Json.Reader.bool

def fromJson : Json.Reader Command :=
  Json.Reader.variant
    (fun k => Json.Reader.fail (.invalidType .unitVariant (expectedPayload k))) payloadFromJson

/-! ## Packed bytes -/

open Packed Codec

def Payload : Kind → Type
  | .setWanted => Wanted
  | .warn => String
  | .configureBlink => UInt32 × Binary64
  | .setStatus => StatusCode
  | .setLamp => Bool
  | .setRangeBlinking => Bool

def ofPayload : (k : Kind) × Payload k → Command
  | ⟨.setWanted, w⟩ => .setWanted w
  | ⟨.warn, text⟩ => .warn text
  | ⟨.configureBlink, (count, period)⟩ => .configureBlink count period
  | ⟨.setStatus, code⟩ => .setStatus code
  | ⟨.setLamp, on⟩ => .setLamp on
  | ⟨.setRangeBlinking, on⟩ => .setRangeBlinking on

def toPayload : Command → (k : Kind) × Payload k
  | .setWanted w => ⟨.setWanted, w⟩
  | .warn text => ⟨.warn, text⟩
  | .configureBlink count period => ⟨.configureBlink, (count, period)⟩
  | .setStatus code => ⟨.setStatus, code⟩
  | .setLamp on => ⟨.setLamp, on⟩
  | .setRangeBlinking on => ⟨.setRangeBlinking, on⟩

theorem ofPayload_toPayload (c : Command) : ofPayload c.toPayload = c := by cases c <;> rfl

theorem toPayload_ofPayload (p : (k : Kind) × Payload k) : (ofPayload p).toPayload = p := by
  obtain ⟨k, a⟩ := p
  cases k <;> rfl

def payloadPacked : (k : Kind) → Codec (Payload k)
  | .setWanted => enumerated Wanted
  | .warn => text
  | .configureBlink => uint32.pair binary64
  | .setStatus => enumerated StatusCode
  | .setLamp => bool
  | .setRangeBlinking => bool

def packed : Codec Command := (tagged (enumerated Kind) payloadPacked).map ofPayload toPayload

end SignalLights.Command
