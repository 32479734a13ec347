import SignalLights.Config
import SignalLights.Json.Reader
import SignalLights.Json.Writer
import SignalLights.Packed.Codec

/-!
# Configurations as data

A configuration as a JSON map of its seven fields and as packed bytes, the fields in order.
-/

namespace SignalLights.Config

/-! ## JSON -/

def toJson (c : Config) : List Char :=
  Json.Writer.map
    [ ("profile", Json.Writer.enumerated c.profile),
      ("blink_count", Json.Writer.uint32 c.blinkCount),
      ("blink_period_secs", Json.Writer.binary64 c.blinkPeriod),
      ("range_finding_is_finite", Json.Writer.bool c.rangeFindingIsFinite),
      ("range_indicator", Json.Writer.enumerated c.rangeIndicator),
      ("range_blink_enabled", Json.Writer.bool c.rangeBlinkEnabled),
      ("loop_interval_ms", Json.Writer.uint32 c.loopInterval) ]

/-- A configuration of which some fields were read. -/
structure Draft where
  profile : Option Profile
  blinkCount : Option UInt32
  blinkPeriod : Option Binary64
  rangeFindingIsFinite : Option Bool
  rangeIndicator : Option RangeIndicator
  rangeBlinkEnabled : Option Bool
  loopInterval : Option UInt32
deriving DecidableEq

def Draft.blank : Draft := ⟨none, none, none, none, none, none, none⟩

open Json.Reader (FieldReader Shape)

/-- A field of the draft, read by `reader` and put in place by `set`. -/
def draftField {α : Type} (name : String) (get : Draft → Option α) (set : Draft → α → Draft)
    (reader : Json.Reader α) : FieldReader Draft where
  name := name
  present d := (get d).isSome
  read d s := do
    let (a, r) ← reader s
    return (set d a, r)

def fields : List (FieldReader Draft) :=
  [ draftField "profile" (·.profile) (fun d a => { d with profile := some a })
      Json.Reader.enumerated,
    draftField "blink_count" (·.blinkCount) (fun d a => { d with blinkCount := some a })
      Json.Reader.uint32,
    draftField "blink_period_secs" (·.blinkPeriod) (fun d a => { d with blinkPeriod := some a })
      Json.Reader.binary64,
    draftField "range_finding_is_finite" (·.rangeFindingIsFinite)
      (fun d a => { d with rangeFindingIsFinite := some a }) Json.Reader.bool,
    draftField "range_indicator" (·.rangeIndicator)
      (fun d a => { d with rangeIndicator := some a }) Json.Reader.enumerated,
    draftField "range_blink_enabled" (·.rangeBlinkEnabled)
      (fun d a => { d with rangeBlinkEnabled := some a }) Json.Reader.bool,
    draftField "loop_interval_ms" (·.loopInterval)
      (fun d a => { d with loopInterval := some a }) Json.Reader.uint32 ]

def required {α : Type} (name : String) : Option α → Except Json.DataError α
  | some a => .ok a
  | none => .error (.missingField name)

def Draft.finish (d : Draft) : Except Json.DataError Config := do
  return {
    profile := ← required "profile" d.profile
    blinkCount := ← required "blink_count" d.blinkCount
    blinkPeriod := ← required "blink_period_secs" d.blinkPeriod
    rangeFindingIsFinite := ← required "range_finding_is_finite" d.rangeFindingIsFinite
    rangeIndicator := ← required "range_indicator" d.rangeIndicator
    rangeBlinkEnabled := ← required "range_blink_enabled" d.rangeBlinkEnabled
    loopInterval := ← required "loop_interval_ms" d.loopInterval }

def shape : Shape Draft Config where
  expected := "struct LedConfig"
  fields := fields
  blank := .blank
  finish := Draft.finish

def fromJson : Json.Reader Config := Json.Reader.structured shape

/-! ## Packed bytes -/

open Packed Codec in
def packed : Codec Config :=
  ((enumerated Profile).pair <| uint32.pair <| binary64.pair <| bool.pair <|
    (enumerated RangeIndicator).pair <| bool.pair uint32).map
    (fun (profile, count, period, finite, indicator, blink, interval) =>
      ⟨profile, count, period, finite, indicator, blink, interval⟩)
    (fun c => (c.profile, c.blinkCount, c.blinkPeriod, c.rangeFindingIsFinite, c.rangeIndicator,
      c.rangeBlinkEnabled, c.loopInterval))

end SignalLights.Config
