import SignalLights.Cadence
import SignalLights.Profile

/-!
# Configuration

Each profile has its defaults, and every difference between the profiles is a field of its own.
`validate` names the first thing wrong with a configuration; a controller runs with any, a rejected
period being clamped.
-/

namespace SignalLights

structure Config where
  profile : Profile
  blinkCount : UInt32
  blinkPeriod : Binary64
  /-- Whether range finding ends on its own after one run. -/
  rangeFindingIsFinite : Bool
  rangeIndicator : RangeIndicator
  /-- When false the range indicator is steady. -/
  rangeBlinkEnabled : Bool
  /-- Milliseconds between two ticks. -/
  loopInterval : UInt32
deriving DecidableEq

namespace Config

def forProfile (p : Profile) : Config where
  profile := p
  blinkCount := Cadence.standardCount
  blinkPeriod := Cadence.standardPeriod
  rangeFindingIsFinite := p == .digital
  rangeIndicator := if p = .digital then .strip else .driver
  rangeBlinkEnabled := true
  loopInterval := 10

def standard : Config := forProfile .relay

/-- The cadence of a blink request. -/
def blink (c : Config) : Cadence := .clamp c.blinkCount c.blinkPeriod

def blinkNotices (c : Config) : List Notice := Cadence.clampNotices c.blinkPeriod

inductive Problem where
  | period
  | interval
  | noStrip
deriving DecidableEq, Repr

def Problem.message : Problem → String
  | .period => "blink_period_secs must be a positive number"
  | .interval => "loop_interval_ms must be non-zero"
  | .noStrip => "relay profile has no range strip"

def Problem.fault (p : Problem) : Fault := .config p.message

/-- The first problem of a configuration, if it has one. -/
def validate (c : Config) : Option Problem :=
  if c.blinkPeriod.isFinite = false ∨ c.blinkPeriod < minPeriod then some .period
  else if c.loopInterval = 0 then some .interval
  else if c.profile = .relay ∧ c.rangeIndicator = .strip then some .noStrip
  else none

end Config
end SignalLights
