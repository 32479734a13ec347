import SignalLights.Binary64.Arithmetic
import SignalLights.Notice

/-!
# Blink cadences

A cadence is a number of on-off cycles and the seconds each takes. The light follows a square wave
that starts on:

```text
 on   ┌──────┐      ┌──────┐
 off  ┘      └──────┘      └──────
      0     p/2     p    3p/2    2p
```

`cycleIndex` counts the half periods gone by, and a run of `count` cycles has expired after
`count · period` seconds. Both decide with a tolerance of 10⁻⁹, so that a time on a boundary counts
by its decimal value and not by its binary rounding.
-/

namespace SignalLights

/-- The double nearest to 10⁻⁹. -/
def tolerance : Binary64 := ⟨0x3e112e0be826d695⟩

/-- The half periods gone by after `elapsed` seconds; times up to zero, and NaN, count as none. -/
def cycleIndex (elapsed period : Binary64) : Nat :=
  if elapsed.isNaN ∨ elapsed ≤ .zero then 0
  else (elapsed / (period / .two) + tolerance).floorWord

theorem cycleIndex_lt (elapsed period : Binary64) : cycleIndex elapsed period < 0x10000000000000000 := by
  unfold cycleIndex
  split
  · decide
  · exact Binary64.floorWord_lt _

/-- The square wave is on in the first half of every period. -/
def phaseOn (elapsed period : Binary64) : Bool := cycleIndex elapsed period % 2 == 0

namespace Cadence

def acceptsPeriod (period : Binary64) : Bool := period.isFinite && decide (minPeriod ≤ period)

theorem acceptsPeriod_minPeriod : acceptsPeriod minPeriod = true := by
  rw [acceptsPeriod, Bool.and_eq_true, decide_eq_true_eq]
  exact ⟨by decide, Binary64.le_iff.2 ⟨by decide, by decide, Int.le_refl _⟩⟩

end Cadence

structure Cadence where
  count : UInt32
  period : Binary64
  accepted : Cadence.acceptsPeriod period = true
deriving DecidableEq

namespace Cadence

@[ext] theorem ext {c d : Cadence} (hc : c.count = d.count) (hp : c.period = d.period) : c = d := by
  cases c; cases d; simp_all

/-- A period that is not accepted is replaced by the shortest one. -/
def clamp (count : UInt32) (period : Binary64) : Cadence :=
  if h : acceptsPeriod period = true then ⟨count, period, h⟩
  else ⟨count, minPeriod, acceptsPeriod_minPeriod⟩

/-- The clamping of a period is reported. -/
def clampNotices (period : Binary64) : List Notice :=
  if acceptsPeriod period then [] else [.periodClamped period]

@[simp] theorem count_clamp (count : UInt32) (period : Binary64) :
    (clamp count period).count = count := by
  unfold clamp; split <;> rfl

theorem period_clamp (count : UInt32) (period : Binary64) :
    (clamp count period).period = if acceptsPeriod period then period else minPeriod := by
  unfold clamp; split <;> simp_all

/-- Four cycles of a fifth of a second. -/
def standardCount : UInt32 := 4
def standardPeriod : Binary64 := ⟨0x3fc999999999999a⟩
def standard : Cadence := clamp standardCount standardPeriod

def halfPeriod (c : Cadence) : Binary64 := c.period / .two

/-- The length of a run. -/
def total (c : Cadence) : Binary64 := .ofNat c.count.toNat * c.period

def isOn (c : Cadence) (elapsed : Binary64) : Bool := phaseOn elapsed c.period

def isExpired (c : Cadence) (elapsed : Binary64) : Bool := decide (c.total + tolerance < elapsed)

/-- Twice a count, held at the largest one. -/
def doubleCount (n : UInt32) : UInt32 := UInt32.ofNat (min (2 * n.toNat) 0xffffffff)

theorem toNat_doubleCount (n : UInt32) :
    (doubleCount n).toNat = min (2 * n.toNat) 0xffffffff := by
  rw [doubleCount, UInt32.toNat_ofNat']
  omega

/-- Twice as many cycles, each half as long: visibly faster, for range finding and warnings. -/
def hurried (c : Cadence) : Cadence := clamp (doubleCount c.count) (c.period * .half)

def hurriedNotices (c : Cadence) : List Notice := clampNotices (c.period * .half)

end Cadence
end SignalLights
