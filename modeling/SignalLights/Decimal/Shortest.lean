import SignalLights.Decimal.Basic

/-!
# The shortest decimal of a double

The decimals that read back as a given double fill an interval around it, the *rounding interval*,
ends included when the magnitude is even. `shortest` is the point of that interval on the coarsest
grid `10 ^ k` that has one; of two such points it is the nearer. On the grid `10 ^ -1074` the double
itself lies, so the search always ends.
-/

namespace SignalLights.Decimal

/-- What decides between two points at equal distance. -/
inductive TieRule where
  | up
  | even
deriving DecidableEq

/-- A magnitude seen on the grid `10 ^ k`: its value, and the ends of its rounding interval, are
these whole numbers divided by `den`. -/
structure OnGrid where
  low : Nat
  value : Nat
  high : Nat
  den : Nat

/-- The ends are half way to the neighbouring magnitudes, hence the factors of two. -/
def onGrid (w : Nat) (k : Int) : OnGrid :=
  let up := Nat.pow 10 (-k).toNat
  { low := (Binary64.units (w - 1) + Binary64.units w) * up
    value := 2 * Binary64.units w * up
    high := (Binary64.units w + Binary64.units (w + 1)) * up
    den := 2 * Binary64.unitsPerOne * Nat.pow 10 k.toNat }

namespace OnGrid

def contains (g : OnGrid) (closed : Bool) (p : Nat) : Bool :=
  if closed then decide (g.low ≤ p * g.den) && decide (p * g.den ≤ g.high)
  else decide (g.low < p * g.den) && decide (p * g.den < g.high)

/-- The better of the two grid points around the value, if one of them lies in the interval. -/
def candidate? (g : OnGrid) (tie : TieRule) (closed : Bool) : Option Nat :=
  let p := g.value / g.den
  let r := g.value % g.den
  let below := p != 0 && g.contains closed p
  let above := g.contains closed (p + 1)
  if below && above then
    if 2 * r < g.den then some p
    else if g.den < 2 * r then some (p + 1)
    else match tie with
      | .up => some (p + 1)
      | .even => some (if p % 2 = 0 then p else p + 1)
  else if below then some p
  else if above then some (p + 1)
  else none

end OnGrid

/-- The first of the grids `10 ^ k`, `10 ^ (k - 1)`, … with a candidate. -/
def search (tie : TieRule) (w : Nat) : Nat → Int → Decimal
  | 0, k => ⟨0, k⟩
  | fuel + 1, k =>
    match (onGrid w k).candidate? tie (w % 2 == 0) with
    | some p => ⟨p, k⟩
    | none => search tie w fuel (k - 1)

/-- No double reaches `10 ^ 309`. -/
def shortest (tie : TieRule) (w : Nat) : Decimal := search tie w 1384 309

end SignalLights.Decimal
