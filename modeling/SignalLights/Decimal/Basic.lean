import SignalLights.Binary64.Rounding

/-!
# Decimals and their nearest doubles

A decimal is `coefficient · 10 ^ exponent`. `Decimal.nearest` is the magnitude of the double nearest
to it. Exponents far outside the range of doubles are answered without computing the power.
-/

namespace SignalLights

structure Decimal where
  coefficient : Nat
  exponent : Int
deriving DecidableEq, Repr

namespace Decimal

/-- The decimal as a ratio of whole numbers. -/
def numerator (d : Decimal) : Nat := d.coefficient * Nat.pow 10 d.exponent.toNat
def denominator (d : Decimal) : Nat := Nat.pow 10 (-d.exponent).toNat

theorem denominator_pos (d : Decimal) : 0 < d.denominator := Nat.pow_pos (by decide)

/-- The position of the leading digit: the value is below `10 ^ d.scale`. -/
def scale (d : Decimal) : Int := (Nat.toDigits 10 d.coefficient).length + d.exponent

def nearest (d : Decimal) : Nat :=
  if d.coefficient = 0 ∨ d.scale < -400 then 0
  else if 400 < d.scale then Binary64.infinityWord
  else Binary64.nearest (d.numerator * Binary64.unitsPerOne) d.denominator

def toBinary64 (negative : Bool) (d : Decimal) : Binary64 :=
  Binary64.ofMagnitude negative d.nearest

end Decimal
end SignalLights
