import SignalLights.Binary64.Rounding

/-!
# Binary64 arithmetic

Each operation takes the exact result, a ratio of whole numbers of units, and rounds it once.
An invalid operation gives the quiet NaN. An exact sum of zero is `+0` unless both terms are
negative.
-/

namespace SignalLights.Binary64

protected def neg (x : Binary64) : Binary64 := ofMagnitude (!x.negative) x.magnitude

protected def add (x y : Binary64) : Binary64 :=
  if x.isNaN || y.isNaN then nan
  else if x.isInfinite then if y.isInfinite && x.negative != y.negative then nan else x
  else if y.isInfinite then y
  else if x.toInt + y.toInt = 0 then ofMagnitude (x.negative && y.negative) 0
  else ofRatio (decide (x.toInt + y.toInt < 0)) (x.toInt + y.toInt).natAbs 1

protected def mul (x y : Binary64) : Binary64 :=
  if x.isNaN || y.isNaN then nan
  else if x.isInfinite || y.isInfinite then
    if x.isZero || y.isZero then nan else ofMagnitude (x.negative != y.negative) infinityWord
  else ofRatio (x.negative != y.negative) (units x.magnitude * units y.magnitude) unitsPerOne

protected def div (x y : Binary64) : Binary64 :=
  if x.isNaN || y.isNaN then nan
  else if x.isInfinite then
    if y.isInfinite then nan else ofMagnitude (x.negative != y.negative) infinityWord
  else if y.isInfinite then ofMagnitude (x.negative != y.negative) 0
  else if y.isZero then
    if x.isZero then nan else ofMagnitude (x.negative != y.negative) infinityWord
  else ofRatio (x.negative != y.negative) (units x.magnitude * unitsPerOne) (units y.magnitude)

instance : Neg Binary64 := ⟨Binary64.neg⟩
instance : Add Binary64 := ⟨Binary64.add⟩
instance : Sub Binary64 := ⟨fun x y => x + -y⟩
instance : Mul Binary64 := ⟨Binary64.mul⟩
instance : Div Binary64 := ⟨Binary64.div⟩

theorem sub_eq_add_neg (x y : Binary64) : x - y = x + -y := rfl

def ofNat (n : Nat) : Binary64 := ofRatio false (n * unitsPerOne) 1

def two : Binary64 := ⟨0x4000000000000000⟩
def half : Binary64 := ⟨0x3fe0000000000000⟩

/-- The largest whole number not above `x`, held within `0` and `2⁶⁴ - 1`; a NaN counts as `0`. -/
def floorWord (x : Binary64) : Nat :=
  if x.isNaN || x.negative then 0 else min (units x.magnitude / unitsPerOne) 0xffffffffffffffff

theorem floorWord_lt (x : Binary64) : x.floorWord < 0x10000000000000000 := by
  unfold floorWord; split <;> omega

end SignalLights.Binary64
