import SignalLights.Decimal.Shortest

/-!
# Decimal notation of doubles

Two ways to write a double: with the fewest digits that read back (`Style.write`), or with a
fixed number of places (`fixed`). A `Style` holds the decisions of a format: what breaks a tie,
whether a whole number keeps `.0`, and which magnitudes are written with a power of ten.
-/

namespace SignalLights.Decimal

def digits (n : Nat) : List Char := Nat.toDigits 10 n

structure Style where
  tie : TieRule
  /-- A whole number is followed by `.0`. -/
  keepsPoint : Bool
  /-- Whether a value whose leading digit stands at this place needs a power of ten; the units
  stand at place one. -/
  powered : Int → Bool

namespace Style

/-- A decimal without a power of ten. -/
def positional (n : Style) (d : Decimal) : List Char :=
  let ds := digits d.coefficient
  let k := (-d.exponent).toNat
  if k = 0 then
    ds ++ List.replicate d.exponent.toNat '0' ++ if n.keepsPoint then ['.', '0'] else []
  else if k < ds.length then
    ds.take (ds.length - k) ++ '.' :: ds.drop (ds.length - k)
  else '0' :: '.' :: (List.replicate (k - ds.length) '0' ++ ds)

/-- The power is written with its sign, and the point stands after the first digit. -/
def scientific (d : Decimal) : List Char :=
  let ds := digits d.coefficient
  let e := d.scale - 1
  ds.take 1 ++ (if ds.length = 1 then [] else '.' :: ds.drop 1) ++
    'e' :: (if e < 0 then '-' else '+') :: digits e.natAbs

def decimal (n : Style) (d : Decimal) : List Char :=
  if n.powered d.scale then scientific d else n.positional d

def magnitude (n : Style) (w : Nat) : List Char :=
  if w = 0 then n.positional ⟨0, 0⟩ else n.decimal (shortest n.tie w)

/-- The text of a finite double; zero keeps its sign. -/
def write (n : Style) (x : Binary64) : List Char :=
  (if x.negative then ['-'] else []) ++ n.magnitude x.magnitude

end Style

/-- A double with `places` digits after the point, the exact value rounded to even. -/
def fixed (places : Nat) (x : Binary64) : List Char :=
  let one := Nat.pow 10 places
  let q := roundHalfEven (Binary64.units x.magnitude * one) Binary64.unitsPerOne
  let frac := digits (q % one)
  (if x.negative then ['-'] else []) ++ digits (q / one) ++
    '.' :: (List.replicate (places - frac.length) '0' ++ frac)

/-- Log texts never use a power of ten, and whole numbers have no point. -/
def plain : Style where
  tie := .up
  keepsPoint := false
  powered _ := false

/-- What stands for a double that has no decimal notation. -/
def nonFinite? (x : Binary64) : Option String :=
  if x.isNaN then some "NaN"
  else if x.isInfinite then some (if x.negative then "-inf" else "inf")
  else none

def plainText (x : Binary64) : String :=
  (nonFinite? x).getD (String.ofList (plain.write x))

/-- Log texts give times to the thousandth. -/
def thousandths (x : Binary64) : String :=
  (nonFinite? x).getD (String.ofList (fixed 3 x))

end SignalLights.Decimal
