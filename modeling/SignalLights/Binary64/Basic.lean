/-!
# Binary64 words

An IEEE 754 double is kept as its 64-bit word, so that payloads of NaNs and the sign of zero are
never lost. The word without its sign, its *magnitude*, orders the non-negative doubles, and
`units` gives the value of a magnitude as a whole number of units of 2⁻¹⁰⁷⁴, the least subnormal.
The magnitude of infinity stands for 2¹⁰²⁴ there, one step above the largest finite double.
-/

namespace SignalLights

structure Binary64 where
  bits : UInt64
deriving DecidableEq, Repr

namespace Binary64

/-- The place of the sign bit, 2⁶³. -/
def signPlace : Nat := 0x8000000000000000

/-- How many magnitudes share an exponent, 2⁵². -/
def binade : Nat := 0x10000000000000

/-- The magnitude of infinity; the finite magnitudes are the smaller ones. -/
def infinityWord : Nat := 0x7ff0000000000000

/-- How many units make one. -/
def unitsPerOne : Nat := 1 <<< 1074

/-- The value of a magnitude in units of 2⁻¹⁰⁷⁴. -/
def units (w : Nat) : Nat :=
  if w < binade then w else (binade + w % binade) <<< (w / binade - 1)

theorem units_of_lt {w : Nat} (h : w < binade) : units w = w := by rw [units, if_pos h]

def ofMagnitude (negative : Bool) (w : Nat) : Binary64 :=
  ⟨UInt64.ofNat (if negative then signPlace + w else w)⟩

def negative (x : Binary64) : Bool := decide (signPlace ≤ x.bits.toNat)

def magnitude (x : Binary64) : Nat := x.bits.toNat % signPlace

theorem magnitude_lt (x : Binary64) : x.magnitude < signPlace := Nat.mod_lt _ (by decide)

theorem ofMagnitude_magnitude (x : Binary64) : ofMagnitude x.negative x.magnitude = x := by
  obtain ⟨b⟩ := x
  have hb : b.toNat < 0x10000000000000000 := b.toNat_lt
  simp only [ofMagnitude, negative, magnitude, mk.injEq]
  apply UInt64.toNat.inj
  rw [UInt64.toNat_ofNat']
  by_cases h : signPlace ≤ b.toNat <;> simp only [h, decide_true, decide_false] <;>
    simp [signPlace] at * <;> omega

theorem magnitude_ofMagnitude (s : Bool) {w : Nat} (h : w < signPlace) :
    (ofMagnitude s w).magnitude = w := by
  simp only [ofMagnitude, magnitude, UInt64.toNat_ofNat', signPlace] at *
  cases s <;> simp <;> omega

theorem negative_ofMagnitude (s : Bool) {w : Nat} (h : w < signPlace) :
    (ofMagnitude s w).negative = s := by
  simp only [ofMagnitude, negative, UInt64.toNat_ofNat', signPlace] at *
  cases s <;> simp <;> omega

def isNaN (x : Binary64) : Bool := decide (infinityWord < x.magnitude)
def isInfinite (x : Binary64) : Bool := decide (x.magnitude = infinityWord)
def isFinite (x : Binary64) : Bool := decide (x.magnitude < infinityWord)
def isZero (x : Binary64) : Bool := decide (x.magnitude = 0)

theorem isNaN_eq_false_of_isFinite {x : Binary64} (h : x.isFinite) : x.isNaN = false := by
  simp only [isFinite, isNaN, decide_eq_true_eq, decide_eq_false_iff_not] at *; omega

/-- The value in units, with its sign; an infinity counts as 2¹⁰²⁴. -/
def toInt (x : Binary64) : Int :=
  if x.negative then -(units x.magnitude : Int) else units x.magnitude

instance : Inhabited Binary64 := ⟨⟨0⟩⟩

def zero : Binary64 := ⟨0⟩
def infinity : Binary64 := ofMagnitude false infinityWord
def negInfinity : Binary64 := ofMagnitude true infinityWord

/-- The quiet NaN with an empty payload, the answer of every invalid operation. -/
def nan : Binary64 := ⟨0x7ff8000000000000⟩

/-! ## Order

Comparisons with a NaN are false. The two zeros are equal. -/

protected def lt (x y : Binary64) : Bool := !x.isNaN && !y.isNaN && decide (x.toInt < y.toInt)
protected def le (x y : Binary64) : Bool := !x.isNaN && !y.isNaN && decide (x.toInt ≤ y.toInt)

instance : LT Binary64 := ⟨fun x y => x.lt y = true⟩
instance : LE Binary64 := ⟨fun x y => x.le y = true⟩
instance (x y : Binary64) : Decidable (x < y) := inferInstanceAs (Decidable (x.lt y = true))
instance (x y : Binary64) : Decidable (x ≤ y) := inferInstanceAs (Decidable (x.le y = true))

theorem lt_iff {x y : Binary64} :
    x < y ↔ x.isNaN = false ∧ y.isNaN = false ∧ x.toInt < y.toInt := by
  change x.lt y = true ↔ _
  simp [Binary64.lt, and_assoc]

theorem le_iff {x y : Binary64} :
    x ≤ y ↔ x.isNaN = false ∧ y.isNaN = false ∧ x.toInt ≤ y.toInt := by
  change x.le y = true ↔ _
  simp [Binary64.le, and_assoc]

end Binary64
end SignalLights
