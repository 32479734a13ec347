import Mathlib.Algebra.Group.Nat.Defs
import SignalLights.Json.Lexis
import SignalLights.Proofs.Decimal.Digits

/-!
# Numerals

A numeral has a text of its own, and others that spell its power of ten differently. All of them are
read back as the same numeral, before anything that cannot be a part of it (`numeral_spelled`). A
numeral of few digits is rounded as the decimal of all of them, zeros at both of its ends included
(`nearest_decimal`).
-/

namespace SignalLights.Json

variable {ds s : List Char}

/-! ## Reading digits -/

def AreDigits (ds : List Char) : Prop := ds ≠ [] ∧ ∀ c ∈ ds, c.isDigit

def startsDigit : List Char → Bool
  | [] => false
  | c :: _ => c.isDigit

theorem AreDigits.exists_cons (h : AreDigits ds) : ∃ c cs, ds = c :: cs ∧ c.isDigit := by
  cases ds with
  | nil => exact absurd rfl h.1
  | cons c cs => exact ⟨c, cs, rfl, h.2 c (List.mem_cons_self ..)⟩

theorem digits1_append (h : AreDigits ds) (hs : startsDigit s = false) :
    digits1 (ds ++ s) = some (ds, s) := by
  have hspan : spanDigits (ds ++ s) = (ds, s) := by
    rw [spanDigits, List.takeWhile_append_of_pos h.2, List.dropWhile_append_of_pos h.2]
    cases s with
    | nil => simp
    | cons c s =>
      have hc : ¬ c.isDigit := by simpa [startsDigit] using hs
      rw [List.takeWhile_cons_of_neg hc, List.dropWhile_cons_of_neg hc, List.append_nil]
  obtain ⟨c, cs, rfl, -⟩ := h.exists_cons
  rw [digits1, hspan]

/-- What may follow a number: nothing that could be a part of it. -/
def endsNumber : List Char → Bool
  | [] => true
  | c :: _ => !c.isDigit && c != '.' && c != 'e' && c != 'E'

theorem endsNumber_cons {c : Char} :
    endsNumber (c :: s) ↔ c.isDigit = false ∧ c ≠ '.' ∧ c ≠ 'e' ∧ c ≠ 'E' := by
  simp [endsNumber, and_assoc]

namespace Numeral

/-! ## The text of a numeral -/

def signText (negative : Bool) : List Char := if negative then ['-'] else []

def fractionText : Option (List Char) → List Char
  | none => []
  | some ds => '.' :: ds

def powerText : Option (Bool × List Char) → List Char
  | none => []
  | some (negative, ds) => 'e' :: (if negative then '-' else '+') :: ds

def text (n : Numeral) : List Char :=
  signText n.negative ++ (n.whole ++ (fractionText n.fraction ++ powerText n.power))

/-- A power of ten has a small or a capital letter, and may go without its plus. -/
inductive SpellsPower : Option (Bool × List Char) → List Char → Prop
  | absent : SpellsPower none []
  | negative {mark ds} (hmark : mark = 'e' ∨ mark = 'E') :
      SpellsPower (some (true, ds)) (mark :: '-' :: ds)
  | plus {mark ds} (hmark : mark = 'e' ∨ mark = 'E') :
      SpellsPower (some (false, ds)) (mark :: '+' :: ds)
  | plain {mark ds} (hmark : mark = 'e' ∨ mark = 'E') :
      SpellsPower (some (false, ds)) (mark :: ds)

/-- A text of a numeral, its own or another one. -/
inductive Spelled (n : Numeral) : List Char → Prop
  | mk {p} (hpower : SpellsPower n.power p) :
      Spelled n (signText n.negative ++ (n.whole ++ (fractionText n.fraction ++ p)))

theorem spellsPower_powerText (p : Option (Bool × List Char)) : SpellsPower p (powerText p) := by
  rcases p with - | ⟨- | -, ds⟩
  · exact .absent
  · exact .plus (.inl rfl)
  · exact .negative (.inl rfl)

theorem spelled_text (n : Numeral) : n.Spelled n.text := .mk (spellsPower_powerText n.power)

/-- A numeral as JSON has it. -/
structure Proper (n : Numeral) : Prop where
  whole : AreDigits n.whole
  noLeadingZero : n.whole = ['0'] ∨ n.whole.head? ≠ some '0'
  fraction : ∀ {ds}, n.fraction = some ds → AreDigits ds
  power : ∀ {negative ds}, n.power = some (negative, ds) → AreDigits ds

variable {n : Numeral}

theorem exists_startsNumber_spelled {t : List Char} (hn : n.Proper) (ht : n.Spelled t) :
    ∃ c cs, t = c :: cs ∧ startsNumber c := by
  obtain ⟨c, cs, hcs, hc⟩ := hn.whole.exists_cons
  obtain ⟨-⟩ := ht
  rw [hcs]
  cases n.negative with
  | true => exact ⟨'-', _, rfl, rfl⟩
  | false => exact ⟨c, _, rfl, by rw [startsNumber, hc, Bool.or_true]⟩

section Parts

variable {power : Option (Bool × List Char)} {p : List Char}

/-- A text that is not empty starts with a letter. -/
theorem SpellsPower.eq_nil_or (hp : SpellsPower power p) :
    power = none ∧ p = [] ∨ ∃ mark t, (mark = 'e' ∨ mark = 'E') ∧ p = mark :: t := by
  cases hp with
  | absent => exact .inl ⟨rfl, rfl⟩
  | negative hmark => exact .inr ⟨_, _, hmark, rfl⟩
  | plus hmark => exact .inr ⟨_, _, hmark, rfl⟩
  | plain hmark => exact .inr ⟨_, _, hmark, rfl⟩

/-- No digit follows the digits of a part. -/
theorem startsDigit_power (hs : endsNumber s) (hp : SpellsPower power p) :
    startsDigit (p ++ s) = false := by
  rcases hp.eq_nil_or with ⟨-, rfl⟩ | ⟨mark, t, rfl | rfl, rfl⟩
  · cases s with
    | nil => rfl
    | cons c s => exact (endsNumber_cons.1 hs).1
  · rfl
  · rfl

theorem startsDigit_fraction (hs : endsNumber s) (f : Option (List Char))
    (hp : SpellsPower power p) : startsDigit (fractionText f ++ (p ++ s)) = false := by
  cases f with
  | none =>
    rw [fractionText, List.nil_append]
    exact startsDigit_power hs hp
  | some ds => rfl

theorem wholePart_append (hn : n.Proper) (hs : startsDigit s = false) :
    wholePart (n.whole ++ s) = some (n.whole, s) := by
  rw [wholePart, digits1_append hn.whole hs]
  split
  · next heq =>
    have hzero := hn.noLeadingZero
    grind
  · rfl

theorem fractionPart_append (hn : n.Proper) (hs : endsNumber s) (hp : SpellsPower power p) :
    fractionPart (fractionText n.fraction ++ (p ++ s)) = some (n.fraction, p ++ s) := by
  cases hfraction : n.fraction with
  | some ds =>
    have hdigits := digits1_append (hn.fraction hfraction) (startsDigit_power hs hp)
    simp [fractionText, fractionPart, hdigits]
  | none =>
    rcases hp.eq_nil_or with ⟨-, rfl⟩ | ⟨mark, t, rfl | rfl, rfl⟩
    · cases s with
      | nil => rfl
      | cons c s =>
        obtain ⟨-, hpoint, -⟩ := endsNumber_cons.1 hs
        simp [fractionText, fractionPart, hpoint]
    · rfl
    · rfl

theorem powerPart_append (hn : n.Proper) (hs : endsNumber s) (hp : SpellsPower n.power p) :
    powerPart (p ++ s) = some (n.power, s) := by
  have hdigits {negative ds} (hpower : n.power = some (negative, ds)) :
      digits1 (ds ++ s) = some (ds, s) :=
    digits1_append (hn.power hpower) (startsDigit_power hs .absent)
  generalize hpower : n.power = power at hp hdigits ⊢
  cases hp with
  | absent =>
    cases s with
    | nil => rfl
    | cons c s =>
      obtain ⟨-, -, hsmall, hlarge⟩ := endsNumber_cons.1 hs
      simp [powerPart, hsmall, hlarge]
  | negative hmark => simp [powerPart, powerDigits, hmark, hdigits rfl]
  | plus hmark => simp [powerPart, powerDigits, hmark, hdigits rfl]
  | plain hmark =>
    -- the first digit is no sign
    obtain ⟨c, cs, rfl, hc⟩ := (hn.power hpower).exists_cons
    have hminus : c ≠ '-' := by
      rintro rfl
      exact absurd hc (by decide)
    have hplus : c ≠ '+' := by
      rintro rfl
      exact absurd hc (by decide)
    have hread := hdigits rfl
    rw [List.cons_append] at hread
    simp [powerPart, powerDigits, hmark, hminus, hplus, hread]

end Parts

/-- A numeral is read back from each of its texts, whatever follows it. -/
theorem numeral_spelled {t : List Char} (hn : n.Proper) (ht : n.Spelled t) (hs : endsNumber s) :
    numeral (t ++ s) = some (n, s) := by
  obtain ⟨hp⟩ := ht
  have hwhole := wholePart_append hn (startsDigit_fraction hs n.fraction hp)
  have hfraction := fractionPart_append hn hs hp
  have hpower := powerPart_append hn hs hp
  obtain ⟨c, cs, hcs, hc⟩ := hn.whole.exists_cons
  have hunsigned : c ≠ '-' := by
    rintro rfl
    exact absurd hc (by decide)
  obtain ⟨negative, whole, fraction, power⟩ := n
  obtain rfl : whole = c :: cs := hcs
  rw [List.cons_append] at hwhole
  cases negative with
  | true => simp [signText, numeral, hwhole, hfraction, hpower]
  | false => simp [signText, numeral, hunsigned, hwhole, hfraction, hpower]

/-! ## The value of a numeral -/

@[simp] theorem value_zeros (j : Nat) (ds : List Char) :
    value (List.replicate j '0' ++ ds) = value ds := by
  rw [value, Nat.ofDigitChars_append, Nat.ofDigitChars_replicate_zero, Nat.mul_zero, value]

theorem value_append_zeros (ds : List Char) (j : Nat) :
    value (ds ++ List.replicate j '0') = value ds * 10 ^ j := by
  rw [value, Nat.ofDigitChars_append, Nat.ofDigitChars_replicate_zero, Nat.mul_comm, value]

@[simp] theorem value_digits (m : Nat) : value (Decimal.digits m) = m :=
  Nat.ofDigitChars_ten_toDigits

theorem exists_takeWhile_zeros (ds : List Char) :
    ∃ j, ds = List.replicate j '0' ++ ds.dropWhile (· == '0') := by
  refine ⟨(ds.takeWhile (· == '0')).length, ?_⟩
  have hzeros : ds.takeWhile (· == '0') =
      List.replicate (ds.takeWhile (· == '0')).length '0' := by
    rw [List.eq_replicate_iff]
    refine ⟨rfl, fun c hc => ?_⟩
    simpa using List.all_eq_true.1 (List.all_takeWhile (p := (· == '0'))) c hc
  rw [← hzeros, List.takeWhile_append_dropWhile]

/-- The digits of a numeral, of both its parts. -/
def allDigits (n : Numeral) : List Char := n.whole ++ n.fraction.getD []

theorem exists_trimmedFraction (n : Numeral) :
    ∃ j, n.fraction.getD [] = n.trimmedFraction ++ List.replicate j '0' := by
  obtain ⟨j, hj⟩ := exists_takeWhile_zeros (n.fraction.getD []).reverse
  refine ⟨j, ?_⟩
  rw [trimmedFraction, ← List.reverse_replicate, ← List.reverse_append, ← hj, List.reverse_reverse]

/-- A numeral of few digits is rounded as the decimal of all of them. -/
theorem nearest_decimal (h : n.allDigits.length ≤ toldApart) :
    n.decimal.nearest =
      Decimal.nearest ⟨value n.allDigits, n.exponent - (n.fraction.getD []).length⟩ := by
  obtain ⟨j, hj⟩ := n.exists_trimmedFraction
  obtain ⟨i, hi⟩ := exists_takeWhile_zeros (n.whole ++ n.trimmedFraction)
  rw [allDigits, hj] at h ⊢
  rw [← List.append_assoc, value_append_zeros, Decimal.nearest_shift]
  have hfew : ((n.whole ++ n.trimmedFraction).dropWhile (· == '0')).length ≤ toldApart := by
    have hlength := congrArg List.length hi
    simp only [List.length_append, List.length_replicate] at hlength h
    omega
  have hvalue : value ((n.whole ++ n.trimmedFraction).dropWhile (· == '0')) =
      value (n.whole ++ n.trimmedFraction) := by
    rw [hi, value_zeros, ← hi]
  have hexponent : n.exponent - (n.trimmedFraction ++ List.replicate j '0').length + (j : Int) =
      n.exponent - n.trimmedFraction.length := by
    rw [List.length_append, List.length_replicate]
    omega
  rw [decimal, decimalOfDigits, if_pos hfew, hvalue, hexponent]

end Numeral
end SignalLights.Json
