import SignalLights.Decimal.Basic
import SignalLights.Binary64.Arithmetic

/-!
# The lexis of JSON

Blanks, words, numbers and strings at the head of a text. Each reader gives back what follows, and
`none` where the text is malformed. `skipValue` passes over any value.
-/

namespace SignalLights.Json

def isBlank (c : Char) : Bool := c == ' ' || c == '\n' || c == '\t' || c == '\r'

def skipBlank (s : List Char) : List Char := s.dropWhile isBlank

/-- The rest of a word whose first letter was read. -/
def word : List Char → List Char → Option (List Char)
  | [], s => some s
  | _ :: _, [] => none
  | c :: w, d :: s => if c = d then word w s else none

/-! ## Numbers -/

def startsNumber (c : Char) : Bool := c == '-' || c.isDigit

/-- The text of a number, in its parts. -/
structure Numeral where
  negative : Bool
  whole : List Char
  /-- Digits after the point; none without a point. -/
  fraction : Option (List Char)
  /-- Sign and digits of the power of ten. -/
  power : Option (Bool × List Char)
deriving DecidableEq, Repr

def spanDigits (s : List Char) : List Char × List Char :=
  (s.takeWhile Char.isDigit, s.dropWhile Char.isDigit)

/-- At least one digit. -/
def digits1 (s : List Char) : Option (List Char × List Char) :=
  match spanDigits s with
  | ([], _) => none
  | (ds, r) => some (ds, r)

/-- A number has no leading zero but `0` itself. -/
def wholePart (s : List Char) : Option (List Char × List Char) :=
  match digits1 s with
  | some ('0' :: _ :: _, _) => none
  | r => r

def fractionPart : List Char → Option (Option (List Char) × List Char)
  | '.' :: s => (digits1 s).map fun (ds, r) => (some ds, r)
  | s => some (none, s)

def powerDigits (negative : Bool) (s : List Char) : Option (Option (Bool × List Char) × List Char) :=
  (digits1 s).map fun (ds, r) => (some (negative, ds), r)

def powerPart : List Char → Option (Option (Bool × List Char) × List Char)
  | c :: s =>
    if c = 'e' ∨ c = 'E' then
      match s with
      | '-' :: t => powerDigits true t
      | '+' :: t => powerDigits false t
      | t => powerDigits false t
    else some (none, c :: s)
  | [] => some (none, [])

def numeral (s : List Char) : Option (Numeral × List Char) :=
  let (negative, s) := match s with
    | '-' :: t => (true, t)
    | t => (false, t)
  match wholePart s with
  | none => none
  | some (whole, s) =>
    match fractionPart s with
    | none => none
    | some (fraction, s) =>
      match powerPart s with
      | none => none
      | some (power, s) => some (⟨negative, whole, fraction, power⟩, s)

/-- A number as read: a whole number of 64 bits, or else a double. -/
inductive Number where
  | whole (n : Nat)
  | negative (n : Nat)
  | double (x : Binary64)
deriving DecidableEq, Repr

namespace Numeral

def value (ds : List Char) : Nat := Nat.ofDigitChars 10 ds 0

def exponent (n : Numeral) : Int :=
  match n.power with
  | none => 0
  | some (true, ds) => -value ds
  | some (false, ds) => value ds

/-- How many digits of a number are told apart. A number half way between two doubles is settled by
at most as many, and later digits matter only by being there. -/
def toldApart : Nat := 768

/-- A decimal of the given digits, of which those beyond the ones told apart become a single one. -/
def decimalOfDigits (ds : List Char) (exponent : Int) : Decimal :=
  if ds.length ≤ toldApart then ⟨value ds, exponent⟩
  else ⟨10 * value (ds.take toldApart) + 1, exponent + (ds.length - toldApart - 1 : Nat)⟩

/-- Zeros that end a fraction are not there, so they do not count as later digits. -/
def trimmedFraction (n : Numeral) : List Char :=
  ((n.fraction.getD []).reverse.dropWhile (· == '0')).reverse

def decimal (n : Numeral) : Decimal :=
  decimalOfDigits ((n.whole ++ n.trimmedFraction).dropWhile (· == '0'))
    (n.exponent - n.trimmedFraction.length)

/-- A double too large to be finite is no number. -/
def double? (n : Numeral) : Option Number :=
  if n.decimal.nearest = Binary64.infinityWord then none
  else some (.double (n.decimal.toBinary64 n.negative))

/-- A whole number within 64 bits stays one, but a negative zero is a double. -/
def number? (n : Numeral) : Option Number :=
  match n.fraction, n.power with
  | none, none =>
    let v := value n.whole
    if n.negative then if 0 < v ∧ v ≤ 0x8000000000000000 then some (.negative v) else n.double?
    else if v < 0x10000000000000000 then some (.whole v) else n.double?
  | _, _ => n.double?

end Numeral

def Number.toBinary64 : Number → Binary64
  | .whole n => .ofNat n
  | .negative n => -.ofNat n
  | .double x => x

def number (s : List Char) : Option (Number × List Char) :=
  match numeral s with
  | none => none
  | some (n, r) => n.number?.map (·, r)

/-! ## Strings -/

def hexDigit? (c : Char) : Option Nat :=
  if c.isDigit then some (c.toNat - '0'.toNat)
  else if 'a' ≤ c ∧ c ≤ 'f' then some (c.toNat - 'a'.toNat + 10)
  else if 'A' ≤ c ∧ c ≤ 'F' then some (c.toNat - 'A'.toNat + 10)
  else none

def hex4? (a b c d : Char) : Option Nat := do
  let a ← hexDigit? a
  let b ← hexDigit? b
  let c ← hexDigit? c
  let d ← hexDigit? d
  return ((a * 16 + b) * 16 + c) * 16 + d

/-- The character an escape of one letter stands for. -/
def escaped? : Char → Option Char
  | '"' => some '"'
  | '\\' => some '\\'
  | '/' => some '/'
  | 'b' => some '\x08'
  | 'f' => some '\x0c'
  | 'n' => some '\n'
  | 'r' => some '\r'
  | 't' => some '\t'
  | _ => none

def isHighSurrogate (n : Nat) : Bool := decide (0xd800 ≤ n) && decide (n ≤ 0xdbff)
def isLowSurrogate (n : Nat) : Bool := decide (0xdc00 ≤ n) && decide (n ≤ 0xdfff)

def joinSurrogates (high low : Nat) : Char :=
  Char.ofNat (0x10000 + (high - 0xd800) * 0x400 + (low - 0xdc00))

def cons? (c : Char) : Option (List Char × List Char) → Option (List Char × List Char)
  | none => none
  | some (t, r) => some (c :: t, r)

/-- The characters of a string up to its closing quote. Surrogates have to come in pairs, and
control characters have to be escaped. -/
def string : List Char → Option (List Char × List Char)
  | [] => none
  | '"' :: s => some ([], s)
  | '\\' :: 'u' :: a :: b :: c :: d :: s =>
    match hex4? a b c d with
    | none => none
    | some n =>
      if isHighSurrogate n then
        match s with
        | '\\' :: 'u' :: a :: b :: c :: d :: s =>
          match hex4? a b c d with
          | none => none
          | some m => if isLowSurrogate m then cons? (joinSurrogates n m) (string s) else none
        | _ => none
      else if isLowSurrogate n then none
      else cons? (Char.ofNat n) (string s)
  | '\\' :: c :: s =>
    match escaped? c with
    | none => none
    | some e => cons? e (string s)
  | c :: s => if c.toNat < 0x20 ∨ c = '\\' then none else cons? c (string s)
termination_by structural s => s

/-- Past the closing quote of a string. Its escapes have to be complete, but may be surrogates. -/
def skipString : List Char → Option (List Char)
  | [] => none
  | '"' :: s => some s
  | '\\' :: 'u' :: a :: b :: c :: d :: s => if (hex4? a b c d).isSome then skipString s else none
  | '\\' :: c :: s => if (escaped? c).isSome then skipString s else none
  | c :: s => if c.toNat < 0x20 ∨ c = '\\' then none else skipString s

/-! ## Values to be passed over -/

mutual

/-- Past one value; `fuel` bounds the steps. -/
def skipValueIn : Nat → List Char → Option (List Char)
  | 0, _ => none
  | fuel + 1, s =>
    match skipBlank s with
    | 'n' :: r => word ['u', 'l', 'l'] r
    | 't' :: r => word ['r', 'u', 'e'] r
    | 'f' :: r => word ['a', 'l', 's', 'e'] r
    | '"' :: r => skipString r
    | '[' :: r =>
      match skipBlank r with
      | ']' :: r => some r
      | r => skipElements fuel r
    | '{' :: r =>
      match skipBlank r with
      | '}' :: r => some r
      | r => skipMembers fuel r
    | r => (numeral r).map (·.2)

/-- Past the elements of a sequence and its closing bracket. -/
def skipElements : Nat → List Char → Option (List Char)
  | 0, _ => none
  | fuel + 1, s =>
    match skipValueIn fuel s with
    | none => none
    | some r =>
      match skipBlank r with
      | ',' :: r => skipElements fuel r
      | ']' :: r => some r
      | _ => none

/-- Past the members of a map and its closing brace. -/
def skipMembers : Nat → List Char → Option (List Char)
  | 0, _ => none
  | fuel + 1, s =>
    match skipBlank s with
    | '"' :: r =>
      match skipString r with
      | none => none
      | some r =>
        match skipBlank r with
        | ':' :: r =>
          match skipValueIn fuel r with
          | none => none
          | some r =>
            match skipBlank r with
            | ',' :: r => skipMembers fuel r
            | '}' :: r => some r
            | _ => none
        | _ => none
    | _ => none

end

/-- Every two steps consume a character. -/
def skipValue (s : List Char) : Option (List Char) := skipValueIn (2 * s.length + 2) s

end SignalLights.Json
