import SignalLights.Binary64.Basic
import SignalLights.Enumerated

/-!
# The packed byte form

Whole numbers are written in groups of seven bits, lowest first, every byte but the last with its
high bit set. A double is its word, lowest byte first; a truth value is one byte, `0` or `1`; a text
is the number of its bytes and then its UTF-8 form; a variant is its number. Values follow each other
without marks, so a reader gives back the bytes after its value.
-/

namespace SignalLights.Packed

abbrev Bytes := List UInt8

inductive Failure where
  | unexpectedEnd
  | badNumber
  | badTruthValue
  | badText
  | unknownVariant
deriving DecidableEq, Repr

structure Codec (α : Type) where
  write : α → Bytes
  read : Bytes → Except Failure (α × Bytes)

/-! ## Whole numbers -/

/-- The longest form of a number, and the largest value of its last byte. -/
structure Width where
  bytes : Nat
  lastByte : Nat

def width32 : Width := ⟨5, 0x0f⟩
def width64 : Width := ⟨10, 0x01⟩

def writeGroups : Nat → Nat → Bytes
  | 0, _ => []
  | k + 1, n =>
    if n < 128 then [UInt8.ofNat n] else UInt8.ofNat (n % 128 + 128) :: writeGroups k (n / 128)

/-- Leading groups of zero are accepted, as long as the number keeps within its width. -/
def readGroups (lastByte : Nat) : Nat → Bytes → Except Failure (Nat × Bytes)
  | 0, _ => .error .badNumber
  | _ + 1, [] => .error .unexpectedEnd
  | k + 1, b :: r =>
    if b.toNat < 128 then
      if k = 0 ∧ lastByte < b.toNat then .error .badNumber else .ok (b.toNat, r)
    else
      match readGroups lastByte k r with
      | .error e => .error e
      | .ok (m, r) => .ok (b.toNat - 128 + 128 * m, r)

def number (w : Width) : Codec Nat := ⟨writeGroups w.bytes, readGroups w.lastByte w.bytes⟩

/-! ## Words of fixed length -/

def writeWord : Nat → Nat → Bytes
  | 0, _ => []
  | k + 1, n => UInt8.ofNat (n % 256) :: writeWord k (n / 256)

def readWord : Nat → Bytes → Except Failure (Nat × Bytes)
  | 0, r => .ok (0, r)
  | _ + 1, [] => .error .unexpectedEnd
  | k + 1, b :: r =>
    match readWord k r with
    | .error e => .error e
    | .ok (m, r) => .ok (b.toNat + 256 * m, r)

namespace Codec

variable {α β : Type}

/-- A value seen as one of another type. -/
def map (f : α → β) (g : β → α) (c : Codec α) : Codec β where
  write b := c.write (g b)
  read s :=
    match c.read s with
    | .error e => .error e
    | .ok (a, r) => .ok (f a, r)

/-- One value after the other. -/
def pair (c : Codec α) (d : Codec β) : Codec (α × β) where
  write p := c.write p.1 ++ d.write p.2
  read s :=
    match c.read s with
    | .error e => .error e
    | .ok (a, r) =>
      match d.read r with
      | .error e => .error e
      | .ok (b, r) => .ok ((a, b), r)

def uint32 : Codec UInt32 := (number width32).map UInt32.ofNat UInt32.toNat

def binary64 : Codec Binary64 :=
  Codec.map (fun n => ⟨UInt64.ofNat n⟩) (fun x => x.bits.toNat) ⟨writeWord 8, readWord 8⟩

def bool : Codec Bool where
  write b := [if b then 1 else 0]
  read
    | [] => .error .unexpectedEnd
    | b :: r =>
      if b = 0 then .ok (false, r) else if b = 1 then .ok (true, r) else .error .badTruthValue

def text : Codec String where
  write s := (number width64).write s.utf8ByteSize ++ s.toUTF8.data.toList
  read s :=
    match (number width64).read s with
    | .error e => .error e
    | .ok (n, r) =>
      if r.length < n then .error .unexpectedEnd
      else
        match String.fromUTF8? (r.take n).toByteArray with
        | none => .error .badText
        | some t => .ok (t, r.drop n)

def enumerated (τ : Type) [DecidableEq τ] [Enumerated τ] : Codec τ where
  write t := (number width32).write (Enumerated.index t)
  read s :=
    match (number width32).read s with
    | .error e => .error e
    | .ok (n, r) =>
      match Enumerated.ofIndex? n with
      | none => .error .unknownVariant
      | some t => .ok (t, r)

/-- A tag, and then a value of the type that belongs to it. -/
def tagged {τ : Type} {π : τ → Type} (tags : Codec τ) (payload : (t : τ) → Codec (π t)) :
    Codec ((t : τ) × π t) where
  write a := tags.write a.1 ++ (payload a.1).write a.2
  read s :=
    match tags.read s with
    | .error e => .error e
    | .ok (t, r) =>
      match (payload t).read r with
      | .error e => .error e
      | .ok (a, r) => .ok (⟨t, a⟩, r)

end Codec
end SignalLights.Packed
