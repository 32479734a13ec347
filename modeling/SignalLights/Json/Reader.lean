import SignalLights.Enumerated
import SignalLights.Json.Failure
import SignalLights.Json.Lexis

/-!
# Reading data from JSON

A reader takes what it needs from the head of a text and gives back the rest, or fails. Reading
goes from left to right, so of several faults in a text the first one is reported. Where a value
has the wrong type, the value is read far enough to say what it is.
-/

namespace SignalLights.Json

abbrev Reader (α : Type) := List Char → Except Failure (α × List Char)

namespace Reader

variable {α β τ : Type}

def ofOption : Option α → Except Failure α
  | none => .error .malformed
  | some a => .ok a

def fail (e : DataError) : Except Failure α := .error (.data e)

/-- What stands at the head of a text, where `expected` should. -/
def mismatch (expected : String) (s : List Char) : Failure :=
  let found (f : Found) : Failure := .data (.invalidType f expected)
  match s with
  | 'n' :: r => if (word ['u', 'l', 'l'] r).isSome then found .null else .malformed
  | 't' :: r => if (word ['r', 'u', 'e'] r).isSome then found (.boolean true) else .malformed
  | 'f' :: r => if (word ['a', 'l', 's', 'e'] r).isSome then found (.boolean false) else .malformed
  | '"' :: r =>
    match string r with
    | none => .malformed
    | some (t, _) => found (.text (String.ofList t))
  | '[' :: _ => found .sequence
  | '{' :: _ => found .map
  | s =>
    match number s with
    | none => .malformed
    | some (.whole n, _) => found (.integer n)
    | some (.negative n, _) => found (.integer (-n))
    | some (.double x, _) => found (.number x)

def bool : Reader Bool := fun s =>
  match skipBlank s with
  | 't' :: r => (ofOption (word ['r', 'u', 'e'] r)).map (true, ·)
  | 'f' :: r => (ofOption (word ['a', 'l', 's', 'e'] r)).map (false, ·)
  | r => .error (mismatch "a boolean" r)

def text : Reader String := fun s =>
  match skipBlank s with
  | '"' :: r => (ofOption (string r)).map fun (t, r) => (String.ofList t, r)
  | r => .error (mismatch "a string" r)

/-- A number, handed to `take`. -/
def numeric (expected : String) (take : Number → Except Failure α) : Reader α := fun s =>
  match skipBlank s with
  | c :: r =>
    if startsNumber c then do
      let (n, r) ← ofOption (number (c :: r))
      return (← take n, r)
    else .error (mismatch expected (c :: r))
  | [] => .error .malformed

def uint32 : Reader UInt32 := numeric "u32" fun
  | .whole n =>
    if n < 0x100000000 then .ok (UInt32.ofNat n) else fail (.invalidValue (.integer n) "u32")
  | .negative n => fail (.invalidValue (.integer (-n)) "u32")
  | .double x => fail (.invalidType (.number x) "u32")

def binary64 : Reader Binary64 := numeric "f64" fun n => .ok n.toBinary64

def colon (s : List Char) : Except Failure (List Char) :=
  match skipBlank s with
  | ':' :: r => .ok r
  | _ => .error .malformed

def null : Reader Unit := fun s =>
  match skipBlank s with
  | 'n' :: r => (ofOption (word ['u', 'l', 'l'] r)).map ((), ·)
  | r => .error (mismatch "unit" r)

/-- What must follow the elements of a sequence. -/
def closeSequence (s : List Char) : Except Failure (List Char) :=
  match skipBlank s with
  | ']' :: r => .ok r
  | _ => .error .malformed

def closeMap (s : List Char) : Except Failure (List Char) :=
  match skipBlank s with
  | '}' :: r => .ok r
  | _ => .error .malformed

/-! ## Variants -/

def tagOf [DecidableEq τ] [Enumerated τ] (name : String) : Except Failure τ :=
  match Enumerated.ofName? name with
  | some t => .ok t
  | none => fail (.unknownVariant name (Enumerated.names τ))

/-- The first key of a map; nothing but a string can be one. -/
def key (s : List Char) : Option (List Char × List Char) :=
  match skipBlank s with
  | '"' :: r => string r
  | _ => none

/-- A variant is its name alone, or a map with the name for a key and the payload for a value. -/
def variant [DecidableEq τ] [Enumerated τ] (bare : τ → Except Failure α) (payload : τ → Reader α) :
    Reader α := fun s =>
  match skipBlank s with
  | '"' :: r => do
    let (name, r) ← ofOption (string r)
    let t ← tagOf (String.ofList name)
    return (← bare t, r)
  | '{' :: r => do
    let (name, r) ← ofOption (key r)
    let t ← tagOf (String.ofList name)
    let r ← colon r
    let (a, r) ← payload t r
    return (a, ← closeMap r)
  | _ => .error .malformed

/-- A variant without payload. -/
def enumerated [DecidableEq τ] [Enumerated τ] : Reader τ :=
  variant .ok fun t s => do
    let ((), r) ← null s
    return (t, r)

/-! ## Structures -/

/-- A field of a structure: `read` puts its value into a draft `δ` of the structure. -/
structure FieldReader (δ : Type) where
  name : String
  present : δ → Bool
  read : δ → Reader δ

structure Shape (δ α : Type) where
  expected : String
  fields : List (FieldReader δ)
  blank : δ
  /-- The structure a draft amounts to, or the first field that is missing. -/
  finish : δ → Except DataError α

variable {δ : Type}

def Shape.expectedLength (sh : Shape δ α) : String :=
  sh.expected ++ " with " ++ toString sh.fields.length ++ " elements"

/-- The rest of the text from the next element on, if there is one. -/
def nextElement (isFirst : Bool) (s : List Char) : Except Failure (Option (List Char)) :=
  match skipBlank s with
  | [] => .error .malformed
  | ']' :: _ => .ok none
  | c :: r =>
    if isFirst then .ok (some (c :: r))
    else if c = ',' then
      match skipBlank r with
      | [] | ']' :: _ => .error .malformed
      | r => .ok (some r)
    else .error .malformed

def elements (expected : String) : Nat → List (FieldReader δ) → δ → Reader δ
  | _, [], d, s => .ok (d, s)
  | i, f :: fs, d, s => do
    match ← nextElement (i == 0) s with
    | none => fail (.invalidLength i expected)
    | some r =>
      let (d, r) ← f.read d r
      elements expected (i + 1) fs d r

/-- The rest of the text from the next key on, past its opening quote, or past the brace that closes
the map. -/
def nextKey (isFirst : Bool) (s : List Char) : Except Failure (Bool × List Char) :=
  match skipBlank s with
  | '}' :: r => .ok (false, r)
  | '"' :: r => if isFirst then .ok (true, r) else .error .malformed
  | ',' :: r =>
    if isFirst then .error .malformed
    else
      match skipBlank r with
      | '"' :: r => .ok (true, r)
      | _ => .error .malformed
  | _ => .error .malformed

/-- Members in any order. Those of unknown name are passed over; none may come twice. -/
def members (fields : List (FieldReader δ)) : Nat → Bool → δ → Reader δ
  | 0, _, _, _ => .error .malformed
  | fuel + 1, isFirst, d, s => do
    let (more, r) ← nextKey isFirst s
    if !more then return (d, r)
    let (key, r) ← ofOption (string r)
    match fields.find? (·.name == String.ofList key) with
    | none =>
      let r ← colon r
      let r ← ofOption (skipValue r)
      members fields fuel false d r
    | some f =>
      if f.present d then fail (.duplicateField f.name)
      else
        let r ← colon r
        let (d, r) ← f.read d r
        members fields fuel false d r

def lift (r : Except DataError α) : Except Failure α := r.mapError .data

/-- A structure is a map of its fields, or a sequence of their values in order. -/
def structured (sh : Shape δ α) : Reader α := fun s =>
  match skipBlank s with
  | '[' :: r => do
    let (d, r) ← elements sh.expectedLength 0 sh.fields sh.blank r
    let a ← lift (sh.finish d)
    return (a, ← closeSequence r)
  | '{' :: r => do
    let (d, r) ← members sh.fields (r.length + 1) true sh.blank r
    let a ← lift (sh.finish d)
    return (a, r)
  | r => .error (mismatch sh.expected r)

/-- A text that holds one value and nothing else. -/
def whole (reader : Reader α) (s : String) : Except Failure α := do
  let (a, r) ← reader s.toList
  match skipBlank r with
  | [] => return a
  | _ => .error .malformed

end Reader
end SignalLights.Json
