import SignalLights.Enumerated
import SignalLights.Json.Failure

/-!
# Writing data as JSON

The compact form, without blanks. A double that is not finite has no form of its own and is written
as `null`. Of the characters of a string only quotes, backslashes and controls are escaped.
-/

namespace SignalLights.Json.Writer

def hexPair (n : Nat) : List Char := [Nat.digitChar (n / 16), Nat.digitChar (n % 16)]

def escape (c : Char) : List Char :=
  if c = '"' then ['\\', '"']
  else if c = '\\' then ['\\', '\\']
  else if c = '\x08' then ['\\', 'b']
  else if c = '\x0c' then ['\\', 'f']
  else if c = '\n' then ['\\', 'n']
  else if c = '\r' then ['\\', 'r']
  else if c = '\t' then ['\\', 't']
  else if c.toNat < 0x20 then ['\\', 'u', '0', '0'] ++ hexPair c.toNat
  else [c]

def text (s : String) : List Char := '"' :: (s.toList.flatMap escape ++ ['"'])

def bool (b : Bool) : List Char := if b then ['t', 'r', 'u', 'e'] else ['f', 'a', 'l', 's', 'e']

def uint32 (n : UInt32) : List Char := Decimal.digits n.toNat

def binary64 (x : Binary64) : List Char :=
  if x.isFinite then numberStyle.write x else ['n', 'u', 'l', 'l']

def enumerated {τ : Type} [DecidableEq τ] [Enumerated τ] (t : τ) : List Char :=
  text (Enumerated.name t)

def member (key : String) (value : List Char) : List Char := text key ++ ':' :: value

def join : List (List Char) → List Char
  | [] => []
  | [a] => a
  | a :: b :: rest => a ++ ',' :: join (b :: rest)

def map (members : List (String × List Char)) : List Char :=
  '{' :: (join (members.map fun (k, v) => member k v) ++ ['}'])

end SignalLights.Json.Writer
