import SignalLights.Text.Printable

/-!
# Inspecting a text

`inspect` shows a text in quotes so that every character of it can be seen: what does not print
stands there as an escape, by name or by its code point in hexadecimal digits.
-/

namespace SignalLights.Text

def inspectChar (c : Char) : List Char :=
  if c = '\x00' then ['\\', '0']
  else if c = '\t' then ['\\', 't']
  else if c = '\r' then ['\\', 'r']
  else if c = '\n' then ['\\', 'n']
  else if c = '\\' then ['\\', '\\']
  else if c = '"' then ['\\', '"']
  else if isPrintable c then [c]
  else ['\\', 'u', '{'] ++ Nat.toDigits 16 c.toNat ++ ['}']

def inspect (s : String) : String :=
  String.ofList ('"' :: s.toList.flatMap inspectChar ++ ['"'])

end SignalLights.Text
