/-!
Contract: unambiguous text for looking at values.

Owns:
- strings between double quotes with the unprintable characters of ASCII escaped;
- lists between brackets.

Does not own: string literals of the language (`Stencil.Text.Quoted`).
-/

set_option autoImplicit false

namespace Stencil.Text

def hexDigit (value : Nat) : Char :=
  if value < 10 then Char.ofNat ('0'.toNat + value) else Char.ofNat ('a'.toNat + (value - 10))

def inspectChar (c : Char) : List Char :=
  if c = '"' then ['\\', '"']
  else if c = '\\' then ['\\', '\\']
  else if c = '\n' then ['\\', 'n']
  else if c = '\r' then ['\\', 'r']
  else if c = '\t' then ['\\', 't']
  else if c = '\x00' then ['\\', '0']
  else if c.toNat < 16 then ['\\', 'u', '{', hexDigit c.toNat, '}']
  else if c.toNat < 32 ∨ c.toNat = 127 then
    ['\\', 'u', '{', hexDigit (c.toNat / 16), hexDigit (c.toNat % 16), '}']
  else [c]

def inspect (text : String) : String :=
  "\"" ++ String.ofList (text.toList.flatMap inspectChar) ++ "\""

def bracketed (items : List String) : String := "[" ++ ", ".intercalate items ++ "]"

def inspectBool (value : Bool) : String := if value then "true" else "false"

end Stencil.Text
