import Stencil.Decimal.Notation
import Stencil.Text.Inspect
import Stencil.Value.Basic

/-!
Contract: the texts of values.

Owns:
- the text a value is printed as, and the quoted text it has inside a collection;
- the text that shows a value's type for inspection;
- the value as a JSON text.

Does not own: the digits of numbers (`Stencil.Decimal`).
-/

set_option autoImplicit false

namespace Stencil.Value

open Stencil.Decimal (Notation)

/-- Printed numbers never have a power of ten. -/
def printed : Notation := ⟨none, none, .toGreater⟩

/-- Inspected numbers have a power of ten below the fourth place and above the sixteenth. -/
def inspected : Notation := ⟨some (-4), some 15, .toGreater⟩

/-- Numbers in JSON have a power of ten below the fifth place and above the sixteenth. -/
def exchanged : Notation := ⟨some (-5), some 15, .toEven⟩

/-! ## Printing -/

/-- A text between single quotes; single quotes in it follow a backslash. -/
def quoted (text : String) : String :=
  "'" ++ String.ofList (text.toList.flatMap fun c => if c = '\'' then ['\\', '\''] else [c]) ++ "'"

mutual

/-- The text a value is printed as; nothing prints as nothing. -/
def display : Value → String
  | .nil => ""
  | .bool value => Text.inspectBool value
  | .int value => toString value
  | .float value => printed.write value
  | .text value => value
  | .seq items => "[" ++ ", ".intercalate (displayItems items) ++ "]"
  | .map entries => "\x7b" ++ ", ".intercalate (displayEntries entries) ++ "\x7d"
  | .object _ _ _ _ _ display _ => display

def displayInside : Value → String
  | .nil => "none"
  | .text value => quoted value
  | .bool value => Text.inspectBool value
  | .int value => toString value
  | .float value => printed.write value
  | .seq items => "[" ++ ", ".intercalate (displayItems items) ++ "]"
  | .map entries => "\x7b" ++ ", ".intercalate (displayEntries entries) ++ "\x7d"
  | .object _ _ _ _ _ display _ => display

def displayItems : List Value → List String
  | [] => []
  | item :: rest => item.displayInside :: displayItems rest

/-- The texts of the entries of a map; a key is put between quotes as it is. -/
def displayEntries : List (String × Value) → List String
  | [] => []
  | (key, value) :: rest => ("'" ++ key ++ "': " ++ value.displayInside) :: displayEntries rest

end

/-! ## Inspection -/

mutual

/-- The text that shows what kind of value it is. -/
def inspect : Value → String
  | .nil => "Nil"
  | .bool value => "Bool(" ++ Text.inspectBool value ++ ")"
  | .int value => "Int(" ++ toString value ++ ")"
  | .float value => "Float(" ++ inspected.write value ++ ")"
  | .text value => "String(" ++ Text.inspect value ++ ")"
  | .seq items => Text.bracketed (inspectItems items)
  | .map entries => "\x7b" ++ ", ".intercalate (inspectEntries entries) ++ "\x7d"
  | .object _ typeName _ _ _ _ _ => "Object(" ++ typeName ++ ")"

def inspectItems : List Value → List String
  | [] => []
  | item :: rest => item.inspect :: inspectItems rest

def inspectEntries : List (String × Value) → List String
  | [] => []
  | (key, value) :: rest => (Text.inspect key ++ ": " ++ value.inspect) :: inspectEntries rest

end

/-! ## JSON -/

def jsonChar (c : Char) : List Char :=
  if c = '"' then ['\\', '"']
  else if c = '\\' then ['\\', '\\']
  else if c = '\x08' then ['\\', 'b']
  else if c = '\x0c' then ['\\', 'f']
  else if c = '\n' then ['\\', 'n']
  else if c = '\r' then ['\\', 'r']
  else if c = '\t' then ['\\', 't']
  else if c.toNat < 32 then
    ['\\', 'u', '0', '0', Text.hexDigit (c.toNat / 16), Text.hexDigit (c.toNat % 16)]
  else [c]

def jsonText (text : String) : String :=
  "\"" ++ String.ofList (text.toList.flatMap jsonChar) ++ "\""

mutual

/-- The value as a JSON text without blanks. A number that is not finite becomes null, an object
its text. -/
def toJson : Value → String
  | .nil => "null"
  | .bool value => Text.inspectBool value
  | .int value => toString value
  | .float value => if value.isFinite then exchanged.write value else "null"
  | .text value => jsonText value
  | .seq items => "[" ++ ",".intercalate (jsonItems items) ++ "]"
  | .map entries => "\x7b" ++ ",".intercalate (jsonEntries entries) ++ "\x7d"
  | .object _ _ _ _ _ display _ => jsonText display

def jsonItems : List Value → List String
  | [] => []
  | item :: rest => item.toJson :: jsonItems rest

def jsonEntries : List (String × Value) → List String
  | [] => []
  | (key, value) :: rest => (jsonText key ++ ":" ++ value.toJson) :: jsonEntries rest

end

end Stencil.Value
