import Stencil.Value.Table

/-!
Contract: the values a template computes with.

Owns:
- the type of values, with objects of the host among them;
- the name of a value's type, its truth, and its readings as a number.

Does not own: how a value is written (`Stencil.Value.Display`), taken apart
(`Stencil.Value.Access`), compared (`Stencil.Value.Compare`) or computed with
(`Stencil.Value.Operate`).
-/

set_option autoImplicit false

namespace Stencil

/-- A value. An integer is one of 64 bits. A host's object is known by its identity; two objects
are the same only if their identities are. What can be asked of an object is given once and for all:
its attributes are a finite table, and its items, its text and its truth never change. -/
inductive Value where
  | nil
  | bool (value : Bool)
  | int (value : Int)
  | float (value : Float)
  | text (value : String)
  | seq (items : List Value)
  | map (entries : List (String × Value))
  /-- An object: its identity, the name of its type, its attributes, the methods it answers to,
  the items it is made of if it can be iterated, its text, and its truth. -/
  | object (identity : Nat) (typeName : String) (attributes : List (String × Value))
      (methods : List String) (items : Option (List Value)) (display : String) (truthy : Bool)

namespace Value

instance : Inhabited Value := ⟨.nil⟩

def typeName : Value → String
  | .nil => "nil"
  | .bool _ => "bool"
  | .int _ => "int"
  | .float _ => "float"
  | .text _ => "string"
  | .seq _ => "sequence"
  | .map _ => "map"
  | .object _ typeName _ _ _ _ _ => typeName

def isNil : Value → Bool
  | .nil => true
  | _ => false

/-- Nothing, false, zero and what is empty are not true. -/
def isTruthy : Value → Bool
  | .nil => false
  | .bool value => value
  | .int value => value != 0
  | .float value => value != 0.0
  | .text value => !value.isEmpty
  | .seq items => !items.isEmpty
  | .map entries => !entries.isEmpty
  | .object _ _ _ _ _ _ truthy => truthy

def ofBool (value : Bool) : Int := if value then 1 else 0

/-- The value as a floating-point number; truth values count as zero and one. -/
def toFloat? : Value → Option Float
  | .int value => some (Float.ofInt value)
  | .float value => some value
  | .bool value => some (Float.ofInt (ofBool value))
  | _ => none

/-- Whether a floating-point number is finite and has no fraction. -/
def isIntegral (value : Float) : Bool := value.isFinite && value.floor == value

/-- The integer of 64 bits nearest to a floating-point number without a fraction. -/
def toWord (value : Float) : Int := value.toInt64.toInt

/-- The value as an integer of 64 bits, if it is a whole number. One out of range counts as the
nearest that is in range. -/
def toInt? : Value → Option Int
  | .int value => some value
  | .bool value => some (ofBool value)
  | .float value => if isIntegral value then some (toWord value) else none
  | _ => none

def toText? : Value → Option String
  | .text value => some value
  | _ => none

end Value

end Stencil
