import Stencil.Decimal.Reading
import Stencil.Syntax.Expr
import Stencil.Text.Search
import Stencil.Value.Access
import Stencil.Value.Compare

/-!
Contract: operators on values.

Owns:
- arithmetic, joining, repetition, comparison and membership;
- the operands that an operator refuses.

Arithmetic is done on floating-point numbers. Its result is a whole number again when both operands
were, the operator is not `/`, and the result fits.

Does not own: which operands are evaluated (`Stencil.Render.Evaluate`).
-/

set_option autoImplicit false

namespace Stencil.Value

open Stencil.Syntax (BinaryOp UnaryOp)

inductive Fault where
  /-- Two operands of types that do not go together. -/
  | operands (op left right : String)
  /-- An operand of a type that the operator does not take. -/
  | operand (op type : String)
  /-- A division by zero. -/
  | zeroDivisor (op : String)
deriving DecidableEq, Repr

def Fault.message : Fault → String
  | .operands op left right =>
      "unsupported operand types for '" ++ op ++ "': '" ++ left ++ "' and '" ++ right ++ "'"
  | .operand op type => "bad operand type for unary '" ++ op ++ "': '" ++ type ++ "'"
  | .zeroDivisor op => "division by zero in '" ++ op ++ "'"

def refuse {α : Type} (op : BinaryOp) (left right : Value) : Except Fault α :=
  .error (.operands op.symbol left.typeName right.typeName)

/-! ## Arithmetic -/

/-- Whether arithmetic treats the value as a whole number. -/
def isWhole : Value → Bool
  | .int _ => true
  | .bool _ => true
  | _ => false

/-- Two to the power of 63, the first number that no integer of 64 bits reaches. -/
def wordLimit : Float := 9223372036854775808.0

/-- The result of arithmetic on whole numbers: a whole number if it is one and fits. -/
def wholeResult (result : Float) : Value :=
  if isIntegral result && result.abs < wordLimit then .int (toWord result) else .float result

/-- The arithmetic of an operator, if it has one. -/
def arithmetic? : BinaryOp → Option (Float → Float → Float)
  | .add => some (· + ·)
  | .subtract => some (· - ·)
  | .multiply => some (· * ·)
  | .divide => some (· / ·)
  | .floorDivide => some fun left right => (left / right).floor
  | .modulo => some fun left right => left - right * (left / right).floor
  | .power => some Float.pow
  | _ => none

def divides : BinaryOp → Bool
  | .divide => true
  | .floorDivide => true
  | .modulo => true
  | _ => false

def arithmetic (op : BinaryOp) (left right : Value) : Except Fault Value :=
  match left.toFloat?, right.toFloat?, arithmetic? op with
  | some l, some r, some compute =>
      if divides op && r == 0.0 then .error (.zeroDivisor op.symbol)
      else if left.isWhole && right.isWhole && op != .divide then .ok (wholeResult (compute l r))
      else .ok (.float (compute l r))
  | _, _, _ => refuse op left right

/-! ## Repetition -/

/-- The greatest length that repetition may give, in bytes or items. -/
def repetitionLimit : Nat := Nat.pow 2 24

def repeatList {α : Type} (items : List α) (count : Nat) : List α :=
  (List.replicate count items).flatten

/-- A text repeated; a negative count gives nothing. -/
def repeatText (op : BinaryOp) (left right : Value) (text : String) (count : Int) :
    Except Fault Value :=
  if text.utf8ByteSize * count.toNat ≤ repetitionLimit then
    .ok (.text (String.ofList (repeatList text.toList (if text.isEmpty then 0 else count.toNat))))
  else refuse op left right

/-- A sequence repeated; a negative count gives nothing. -/
def repeatItems (op : BinaryOp) (left right : Value) (items : List Value) (count : Int) :
    Except Fault Value :=
  if items.length * count.toNat ≤ repetitionLimit then
    .ok (.seq (repeatList items (if items.isEmpty then 0 else count.toNat)))
  else refuse op left right

/-! ## Operators of two operands -/

def satisfies (op : BinaryOp) (order : Ordering) : Bool :=
  match op with
  | .less => order == .lt
  | .lessEqual => order != .gt
  | .greater => order == .gt
  | _ => order != .lt

/-- The comparison of two values that have an order. -/
def ordered (op : BinaryOp) (left right : Value) : Except Fault Value :=
  match left.compare right with
  | some order => .ok (.bool (satisfies op order))
  | none => refuse op left right

def operate (op : BinaryOp) (left right : Value) : Except Fault Value :=
  match op with
  | .or => .ok (if left.isTruthy then left else right)
  | .and => .ok (if left.isTruthy then right else left)
  | .equal => .ok (.bool (left.same right))
  | .notEqual => .ok (.bool (!left.same right))
  | .less => ordered op left right
  | .lessEqual => ordered op left right
  | .greater => ordered op left right
  | .greaterEqual => ordered op left right
  | .concat => .ok (.text (left.display ++ right.display))
  | .add =>
      match left, right with
      | .text l, .text r => .ok (.text (l ++ r))
      | .seq l, .seq r => .ok (.seq (l ++ r))
      | _, _ => arithmetic op left right
  | .multiply =>
      match left, right with
      | .text content, .int count => repeatText op left right content count
      | .int count, .text content => repeatText op left right content count
      | .seq items, .int count => repeatItems op left right items count
      | .int count, .seq items => repeatItems op left right items count
      | _, _ => arithmetic op left right
  | .subtract => arithmetic op left right
  | .divide => arithmetic op left right
  | .floorDivide => arithmetic op left right
  | .modulo => arithmetic op left right
  | .power => arithmetic op left right

/-! ## Operators of one operand -/

/-- The negative of an integer; the one that does not fit becomes a float. -/
def negate (value : Int) : Value :=
  if value = Decimal.minInt then .float (-(Float.ofInt value)) else .int (-value)

def operateUnary (op : UnaryOp) (value : Value) : Except Fault Value :=
  match op, value with
  | .not, value => .ok (.bool (!value.isTruthy))
  | .negative, .int number => .ok (negate number)
  | .negative, .float number => .ok (.float (-number))
  | .negative, .bool truth => .ok (.int (-(ofBool truth)))
  | .positive, .bool truth => .ok (.int (ofBool truth))
  | .positive, .int number => .ok (.int number)
  | .positive, .float number => .ok (.float number)
  | .negative, other => .error (.operand "-" other.typeName)
  | .positive, other => .error (.operand "+" other.typeName)

/-! ## Membership -/

/-- Whether a value is in a container: an item of a sequence, a key of a map by its text, a part of
a text, an item of an object. -/
def isIn (element container : Value) : Except Fault Bool :=
  let refusal := Fault.operands "in" element.typeName container.typeName
  match container with
  | .seq items => .ok (items.any element.same)
  | .map entries => .ok (Table.has entries element.display)
  | .text content => .ok (Text.contains element.display.toList content.toList)
  | .object _ _ _ _ items _ _ =>
      match items with
      | some items => .ok (items.any element.same)
      | none => .error refusal
  | _ => .error refusal

end Stencil.Value
