import Mathlib.Data.List.TakeWhile
import Stencil.Proofs.Grammar.Shown
import Stencil.Proofs.Syntax.Level
import Stencil.Proofs.Text.Quoted

/-!
Contract: how the smallest parts of an expression are written, and that they read back.

Owns:
- the words of literals, operators and names with points;
- what an integer and the parts of a name stand for once they are written.

Does not own: what a string literal stands for (`Stencil.Proofs.Text.Quoted`) and the words of a whole
expression (`Stencil.Proofs.Grammar.Written`).
-/

set_option autoImplicit false

/-! ### Integers -/

namespace Stencil.Decimal

section Digits

variable {digits : List Char}

theorem natural?_of_digits (nonempty : digits ≠ []) (areDigits : digits.all Char.isDigit = true) :
    natural? digits = some (digitsValue 0 digits) := by
  rw [natural?, areDigits, if_neg (by simpa using nonempty)]
  rfl

theorem integer?_of_digits (nonempty : digits ≠ []) (areDigits : digits.all Char.isDigit = true)
    (fits : (digitsValue 0 digits : Int) ≤ maxInt) :
    integer? digits = some (digitsValue 0 digits : Int) := by
  rw [integer?, natural?_of_digits nonempty areDigits]
  exact if_pos fits

/-- Digits always write a floating-point number. -/
theorem float?_of_digits (nonempty : digits ≠ []) (areDigits : digits.all Char.isDigit = true) :
    (float? digits).isSome = true := by
  have all : ∀ c ∈ digits, c.isDigit = true := List.all_eq_true.mp areDigits
  have behind : digits.dropWhile Char.isDigit = [] := List.dropWhile_eq_nil_iff.mpr all
  have before : digits.takeWhile Char.isDigit = digits := List.takeWhile_eq_self_iff.mpr all
  simp [float?, Scientific.read?, behind, before, natural?_of_digits nonempty areDigits]

end Digits

/-- An integer of 64 bits without a sign is the value of its digits. -/
theorem integer?_toDigits {value : Nat} (fits : (value : Int) ≤ maxInt) :
    integer? (Nat.toDigits 10 value) = some (value : Int) := by
  have nonempty : Nat.toDigits 10 value ≠ [] := by simp
  have areDigits : (Nat.toDigits 10 value).all Char.isDigit = true := by
    rw [List.all_eq_true]
    intro digit member
    exact Nat.isDigit_of_mem_toDigits (by decide) (by decide) member
  have worth : digitsValue 0 (Nat.toDigits 10 value) = value := Nat.ofDigitChars_ten_toDigits
  have isInteger := integer?_of_digits nonempty areDigits (by rwa [worth])
  rwa [worth] at isInteger

end Stencil.Decimal

namespace Stencil.Grammar

open Stencil.Syntax

/-! ### Names with points -/

/-- A point between a name and one more part of it. -/
def joinParts (name part : String) : String := name ++ "." ++ part

theorem foldl_point_cons (c : Char) (text : List Char) (parts : List (List Char)) :
    parts.foldl (fun text part => text ++ '.' :: part) (c :: text) =
      c :: parts.foldl (fun text part => text ++ '.' :: part) text := by
  induction parts generalizing text with
  | nil => rfl
  | cons part rest inductionHypothesis => exact inductionHypothesis (text ++ '.' :: part)

/-- The segments of a text have a point between every two of them. -/
theorem Levels.segments_joined (text : List Char) :
    ∃ first rest, segments text = first :: rest ∧
      rest.foldl (fun text part => text ++ '.' :: part) first = text := by
  induction text with
  | nil => exact ⟨[], [], rfl, rfl⟩
  | cons c text inductionHypothesis =>
      obtain ⟨first, rest, areSegments, joined⟩ := inductionHypothesis
      rw [segments]
      split
      · rename_i isPoint
        refine ⟨[], first :: rest, by rw [areSegments], ?_⟩
        rw [List.foldl_cons, List.nil_append, foldl_point_cons, joined, isPoint]
      · refine ⟨c :: first, rest, by rw [areSegments], ?_⟩
        rw [foldl_point_cons, joined]

theorem foldl_joinParts (first : List Char) (parts : List (List Char)) :
    (parts.map String.ofList).foldl joinParts (String.ofList first) =
      String.ofList (parts.foldl (fun text part => text ++ '.' :: part) first) := by
  induction parts generalizing first with
  | nil => rfl
  | cons part rest inductionHypothesis =>
      have joined : joinParts (String.ofList first) (String.ofList part) =
          String.ofList (first ++ '.' :: part) := by
        apply String.toList_injective
        simp [joinParts]
      rw [List.map_cons, List.foldl_cons, List.foldl_cons, joined, inductionHypothesis]

theorem nameParts_joined (text : String) :
    ∃ first rest, nameParts text = first :: rest ∧ rest.foldl joinParts first = text := by
  obtain ⟨first, rest, areSegments, joined⟩ := Levels.segments_joined text.toList
  refine ⟨String.ofList first, rest.map String.ofList, ?_, ?_⟩
  · rw [nameParts, areSegments, List.map_cons]
  · rw [foldl_joinParts, joined, String.ofList_toList]

end Stencil.Grammar

/-! ### Words -/

namespace Stencil.Syntax

open Stencil.Grammar (Word)

def UnaryOp.word : UnaryOp → Word
  | .not => .name "not"
  | .negative => .symbol .minus
  | .positive => .symbol .plus

def BinaryOp.word : BinaryOp → Word
  | .or => .name "or"
  | .and => .name "and"
  | .equal => .symbol .equal
  | .notEqual => .symbol .notEqual
  | .less => .symbol .less
  | .lessEqual => .symbol .lessEqual
  | .greater => .symbol .greater
  | .greaterEqual => .symbol .greaterEqual
  | .concat => .symbol .tilde
  | .add => .symbol .plus
  | .subtract => .symbol .minus
  | .multiply => .symbol .star
  | .divide => .symbol .slash
  | .floorDivide => .symbol .slashSlash
  | .modulo => .symbol .percent
  | .power => .symbol .starStar

theorem BinaryOp.kind_word_ne_assign (op : BinaryOp) : op.word.kind ≠ .symbol .assign := by
  cases op <;> decide

/-- How a literal is written: integers in decimal, texts between double quotes. -/
def Literal.word : Literal → Word
  | .none => .name "none"
  | .bool true => .name "true"
  | .bool false => .name "false"
  | .int value => ⟨.integer, String.ofList (Nat.toDigits 10 value.toNat)⟩
  | .float value => ⟨.float, toString value⟩
  | .text value => ⟨.string, String.ofList (Text.Quoted.encode '"' value.toList)⟩

end Stencil.Syntax
