/-!
Contract: points of a text, and how reading characters moves them.

Owns:
- byte offsets, 1-based lines and 1-based columns counted in characters;
- the byte length of a list of characters.

Does not own: ranges of a text (`Stencil.Text.Span`) and the table of line starts
(`Stencil.Text.LineIndex`).
-/

set_option autoImplicit false

namespace Stencil.Text

/-- The number of bytes that the characters take in UTF-8. -/
def byteLength : List Char → Nat
  | [] => 0
  | c :: rest => c.utf8Size + byteLength rest

@[simp] theorem byteLength_nil : byteLength [] = 0 := rfl

@[simp] theorem byteLength_cons (c : Char) (rest : List Char) :
    byteLength (c :: rest) = c.utf8Size + byteLength rest := rfl

@[simp] theorem byteLength_append (left right : List Char) :
    byteLength (left ++ right) = byteLength left + byteLength right := by
  induction left with
  | nil => simp
  | cons c rest inductionHypothesis => simp [inductionHypothesis, Nat.add_assoc]

/-- A point of a text: a byte offset with the line and the column it falls on. The numbers are not
bounded. Counters of 32 bits that stay at their greatest number agree with them in texts of less than
4 GiB. -/
structure Position where
  offset : Nat
  line : Nat
  column : Nat
deriving DecidableEq, Repr, Inhabited

namespace Position

def start : Position := ⟨0, 1, 1⟩

/-- The point after `c`; a line feed, and nothing else, begins a line. -/
def advance (position : Position) (c : Char) : Position :=
  if c = '\n' then
    ⟨position.offset + c.utf8Size, position.line + 1, 1⟩
  else
    ⟨position.offset + c.utf8Size, position.line, position.column + 1⟩

def advanceAll (position : Position) (text : List Char) : Position :=
  text.foldl advance position

@[simp] theorem advanceAll_nil (position : Position) : position.advanceAll [] = position := rfl

@[simp] theorem advanceAll_cons (position : Position) (c : Char) (rest : List Char) :
    position.advanceAll (c :: rest) = (position.advance c).advanceAll rest := rfl

theorem advanceAll_append (position : Position) (left right : List Char) :
    position.advanceAll (left ++ right) = (position.advanceAll left).advanceAll right := by
  simp [advanceAll, List.foldl_append]

@[simp] theorem offset_advance (position : Position) (c : Char) :
    (position.advance c).offset = position.offset + c.utf8Size := by
  unfold advance
  split <;> rfl

@[simp] theorem offset_advanceAll (position : Position) (text : List Char) :
    (position.advanceAll text).offset = position.offset + byteLength text := by
  induction text generalizing position with
  | nil => simp
  | cons c rest inductionHypothesis => simp [inductionHypothesis, Nat.add_assoc]

/-- A point is written as offset, line and column with colons between them. -/
def toText (position : Position) : String :=
  toString position.offset ++ ":" ++ toString position.line ++ ":" ++ toString position.column

end Position

end Stencil.Text
