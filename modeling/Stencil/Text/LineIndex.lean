import Stencil.Text.Span

/-!
Contract: finding the line and column of a byte offset by a table of line starts.

Owns:
- the table of the offsets at which lines begin;
- the look-up of an offset in it.

Does not own: positions that are counted along while text is read
(`Stencil.Text.Position.advanceAll`), with which the look-up agrees.
-/

set_option autoImplicit false

namespace Stencil.Text

/-- The longest run of first characters that takes at most `count` bytes. -/
def takeFitting : Nat → List Char → List Char
  | _, [] => []
  | count, c :: rest =>
      if c.utf8Size ≤ count then c :: takeFitting (count - c.utf8Size) rest else []

/-- The offsets at which the lines of a text begin, in ascending order, and its byte length. -/
structure LineIndex where
  starts : List Nat
  length : Nat
deriving DecidableEq, Repr

namespace LineIndex

/-- The starts of the lines after the first, for text that begins at `offset`. -/
def laterStarts (offset : Nat) : List Char → List Nat
  | [] => []
  | c :: rest =>
      let next := offset + c.utf8Size
      if c = '\n' then next :: laterStarts next rest else laterStarts next rest

/-- The table for `text`; the first line begins at zero. -/
def ofText (text : String) : LineIndex where
  starts := 0 :: laterStarts 0 text.toList
  length := byteLength text.toList

/-- How many lines the text has; an empty text has one. -/
def lineCount (index : LineIndex) : Nat := index.starts.length

/-- The position of `offset` in `text`, the text the table was made from. An offset past the end
stands for the end, and one inside a character for the start of that character. -/
def position (index : LineIndex) (text : String) (offset : Nat) : Position :=
  let reached := min offset index.length
  let passed := index.starts.takeWhile (· ≤ reached)
  let lineStart := passed.getLastD 0
  let onLine := (dropBytes? lineStart text.toList).getD []
  let before := takeFitting (reached - lineStart) onLine
  ⟨lineStart + byteLength before, passed.length, before.length + 1⟩

end LineIndex

end Stencil.Text
