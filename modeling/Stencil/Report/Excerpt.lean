import Stencil.Report.Diagnostic
import Stencil.Report.Window
import Stencil.Text.Blank
import Stencil.Text.LineIndex

/-!
Contract: a diagnostic shown under the source line it points at.

Owns:
- the line on which a place is shown;
- the layout of heading, place, source line and carets, for spans that stay on one line.

Does not own: the one-line text of a diagnostic (`Stencil.Report.Diagnostic`), how many cells a
character takes (`Stencil.Text.Cell`), and what of a long line is shown (`Stencil.Report.Window`).
-/

set_option autoImplicit false

namespace Stencil.Report

open Stencil.Text

def repeated (c : Char) (count : Nat) : String := String.ofList (List.replicate count c)

private def tidy (line : String) : String := trimEnd line

/-- A line of a text: its number, counted from one, the offset at which it begins, and its
characters without those that end it. -/
structure Row where
  number : Nat
  start : Nat
  content : List Char
deriving DecidableEq, Repr

namespace Row

/-- The characters of the first line of a text. A line is ended by a line feed, perhaps with a
carriage return before it. -/
def firstLine (text : List Char) : List Char :=
  let line := text.takeWhile (· != '\n')
  if line.length < text.length ∧ line.getLast? = some '\r' then line.dropLast else line

/-- The line on which an offset is shown. The end of the text is shown on the line of the last
character, even if that is a line feed. -/
def ofOffset (text : String) (offset : Nat) : Row :=
  let index := LineIndex.ofText text
  let last := if offset = index.length then offset - 1 else offset
  let passed := index.starts.takeWhile (· ≤ last)
  let start := passed.getLastD 0
  ⟨passed.length, start, firstLine ((dropBytes? start text.toList).getD [])⟩

/-- The characters of the line before an offset. -/
def before (row : Row) (offset : Nat) : List Char := takeFitting (offset - row.start) row.content

/-- The column of an offset. Behind the characters of the line there is one more. -/
def column (row : Row) (offset : Nat) : Nat :=
  let past := if byteLength row.content < offset - row.start then 1 else 0
  (row.before offset).length + past + 1

end Row

/-- The first lines of an excerpt: severity, label and message, whose later lines are indented. -/
def heading (diagnostic : Diagnostic) : String :=
  let label := diagnostic.severity.word ++ "[" ++ diagnostic.code.label ++ "]: "
  let line (c : Char) : List Char :=
    if c = '\n' then c :: List.replicate label.length ' ' else shown c
  label ++ String.ofList (diagnostic.message.toList.flatMap line)

/-- The greatest width of the line that shows a source line. -/
def widthLimit : Nat := 140

/-- What of a line has to be seen: the cells from `start` on, at least one, and behind them a label.
A line of blanks has no indent. -/
def Row.sight (row : Row) (start stop : Nat) (label : String) : Sight :=
  let blanks := row.content.takeWhile isBlank
  let first := width (row.before start)
  let behind := max (first + 1) (width (row.before stop))
  { indent := if blanks.length = row.content.length then 0 else width blanks
    start := first
    stop := behind
    labelStop := behind + 1 + label.length
    length := width row.content }

/-- A diagnostic with its source line and carets below the span. The span is first cut down to the
source, and an empty span still gets one caret. -/
def excerpt (source path : String) (diagnostic : Diagnostic) : String :=
  let length := byteLength source.toList
  let stop := min diagnostic.span.stop.offset length
  let start := min diagnostic.span.start.offset stop
  let row := Row.ofOffset source start
  let number := toString row.number
  let margin := repeated ' ' number.length
  let label := diagnostic.code.name
  let sight := row.sight start stop label
  let window := sight.window (widthLimit - (number.length + 3))
  let lines :=
    [ heading diagnostic,
      margin ++ "--> " ++ path ++ ":" ++ number ++ ":" ++ toString (row.column start),
      margin ++ " |",
      number ++ " | " ++ String.ofList (window.view (shownText row.content)),
      margin ++ " | " ++ repeated ' ' (sight.start - window.left) ++
        repeated '^' (sight.stop - sight.start) ++ " " ++ label ]
  "\n".intercalate (lines.map tidy)

/-- The excerpts of several diagnostics, with an empty line between two of them. -/
def excerpts (source path : String) (diagnostics : List Diagnostic) : String :=
  "\n\n".intercalate (diagnostics.map (excerpt source path))

end Stencil.Report
