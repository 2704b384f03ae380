import Stencil.Text.Cell

/-!
Contract: the part of a source line that an excerpt shows.

Owns:
- the window through which a line is seen: all of a short line, and the surroundings of the marked
  cells of a long one;
- the line seen through the window, with dots where something is left out.

The window leaves out most of a deep indent, and then as much as it must.

Does not own: the layout around the line (`Stencil.Report.Excerpt`).
-/

set_option autoImplicit false

namespace Stencil.Report

open Stencil.Text

/-- What of a line has to be seen, counted in cells from the start of the line. -/
structure Sight where
  /-- The blanks at the start of the line. -/
  indent : Nat
  /-- The marked cells, from the first one to the one behind the last. -/
  start : Nat
  stop : Nat
  /-- The end of what is written behind the marks. -/
  labelStop : Nat
  /-- The cells of the whole line. -/
  length : Nat
deriving DecidableEq, Repr

/-- The cells that are seen, from the first one to the one behind the last. -/
structure Window where
  left : Nat
  right : Nat
deriving DecidableEq, Repr

/-- The cells on each side of a mark that are kept free for dots. -/
def spare : Nat := 6

/-- The cells that are left out where only the indent is in the way: those of a deep indent, but for
a few. -/
def Sight.deepIndent (sight : Sight) : Nat :=
  let indent := sight.indent - spare
  if 20 < indent then indent - 16 else 0

/-- The window of `room` cells on a line that is too long: from the end of the indent if the marks
and their label are seen from there, else around marks and label, else around the marks. If even the
marks need more cells, the window is as wide as they. -/
def Sight.narrow (sight : Sight) (room : Nat) : Window :=
  let indent := sight.indent - spare
  let start := sight.start - spare
  let stop := sight.stop + spare
  let labelStop := sight.labelStop + spare
  if labelStop - indent ≤ room then ⟨indent, indent + room⟩
  else if labelStop - start ≤ room then
    let left := start - (room - (labelStop - start)) / 2
    ⟨left, left + room⟩
  else if stop - start ≤ room then
    let left := start - (room - (stop - start)) / 5 * 2
    ⟨left, left + room⟩
  else ⟨start, stop⟩

/-- The window on a line for which there are `room` cells. It ends where the line does if the rest
of the line fits in. -/
def Sight.window (sight : Sight) (room : Nat) : Window :=
  let window :=
    if sight.length - sight.deepIndent ≤ room then ⟨sight.deepIndent, sight.length⟩
    else sight.narrow room
  if sight.length - window.left ≤ room then ⟨window.left, sight.length⟩
  else ⟨window.left, min sight.length window.right⟩

/-- The characters behind the first `count` cells. -/
def dropCells : Nat → List Char → List Char
  | _, [] => []
  | count, c :: rest => if cells c ≤ count then dropCells (count - cells c) rest else c :: rest

/-- The characters in the first `count` cells. -/
def takeCells : Nat → List Char → List Char
  | _, [] => []
  | count, c :: rest => if cells c ≤ count then c :: takeCells (count - cells c) rest else []

/-- Three dots, which stand for what is left out. -/
def dots : List Char := ['.', '.', '.']

/-- A line seen through a window. Where something is left out, dots stand in the cells next to it. -/
def Window.view (window : Window) (line : List Char) : List Char :=
  let seen := takeCells (window.right - window.left) (dropCells window.left line)
  let begun := if 0 < window.left then dots ++ seen.drop dots.length else seen
  if window.right < width line then begun.take (begun.length - dots.length) ++ dots else begun

theorem takeCells_of_le (line : List Char) (count : Nat) (fits : width line ≤ count) :
    takeCells count line = line := by
  induction line generalizing count with
  | nil => rfl
  | cons c rest inductionHypothesis =>
      have here : cells c + width rest ≤ count := by simpa [width] using fits
      have first : cells c ≤ count := by omega
      have others : width rest ≤ count - cells c := by omega
      simp [takeCells, first, inductionHypothesis _ others]

/-- A line that fits and has no deep indent is seen whole. -/
theorem Sight.window_of_fits (sight : Sight) (room : Nat) (fits : sight.length ≤ room)
    (shallow : sight.indent ≤ 20 + spare) : sight.window room = ⟨0, sight.length⟩ := by
  have flat : sight.deepIndent = 0 := by
    simp only [Sight.deepIndent]
    split <;> omega
  simp [Sight.window, flat, fits]

end Stencil.Report
