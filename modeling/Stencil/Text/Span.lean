import Stencil.Text.Position

/-!
Contract: half-open ranges of a text.

Owns:
- spans whose end never comes before their start;
- the smallest span that covers two spans, and the text a span cuts out.

Does not own: who reports a span (`Stencil.Report.Diagnostic`).
-/

set_option autoImplicit false

namespace Stencil.Text

/-- The characters after the first `count` bytes, if a character starts there or the text ends. -/
def dropBytes? : Nat → List Char → Option (List Char)
  | 0, text => some text
  | _ + 1, [] => none
  | count + 1, c :: rest =>
      if c.utf8Size ≤ count + 1 then dropBytes? (count + 1 - c.utf8Size) rest else none
termination_by _ text => text.length

/-- The first characters that take exactly `count` bytes, if there are such. -/
def takeBytes? : Nat → List Char → Option (List Char)
  | 0, _ => some []
  | _ + 1, [] => none
  | count + 1, c :: rest =>
      if c.utf8Size ≤ count + 1 then
        (takeBytes? (count + 1 - c.utf8Size) rest).map (c :: ·)
      else none
termination_by _ text => text.length

theorem dropBytes?_append (before rest : List Char) :
    dropBytes? (byteLength before) (before ++ rest) = some rest := by
  induction before with
  | nil => simp [dropBytes?]
  | cons c before inductionHypothesis =>
      have positive : 0 < c.utf8Size := Char.utf8Size_pos c
      obtain ⟨size, isSize⟩ : ∃ size, c.utf8Size = size + 1 := ⟨c.utf8Size - 1, by omega⟩
      have total : byteLength (c :: before) = size + byteLength before + 1 := by
        rw [byteLength_cons, isSize]
        omega
      have fits : c.utf8Size ≤ size + byteLength before + 1 := by omega
      have left : size + byteLength before + 1 - c.utf8Size = byteLength before := by omega
      rw [total, List.cons_append, dropBytes?, if_pos fits, left, inductionHypothesis]

theorem takeBytes?_append (before rest : List Char) :
    takeBytes? (byteLength before) (before ++ rest) = some before := by
  induction before with
  | nil => simp [takeBytes?]
  | cons c before inductionHypothesis =>
      have positive : 0 < c.utf8Size := Char.utf8Size_pos c
      obtain ⟨size, isSize⟩ : ∃ size, c.utf8Size = size + 1 := ⟨c.utf8Size - 1, by omega⟩
      have total : byteLength (c :: before) = size + byteLength before + 1 := by
        rw [byteLength_cons, isSize]
        omega
      have fits : c.utf8Size ≤ size + byteLength before + 1 := by omega
      have left : size + byteLength before + 1 - c.utf8Size = byteLength before := by omega
      rw [total, List.cons_append, takeBytes?, if_pos fits, left, inductionHypothesis]
      rfl

structure Span where
  start : Position
  stop : Position
deriving DecidableEq, Repr

namespace Span

def point (position : Position) : Span := ⟨position, position⟩

/-- The span between two points; two points in the wrong order give the empty span at the first. -/
def between (start stop : Position) : Span :=
  if stop.offset < start.offset then point start else ⟨start, stop⟩

instance : Inhabited Span := ⟨point Position.start⟩

def length (span : Span) : Nat := span.stop.offset - span.start.offset

def isEmpty (span : Span) : Bool := span.length == 0

/-- The smallest span that covers both; on a tie the points of the first span stay. -/
def cover (span other : Span) : Span where
  start := if other.start.offset < span.start.offset then other.start else span.start
  stop := if other.stop.offset > span.stop.offset then other.stop else span.stop

def contains (span : Span) (offset : Nat) : Bool :=
  span.start.offset ≤ offset && offset < span.stop.offset

/-- The covered part of `text`, if both ends of the span fall between its characters. -/
def slice? (span : Span) (text : String) : Option String := do
  let rest ← dropBytes? span.start.offset text.toList
  let covered ← takeBytes? span.length rest
  return String.ofList covered

/-- A span is written as its two points with a hyphen between them. -/
def toText (span : Span) : String := span.start.toText ++ "-" ++ span.stop.toText

theorem start_le_stop_between (start stop : Position) :
    (between start stop).start.offset ≤ (between start stop).stop.offset := by
  unfold between point
  split
  · exact Nat.le_refl _
  · simp only
    omega

@[simp] theorem start_between (start stop : Position) : (between start stop).start = start := by
  unfold between point
  split <;> rfl

end Span

end Stencil.Text
