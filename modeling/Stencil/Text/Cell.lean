/-!
Contract: characters on a line whose cells are all of one width.

Owns:
- what stands for a character that would move the others about;
- the number of cells that a character takes.

Does not own: columns, which count characters (`Stencil.Text.Position`).
-/

set_option autoImplicit false

namespace Stencil.Text

/-- First and last codes of the characters that take two cells: ideographs, syllables of East
Asian scripts, full-width forms, and pictures. -/
def wideRanges : List (Nat × Nat) :=
  [(0x1100, 0x115F), (0x231A, 0x231B), (0x2329, 0x232A), (0x23E9, 0x23EC), (0x23F0, 0x23F0),
    (0x23F3, 0x23F3), (0x25FD, 0x25FE), (0x2614, 0x2615), (0x2648, 0x2653), (0x267F, 0x267F),
    (0x2693, 0x2693), (0x26A1, 0x26A1), (0x26AA, 0x26AB), (0x26BD, 0x26BE), (0x26C4, 0x26C5),
    (0x26CE, 0x26CE), (0x26D4, 0x26D4), (0x26EA, 0x26EA), (0x26F2, 0x26F3), (0x26F5, 0x26F5),
    (0x26FA, 0x26FA), (0x26FD, 0x26FD), (0x2705, 0x2705), (0x270A, 0x270B), (0x2728, 0x2728),
    (0x274C, 0x274C), (0x274E, 0x274E), (0x2753, 0x2755), (0x2757, 0x2757), (0x2795, 0x2797),
    (0x27B0, 0x27B0), (0x27BF, 0x27BF), (0x2B1B, 0x2B1C), (0x2B50, 0x2B50), (0x2B55, 0x2B55),
    (0x2E80, 0x303E), (0x3041, 0x3247), (0x3250, 0x4DBF), (0x4E00, 0xA4C6), (0xA960, 0xA97C),
    (0xAC00, 0xD7A3), (0xF900, 0xFAFF), (0xFE10, 0xFE19), (0xFE30, 0xFE6B), (0xFF01, 0xFF60),
    (0xFFE0, 0xFFE6), (0x16FE0, 0x18D08), (0x1AFF0, 0x1B2FB), (0x1F004, 0x1F004),
    (0x1F0CF, 0x1F0CF), (0x1F18E, 0x1F18E), (0x1F191, 0x1F19A), (0x1F200, 0x1F320),
    (0x1F32D, 0x1F335), (0x1F337, 0x1F37C), (0x1F37E, 0x1F393), (0x1F3A0, 0x1F3CA),
    (0x1F3CF, 0x1F3D3), (0x1F3E0, 0x1F3F0), (0x1F3F4, 0x1F3F4), (0x1F3F8, 0x1F43E),
    (0x1F440, 0x1F440), (0x1F442, 0x1F4FC), (0x1F4FF, 0x1F53D), (0x1F54B, 0x1F54E),
    (0x1F550, 0x1F567), (0x1F57A, 0x1F57A), (0x1F595, 0x1F596), (0x1F5A4, 0x1F5A4),
    (0x1F5FB, 0x1F64F), (0x1F680, 0x1F6C5), (0x1F6CC, 0x1F6CC), (0x1F6D0, 0x1F6D2),
    (0x1F6D5, 0x1F6DF), (0x1F6EB, 0x1F6EC), (0x1F6F4, 0x1F6FC), (0x1F7E0, 0x1F7F0),
    (0x1F90C, 0x1F93A), (0x1F93C, 0x1F945), (0x1F947, 0x1F9FF), (0x1FA70, 0x1FAFF),
    (0x20000, 0x3FFFD)]

/-- First and last codes of the characters that take no cell: marks on the character before them,
and characters that only join or choose others. -/
def markRanges : List (Nat × Nat) :=
  [(0x300, 0x36F), (0x483, 0x489), (0x591, 0x5BD), (0x610, 0x61A), (0x64B, 0x65F),
    (0x1160, 0x11FF), (0x1AB0, 0x1AFF), (0x1DC0, 0x1DFF), (0x200B, 0x200F), (0x2060, 0x2064),
    (0x20D0, 0x20FF), (0x302A, 0x302D), (0x3099, 0x309A), (0xFE00, 0xFE0F), (0xFE20, 0xFE2F),
    (0xFEFF, 0xFEFF), (0xE0100, 0xE01EF)]

/-- Whether a code is in one of several ranges. -/
def isWithin (ranges : List (Nat × Nat)) (code : Nat) : Bool :=
  ranges.any fun range => range.1 ≤ code && code ≤ range.2

/-- Whether the character changes the direction of the text around it. -/
def isTurning (c : Char) : Bool := isWithin [(0x202A, 0x202E), (0x2066, 0x2069)] c.toNat

/-- What stands for a character: four spaces for a tab, a picture for another control character, a
replacement for one that turns the text around, nothing for one that joins others. -/
def shown (c : Char) : List Char :=
  if c = '\t' then [' ', ' ', ' ', ' ']
  else if c.toNat < 0x20 then [Char.ofNat (0x2400 + c.toNat)]
  else if c.toNat = 0x7F then ['\u2421']
  else if c.toNat = 0x200D then []
  else if isTurning c then ['\uFFFD']
  else [c]

/-- The number of cells that a character takes. -/
def cells (c : Char) : Nat :=
  if c = '\t' then 4
  else if isTurning c then 1
  else if isWithin markRanges c.toNat then 0
  else if isWithin wideRanges c.toNat then 2
  else 1

/-- The number of cells that characters take together. -/
def width : List Char → Nat
  | [] => 0
  | c :: rest => cells c + width rest

/-- What stands for the characters of a text. -/
def shownText (text : List Char) : List Char := text.flatMap shown

@[simp] theorem width_append (left right : List Char) :
    width (left ++ right) = width left + width right := by
  induction left with
  | nil => simp [width]
  | cons c rest inductionHypothesis => simp [width, inductionHypothesis, Nat.add_assoc]

/-- Nothing below U+0300 turns, marks or is wide. -/
private theorem isTurning_of_low (c : Char) (low : c.toNat < 0x300) : isTurning c = false := by
  simp [isTurning, isWithin]
  omega

/-- A printable character of ASCII stands for itself. -/
theorem shown_of_printable (c : Char) (low : 0x20 ≤ c.toNat) (high : c.toNat < 0x7F) :
    shown c = [c] := by
  have notTab : c ≠ '\t' := by rintro rfl; exact absurd low (by decide)
  have notControl : ¬c.toNat < 0x20 := by omega
  have notDelete : c.toNat ≠ 0x7F := by omega
  have notJoiner : c.toNat ≠ 0x200D := by omega
  simp [shown, notTab, notControl, notDelete, notJoiner, isTurning_of_low c (by omega)]

/-- A printable character of ASCII takes one cell. -/
theorem cells_of_printable (c : Char) (low : 0x20 ≤ c.toNat) (high : c.toNat < 0x7F) :
    cells c = 1 := by
  have notTab : c ≠ '\t' := by rintro rfl; exact absurd low (by decide)
  have notMark : isWithin markRanges c.toNat = false := by
    simp [isWithin, markRanges]
    omega
  have notWide : isWithin wideRanges c.toNat = false := by
    simp [isWithin, wideRanges]
    omega
  simp [cells, notTab, notMark, notWide, isTurning_of_low c (by omega)]

end Stencil.Text
