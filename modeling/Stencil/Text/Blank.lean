/-!
Contract: the characters that count as blank, and cutting them off the ends of a text.

Owns:
- the Unicode property White_Space as a table;
- removal of leading and trailing blanks.

Does not own: which tags ask for the removal (`Stencil.Grammar`).
-/

set_option autoImplicit false

namespace Stencil.Text

/-- Whether the character has the Unicode property White_Space. -/
def isBlank (c : Char) : Bool :=
  let code := c.toNat
  (0x09 ≤ code && code ≤ 0x0D) || code == 0x20 || code == 0x85 || code == 0xA0 || code == 0x1680 ||
    (0x2000 ≤ code && code ≤ 0x200A) || code == 0x2028 || code == 0x2029 || code == 0x202F ||
    code == 0x205F || code == 0x3000

/-- Every blank of the ASCII range is blank here. -/
theorem isBlank_of_isWhitespace (c : Char) (white : c.isWhitespace = true) : isBlank c = true := by
  simp only [Char.isWhitespace, Bool.or_eq_true, decide_eq_true_eq] at white
  rcases white with ((rfl | rfl) | rfl) | rfl <;> decide

def trimStart (text : String) : String := String.ofList (text.toList.dropWhile isBlank)

/-- The characters without the blanks at their end. -/
def dropBlanksAtEnd (text : List Char) : List Char := (text.reverse.dropWhile isBlank).reverse

def trimEnd (text : String) : String := String.ofList (dropBlanksAtEnd text.toList)

/-- The text without leading and trailing blanks. -/
def trim (text : String) : String := trimEnd (trimStart text)

end Stencil.Text
