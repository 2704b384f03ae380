/-!
Contract: taking known characters off the ends of a text.

Owns:
- the rest after an expected beginning, with and without its being there.

Does not own: blanks (`Stencil.Text.Blank`).
-/

set_option autoImplicit false

namespace Stencil.Text

/-- The rest after the given characters, if the text begins with them. -/
def after? : List Char → List Char → Option (List Char)
  | [], text => some text
  | _ :: _, [] => none
  | p :: expected, c :: text => if p = c then after? expected text else none

/-- The text without the given characters at its head, if they are there. -/
def withoutPrefix (expected text : List Char) : List Char := (after? expected text).getD text

/-- The text without the given characters at its end, if they are there. -/
def withoutSuffix (expected text : List Char) : List Char :=
  (withoutPrefix expected.reverse text.reverse).reverse

theorem after?_append (expected rest : List Char) : after? expected (expected ++ rest) = some rest := by
  induction expected with
  | nil => rfl
  | cons c expected inductionHypothesis => simp [after?, inductionHypothesis]

theorem eq_append_of_after? {expected text rest : List Char} (found : after? expected text = some rest) :
    text = expected ++ rest := by
  induction expected generalizing text with
  | nil => simpa [after?] using found
  | cons c expected inductionHypothesis =>
      cases text with
      | nil => simp [after?] at found
      | cons d text =>
          simp only [after?] at found
          split at found
          · rename_i same
            simp [same, inductionHypothesis found]
          · contradiction

end Stencil.Text
