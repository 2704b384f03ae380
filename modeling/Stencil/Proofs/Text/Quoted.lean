import Stencil.Text.Quoted

/-!
Contract: what a text between quotes stands for, with its closing quote and without it.

Owns:
- unescaping undoes escaping, whatever stands behind;
- a literal stands for the text that it was written for;
- what a literal without its closing quote stands for.

A last quote is taken off a literal without a look at the backslashes in front of it. Where the
closing quote is missing, that is the escaped quote at the end of the text, if there is one, and a
backslash is left in its place.

Does not own: where a literal ends in a tag (`Stencil.Proofs.Grammar.Lexeme`).
-/

set_option autoImplicit false

namespace Stencil.Text.Quoted

variable {quote : Char}

/-! ### Escapes -/

theorem unescape_escape_append (isQuote : escaped? quote = some quote) (text rest : List Char) :
    unescape (escape quote text ++ rest) = text ++ unescape rest := by
  induction text with
  | nil => rfl
  | cons c text inductionHypothesis =>
      rw [escape]
      split
      · rename_i special
        have meansItself : escaped? c = some c := by
          rcases special with rfl | rfl
          · rfl
          · exact isQuote
        rw [List.cons_append, List.cons_append, unescape, meansItself, inductionHypothesis]
        rfl
      · rename_i plain
        have notBackslash : c ≠ '\\' := fun isBackslash => plain (Or.inl isBackslash)
        rw [List.cons_append, unescape.eq_4 _ _ (fun isBackslash _ => notBackslash isBackslash)
          (fun _ _ isBackslash _ => notBackslash isBackslash), inductionHypothesis]
        rfl

theorem unescape_escape (isQuote : escaped? quote = some quote) (text : List Char) :
    unescape (escape quote text) = text := by
  have undone := unescape_escape_append isQuote text []
  rwa [List.append_nil, show unescape [] = [] from rfl, List.append_nil] at undone

theorem escape_append (quote : Char) (first second : List Char) :
    escape quote (first ++ second) = escape quote first ++ escape quote second := by
  induction first with
  | nil => rfl
  | cons c first inductionHypothesis =>
      rw [List.cons_append, escape, escape, inductionHypothesis]
      split <;> rfl

/-- Escaping puts backslashes in front of characters, never behind the last one. -/
theorem getLast?_escape (quote : Char) (text : List Char) :
    (escape quote text).getLast? = text.getLast? := by
  rcases List.eq_nil_or_concat text with rfl | ⟨init, last, rfl⟩
  · rfl
  · have single : ∃ before, escape quote [last] = before ++ [last] := by
      rw [escape]
      split
      · exact ⟨['\\'], rfl⟩
      · exact ⟨[], rfl⟩
    obtain ⟨before, isSingle⟩ := single
    rw [List.concat_eq_append, escape_append, isSingle, ← List.append_assoc, List.getLast?_concat,
      List.getLast?_concat]

/-! ### Literals -/

/-- A text stands for itself once it is written as a literal. -/
theorem decode_encode (isQuote : escaped? quote = some quote) (text : List Char) :
    decode (encode quote text) = text := by
  have closed : withoutClosing quote (escape quote text ++ [quote]) = escape quote text := by
    rw [withoutClosing, if_pos List.getLast?_concat, List.dropLast_concat]
  rw [encode, decode, closed, unescape_escape isQuote]

theorem escaped?_of_isQuote (isQuote : quote = '\'' ∨ quote = '"') : escaped? quote = some quote := by
  rcases isQuote with rfl | rfl <;> rfl

/-- A literal stands for the text that it was written for. So does a literal whose closing quote is
missing, unless the text ends with the quote: then there is a backslash in place of that. -/
theorem decode_unclosed (isQuote : quote = '\'' ∨ quote = '"') (text : List Char) :
    decode (encode quote text) = text ∧
      decode (quote :: escape quote text) =
        if text.getLast? = some quote then text.dropLast ++ ['\\'] else text := by
  have meansItself := escaped?_of_isQuote isQuote
  refine ⟨decode_encode meansItself text, ?_⟩
  rw [decode, withoutClosing, getLast?_escape]
  split
  · rename_i endsWithQuote
    obtain ⟨init, rfl⟩ := List.getLast?_eq_some_iff.mp endsWithQuote
    have escaped : escape quote [quote] = ['\\', quote] := by
      rw [escape, if_pos (Or.inr rfl)]
      rfl
    have cut : (escape quote (init ++ [quote])).dropLast = escape quote init ++ ['\\'] := by
      have whole : escape quote (init ++ [quote]) = escape quote init ++ ['\\'] ++ [quote] := by
        rw [escape_append, escaped, List.append_assoc]
        rfl
      rw [whole, List.dropLast_concat]
    rw [cut, unescape_escape_append meansItself, List.dropLast_concat]
    rfl
  · exact unescape_escape meansItself text

/-- Quotes inside a text and backslashes at its end are no hindrance. -/
theorem decode_unclosed_inner_quote :
    ('\'' = '\'' ∨ '\'' = '"') ∧ decode "'it\\'s \\\\'".toList = "it's \\".toList ∧
      decode "'it\\'s \\\\".toList = "it's \\".toList := by
  have isQuote : '\'' = '\'' ∨ '\'' = '"' := .inl rfl
  obtain ⟨closed, unclosed⟩ := decode_unclosed isQuote "it's \\".toList
  rw [if_neg (by decide)] at unclosed
  exact ⟨isQuote, closed, unclosed⟩

/-- The escaped quote of an unclosed literal is taken for the closing one if it comes last. -/
theorem decode_unclosed_last_quote :
    escape '\'' ['\''] = ['\\', '\''] ∧ decode ('\'' :: escape '\'' ['\'']) = ['\\'] := by
  decide

end Stencil.Text.Quoted
