import Stencil.Proofs.Grammar.Body
import Stencil.Proofs.Grammar.Precedence

/-!
Contract: a template that prints one expression reads back.

Owns:
- words that are read as one expression, between the delimiters that print it;
- the single statement that a printed expression is read as.

Does not own: how expressions are read back (`Stencil.Proofs.Grammar.Precedence`).
-/

set_option autoImplicit false

namespace Stencil.Grammar

open Stencil.Syntax
open Stencil.Text (Span)
open Stencil.Token (Kind Symbol)
open Read Statement

/-- A printed expression is what stands between the delimiters, if that is read as a whole. -/
theorem run_output_of_reads {words : List Word} {tape : Tape} {value : Expr}
    (reads : expression.run tape.advance = (value, tape.advance.past words))
    (closes : (tape.advance.past words).current.kind.isTagEnd = true) :
    ∃ span, output.run tape = (.output value span, (tape.advance.past words).advance) := by
  simp only [output, run_bind, run_advance, reads, run_expectTagEnd_of_present closes, run_spanFrom,
    run_pure]
  exact ⟨_, rfl⟩

theorem run_output {expr : Expr} (tight : expr.Tight) {tape : Tape}
    (shown : tape.advance.Shows expr.written)
    (closes : (tape.advance.past expr.written).current.kind.isTagEnd = true) :
    ∃ value span, value.unplaced = expr.unplaced ∧
      output.run tape = (.output value span, (tape.advance.past expr.written).advance) := by
  have ends := Tape.endsAt_of_isTagEnd .conditional closes
  obtain ⟨value, reads, same⟩ := givesBack_expression tight _ shown ends
  obtain ⟨span, isOutput⟩ := run_output_of_reads reads closes
  exact ⟨value, span, same, isOutput⟩

/-- A template of words that are read as one expression, between the delimiters that print a value,
is one statement. -/
theorem run_template_of_reads (register : Register) {words : List Word} {means : Expr → Prop}
    (reads : ∀ tape : Tape, tape.Shows words → (tape.past words).current.kind.isTagEnd = true →
      ∃ value, means value ∧ expression.run tape = (value, tape.past words))
    {opening closing last : Token} {tokens : List Token} {trim : Bool}
    (opens : opening.kind = .variableStart trim) (closes : closing.kind.isTagEnd = true)
    (isLast : last.kind = .endOfInput) (areWords : tokens.map wordOf = words) :
    ∃ value span, means value ∧
      ((template register).run ⟨none, opening, tokens ++ [closing, last], [], #[]⟩).1.body =
        [.output value span] ∧
      ((template register).run ⟨none, opening, tokens ++ [closing, last], [], #[]⟩).2.problems =
        #[] := by
  let inside : Tape := ⟨none, opening, tokens ++ [closing, last], [[]], #[]⟩
  have holds : inside.advance.current :: inside.advance.following =
      tokens ++ closing :: [last] := by
    cases tokens <;> rfl
  obtain ⟨shown, isClosing, isFollowing⟩ := Tape.shows_of_tokens holds
  rw [areWords] at shown isClosing isFollowing
  have ends : (inside.advance.past words).current.kind.isTagEnd = true := by
    rw [isClosing]
    exact closes
  obtain ⟨value, isMeant, isRead⟩ := reads inside.advance shown ends
  obtain ⟨span, isOutput⟩ := run_output_of_reads isRead ends
  have atLast : (inside.advance.past words).advance.current = last ∧
      (inside.advance.past words).advance.following = [] := by
    rw [Tape.advance, isFollowing]
    exact ⟨rfl, rfl⟩
  have settles : Settles (nextNode register (nestedBody register (tokens ++ [closing, last]).length)
      []) ⟨#[], none⟩ inside ⟨#[.output value span], none⟩ (inside.advance.past words).advance := by
    refine .again (run_nextNode_of_output opens _) ?_ ?_
    · rw [isOutput, atLast.2]
      exact List.length_pos_iff.mpr (by simp [inside])
    · rw [isOutput]
      exact .done (run_nextNode_of_end (by rw [atLast.1]; exact isLast) _)
  have run := run_loop_of_settles settles
  rw [run_template, run_body, run_bodyAround]
  refine ⟨value, span, isMeant, ?_, ?_⟩
  · simp only [inside] at run
    simp only [run]
  · simp only [inside] at run
    simp only [run, Tape.problems_advance, Tape.problems_past]

/-- A template of one printed expression is one statement. -/
theorem run_template_of_output (register : Register) {expr : Expr} (tight : expr.Tight)
    {opening closing last : Token} {tokens : List Token} {trim : Bool}
    (opens : opening.kind = .variableStart trim) (closes : closing.kind.isTagEnd = true)
    (isLast : last.kind = .endOfInput) (words : tokens.map wordOf = expr.written) :
    ∃ value span, value.unplaced = expr.unplaced ∧
      ((template register).run ⟨none, opening, tokens ++ [closing, last], [], #[]⟩).1.body =
        [.output value span] ∧
      ((template register).run ⟨none, opening, tokens ++ [closing, last], [], #[]⟩).2.problems =
        #[] := by
  refine run_template_of_reads register (fun tape shown ends => ?_) opens closes isLast words
  obtain ⟨value, reads, same⟩ :=
    givesBack_expression tight tape shown (Tape.endsAt_of_isTagEnd .conditional ends)
  exact ⟨value, same, reads⟩

/-- The tokens of an expression in parentheses where these are needed, between the delimiters that
print a value, form the template that prints this expression. Nothing else is in its tree, and
nothing is reported. -/
theorem parse_written (register : Register) {expr : Expr} (plain : expr.Plain)
    (opening closing : Token) (tokens : List Token)
    (opens : ∃ trim, opening.kind = .variableStart trim)
    (closes : ∃ trim, closing.kind = .variableEnd trim)
    (words : (kept tokens).map wordOf = expr.bracketed.written) :
    ∃ value span,
      (parseTokens register (opening :: tokens ++ [closing])).template.body = [.output value span] ∧
      (parseTokens register (opening :: tokens ++ [closing])).problems = [] ∧
      value.unplaced = expr.bracketed.unplaced ∧
      value.ungrouped.unplaced = expr.ungrouped.unplaced := by
  obtain ⟨trim, opens⟩ := opens
  obtain ⟨trimEnd, closes⟩ := closes
  have isTagEnd : closing.kind.isTagEnd = true := by rw [closes]; rfl
  have matters : opening.kind.isTrivia = false := by rw [opens]; rfl
  obtain ⟨last, isLast, isTape⟩ := ofTokens_of_tagEnd tokens matters isTagEnd
  obtain ⟨value, span, same, isBody, noProblems⟩ :=
    run_template_of_output register plain.tight_bracketed opens isTagEnd isLast words
  refine ⟨value, span, ?_, ?_, same, ?_⟩
  · rw [parseTokens, isTape]
    exact isBody
  · rw [parseTokens, isTape]
    exact congrArg Array.toList noProblems
  · rw [Expr.unplaced_ungrouped, same, ← Expr.unplaced_ungrouped, Expr.ungrouped_bracketed]

/-- `(a + 1) * b`, with a blank between its words. -/
theorem parse_written_product_of_sum :
    ∃ value span,
      (parseTokens .empty [⟨.variableStart false, "\x7b\x7b", default⟩,
        ⟨.symbol .leftParen, "(", default⟩, ⟨.name, "a", default⟩, ⟨.blank, " ", default⟩,
        ⟨.symbol .plus, "+", default⟩, ⟨.integer, "1", default⟩,
        ⟨.symbol .rightParen, ")", default⟩, ⟨.symbol .star, "*", default⟩, ⟨.name, "b", default⟩,
        ⟨.variableEnd false, "\x7d\x7d", default⟩]).template.body = [.output value span] ∧
      value.ungrouped.unplaced =
        .binary .multiply (.binary .add (.name "a" default) (.literal (.int 1) default) default)
          (.name "b" default) default := by
  have plain : (Expr.binary .multiply
      (.binary .add (.name "a" default) (.literal (.int 1) default) default)
      (.name "b" default) default).Plain :=
    .binary _ trivial trivial
      (.binary _ trivial trivial (.name _ (by decide)) (.literal _ ⟨by decide, by decide⟩))
      (.name _ (by decide))
  obtain ⟨value, span, isBody, _, _, same⟩ := parse_written .empty plain
    ⟨.variableStart false, "\x7b\x7b", default⟩ ⟨.variableEnd false, "\x7d\x7d", default⟩
    [⟨.symbol .leftParen, "(", default⟩, ⟨.name, "a", default⟩, ⟨.blank, " ", default⟩,
      ⟨.symbol .plus, "+", default⟩, ⟨.integer, "1", default⟩, ⟨.symbol .rightParen, ")", default⟩,
      ⟨.symbol .star, "*", default⟩, ⟨.name, "b", default⟩] ⟨_, rfl⟩ ⟨_, rfl⟩ (by decide)
  exact ⟨value, span, isBody, same⟩

end Stencil.Grammar
