import Stencil.Grammar.Template
import Stencil.Proofs.Grammar.Shown
import Stencil.Proofs.Token.Region

/-!
Contract: what the readers of bodies do, one equation for each.

Owns:
- the tape that tokens form;
- bodies, and the template, in terms of the loop over statements;
- the turns of that loop that the token under the head decides;
- the end of a verbatim body.

Does not own: what statements read (`Stencil.Proofs.Grammar.Output`).
-/

set_option autoImplicit false

namespace Stencil.Grammar

open Stencil.Syntax
open Stencil.Text (Span)
open Stencil.Token (Kind Region)
open Read Statement

/-! ### Tokens that matter -/

theorem isTrivia_of_isTagEnd {kind : Kind} (closes : kind.isTagEnd = true) :
    kind.isTrivia = false ∧ kind ≠ .endOfInput := by
  cases kind <;> simp_all [Kind.isTagEnd, Kind.isTrivia]

/-- The end of the input is added behind the end of a tag. -/
theorem ofTokens_of_tagEnd {opening closing : Token} (tokens : List Token)
    (opens : opening.kind.isTrivia = false) (closes : closing.kind.isTagEnd = true) :
    ∃ last : Token, last.kind = .endOfInput ∧
      Tape.ofTokens (opening :: tokens ++ [closing]) =
        ⟨none, opening, kept tokens ++ [closing, last], [], #[]⟩ := by
  obtain ⟨closingMatters, notEnd⟩ := isTrivia_of_isTagEnd closes
  have isKept : (opening :: tokens ++ [closing]).filter (fun token => !token.kind.isTrivia) =
      opening :: kept tokens ++ [closing] := by
    simp [kept, opens, closingMatters]
  refine ⟨⟨.endOfInput, "", Span.point closing.span.stop⟩, rfl, ?_⟩
  simp only [Tape.ofTokens, Tape.readable, isKept, List.getLast?_concat, if_neg notEnd]
  simp

/-- Tokens that end with the end of the input stand on the tape without those that do not matter. -/
theorem ofTokens_of_kept {tokens : List Token} {init : List Token} {last : Token}
    (isKept : kept tokens = init ++ [last]) (isEnd : last.kind = .endOfInput) :
    ∃ first rest, init ++ [last] = first :: rest ∧
      Tape.ofTokens tokens = ⟨none, first, rest, [], #[]⟩ := by
  have readable : Tape.readable tokens = init ++ [last] := by
    have isKept : tokens.filter (fun token => !token.kind.isTrivia) = init ++ [last] := isKept
    simp only [Tape.readable, isKept, List.getLast?_concat, isEnd, if_true]
  cases isTokens : init ++ [last] with
  | nil => simp at isTokens
  | cons first rest =>
      refine ⟨first, rest, rfl, ?_⟩
      rw [Tape.ofTokens, readable, isTokens]

theorem kept_of_end {last : Token} (isEnd : last.kind = .endOfInput) : kept [last] = [last] := by
  rw [kept, List.filter_cons_of_pos (by rw [isEnd]; rfl)]
  rfl

/-- Tokens that do not matter lead nowhere. -/
theorem after?_kept {region next : Region} {tokens : List Token}
    (led : region.after? tokens = some next) : region.after? (kept tokens) = some next := by
  induction tokens generalizing region with
  | nil => exact led
  | cons token tokens inductionHypothesis =>
      rw [Region.after?_cons, Option.bind_eq_some_iff] at led
      obtain ⟨middle, isMiddle, led⟩ := led
      by_cases trivial : token.kind.isTrivia = true
      · rw [Region.eq_of_next?_isInner isMiddle (Kind.isInner_of_isTrivia trivial)] at led
        rw [kept, List.filter_cons_of_neg (by simp [trivial])]
        exact inductionHypothesis led
      · rw [kept, List.filter_cons_of_pos (by simp [trivial]), Region.after?_cons, isMiddle]
        exact inductionHypothesis led

/-- The tokens of a text stand on the tape without those that do not matter, and the end of the
input comes last. -/
theorem ofTokens_scan (source : String) :
    ∃ tokens last first rest, (Token.scan source).tokens = tokens ++ [last] ∧
      Region.outside.after? (kept tokens) = some .outside ∧ last.kind = .endOfInput ∧
        kept tokens ++ [last] = first :: rest ∧
          Tape.ofTokens (Token.scan source).tokens = ⟨none, first, rest, [], #[]⟩ := by
  obtain ⟨tokens, last, areTokens, led, isEnd⟩ := Token.scanFrom_regions (.ofText source)
  have isKept : kept (Token.scan source).tokens = kept tokens ++ [last] := by
    rw [Token.scan, areTokens, kept_append, kept_of_end isEnd]
  obtain ⟨first, rest, areReadable, isTape⟩ := ofTokens_of_kept isKept isEnd
  exact ⟨tokens, last, first, rest, areTokens, after?_kept led, isEnd, areReadable, isTape⟩

/-! ### Bodies -/

theorem run_trimmedText (tape : Tape) :
    trimmedText.run tape = ((trimmedText.run tape).1, tape) := rfl

theorem run_closesEnclosing (name : String) (tape : Tape) :
    (closesEnclosing name).run tape =
      (tape.enclosing.tail.any (·.contains name), tape) := (rfl)

theorem run_within {α : Type} (endings : List String) (action : Read α) (tape : Tape) :
    (within endings action).run tape =
      let inside := action.run { tape with enclosing := endings :: tape.enclosing }
      (inside.1, { inside.2 with enclosing := tape.enclosing }) := rfl

/-- A body is what its loop over statements comes to. -/
theorem run_bodyAround (register : Register) (inner : BodyReader) (endings : List String)
    (tape : Tape) :
    (bodyAround register inner endings).run tape =
      let inside := (loop (nextNode register inner endings) ⟨#[], none⟩).run
        { tape with enclosing := endings :: tape.enclosing }
      ((inside.1.nodes.toList, inside.1.found),
        { inside.2 with enclosing := tape.enclosing }) := rfl

theorem run_body (register : Register) (endings : List String) (tape : Tape) :
    (body register endings).run tape =
      (bodyAround register (nestedBody register tape.following.length) endings).run tape := by
  rw [body, run_bind, run_get, nestedBody]

/-- A template is the body that no closing tag ends. -/
theorem run_template (register : Register) (tape : Tape) :
    (template register).run tape =
      let read := (body register []).run tape
      (⟨none, read.1.1, tape.current.span.cover read.2.current.span⟩, read.2) := by
  simp only [template, run_bind, run_peek, run_pure]

/-! ### Turns -/

variable {register : Register} {inner : BodyReader} {endings : List String} {tape : Tape}

theorem run_nextNode_of_end (isEnd : tape.current.kind = .endOfInput) (sofar : Body) :
    (nextNode register inner endings sofar).run tape = (.done sofar, tape) := by
  simp only [nextNode, run_bind, run_peek, isEnd, run_pure]

theorem run_nextNode_of_output {trim : Bool} (opens : tape.current.kind = .variableStart trim)
    (sofar : Body) :
    (nextNode register inner endings sofar).run tape =
      (.again (sofar.add (some (output.run tape).1)), (output.run tape).2) := by
  simp only [nextNode, run_bind, run_peek, opens, run_pure]

/-! ### The end of a verbatim body -/

/-- Whether the closing tag of a verbatim body is under the head. -/
def Tape.closesVerbatim (tape : Tape) : Bool :=
  (match tape.current.kind with
    | .blockStart _ => true
    | _ => false) && tape.advance.current.isName "endraw"

/-- The end of a verbatim body: its closing tag, or a report. -/
def verbatimEnd (content : String) (start : Span) : Read Node := do
  let token ← peek
  let next ← peekAhead 1
  let opens := match token.kind with
    | .blockStart _ => true
    | _ => false
  if opens && next.isName "endraw" then finishTag else missingEnd "raw" "endraw" start
  return .verbatim content (← spanFrom start)

theorem run_verbatimEnd (content : String) (start : Span) (tape : Tape) :
    (verbatimEnd content start).run tape =
      if tape.closesVerbatim then
        (do finishTag; return Node.verbatim content (← spanFrom start)).run tape
      else
        (do missingEnd "raw" "endraw" start
            return Node.verbatim content (← spanFrom start)).run tape := by
  rw [verbatimEnd, run_bind, run_peek, run_bind, run_peekAhead, Tape.ahead_one]
  exact run_ite _ _ _ _

end Stencil.Grammar
