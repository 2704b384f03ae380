import Stencil.Grammar.Statement
import Stencil.Token.Scan

/-!
Contract: from tokens, and from text, to a template.

Owns:
- the whole template that a sequence of tokens forms;
- the template that a text forms, with everything that was wrong with it.

Does not own: where texts come from (`Stencil.Host.Loader`).
-/

set_option autoImplicit false

namespace Stencil.Grammar

open Stencil.Report (Diagnostic)
open Stencil.Syntax (Template)

/-- A template and what was wrong with its text. -/
structure Parsed where
  template : Template
  problems : List Diagnostic

/-- The template that the tape holds. Its span reaches to where reading stopped. -/
def template (register : Register) : Read Template := do
  let start := (← Read.peek).span
  let (nodes, _) ← Statement.body register []
  return ⟨none, nodes, start.cover (← Read.peek).span⟩

def parseTokens (register : Register) (tokens : List Token) : Parsed :=
  let (template, tape) := (template register).run (Tape.ofTokens tokens)
  ⟨template, tape.problems.toList⟩

/-- The template that a text forms. What is wrong with its tokens comes before what is wrong with
their order. -/
def parse (register : Register) (name source : String) : Parsed :=
  let scan := Token.scan source
  let parsed := parseTokens register scan.tokens
  ⟨{ parsed.template with name := some name }, scan.problems ++ parsed.problems⟩

end Stencil.Grammar
