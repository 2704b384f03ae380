import Stencil.Report.Diagnostic

/-!
Contract: what can be wrong with a sequence of tokens.

Owns:
- the causes, their kinds of problem and their wording.

Does not own: when a cause arises (`Stencil.Grammar`).
-/

set_option autoImplicit false

namespace Stencil.Grammar

open Stencil.Report (Code Diagnostic)
open Stencil.Text (Span)

inductive Mistake where
  /-- A token that nothing can begin with. -/
  | unexpected (found : String)
  /-- A token where another one has to stand. -/
  | expected (what found : String)
  /-- A body that is never closed. -/
  | missingEnd (tag ending : String)
  /-- A closing tag with nothing to close. -/
  | strayEnd (tag : String)
  /-- A tag of no known name. -/
  | unknownTag (tag : String)
  /-- A value where a place for a value has to stand. -/
  | notAssignable (tag : String)
deriving DecidableEq, Repr

namespace Mistake

/-- The kind of problem a cause is reported as. -/
def code : Mistake → Code
  | .unexpected _ => .unexpectedToken
  | .expected _ _ => .expectedToken
  | .missingEnd _ _ => .missingEndTag
  | .strayEnd _ => .unexpectedEndTag
  | .unknownTag _ => .unknownTag
  | .notAssignable _ => .invalidAssignmentTarget

def message : Mistake → String
  | .unexpected found => "unexpected " ++ found
  | .expected what found => "expected " ++ what ++ ", found " ++ found
  | .missingEnd tag ending => "missing end tag '" ++ ending ++ "' for '" ++ tag ++ "'"
  | .strayEnd tag => "unexpected '" ++ tag ++ "' tag"
  | .unknownTag tag => "unknown tag '" ++ tag ++ "'"
  | .notAssignable tag => "cannot assign to this expression in '" ++ tag ++ "'"

def toDiagnostic (mistake : Mistake) (span : Span) : Diagnostic :=
  .new mistake.code mistake.message span

end Mistake

end Stencil.Grammar
