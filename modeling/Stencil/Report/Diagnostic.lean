import Stencil.Report.Code
import Stencil.Text.Span

/-!
Contract: one problem at one place of a template, and how it is put on a line.

Owns:
- the diagnostic and its one-line text;
- counting kinds in a list of diagnostics.

Does not own: dropping and regrading diagnostics (`Stencil.Report.Policy`) and showing them under
their source line (`Stencil.Report.Excerpt`).
-/

set_option autoImplicit false

namespace Stencil.Report

open Stencil.Text (Span)

/-- A problem met at a span. `template` names the template the span points into when that is not
the template being processed. -/
structure Diagnostic where
  code : Code
  severity : Severity
  message : String
  span : Span
  template : Option String
deriving DecidableEq, Repr

namespace Diagnostic

/-- A problem in the template being processed, with the severity its kind has. -/
def new (code : Code) (message : String) (span : Span) : Diagnostic :=
  ⟨code, code.defaultSeverity, message, span, none⟩

/-- The same problem, attributed to a named template. -/
def inTemplate (diagnostic : Diagnostic) (name : String) : Diagnostic :=
  { diagnostic with template := some name }

def withSeverity (diagnostic : Diagnostic) (severity : Severity) : Diagnostic :=
  { diagnostic with severity := severity }

/-- Severity and label, then the place, then the message. -/
def toText (diagnostic : Diagnostic) : String :=
  let place := match diagnostic.template with
    | some name => name ++ ":"
    | none => ""
  let start := diagnostic.span.start
  diagnostic.severity.word ++ "[" ++ diagnostic.code.label ++ "] " ++ place ++
    toString start.line ++ ":" ++ toString start.column ++ ": " ++ diagnostic.message

end Diagnostic

/-- Whether a list of diagnostics holds an error. -/
def hasErrors (diagnostics : List Diagnostic) : Bool :=
  diagnostics.any (·.severity == .error)

/-- How many diagnostics of one kind a list holds. -/
def countOf (diagnostics : List Diagnostic) (code : Code) : Nat :=
  diagnostics.countP (·.code == code)

end Stencil.Report
