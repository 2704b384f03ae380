/-!
Contract: the closed list of problems that reading and rendering a template can meet.

Owns:
- the codes, their names, their stable labels and their families;
- the severity a problem has unless a policy says otherwise.

Does not own: the wording of a single problem, which belongs to the pass that meets it.
-/

set_option autoImplicit false

namespace Stencil.Report

inductive Severity where
  | error
  | warning
  | info
deriving DecidableEq, Repr

def Severity.word : Severity → String
  | .error => "error"
  | .warning => "warning"
  | .info => "info"

inductive Family where
  | lexical
  | syntactic
  | runtime
deriving DecidableEq, Repr

inductive Code where
  | unexpectedCharacter
  | unterminatedExpression
  | unterminatedBlock
  | unterminatedString
  | unterminatedComment
  | unexpectedToken
  | expectedToken
  | missingEndTag
  | unexpectedEndTag
  | unknownTag
  | invalidAssignmentTarget
  | unknownVariable
  | unknownFilter
  | unknownTest
  | unknownFunction
  | unknownMacro
  | invalidOperand
  | notIterable
  | notCallable
  | unpackMismatch
  | templateNotFound
  | templateCycle
  | unknownTagRenderer
  | callFailed
  | renderBudgetExceeded
deriving DecidableEq, Repr

namespace Code

def all : List Code :=
  [.unexpectedCharacter, .unterminatedExpression, .unterminatedBlock, .unterminatedString,
    .unterminatedComment, .unexpectedToken, .expectedToken, .missingEndTag, .unexpectedEndTag,
    .unknownTag, .invalidAssignmentTarget, .unknownVariable, .unknownFilter, .unknownTest,
    .unknownFunction, .unknownMacro, .invalidOperand, .notIterable, .notCallable, .unpackMismatch,
    .templateNotFound, .templateCycle, .unknownTagRenderer, .callFailed, .renderBudgetExceeded]

/-- The stable label by which a policy names a kind. -/
def label : Code → String
  | .unexpectedCharacter => "L100"
  | .unterminatedExpression => "L101"
  | .unterminatedBlock => "L102"
  | .unterminatedString => "L103"
  | .unterminatedComment => "L104"
  | .unexpectedToken => "P200"
  | .expectedToken => "P201"
  | .missingEndTag => "P202"
  | .unexpectedEndTag => "P203"
  | .unknownTag => "P204"
  | .invalidAssignmentTarget => "P205"
  | .unknownVariable => "R300"
  | .unknownFilter => "R301"
  | .unknownTest => "R302"
  | .unknownFunction => "R303"
  | .unknownMacro => "R304"
  | .invalidOperand => "R305"
  | .notIterable => "R306"
  | .notCallable => "R307"
  | .unpackMismatch => "R308"
  | .templateNotFound => "R309"
  | .templateCycle => "R310"
  | .unknownTagRenderer => "R311"
  | .callFailed => "R312"
  | .renderBudgetExceeded => "R313"

def name : Code → String
  | .unexpectedCharacter => "UnexpectedCharacter"
  | .unterminatedExpression => "UnterminatedExpression"
  | .unterminatedBlock => "UnterminatedBlock"
  | .unterminatedString => "UnterminatedString"
  | .unterminatedComment => "UnterminatedComment"
  | .unexpectedToken => "UnexpectedToken"
  | .expectedToken => "ExpectedToken"
  | .missingEndTag => "MissingEndTag"
  | .unexpectedEndTag => "UnexpectedEndTag"
  | .unknownTag => "UnknownTag"
  | .invalidAssignmentTarget => "InvalidAssignmentTarget"
  | .unknownVariable => "UnknownVariable"
  | .unknownFilter => "UnknownFilter"
  | .unknownTest => "UnknownTest"
  | .unknownFunction => "UnknownFunction"
  | .unknownMacro => "UnknownMacro"
  | .invalidOperand => "InvalidOperand"
  | .notIterable => "NotIterable"
  | .notCallable => "NotCallable"
  | .unpackMismatch => "UnpackMismatch"
  | .templateNotFound => "TemplateNotFound"
  | .templateCycle => "TemplateCycle"
  | .unknownTagRenderer => "UnknownTagRenderer"
  | .callFailed => "CallFailed"
  | .renderBudgetExceeded => "RenderBudgetExceeded"

def ofName? (name : String) : Option Code := all.find? (·.name == name)

/-- The pass that meets problems of a kind; the first letter of the label shows it. -/
def family (code : Code) : Family :=
  match code.label.toList with
  | 'L' :: _ => .lexical
  | 'P' :: _ => .syntactic
  | _ => .runtime

/-- Problems that leave sensible output are warnings, all others are errors. -/
def defaultSeverity : Code → Severity
  | .unknownTagRenderer => .warning
  | .unpackMismatch => .warning
  | _ => .error

theorem mem_all (code : Code) : code ∈ all := by
  cases code <;> decide

end Code

end Stencil.Report
