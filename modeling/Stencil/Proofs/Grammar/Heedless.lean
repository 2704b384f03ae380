import Stencil.Proofs.Grammar.Bare
import Stencil.Proofs.Grammar.Spending

/-!
Contract: tags of a host to which marks and places make no difference.

Owns:
- hooks that make nothing of the marks of the tokens they look at;
- pairs of hooks that ask the same, whatever places they are told, and leave the same behind;
- registers of such extensions, those without hooks of their own among them.

Behind the end of a tag there may be a text of which the marks leave nothing. A hook that looks at the
token there, or reads an expression there, sees whether there is.

Does not own: what such hooks read (`Stencil.Proofs.Grammar.Unmarked` and
`Stencil.Proofs.Grammar.Matching`).
-/

set_option autoImplicit false

namespace Stencil.Grammar

open Stencil.Report (Diagnostic)
open Stencil.Syntax
open Stencil.Text (Span)
open Statement

namespace Hook

/-- Whether a hook makes nothing of the marks of the tokens that it looks at. -/
inductive Unmarking : Hook → Prop where
  | finish (node : Option Node) : Unmarking (.finish node)
  | look {next : Token → Hook} (unseen : Unseen next) (rest : ∀ token, Unmarking (next token)) :
      Unmarking (.look next)
  | takeWord {word : String} {next : Bool → Hook} (rest : ∀ taken, Unmarking (next taken)) :
      Unmarking (.takeWord word next)
  | expression {next : Expr → Hook} (rest : ∀ expr, Unmarking (next expr)) :
      Unmarking (.expression next)
  | expressionsUntil {words : List String} {next : List Expr → Hook}
      (rest : ∀ exprs, Unmarking (next exprs)) : Unmarking (.expressionsUntil words next)
  | closeTag {next : Hook} (rest : Unmarking next) : Unmarking (.closeTag next)
  | bodyUntil {endings : List String} {next : List Node → Option String → Hook}
      (rest : ∀ nodes found, Unmarking (next nodes found)) : Unmarking (.bodyUntil endings next)
  | report {diagnostic : Diagnostic} {next : Hook} (rest : Unmarking next) :
      Unmarking (.report diagnostic next)
  | spanFrom {start : Span} {next : Span → Hook} (rest : ∀ span, Unmarking (next span)) :
      Unmarking (.spanFrom start next)

/-- Whether two hooks ask the same, whatever places they are told, and leave the same behind up to
places. They tell whether the end of the tag has been passed over: from there on they make nothing of
the token under the head, and read no expressions. -/
inductive Alike : Bool → Hook → Hook → Prop where
  | finish {closed : Bool} {node twin : Option Node}
      (same : Upto (Option.map Node.unplaced) node twin) :
      Alike closed (.finish node) (.finish twin)
  | look {closed : Bool} {next others : Token → Hook}
      (rest : ∀ token twin, (closed = false → wordOf twin = wordOf token) →
        Alike closed (next token) (others twin)) :
      Alike closed (.look next) (.look others)
  | takeWord {closed : Bool} {word : String} {next others : Bool → Hook}
      (rest : ∀ taken, Alike closed (next taken) (others taken)) :
      Alike closed (.takeWord word next) (.takeWord word others)
  | expression {next others : Expr → Hook}
      (rest : ∀ expr twin, SameExpr expr twin → Alike false (next expr) (others twin)) :
      Alike false (.expression next) (.expression others)
  | expressionsUntil {words : List String} {next others : List Expr → Hook}
      (rest : ∀ exprs twins, SameExprs exprs twins → Alike false (next exprs) (others twins)) :
      Alike false (.expressionsUntil words next) (.expressionsUntil words others)
  | closeTag {closed : Bool} {next other : Hook} (rest : Alike true next other) :
      Alike closed (.closeTag next) (.closeTag other)
  | bodyUntil {closed : Bool} {endings : List String}
      {next others : List Node → Option String → Hook}
      (rest : ∀ nodes twins found, SameNodes nodes twins →
        Alike true (next nodes found) (others twins found)) :
      Alike closed (.bodyUntil endings next) (.bodyUntil endings others)
  | report {closed : Bool} {diagnostic twin : Diagnostic} {next other : Hook}
      (same : Upto Diagnostic.unplaced diagnostic twin) (rest : Alike closed next other) :
      Alike closed (.report diagnostic next) (.report twin other)
  | spanFrom {closed : Bool} {start twinStart : Span} {next others : Span → Hook}
      (rest : ∀ span twin, Alike closed (next span) (others twin)) :
      Alike closed (.spanFrom start next) (.spanFrom twinStart others)

end Hook

/-- Whether marks and places make no difference to an extension. -/
structure Extension.Heedless (extension : Extension) : Prop where
  unmarking : ∀ name start, (extension name start).Unmarking
  alike : ∀ name start twinStart,
    (extension name start).Alike false (extension name twinStart)

def Register.Heedless (register : Register) : Prop :=
  ∀ entry ∈ register.extensions, Extension.Heedless entry.2

theorem Register.Heedless.of_extensionFor? {register : Register} (heedless : register.Heedless)
    {name : String} {extension : Extension}
    (found : extensionFor? register name = some extension) : Extension.Heedless extension := by
  obtain ⟨entry, isEntry, rfl⟩ := mem_of_extensionFor? found
  exact heedless entry isEntry

/-- Extensions without hooks of their own read the same tags up to places, whatever their marks. -/
theorem Extension.IsGeneric.heedless {extension : Extension} (generic : extension.IsGeneric) :
    extension.Heedless := by
  rcases generic with rfl | ⟨ending, rfl⟩
  · refine ⟨fun name start => ?_, fun name start twinStart => ?_⟩
    · exact .expressionsUntil fun _ => .closeTag <| .spanFrom fun _ => .finish _
    · refine .expressionsUntil fun args twins same => .closeTag <| .spanFrom fun _ _ => .finish ?_
      exact congrArg (fun args => some (Node.custom name args none default)) same
  · refine ⟨fun name start => ?_, fun name start twinStart => ?_⟩
    · exact .expressionsUntil fun _ => .closeTag <| .bodyUntil fun _ _ => .spanFrom fun _ =>
        .finish _
    · refine .expressionsUntil fun args twins same => .closeTag <|
        .bodyUntil fun nodes others _ sameNodes => .spanFrom fun _ _ => .finish ?_
      exact congrArg₂ (fun args nodes => some (Node.custom name args (some nodes) default)) same
        sameNodes.body

theorem Register.IsGeneric.heedless {register : Register} (generic : register.IsGeneric) :
    register.Heedless :=
  fun entry isEntry => (generic entry isEntry).heedless

end Stencil.Grammar
