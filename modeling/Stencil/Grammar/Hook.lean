import Stencil.Grammar.Expression
import Stencil.Syntax.Node
import Stencil.Text.Inspect

/-!
Contract: tags that a host adds to the language.

Owns:
- hooks, the requests by which a host's tag is read;
- the extensions that need no hook of their own;
- the register of extensions by tag name.

A hook never sees the tape. It can look at the token under the head, ask for expressions and bodies,
and report; it can neither step over a tag's end by hand nor move back.

Does not own: how the requests are carried out (`Stencil.Grammar.Statement`).
-/

set_option autoImplicit false

namespace Stencil.Grammar

open Stencil.Report (Code Diagnostic)
open Stencil.Syntax
open Stencil.Text (Span)

/-- What a host's tag asks of the tape, request by request; each request hands its answer to the
rest of the hook. -/
inductive Hook where
  /-- The tag is read; without a statement it leaves no trace in the tree. -/
  | finish (node : Option Node)
  /-- Look at the token under the head. -/
  | look (next : Token → Hook)
  /-- Pass over a word, if it is under the head. -/
  | takeWord (word : String) (next : Bool → Hook)
  /-- Read an expression. -/
  | expression (next : Expr → Hook)
  /-- Read expressions, with or without commas between them, up to one of the words or the end of
  the tag. -/
  | expressionsUntil (words : List String) (next : List Expr → Hook)
  /-- Pass over the end of the tag; done once, it does nothing more. -/
  | closeTag (next : Hook)
  /-- Read a body up to one of the closing tags and pass over it. The answer has the closing tag
  that was found. -/
  | bodyUntil (endings : List String) (next : List Node → Option String → Hook)
  /-- Report a problem. -/
  | report (diagnostic : Diagnostic) (next : Hook)
  /-- The span from a start to the token passed over last. -/
  | spanFrom (start : Span) (next : Span → Hook)

/-- An extension reads a tag when its name has been passed over; it is told the name and the span
of the tag's opening delimiter. -/
abbrev Extension := String → Span → Hook

namespace Extension

def inline : Extension := fun name start =>
  .expressionsUntil [] fun args =>
    .closeTag <| .spanFrom start fun span => .finish (some (.custom name args none span))

/-- A tag of arguments and a body that `ending` closes. -/
def enclosing (ending : String) : Extension := fun name start =>
  .expressionsUntil [] fun args =>
    .closeTag <| .bodyUntil [ending] fun body _ =>
      .spanFrom start fun span => .finish (some (.custom name args (some body) span))

end Extension

/-- The extensions by tag name. The tags of the language win over extensions of their names unless
overriding is allowed. -/
structure Register where
  extensions : List (String × Extension)
  allowOverride : Bool

namespace Register

def empty : Register := ⟨[], false⟩

instance : Inhabited Register := ⟨empty⟩

def find? (register : Register) (name : String) : Option Extension :=
  (register.extensions.find? fun entry => entry.1 == name).map (·.2)

def contains (register : Register) (name : String) : Bool :=
  register.extensions.any fun entry => entry.1 == name

/-- Adds an extension, in place of one of the same name. -/
def insert (register : Register) (name : String) (extension : Extension) : Register :=
  if register.contains name then
    { register with
      extensions := register.extensions.map fun entry =>
        if entry.1 == name then (name, extension) else entry }
  else { register with extensions := register.extensions ++ [(name, extension)] }

/-- Adds all extensions of another register; overriding is allowed if either allows it. -/
def merge (register other : Register) : Register :=
  let merged := other.extensions.foldl (fun sum entry => sum.insert entry.1 entry.2) register
  { merged with allowOverride := register.allowOverride || other.allowOverride }

def names (register : Register) : List String :=
  (register.extensions.map (·.1)).mergeSort (· ≤ ·)

def describe (register : Register) : String :=
  "TagRegistry \x7b tags: " ++ Text.bracketed (register.names.map Text.inspect) ++
    ", allow_override: " ++ Text.inspectBool register.allowOverride ++ " \x7d"

end Register

end Stencil.Grammar
