import Stencil.Grammar.Mistake
import Stencil.Text.Search
import Stencil.Token.Kind

/-!
Contract: tokens being read, one after another.

Owns:
- the tape: the token under the head, what precedes and follows it, what was wrong so far, and the
  closing tags that open bodies are waiting for;
- looking at tokens, passing over them, and reporting;
- the loop, which ends because each turn that goes on has passed over a token.

The head never moves back, and the last token, the end of the input, is never passed over.

Does not own: what the tokens mean (`Stencil.Grammar.Expression`, `Stencil.Grammar.Statement`).
-/

set_option autoImplicit false

namespace Stencil.Grammar

open Stencil.Report (Diagnostic)
open Stencil.Text (Span Position)
open Stencil.Token (Kind Symbol)

/-- A sequence of tokens with a head on one of them. -/
structure Tape where
  previous : Option Token
  current : Token
  following : List Token
  /-- The closing tags each open body is waiting for, innermost body first. -/
  enclosing : List (List String)
  problems : Array Diagnostic

namespace Tape

/-- Tokens that matter, with the end of the input as the last one. -/
def readable (tokens : List Token) : List Token :=
  let kept := tokens.filter fun token => !token.kind.isTrivia
  match kept.getLast? with
  | none => [⟨.endOfInput, "", Span.point Position.start⟩]
  | some last =>
      if last.kind = .endOfInput then kept
      else kept ++ [⟨.endOfInput, "", Span.point last.span.stop⟩]

/-- The head on the first token that matters. -/
def ofTokens (tokens : List Token) : Tape :=
  match readable tokens with
  | [] => ⟨none, default, [], [], #[]⟩
  | first :: rest => ⟨none, first, rest, [], #[]⟩

/-- The token at a distance from the first one, or the last one. -/
def tokenAt : Nat → Token → List Token → Token
  | 0, current, _ => current
  | _ + 1, current, [] => current
  | distance + 1, _, next :: rest => tokenAt distance next rest

/-- The token `distance` after the head, or the last one. -/
def ahead (tape : Tape) (distance : Nat) : Token := tokenAt distance tape.current tape.following

/-- The tape with its head on the next token, if there is one. -/
def advance (tape : Tape) : Tape :=
  match tape.following with
  | [] => tape
  | next :: rest => { tape with previous := some tape.current, current := next, following := rest }

/-- The span of the token passed over last; before the first one is passed, its own span. -/
def previousSpan (tape : Tape) : Span :=
  match tape.previous with
  | some token => token.span
  | none => tape.current.span

def report (tape : Tape) (diagnostic : Diagnostic) : Tape :=
  { tape with problems := tape.problems.push diagnostic }

/-- The first place at or after the given one where the test holds, or the last token. -/
def seek (stop : Kind → Bool) (previous : Option Token) (current : Token) :
    List Token → Option Token × Token × List Token
  | [] => (previous, current, [])
  | next :: rest =>
      if stop current.kind then (previous, current, next :: rest)
      else seek stop (some current) next rest

/-- The tape with its head moved forward to the first token of the given kinds. -/
def skipTo (tape : Tape) (stop : Kind → Bool) : Tape :=
  let place := seek stop tape.previous tape.current tape.following
  { tape with previous := place.1, current := place.2.1, following := place.2.2 }

end Tape

abbrev Read (α : Type) := StateM Tape α

namespace Read

def peek : Read Token := return (← get).current

def peekAhead (distance : Nat) : Read Token := return (← get).ahead distance

def advance : Read Token := do
  let tape ← get
  set tape.advance
  return tape.current

/-- Whether a token of the kind is under the head. -/
def atKind (kind : Kind) : Read Bool := return (← get).current.kind == kind

def atSymbol (symbol : Symbol) : Read Bool := atKind (.symbol symbol)

def atWord (word : String) : Read Bool := return (← get).current.isName word

def atTagEnd : Read Bool := return (← get).current.kind.isTagEnd

/-- Whether nothing can follow in this tag: it ends here, or the input does. -/
def atClose : Read Bool := do
  let kind := (← get).current.kind
  return kind.isTagEnd || kind == .endOfInput

/-- Passes over a token of the kind, if one is under the head. -/
def take? (kind : Kind) : Read (Option Token) := do
  if ← atKind kind then some <$> advance else return none

/-- Passes over the symbol, if it is under the head. -/
def takeSymbol (symbol : Symbol) : Read Bool := return (← take? (.symbol symbol)).isSome

/-- Passes over the word, if it is under the head. -/
def takeWord (word : String) : Read Bool := do
  if ← atWord word then
    let _ ← advance
    return true
  else return false

def report (diagnostic : Diagnostic) : Read Unit := modify (·.report diagnostic)

def mistake (mistake : Mistake) (span : Span) : Read Unit := report (mistake.toDiagnostic span)

/-- Reports that something else has to stand under the head. Nothing is passed over. -/
def expected (what : String) : Read Unit := do
  let token ← peek
  mistake (.expected what token.describe) token.span

/-- Passes over the symbol or reports that it is missing. -/
def expectSymbol (symbol : Symbol) : Read Bool := do
  if ← takeSymbol symbol then return true
  else
    expected (Kind.symbol symbol).describe
    return false

/-- Passes over the word or reports that it is missing. -/
def expectWord (word : String) : Read Unit := do
  if ← takeWord word then return ()
  else expected ("'" ++ word ++ "'")

/-- Passes over a name and gives it, or reports that one is missing. -/
def expectName (what : String) : Read (Option String) := do
  match ← take? .name with
  | some token => return some token.lexeme
  | none =>
      expected what
      return none

def previousSpan : Read Span := return (← get).previousSpan

/-- The span from `start` to the token passed over last. -/
def spanFrom (start : Span) : Read Span := return start.cover (← previousSpan)

/-- Where the skipping of a broken tag stops: at its end, or where something outside tags begins. -/
def resumes : Kind → Bool
  | .text => true
  | .comment _ _ => true
  | .variableStart _ => true
  | .blockStart _ => true
  | .variableEnd _ => true
  | .blockEnd _ => true
  | _ => false

/-- Skips the rest of a tag together with its end. -/
def skipTag : Read Unit := do
  modify (·.skipTo resumes)
  if ← atTagEnd then
    let _ ← advance

/-- Passes over the end of a tag. What stands before it is reported once and skipped. -/
def expectTagEnd (what : Kind) : Read Unit := do
  if ← atTagEnd then
    let _ ← advance
  else
    expected what.describe
    skipTag

/-- Passes over the end of a statement's tag. -/
def expectBlockEnd : Read Unit := expectTagEnd (.blockEnd false)

inductive Turn (α : Type) where
  | again (value : α)
  | done (value : α)

def turns {α : Type} (turn : α → Read (Turn α)) : Nat → α → Read α
  | 0, value => return value
  | limit + 1, value => do
      match ← turn value with
      | .again next => turns turn limit next
      | .done result => return result

/-- Turns until one is the last. A turn that is not the last has passed over a token, so there are
at most as many as tokens remain, and the last one. -/
def loop {α : Type} (turn : α → Read (Turn α)) (value : α) : Read α := do
  turns turn ((← get).following.length + 1) value

end Read

end Stencil.Grammar
