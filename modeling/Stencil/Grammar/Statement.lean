import Stencil.Grammar.Hook
import Stencil.Text.Affix
import Stencil.Text.Blank

/-!
Contract: reading statements and bodies from the tape.

Owns:
- the tags of the language, their clauses and their closing tags;
- the carrying out of a host's hooks;
- the decision which open body a closing tag belongs to.

A body ends at a closing tag it waits for, or at one that a body around it waits for; in the second
case its own closing tag is missing. Whatever is wrong inside a tag costs at most that tag: reading
goes on after its end.

Does not own: expressions (`Stencil.Grammar.Expression`).
-/

set_option autoImplicit false

namespace Stencil.Grammar

open Stencil.Syntax
open Stencil.Text (Span trimStart trimEnd trim withoutPrefix withoutSuffix)
open Stencil.Token (Kind Symbol)
open Read

def builtinTags : List String :=
  ["if", "for", "set", "block", "extends", "include", "import", "from", "macro", "call", "with",
    "filter", "raw"]

/-- A reader of bodies: it is told the closing tags, and tells the one it stopped at. That tag is
not passed over. -/
abbrev BodyReader := List String → Read (List Node × Option String)

namespace Statement

/-! ## Text and comments -/

/-- The text under the head without the blanks that its neighbours take off. -/
def trimmedText : Read String := do
  let tape ← get
  let before := tape.previous.any (·.kind.trimsAfter)
  let after := tape.following.head?.any (·.kind.trimsBefore)
  let text := tape.current.lexeme
  let text := if before then trimStart text else text
  return if after then trimEnd text else text

/-- Text, unless taking blanks off left nothing. -/
def text : Read (Option Node) := do
  let content ← trimmedText
  let token ← advance
  return if content.isEmpty then none else some (.text content token.span)

/-- What a comment says: its text without delimiters, markers and blanks around it. -/
def commentContent (lexeme : String) (trimBefore trimAfter : Bool) : String :=
  let inside := withoutPrefix ['{', '#'] lexeme.toList
  let inside := withoutSuffix ['#', '}'] inside
  let inside := if trimBefore then withoutPrefix ['-'] inside else inside
  let inside := if trimAfter then withoutSuffix ['-'] inside else inside
  trim (String.ofList inside)

def comment (trimBefore trimAfter : Bool) : Read Node := do
  let token ← advance
  return .comment (commentContent token.lexeme trimBefore trimAfter) token.span

def output : Read Node := do
  let start := (← advance).span
  let value ← expression
  expectTagEnd (.variableEnd false)
  return .output value (← spanFrom start)

/-! ## Closing tags -/

/-- Passes over the opening delimiter and the name of a tag; gives the delimiter's span. -/
def openTag : Read Span := do
  let start := (← advance).span
  let _ ← advance
  return start

/-- Passes over a whole closing tag. A single name after the tag's own is a label and is ignored. -/
def finishTag : Read Unit := do
  let _ ← openTag
  let next ← peekAhead 1
  if (← atKind .name) && next.kind.isTagEnd then
    let _ ← advance
  expectBlockEnd

/-- Reports a body without its closing tag, at the opening delimiter of its tag. -/
def missingEnd (tag ending : String) (start : Span) : Read Unit :=
  mistake (.missingEnd tag ending) start

/-- A body with one closing tag, which is passed over. -/
def closedBody (body : BodyReader) (ending tag : String) (start : Span) : Read (List Node) := do
  let (nodes, found) ← body [ending]
  if found.isSome then finishTag else missingEnd tag ending start
  return nodes

/-! ## Clauses -/

/-- Whether `with context` or `without context` is under the head. -/
def atContextClause : Read Bool := do
  let token ← peek
  let next ← peekAhead 1
  return (token.isName "with" || token.isName "without") && next.isName "context"

/-- A context clause, if one is under the head: whether the context is kept. -/
def contextClause? : Read (Option Bool) := do
  if ← atContextClause then
    let token ← advance
    let _ ← advance
    return some (token.isName "with")
  else return none

/-- One more parameter, perhaps with a default. -/
def paramTurn (params : List Param) : Read (Turn (List Param)) := do
  if (← atSymbol .rightParen) || (← atClose) then return .done params
  match ← take? .name with
  | none =>
      expected "parameter name"
      return .done params
  | some token =>
      let default ← if ← takeSymbol .assign then some <$> expression else pure none
      let params := params ++ [⟨token.lexeme, default, ← spanFrom token.span⟩]
      if ← takeSymbol .comma then return .again params else return .done params

def params : Read (List Param) := do
  let _ ← advance
  let params ← loop paramTurn []
  let _ ← expectSymbol .rightParen
  return params

/-! ## Tags -/

/-- What is known of a choice between two of its tags: the branches so far, the body of `else`, and
the test and the start of the branch that comes next. -/
structure Choice where
  branches : List Branch
  otherwise : Option (List Node)
  test : Expr
  start : Span

/-- The body of the next branch and the tag after it. -/
def nextBranch (body : BodyReader) (start : Span) (choice : Choice) : Read (Turn Choice) := do
  let (nodes, found) ← body ["elif", "else", "endif"]
  let branch := Branch.mk choice.test nodes (← spanFrom choice.start)
  let choice := { choice with branches := choice.branches ++ [branch] }
  match found with
  | some "elif" =>
      let branchStart ← openTag
      let test ← expression
      expectBlockEnd
      return .again { choice with test := test, start := branchStart }
  | some "else" =>
      finishTag
      let nodes ← closedBody body "endif" "if" start
      return .done { choice with otherwise := some nodes }
  | some _ =>
      finishTag
      return .done choice
  | none =>
      missingEnd "if" "endif" start
      return .done choice

def choose (body : BodyReader) (start : Span) : Read Node := do
  let test ← expression
  expectBlockEnd
  let choice ← loop (nextBranch body start) ⟨[], none, test, start⟩
  return .choose choice.branches choice.otherwise (← spanFrom start)

/-- The condition of a loop, if there is one. -/
def loopCondition? : Read (Option Expr) := do
  if ← takeWord "if" then some <$> disjunction else return none

/-- What follows the body of a loop that stopped at a closing tag: the other body, if there is one,
and the loop's own closing tag. -/
def loopOtherwise? (body : BodyReader) (found : Option String) (start : Span) :
    Read (Option (List Node)) := do
  match found with
  | some "else" =>
      finishTag
      some <$> closedBody body "endfor" "for" start
  | some _ =>
      finishTag
      return none
  | none =>
      missingEnd "for" "endfor" start
      return none

def each (body : BodyReader) (start : Span) : Read Node := do
  let target ← assignTarget "for"
  expectWord "in"
  let items ← disjunction
  let condition ← loopCondition?
  expectBlockEnd
  let (nodes, found) ← body ["else", "endfor"]
  let otherwise ← loopOtherwise? body found start
  return .each target items condition nodes otherwise (← spanFrom start)

def filterTurn (filters : List FilterCall) : Read (Turn (List FilterCall)) := do
  if ← takeSymbol .pipe then return .again (filters ++ [← filterCall]) else return .done filters

/-- Filters with bars between them, after a first one. -/
def furtherFilters (filters : List FilterCall) : Read (List FilterCall) := loop filterTurn filters

/-- An assignment, of a value or of what a body renders to. -/
def assign (body : BodyReader) (start : Span) : Read Node := do
  let target ← assignTarget "set"
  if ← takeSymbol .assign then
    let value ← expressionList
    expectBlockEnd
    return .assign target value (← spanFrom start)
  else
    let filters ← furtherFilters []
    expectBlockEnd
    let nodes ← closedBody body "endset" "set" start
    return .capture target filters nodes (← spanFrom start)

/-- One more of the words `scoped` and `required`, which have no effect. -/
def blockWordTurn (_ : Unit) : Read (Turn Unit) := do
  if ← takeWord "scoped" then return .again ()
  else if ← takeWord "required" then return .again ()
  else return .done ()

def block (body : BodyReader) (start : Span) : Read Node := do
  let name := (← expectName "block name").getD ""
  loop blockWordTurn ()
  expectBlockEnd
  let nodes ← closedBody body "endblock" "block" start
  return .block name nodes (← spanFrom start)

def inherit (start : Span) : Read Node := do
  let template ← expression
  expectBlockEnd
  return .inherit template (← spanFrom start)

/-- What the clauses of an `include` tag say. -/
structure Clauses where
  withContext : Bool
  ignoreMissing : Bool

/-- One more clause of an `include` tag; the last context clause counts. -/
def clauseTurn (clauses : Clauses) : Read (Turn Clauses) := do
  let next ← peekAhead 1
  if (← atWord "ignore") && next.isName "missing" then
    let _ ← advance
    let _ ← advance
    return .again { clauses with ignoreMissing := true }
  else match ← contextClause? with
    | some context => return .again { clauses with withContext := context }
    | none => return .done clauses

/-- Another template in place, with its clauses in any order. -/
def embed (start : Span) : Read Node := do
  let template ← expression
  let clauses ← loop clauseTurn ⟨false, false⟩
  expectBlockEnd
  return .embed template clauses.withContext clauses.ignoreMissing (← spanFrom start)

/-- The macros of another template under one name. -/
def importAs (start : Span) : Read Node := do
  let template ← expression
  expectWord "as"
  let boundAs := (← expectName "namespace name").getD ""
  let withContext := (← contextClause?).getD false
  expectBlockEnd
  return .importAs template boundAs withContext (← spanFrom start)

def importTurn (names : List ImportName) : Read (Turn (List ImportName)) := do
  if (← atKind .name) && !(← atContextClause) then
    let token ← advance
    let boundAs ← if ← takeWord "as" then expectName "alias" else pure none
    let names := names ++ [⟨token.lexeme, boundAs, ← spanFrom token.span⟩]
    if ← takeSymbol .comma then return .again names else return .done names
  else return .done names

def importNames (start : Span) : Read Node := do
  let template ← expression
  expectWord "import"
  let names ← loop importTurn []
  if names.isEmpty then expected "name to import"
  let withContext := (← contextClause?).getD false
  expectBlockEnd
  return .importNames template names withContext (← spanFrom start)

def define (body : BodyReader) (start : Span) : Read Node := do
  let name := (← expectName "macro name").getD ""
  let params ←
    if ← atSymbol .leftParen then params
    else
      expected (Kind.symbol .leftParen).describe
      pure []
  expectBlockEnd
  let nodes ← closedBody body "endmacro" "macro" start
  return .define name params nodes (← spanFrom start)

/-- Parameters in parentheses, if there are any. -/
def callerParams : Read (List Param) := do
  if ← atSymbol .leftParen then params else return []

def callBlock (body : BodyReader) (start : Span) : Read Node := do
  let params ← callerParams
  let call ← expression
  expectBlockEnd
  let nodes ← closedBody body "endcall" "call" start
  return .callBlock call params nodes (← spanFrom start)

def bindingTurn (bindings : List Binding) : Read (Turn (List Binding)) := do
  if ← atClose then return .done bindings
  let target ← toTarget "with" (← targetOperand)
  let _ ← expectSymbol .assign
  let value ← expression
  let bindings := bindings ++ [⟨target, value⟩]
  if ← takeSymbol .comma then return .again bindings else return .done bindings

def withBlock (body : BodyReader) (start : Span) : Read Node := do
  let bindings ← loop bindingTurn []
  expectBlockEnd
  let nodes ← closedBody body "endwith" "with" start
  return .withBlock bindings nodes (← spanFrom start)

def filterBlock (body : BodyReader) (start : Span) : Read Node := do
  let filters ← furtherFilters [← filterCall]
  expectBlockEnd
  let nodes ← closedBody body "endfilter" "filter" start
  return .filterBlock filters nodes (← spanFrom start)

/-- A verbatim body, which is a single token of text. -/
def verbatim (start : Span) : Read Node := do
  expectBlockEnd
  let content ←
    if ← atKind .text then
      let content ← trimmedText
      let _ ← advance
      pure content
    else pure ""
  let token ← peek
  let next ← peekAhead 1
  let opens := match token.kind with
    | .blockStart _ => true
    | _ => false
  if opens && next.isName "endraw" then finishTag else missingEnd "raw" "endraw" start
  return .verbatim content (← spanFrom start)

/-! ## Tags of the host -/

/-- One more of the expressions that a hook asks for. One that passes over nothing is the last
one. -/
def hookTurn (words : List String) (exprs : List Expr) : Read (Turn (List Expr)) := do
  let token ← peek
  if (← atClose) || words.any token.isName then return .done exprs
  let before := (← get).following.length
  let exprs := exprs ++ [← expression]
  let _ ← takeSymbol .comma
  if (← get).following.length = before then return .done exprs else return .again exprs

def expressionsUntil (words : List String) : Read (List Expr) := loop (hookTurn words) []

/-- Carries out a hook. `closed` tells whether the end of the tag has been passed over; the answer
tells it again. -/
def runHook (body : BodyReader) (name : String) (start : Span) :
    Hook → Bool → Read (Option Node × Bool)
  | .finish node, closed => return (node, closed)
  | .look next, closed => do runHook body name start (next (← peek)) closed
  | .takeWord word next, closed => do runHook body name start (next (← takeWord word)) closed
  | .expression next, closed => do runHook body name start (next (← expression)) closed
  | .expressionsUntil words next, closed => do
      runHook body name start (next (← expressionsUntil words)) closed
  | .closeTag next, closed => do
      if !closed then expectBlockEnd
      runHook body name start next true
  | .bodyUntil endings next, closed => do
      if !closed then expectBlockEnd
      let (nodes, found) ← body endings
      if found.isSome then finishTag else missingEnd name (endings.head?.getD "end") start
      runHook body name start (next nodes found) true
  | .report diagnostic next, closed => do
      Read.report diagnostic
      runHook body name start next closed
  | .spanFrom origin next, closed => do
      runHook body name start (next (← spanFrom origin)) closed

/-- A tag of the host. What its hook leaves of the tag is reported and skipped. -/
def custom (body : BodyReader) (extension : Extension) (name : String) (start : Span) :
    Read (Option Node) := do
  let (node, closed) ← runHook body name start (extension name start) false
  if !closed then expectBlockEnd
  return node

/-! ## Statements and bodies -/

/-- The extension that reads a tag, if it is the host's. -/
def extensionFor? (register : Register) (name : String) : Option Extension :=
  if builtinTags.contains name && !register.allowOverride then none else register.find? name

/-- A tag of the language, or a name that is none. -/
def builtin (body : BodyReader) (name : String) (start : Span) : Read (Option Node) :=
  match name with
  | "if" => some <$> choose body start
  | "for" => some <$> each body start
  | "set" => some <$> assign body start
  | "block" => some <$> block body start
  | "extends" => some <$> inherit start
  | "include" => some <$> embed start
  | "import" => some <$> importAs start
  | "from" => some <$> importNames start
  | "macro" => some <$> define body start
  | "call" => some <$> callBlock body start
  | "with" => some <$> withBlock body start
  | "filter" => some <$> filterBlock body start
  | "raw" => some <$> verbatim start
  | other => do
      let isEnd := "end".toList.isPrefixOf other.toList || other == "elif" || other == "else"
      mistake (if isEnd then .strayEnd other else .unknownTag other) (← spanFrom start)
      skipTag
      return none

/-- A statement's tag and what belongs to it. -/
def statement (register : Register) (body : BodyReader) : Read (Option Node) := do
  let start := (← advance).span
  if ← atKind .name then
    let name := (← advance).lexeme
    match extensionFor? register name with
    | some extension => custom body extension name start
    | none => builtin body name start
  else
    expected "tag name"
    expectBlockEnd
    return none

/-- What is known of a body: its statements so far and the closing tag it stopped at. -/
structure Body where
  nodes : Array Node
  found : Option String

/-- A body with one more statement, if there is one. -/
def Body.add (body : Body) (node : Option Node) : Body :=
  { body with nodes := body.nodes ++ node.toArray }

/-- Whether a body around the innermost one waits for the closing tag. -/
def closesEnclosing (name : String) : Read Bool :=
  return (← get).enclosing.tail.any (·.contains name)

/-- The next statement of a body, or the reason why there is none. -/
def nextNode (register : Register) (inner : BodyReader) (endings : List String) (body : Body) :
    Read (Turn Body) := do
  let token ← peek
  match token.kind with
  | .endOfInput => return .done body
  | .text => return .again (body.add (← text))
  | .comment trimBefore trimAfter => return .again (body.add (some (← comment trimBefore trimAfter)))
  | .variableStart _ => return .again (body.add (some (← output)))
  | .blockStart _ =>
      let next ← peekAhead 1
      if next.kind == .name then
        if endings.contains next.lexeme then return .done { body with found := some next.lexeme }
        if ← closesEnclosing next.lexeme then return .done body
      return .again (body.add (← statement register inner))
  | _ =>
      mistake (.unexpected token.describe) token.span
      let _ ← advance
      return .again body

/-- Acts inside a body that waits for the given closing tags. -/
def within {α : Type} (endings : List String) (action : Read α) : Read α := do
  let outer := (← get).enclosing
  modify fun tape => { tape with enclosing := endings :: outer }
  let result ← action
  modify fun tape => { tape with enclosing := outer }
  return result

/-- The reader of bodies whose nested bodies are read by `inner`. -/
def bodyAround (register : Register) (inner : BodyReader) : BodyReader := fun endings => do
  let body ← within endings (loop (nextNode register inner endings) ⟨#[], none⟩)
  return (body.nodes.toList, body.found)

/-- The reader of bodies nested less than `depth` times. -/
def nestedBody (register : Register) : Nat → BodyReader
  | 0 => fun _ => return ([], none)
  | depth + 1 => bodyAround register (nestedBody register depth)

/-- Reads a body whose nested bodies have any depth that the remaining tokens allow. -/
def body (register : Register) : BodyReader := fun endings => do
  nestedBody register ((← get).following.length + 1) endings

end Statement

end Stencil.Grammar
