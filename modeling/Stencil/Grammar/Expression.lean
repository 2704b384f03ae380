import Stencil.Decimal.Reading
import Stencil.Grammar.Tape
import Stencil.Syntax.Target
import Stencil.Text.Quoted

/-!
Contract: reading expressions from the tape.

Owns:
- the levels of the expression grammar, from a conditional down to a single operand;
- filters, tests, calls and their arguments, with and without parentheses;
- expressions in the place of a target.

From loosest to tightest: `a if b else c`, `or`, `and`, `not`, comparison, `in`, `~`, `+` and `-`,
`*` `/` `//` `%`, signs, `**`, and the chain of `.name`, `[item]`, `(call)`, `|filter`, `is test`.
Operators of two operands associate to the left, `**` to the right.

Each level is written in terms of the grammar one nesting deeper. A nested expression is read only
after a token has been passed over, so as many nestings as there are tokens suffice.

Reading always gives an expression: where an operand is missing that is reported and stands in the
tree. No token that ends a tag is passed over.

Does not own: statements (`Stencil.Grammar.Statement`).
-/

set_option autoImplicit false

namespace Stencil.Grammar

open Stencil.Decimal (integer? float?)
open Stencil.Syntax
open Stencil.Text (Span)
open Stencil.Token (Kind Symbol)
open Read

/-- The words that may follow an expression; they begin no argument without parentheses. -/
def reservedWords : List String :=
  ["and", "or", "not", "in", "is", "if", "else", "as", "import", "ignore", "with", "without",
    "recursive"]

/-- The nonterminals through which expressions nest. -/
structure Levels where
  /-- A whole expression. -/
  expression : Read Expr
  /-- An operand of `and` and `or`. -/
  negation : Read Expr
  /-- An operand of `*`. -/
  signed : Read Expr
  /-- An operand with its chain. -/
  chain : Read Expr

namespace Levels

/-! ## Operands -/

/-- The value of a number token; an integer that does not fit becomes a float. Underscores carry no
meaning. -/
def numberValue (token : Token) (isFloat : Bool) : Read Literal := do
  let digits := token.lexeme.toList.filter (· != '_')
  match if isFloat then none else integer? digits with
  | some value => return .int value
  | none =>
      match float? digits with
      | some value => return .float value
      | none =>
          mistake (.expected "number" token.describe) token.span
          return .none

/-- An integer, or a float written with a point and nothing after it. A point that a name or a
number follows belongs to the chain. -/
def integerOperand (token : Token) : Read Expr := do
  let _ ← advance
  let next ← peekAhead 1
  let continues := match next.kind with
    | .name => true
    | .integer => true
    | .float => true
    | _ => false
  if (← atSymbol .dot) && !continues then
    let dot ← advance
    let value ← numberValue token true
    return .literal value (token.span.cover dot.span)
  else
    return .literal (← numberValue token false) token.span

/-- What the lexeme of a string token stands for. -/
def stringValue (token : Token) : String :=
  String.ofList (Text.Quoted.decode token.lexeme.toList)

/-- One more literal of a string, if one is under the head. -/
def stringTurn (sum : String × Span) : Read (Turn (String × Span)) := do
  match ← take? .string with
  | some token => return .again (sum.1 ++ stringValue token, sum.2.cover token.span)
  | none => return .done sum

/-- String literals that follow one another are one string. -/
def stringOperand : Read Expr := do
  let first ← advance
  let (value, span) ← loop stringTurn (stringValue first, first.span)
  return .literal (.text value) span

/-- A name, or one of the words for truth values and for nothing. -/
def wordOperand (token : Token) : Expr :=
  match token.lexeme with
  | "true" => .literal (.bool true) token.span
  | "True" => .literal (.bool true) token.span
  | "false" => .literal (.bool false) token.span
  | "False" => .literal (.bool false) token.span
  | "none" => .literal .none token.span
  | "None" => .literal .none token.span
  | name => .name name token.span

/-- One more item of a tuple, which a comma precedes. An item that could not be read is the last
one. -/
def tupleTurn (inner : Levels) (items : List Expr) : Read (Turn (List Expr)) := do
  if ← takeSymbol .comma then
    if ← atSymbol .rightParen then return .done items
    else
      let item ← inner.expression
      return if item.isMissing then .done (items ++ [item]) else .again (items ++ [item])
  else return .done items

/-- An expression in parentheses, or a tuple. -/
def parenthesized (inner : Levels) : Read Expr := do
  let start := (← advance).span
  if ← takeSymbol .rightParen then return .tuple [] (← spanFrom start)
  let first ← inner.expression
  if ← atSymbol .comma then
    let items ← loop (tupleTurn inner) [first]
    let _ ← expectSymbol .rightParen
    return .tuple items (← spanFrom start)
  else
    let _ ← expectSymbol .rightParen
    return .group first (← spanFrom start)

/-- One more of several expressions with commas between them, up to a closing bracket. One that
could not be read is the last one. -/
def itemTurn (closing : Symbol) (item : Read Expr) (items : List Expr) :
    Read (Turn (List Expr)) := do
  if (← atSymbol closing) || (← atClose) then return .done items
  let item ← item
  let items := items ++ [item]
  if item.isMissing then return .done items
  else if ← takeSymbol .comma then return .again items
  else return .done items

def listOperand (inner : Levels) : Read Expr := do
  let start := (← advance).span
  let items ← loop (itemTurn .rightBracket inner.expression) []
  let _ ← expectSymbol .rightBracket
  return .list items (← spanFrom start)

/-- One more entry of a dictionary. One without a key, a colon or a value is the last one. -/
def entryTurn (inner : Levels) (entries : List (Expr × Expr)) :
    Read (Turn (List (Expr × Expr))) := do
  if (← atSymbol .rightBrace) || (← atClose) then return .done entries
  let key ← inner.expression
  if key.isMissing then return .done entries
  if !(← expectSymbol .colon) then return .done entries
  let value ← inner.expression
  let entries := entries ++ [(key, value)]
  if value.isMissing then return .done entries
  else if ← takeSymbol .comma then return .again entries
  else return .done entries

def dictOperand (inner : Levels) : Read Expr := do
  let start := (← advance).span
  let entries ← loop (entryTurn inner) []
  let _ ← expectSymbol .rightBrace
  return .dict entries (← spanFrom start)

def operand (inner : Levels) : Read Expr := do
  let token ← peek
  match token.kind with
  | .name =>
      let _ ← advance
      return wordOperand token
  | .integer => integerOperand token
  | .float =>
      let _ ← advance
      return .literal (← numberValue token true) token.span
  | .string => stringOperand
  | .symbol .leftParen => parenthesized inner
  | .symbol .leftBracket => listOperand inner
  | .symbol .leftBrace => dictOperand inner
  | _ =>
      expected "expression"
      return .missing (Span.point token.span.start)

/-! ## The chain after an operand -/

/-- The key that one segment of a run of numbers stands for. -/
def segmentKey (segment : List Char) : Literal :=
  match integer? segment with
  | some value => .int value
  | none => .text (String.ofList segment)

/-- The segments of a number token, which may hold several of them with points between. -/
def segments (text : List Char) : List (List Char) :=
  match text with
  | [] => [[]]
  | c :: rest =>
      if c = '.' then [] :: segments rest
      else match segments rest with
        | first :: others => (c :: first) :: others
        | [] => [[c]]

/-- An attribute, or an item when a number follows the point. -/
def attributeOf (value : Expr) : Read Expr := do
  let _ ← advance
  let token ← peek
  match token.kind with
  | .name =>
      let _ ← advance
      return .attribute value token.lexeme (value.span.cover token.span)
  | .integer | .float =>
      let _ ← advance
      return (segments token.lexeme.toList).foldl (fun value segment =>
        .item value (.literal (segmentKey segment) token.span) (value.span.cover token.span)) value
  | _ =>
      expected "attribute name"
      return value

def subscriptOf (inner : Levels) (value : Expr) : Read Expr := do
  let _ ← advance
  let index ← inner.expression
  let _ ← expectSymbol .rightBracket
  return .item value index (value.span.cover (← previousSpan))

/-- An argument with a name, when a name and `=` are under the head. -/
def namedArgument? (value : Read Expr) : Read (Option Expr) := do
  let next ← peekAhead 1
  if (← atKind .name) && next.isSymbol .assign then
    let name ← advance
    let _ ← advance
    let value ← value
    return some (.keyword name.lexeme value (name.span.cover value.span))
  else return none

def argument (value : Read Expr) : Read Expr := do
  match ← namedArgument? value with
  | some arg => return arg
  | none => value

def arguments (inner : Levels) : Read (List Expr) := do
  let _ ← advance
  let args ← loop (itemTurn .rightParen (argument inner.expression)) []
  let _ ← expectSymbol .rightParen
  return args

def callOf (inner : Levels) (callee : Expr) : Read Expr := do
  let args ← arguments inner
  return .call callee args (callee.span.cover (← previousSpan))

def plainTurn (inner : Levels) (withCalls : Bool) (value : Expr) : Read (Turn Expr) := do
  match (← peek).kind with
  | .symbol .dot => .again <$> attributeOf value
  | .symbol .leftBracket => .again <$> subscriptOf inner value
  | .symbol .leftParen =>
      if withCalls then .again <$> callOf inner value else return .done value
  | _ => return .done value

/-- The links that a value keeps where operators and filters apply to something larger. -/
def plainChain (inner : Levels) (withCalls : Bool) : Read Expr := do
  let first ← operand inner
  loop (plainTurn inner withCalls) first

def targetOperand (inner : Levels) : Read Expr := plainChain inner false

def bareValue (inner : Levels) : Read Expr := plainChain inner true

/-- Whether an argument without parentheses may begin with the token. -/
def beginsBareArgument (token : Token) : Bool :=
  match token.kind with
  | .integer => true
  | .float => true
  | .string => true
  | .name => !reservedWords.contains token.lexeme
  | _ => false

/-- One more argument without parentheses. A comma before an argument with a name ends them, because
that argument belongs to something around the filter. -/
def bareTurn (inner : Levels) (args : List Expr) : Read (Turn (List Expr)) := do
  let arg ← argument (bareValue inner)
  let args := args ++ [arg]
  let next ← peekAhead 1
  let afterNext ← peekAhead 2
  if (← atSymbol .comma) && beginsBareArgument next && !afterNext.isSymbol .assign then
    let _ ← advance
    return .again args
  else return .done args

/-- Arguments without parentheses, if there are any. -/
def bareArguments (inner : Levels) : Read (List Expr) := do
  if !beginsBareArgument (← peek) then return []
  loop (bareTurn inner) []

def dottedTurn (name : String) : Read (Turn String) := do
  let next ← peekAhead 1
  if (← atSymbol .dot) && next.kind == .name then
    let _ ← advance
    let part ← advance
    return .again (name ++ "." ++ part.lexeme)
  else return .done name

/-- A name that may have parts with points between them. -/
def dottedName (what : String) : Read String := do
  match ← expectName what with
  | none => return ""
  | some first => loop dottedTurn first

def filterCall (inner : Levels) : Read FilterCall := do
  let start := (← peek).span
  let name ← dottedName "filter name"
  let args ← if ← atSymbol .leftParen then arguments inner else bareArguments inner
  return ⟨name, args, ← spanFrom start⟩

def testOf (inner : Levels) (value : Expr) : Read Expr := do
  let _ ← advance
  let negated ← takeWord "not"
  let name ← dottedName "test name"
  let token ← peek
  let args ←
    if token.isSymbol .leftParen then arguments inner
    else if token.isSymbol .leftBracket || beginsBareArgument token then
      pure [← inner.chain]
    else pure []
  return .test value negated name args (value.span.cover (← previousSpan))

def chainTurn (inner : Levels) (value : Expr) : Read (Turn Expr) := do
  match (← peek).kind with
  | .symbol .dot => .again <$> attributeOf value
  | .symbol .leftBracket => .again <$> subscriptOf inner value
  | .symbol .leftParen => .again <$> callOf inner value
  | .symbol .pipe =>
      let _ ← advance
      let call ← filterCall inner
      return .again (call.on value)
  | .name => if ← atWord "is" then .again <$> testOf inner value else return .done value
  | _ => return .done value

def chainLevel (inner : Levels) : Read Expr := do
  let first ← operand inner
  loop (chainTurn inner) first

/-! ## Operators -/

/-- The expression of an operator and its operands. -/
def binary (op : BinaryOp) (left right : Expr) : Expr :=
  .binary op left right (left.span.cover right.span)

/-- One more operator of a level with its right operand. -/
def leftTurn (operator? : Token → Option BinaryOp) (tighter : Read Expr) (left : Expr) :
    Read (Turn Expr) := do
  match operator? (← peek) with
  | some op =>
      let _ ← advance
      let right ← tighter
      return .again (binary op left right)
  | none => return .done left

/-- Operators of one level, which associate to the left. -/
def leftAssociative (operator? : Token → Option BinaryOp) (tighter : Read Expr) : Read Expr := do
  let first ← tighter
  loop (leftTurn operator? tighter) first

/-- A power; its exponent may have a sign and may be a power itself. -/
def powerLevel (inner : Levels) : Read Expr := do
  let base ← chainLevel inner
  if ← takeSymbol .starStar then return binary .power base (← inner.signed) else return base

def signedLevel (inner : Levels) : Read Expr := do
  let token ← peek
  let op? : Option UnaryOp := match token.kind with
    | .symbol .minus => some .negative
    | .symbol .plus => some .positive
    | _ => none
  match op? with
  | some op =>
      let _ ← advance
      let operand ← inner.signed
      return .unary op operand (token.span.cover operand.span)
  | none => powerLevel inner

def productOperator? (token : Token) : Option BinaryOp :=
  match token.kind with
  | .symbol .star => some .multiply
  | .symbol .slash => some .divide
  | .symbol .slashSlash => some .floorDivide
  | .symbol .percent => some .modulo
  | _ => none

def productLevel (inner : Levels) : Read Expr :=
  leftAssociative productOperator? (signedLevel inner)

def sumOperator? (token : Token) : Option BinaryOp :=
  match token.kind with
  | .symbol .plus => some .add
  | .symbol .minus => some .subtract
  | _ => none

def sumLevel (inner : Levels) : Read Expr := leftAssociative sumOperator? (productLevel inner)

def concatOperator? (token : Token) : Option BinaryOp :=
  if token.isSymbol .tilde then some .concat else none

def concatLevel (inner : Levels) : Read Expr := leftAssociative concatOperator? (sumLevel inner)

/-- Whether a membership test begins with the tokens, and if so whether it is negated. -/
def membershipOperator? (token next : Token) : Option Bool :=
  if token.isName "in" then some false
  else if token.isName "not" && next.isName "in" then some true
  else none

/-- One more membership test with its container. -/
def membershipTurn (inner : Levels) (element : Expr) : Read (Turn Expr) := do
  let token ← peek
  let next ← peekAhead 1
  match membershipOperator? token next with
  | none => return .done element
  | some negated =>
      let _ ← advance
      if negated then
        let _ ← advance
      let container ← concatLevel inner
      return .again (.membership negated element container (element.span.cover container.span))

def membershipLevel (inner : Levels) : Read Expr := do
  let first ← concatLevel inner
  loop (membershipTurn inner) first

def comparisonOperator? (token : Token) : Option BinaryOp :=
  match token.kind with
  | .symbol .equal => some .equal
  | .symbol .notEqual => some .notEqual
  | .symbol .less => some .less
  | .symbol .lessEqual => some .lessEqual
  | .symbol .greater => some .greater
  | .symbol .greaterEqual => some .greaterEqual
  | _ => none

def comparisonLevel (inner : Levels) : Read Expr :=
  leftAssociative comparisonOperator? (membershipLevel inner)

def negationLevel (inner : Levels) : Read Expr := do
  let token ← peek
  if token.isName "not" then
    let _ ← advance
    let operand ← inner.negation
    return .unary .not operand (token.span.cover operand.span)
  else comparisonLevel inner

/-- The operator of a level that has one word for its only operator. -/
def wordOperator? (word : String) (op : BinaryOp) (token : Token) : Option BinaryOp :=
  if token.isName word then some op else none

def conjunctionLevel (inner : Levels) : Read Expr :=
  leftAssociative (wordOperator? "and" .and) (negationLevel inner)

def disjunctionLevel (inner : Levels) : Read Expr :=
  leftAssociative (wordOperator? "or" .or) (conjunctionLevel inner)

def conditionalLevel (inner : Levels) : Read Expr := do
  let value ← disjunctionLevel inner
  if ← takeWord "if" then
    let test ← disjunctionLevel inner
    let otherwise ← if ← takeWord "else" then some <$> inner.expression else pure none
    return .conditional test value otherwise (value.span.cover (← previousSpan))
  else return value

/-! ## Closing the recursion -/

/-- Where no nesting is left, every operand is missing. -/
def exhausted : Levels :=
  let missing : Read Expr := do return .missing (Span.point (← peek).span.start)
  ⟨missing, missing, missing, missing⟩

/-- The grammar for expressions nested less than `depth` times. -/
def nested : Nat → Levels
  | 0 => exhausted
  | depth + 1 =>
      { expression := fun tape => conditionalLevel (nested depth) tape
        negation := fun tape => negationLevel (nested depth) tape
        signed := fun tape => signedLevel (nested depth) tape
        chain := fun tape => chainLevel (nested depth) tape }

/-- Reads a part of the grammar whose nested parts are expressions of any depth that the remaining
tokens allow. -/
def withNesting {α : Type} (part : Levels → Read α) : Read α := do
  part (nested ((← get).following.length + 1))

end Levels

def expression : Read Expr := Levels.withNesting Levels.conditionalLevel

/-- An expression that no `if` follows as part of it. -/
def disjunction : Read Expr := Levels.withNesting Levels.disjunctionLevel

def targetOperand : Read Expr := Levels.withNesting Levels.targetOperand

def filterCall : Read FilterCall := Levels.withNesting Levels.filterCall

/-- One more item of a tuple without parentheses, which a comma precedes. -/
def listedTurn (items : List Expr) : Read (Turn (List Expr)) := do
  if ← takeSymbol .comma then
    if ← atClose then return .done items else return .again (items ++ [← expression])
  else return .done items

/-- An expression, or a tuple without parentheses when commas follow. -/
def expressionList : Read Expr := do
  let first ← expression
  if ← atSymbol .comma then
    let items ← loop listedTurn [first]
    return .tuple items (first.span.cover (← previousSpan))
  else return first

/-- An expression as a target of a tag. One that cannot be assigned to is reported and binds
nothing. -/
def toTarget (tag : String) (expr : Expr) : Read Target := do
  match Target.ofExpr expr with
  | .ok target => return target
  | .error bad =>
      mistake (.notAssignable tag) bad
      return .tuple [] expr.span

/-- One more of several targets, which a comma precedes. -/
def targetTurn (items : List Expr) : Read (Turn (List Expr)) := do
  if ← takeSymbol .comma then
    if (← atSymbol .assign) || (← atWord "in") || (← atTagEnd) then return .done items
    else return .again (items ++ [← targetOperand])
  else return .done items

/-- One target, or several with commas between them. -/
def assignTarget (tag : String) : Read Target := do
  let first ← targetOperand
  if ← atSymbol .comma then
    let items ← loop targetTurn [first]
    toTarget tag (.tuple items (first.span.cover (← previousSpan)))
  else toTarget tag first

end Stencil.Grammar
