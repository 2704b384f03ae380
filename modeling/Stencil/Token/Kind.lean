import Stencil.Text.Span

/-!
Contract: tokens, the pieces that template text is cut into.

Owns:
- the kinds of token and the words that messages use for them;
- which tokens close a tag, take blanks off their neighbours, or are skipped.

Does not own: how text is cut (`Stencil.Token.Scan`).
-/

set_option autoImplicit false

namespace Stencil.Token

open Stencil.Text (Span)

/-- The operators and brackets that may stand in a tag. -/
inductive Symbol where
  | plus
  | minus
  | star
  | starStar
  | slash
  | slashSlash
  | percent
  | tilde
  | equal
  | notEqual
  | less
  | lessEqual
  | greater
  | greaterEqual
  | assign
  | dot
  | comma
  | colon
  | pipe
  | leftParen
  | rightParen
  | leftBracket
  | rightBracket
  | leftBrace
  | rightBrace
deriving DecidableEq, Repr

def Symbol.text : Symbol → String
  | .plus => "+"
  | .minus => "-"
  | .star => "*"
  | .starStar => "**"
  | .slash => "/"
  | .slashSlash => "//"
  | .percent => "%"
  | .tilde => "~"
  | .equal => "=="
  | .notEqual => "!="
  | .less => "<"
  | .lessEqual => "<="
  | .greater => ">"
  | .greaterEqual => ">="
  | .assign => "="
  | .dot => "."
  | .comma => ","
  | .colon => ":"
  | .pipe => "|"
  | .leftParen => "("
  | .rightParen => ")"
  | .leftBracket => "["
  | .rightBracket => "]"
  | .leftBrace => "\x7b"
  | .rightBrace => "\x7d"

/-- What a token is. A tag delimiter knows whether it takes blanks off the text next to it. -/
inductive Kind where
  | text
  | comment (trimBefore trimAfter : Bool)
  | variableStart (trim : Bool)
  | variableEnd (trim : Bool)
  | blockStart (trim : Bool)
  | blockEnd (trim : Bool)
  | name
  | integer
  | float
  | string
  | symbol (symbol : Symbol)
  | blank
  | invalid
  | endOfInput
deriving DecidableEq, Repr

namespace Kind

def isTrivia : Kind → Bool
  | .blank => true
  | .invalid => true
  | _ => false

def isTagEnd : Kind → Bool
  | .variableEnd _ => true
  | .blockEnd _ => true
  | _ => false

/-- Whether text that follows loses its leading blanks. -/
def trimsAfter : Kind → Bool
  | .variableEnd trim => trim
  | .blockEnd trim => trim
  | .comment _ trimAfter => trimAfter
  | _ => false

/-- Whether text that precedes loses its trailing blanks. -/
def trimsBefore : Kind → Bool
  | .variableStart trim => trim
  | .blockStart trim => trim
  | .comment trimBefore _ => trimBefore
  | _ => false

def describe : Kind → String
  | .text => "text"
  | .comment _ _ => "comment"
  | .variableStart _ => "'\x7b\x7b'"
  | .variableEnd _ => "'\x7d\x7d'"
  | .blockStart _ => "'\x7b%'"
  | .blockEnd _ => "'%\x7d'"
  | .name => "name"
  | .integer => "integer"
  | .float => "float"
  | .string => "string"
  | .symbol which => "'" ++ which.text ++ "'"
  | .blank => "whitespace"
  | .invalid => "invalid character"
  | .endOfInput => "end of input"

end Kind

end Stencil.Token

namespace Stencil

open Stencil.Text (Span)

/-- A piece of template text. A closing delimiter that was missing has an empty lexeme. -/
structure Token where
  kind : Token.Kind
  lexeme : String
  span : Span
deriving DecidableEq, Repr

namespace Token

instance : Inhabited Token := ⟨⟨.endOfInput, "", default⟩⟩

def isSymbol (token : Token) (symbol : Symbol) : Bool := token.kind == .symbol symbol

/-- Whether the token is the given word; words of the language are plain names. -/
def isName (token : Token) (word : String) : Bool := token.kind == .name && token.lexeme == word

/-- The words that messages use for a token: names and numbers are quoted. -/
def describe (token : Token) : String :=
  match token.kind with
  | .name => "'" ++ token.lexeme ++ "'"
  | .integer => "'" ++ token.lexeme ++ "'"
  | .float => "'" ++ token.lexeme ++ "'"
  | kind => kind.describe

end Token

end Stencil
