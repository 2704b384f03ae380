import Stencil.Report.Code
import Stencil.Text.Affix
import Stencil.Text.Blank
import Stencil.Text.Search
import Stencil.Token.Kind

/-!
Contract: how far the piece at the head of the remaining text reaches.

Owns:
- the delimiters of tags and comments, and the tag that ends a verbatim body;
- the pieces that stand inside a tag: blanks, names, numbers, string literals, symbols.

Does not own: positions and the order in which pieces are cut (`Stencil.Token.Scan`).
-/

set_option autoImplicit false

namespace Stencil.Token

open Stencil.Text (isBlank distanceTo after? withoutPrefix)
open Stencil.Report (Code)

/-- The two kinds of tag: one prints a value, the other holds a statement. -/
inductive Delimiter where
  | output
  | block
deriving DecidableEq, Repr

namespace Delimiter

def opener : Delimiter → List Char
  | .output => ['{', '{']
  | .block => ['{', '%']

def closer : Delimiter → List Char
  | .output => ['}', '}']
  | .block => ['%', '}']

def startKind : Delimiter → Bool → Kind
  | .output, trim => .variableStart trim
  | .block, trim => .blockStart trim

def endKind : Delimiter → Bool → Kind
  | .output, trim => .variableEnd trim
  | .block, trim => .blockEnd trim

/-- The problem of a tag that is never closed. -/
def unclosed : Delimiter → Code × String
  | .output => (.unterminatedExpression, "unclosed expression; expected '\x7d\x7d'")
  | .block => (.unterminatedBlock, "unclosed tag; expected '%\x7d'")

end Delimiter

def commentOpener : List Char := ['{', '#']

def commentCloser : List Char := ['#', '}']

def opensConstruct (text : List Char) : Bool :=
  Delimiter.output.opener.isPrefixOf text || Delimiter.block.opener.isPrefixOf text ||
    commentOpener.isPrefixOf text

/-- Whether the tag that ends a verbatim body stands here. -/
def endsVerbatim (text : List Char) : Bool :=
  match after? Delimiter.block.opener text with
  | none => false
  | some rest =>
      match after? "endraw".toList ((withoutPrefix ['-'] rest).dropWhile isBlank) with
      | none => false
      | some rest => Delimiter.block.closer.isPrefixOf (withoutPrefix ['-'] (rest.dropWhile isBlank))

/-- A piece at the head of the text: its kind, how many characters it takes, and what is wrong
with it. -/
structure Piece where
  kind : Kind
  length : Nat
  problem : Option (Code × String)
deriving DecidableEq, Repr

/-- Whether a name may begin with the character. -/
def beginsName (c : Char) : Bool := c.isAlpha || c == '_'

/-- Whether a name may go on with the character. -/
def continuesName (c : Char) : Bool := c.isAlphanum || c == '_'

/-- Whether a number may go on with the character; underscores separate groups of digits. -/
def continuesNumber (c : Char) : Bool := c.isDigit || c == '_'

/-- The length of a fraction: a point counts only when a digit follows it. -/
def fractionLength : List Char → Nat
  | '.' :: d :: rest =>
      if d.isDigit then 2 + (rest.takeWhile continuesNumber).length else 0
  | _ => 0

/-- The length of an exponent: a letter counts only when digits, perhaps signed, follow it. -/
def exponentLength : List Char → Nat
  | e :: s :: rest =>
      if e = 'e' ∨ e = 'E' then
        if s.isDigit then 2 + (rest.takeWhile Char.isDigit).length
        else if s = '+' ∨ s = '-' then
          match rest with
          | d :: rest => if d.isDigit then 3 + (rest.takeWhile Char.isDigit).length else 0
          | [] => 0
        else 0
      else 0
  | _ => 0

/-- The number at the head of the text; a fraction or an exponent makes it a float. -/
def numberPiece (text : List Char) : Piece :=
  let whole := (text.takeWhile continuesNumber).length
  let fraction := fractionLength (text.drop whole)
  let exponent := exponentLength (text.drop (whole + fraction))
  let kind := if fraction = 0 ∧ exponent = 0 then .integer else .float
  ⟨kind, whole + fraction + exponent, none⟩

/-- The length of a literal's body with its closing quote, if there is one. A character after a
backslash never closes the literal. -/
def closedBodyLength? (quote : Char) : List Char → Option Nat
  | [] => none
  | ['\\'] => none
  | '\\' :: _ :: rest => (closedBodyLength? quote rest).map (· + 2)
  | c :: rest => if c = quote then some 1 else (closedBodyLength? quote rest).map (· + 1)

/-- The string literal whose opening quote has been seen. One that is never closed ends before the
closing delimiter of its tag. -/
def stringPiece (delimiter : Delimiter) (quote : Char) (body : List Char) : Piece :=
  match closedBodyLength? quote body with
  | some length => ⟨.string, 1 + length, none⟩
  | none =>
      ⟨.string, 1 + distanceTo delimiter.closer.isPrefixOf body,
        some (.unterminatedString, "unclosed string literal; expected " ++ quote.toString)⟩

/-- The symbol of two characters, if they are one. -/
def pairSymbol? : Char → Char → Option Symbol
  | '*', '*' => some .starStar
  | '/', '/' => some .slashSlash
  | '=', '=' => some .equal
  | '!', '=' => some .notEqual
  | '<', '=' => some .lessEqual
  | '>', '=' => some .greaterEqual
  | _, _ => none

/-- The symbol of one character, if it is one. -/
def singleSymbol? : Char → Option Symbol
  | '+' => some .plus
  | '-' => some .minus
  | '*' => some .star
  | '/' => some .slash
  | '%' => some .percent
  | '~' => some .tilde
  | '<' => some .less
  | '>' => some .greater
  | '=' => some .assign
  | '.' => some .dot
  | ',' => some .comma
  | ':' => some .colon
  | '|' => some .pipe
  | '(' => some .leftParen
  | ')' => some .rightParen
  | '[' => some .leftBracket
  | ']' => some .rightBracket
  | '{' => some .leftBrace
  | '}' => some .rightBrace
  | _ => none

/-- The symbol that begins with the character; the longer one wins. -/
def symbolPiece (c : Char) (rest : List Char) : Piece :=
  match rest.head?.bind (pairSymbol? c) with
  | some symbol => ⟨.symbol symbol, 2, none⟩
  | none =>
      match singleSymbol? c with
      | some symbol => ⟨.symbol symbol, 1, none⟩
      | none =>
          ⟨.invalid, 1,
            some (.unexpectedCharacter, "unexpected character '" ++ c.toString ++ "'")⟩

/-- The piece that begins with `c` inside a tag. -/
def pieceAt (delimiter : Delimiter) (c : Char) (rest : List Char) : Piece :=
  if isBlank c then ⟨.blank, 1 + (rest.takeWhile isBlank).length, none⟩
  else if beginsName c then ⟨.name, 1 + (rest.takeWhile continuesName).length, none⟩
  else if c.isDigit then numberPiece (c :: rest)
  else if c = '\'' ∨ c = '"' then stringPiece delimiter c rest
  else symbolPiece c rest

/-- The bracket that a closing bracket belongs to. -/
def opening? : Symbol → Option Symbol
  | .rightParen => some .leftParen
  | .rightBracket => some .leftBracket
  | .rightBrace => some .leftBrace
  | _ => none

/-- The open brackets, innermost first, after one more piece. A closing bracket that does not
belong to the innermost open one changes nothing. -/
def bracketsAfter (brackets : List Symbol) : Kind → List Symbol
  | .symbol symbol =>
      match symbol with
      | .leftParen => symbol :: brackets
      | .leftBracket => symbol :: brackets
      | .leftBrace => symbol :: brackets
      | _ =>
          match opening? symbol, brackets with
          | some expected, innermost :: outer => if innermost = expected then outer else brackets
          | _, _ => brackets
  | _ => brackets

/-- Every piece takes at least the character it begins with. -/
theorem pieceAt_length_pos (delimiter : Delimiter) (c : Char) (rest : List Char) :
    0 < (pieceAt delimiter c rest).length := by
  unfold pieceAt
  split
  · simp only
    omega
  · split
    · simp only
      omega
    · split
      · rename_i digit
        have continues : continuesNumber c = true := by simp [continuesNumber, digit]
        simp only [numberPiece, List.takeWhile_cons, continues, if_true, List.length_cons]
        omega
      · split
        · unfold stringPiece
          split <;> simp only <;> omega
        · unfold symbolPiece
          split
          · simp
          · split <;> simp

end Stencil.Token
