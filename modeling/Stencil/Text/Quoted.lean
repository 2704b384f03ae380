/-!
Contract: string literals as they are written in a tag.

Owns:
- what the text between two quotes stands for;
- one way to write any text between quotes.

Does not own: where a literal ends in a tag (`Stencil.Token.Recognize`).
-/

set_option autoImplicit false

namespace Stencil.Text.Quoted

/-- What the character after a backslash stands for, if the pair is an escape. -/
def escaped? : Char → Option Char
  | 'n' => some '\n'
  | 't' => some '\t'
  | 'r' => some '\r'
  | '0' => some '\x00'
  | '\\' => some '\\'
  | '\'' => some '\''
  | '"' => some '"'
  | _ => none

/-- The text that a literal's body stands for. A backslash that begins no escape stands for itself. -/
def unescape : List Char → List Char
  | [] => []
  | ['\\'] => ['\\']
  | '\\' :: c :: rest =>
      match escaped? c with
      | some meant => meant :: unescape rest
      | none => '\\' :: c :: unescape rest
  | c :: rest => c :: unescape rest

/-- The characters without a last `quote`, if the last one is a quote. -/
def withoutClosing (quote : Char) (body : List Char) : List Char :=
  if body.getLast? = some quote then body.dropLast else body

/-- The text that a whole literal stands for. Its first character is its quote; a missing closing
quote is tolerated. -/
def decode : List Char → List Char
  | [] => []
  | quote :: body => unescape (withoutClosing quote body)

/-- A text as a literal's body: a backslash is doubled and a quote follows a backslash. -/
def escape (quote : Char) : List Char → List Char
  | [] => []
  | c :: rest =>
      if c = '\\' ∨ c = quote then '\\' :: c :: escape quote rest else c :: escape quote rest

def encode (quote : Char) (text : List Char) : List Char := quote :: (escape quote text ++ [quote])

end Stencil.Text.Quoted
