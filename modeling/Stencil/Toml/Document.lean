import Stencil.Toml.Assembly
import Stencil.Toml.Scalar

/-!
Contract: reading TOML documents.

Owns:
- keys, quoted texts, lists and tables in one place;
- lines with entries and headers, and what may stand between them.

Loops and nested data are bounded by a number that the length of the document gives; every round
passes over a character at least.

Does not own: what the lines add up to (`Stencil.Toml.Assembly`).
-/

set_option autoImplicit false

namespace Stencil.Toml

/-- Reading from characters; there is no answer where they are malformed. -/
abbrev Read := StateT (List Char) Option

def malformed {α : Type} : Read α := fun _ => none

def peek : Read (Option Char) := do return (← get).head?

def passes (expected : String) : Read Bool := do
  let rest ← get
  if expected.toList.isPrefixOf rest then
    set (rest.drop expected.length)
    return true
  else return false

/-- Passes over a text that has to come next. -/
def expect (expected : String) : Read Unit := do
  if ← passes expected then return () else malformed

/-- The characters up to the first one that fails a test. -/
def takeWhile (test : Char → Bool) : Read (List Char) := do
  let rest ← get
  set (rest.dropWhile test)
  return rest.takeWhile test

def skipBlanks : Read Unit := do
  let _ ← takeWhile fun c => c == ' ' || c == '\t'

/-- Whether a character may stand in texts and comments. -/
def isPlain (c : Char) : Bool := c == '\t' || (32 ≤ c.toNat && c.toNat ≠ 127)

/-- Passes over the end of a line, if it comes next. -/
def passesLineEnd : Read Bool := do
  if ← passes "\n" then return true else passes "\x0d\n"

/-- Passes over a comment, if one comes next. -/
def skipComment : Read Unit := do
  if ← passes "#" then
    let _ ← takeWhile isPlain
    match ← peek with
    | none => return ()
    | some '\n' => return ()
    | some '\r' => return ()
    | some _ => malformed

/-- Passes over blanks, comments and ends of lines. -/
def skipLines : Nat → Read Unit
  | 0 => malformed
  | rounds + 1 => do
      skipBlanks
      skipComment
      if ← passesLineEnd then skipLines rounds else return ()

/-! ## Texts -/

/-- The character with a number in base sixteen. -/
def charOfDigits? (digits : List Char) : Option Char :=
  if digits.all (isDigitIn 16) then
    let code := valueIn 16 digits
    if code.isValidChar then some (Char.ofNat code) else none
  else none

/-- The character with a number of so many digits. -/
def numbered (count : Nat) : Read Char := do
  let rest ← get
  let digits := rest.take count
  if digits.length < count then malformed
  else
    set (rest.drop count)
    match charOfDigits? digits with
    | some c => return c
    | none => malformed

def next : Read Char := do
  match ← get with
  | [] => malformed
  | c :: rest =>
      set rest
      return c

/-- The character that stands behind a backslash. -/
def escaped : Read Char := do
  match ← next with
  | 'b' => return '\x08'
  | 't' => return '\t'
  | 'n' => return '\n'
  | 'f' => return '\x0c'
  | 'r' => return '\x0d'
  | 'e' => return '\x1b'
  | '"' => return '"'
  | '\\' => return '\\'
  | 'x' => numbered 2
  | 'u' => numbered 4
  | 'U' => numbered 8
  | _ => malformed

/-- The rest of a text between double quotes, after some of it in reverse. -/
def basicRest (read : List Char) : Nat → Read String
  | 0 => malformed
  | rounds + 1 => do
      match ← next with
      | '"' => return String.ofList read.reverse
      | '\\' => basicRest ((← escaped) :: read) rounds
      | c => if isPlain c then basicRest (c :: read) rounds else malformed

/-- The rest of a text between single quotes. -/
def literalRest : Read String := do
  let text ← takeWhile fun c => isPlain c && c ≠ '\''
  expect "'"
  return String.ofList text

/-- Whether the rest of a line is blank, so that a backslash before it joins lines. -/
def joinsLines (rest : List Char) : Bool :=
  match rest.dropWhile fun c => c == ' ' || c == '\t' with
  | '\n' :: _ => true
  | '\r' :: '\n' :: _ => true
  | _ => false

/-- Whether a character is blank or ends a line. -/
def isSpace (c : Char) : Bool := c == ' ' || c == '\t' || c == '\n' || c == '\r'

/-- The rest of a text of several lines, after some of it in reverse. Three quotes end it; up to two
more before them belong to it. -/
def linesRest (quote : Char) (read : List Char) : Nat → Read String
  | 0 => malformed
  | rounds + 1 => do
      let rest ← get
      let quotes := (rest.takeWhile (· == quote)).length
      if 3 ≤ quotes then
        let kept := min (quotes - 3) 2
        set (rest.drop (kept + 3))
        return String.ofList (read.reverse ++ List.replicate kept quote)
      else if ← passesLineEnd then linesRest quote ('\n' :: read) rounds
      else
        let c ← next
        if c = '\\' ∧ quote = '"' then
          if joinsLines (← get) then
            let _ ← takeWhile isSpace
            linesRest quote read rounds
          else linesRest quote ((← escaped) :: read) rounds
        else if isPlain c then linesRest quote (c :: read) rounds
        else malformed

def quotedLine (rounds : Nat) : Read String := do
  if ← passes "\"" then basicRest [] rounds
  else
    expect "'"
    literalRest

def quotedText (rounds : Nat) : Read String := do
  if ← passes "\"\"\"" then
    let _ ← passesLineEnd
    linesRest '"' [] rounds
  else if ← passes "'''" then
    let _ ← passesLineEnd
    linesRest '\'' [] rounds
  else quotedLine rounds

/-! ## Keys -/

/-- Whether a character may stand in a key without quotes. -/
def isKeyChar (c : Char) : Bool := c.isAlphanum || c == '_' || c == '-'

def quoteFollows : Read Bool := do
  match ← peek with
  | some '"' => return true
  | some '\'' => return true
  | _ => return false

def simpleKey (rounds : Nat) : Read String := do
  if ← quoteFollows then quotedLine rounds
  else
    let key ← takeWhile isKeyChar
    if key.isEmpty then malformed else return String.ofList key

/-- The keys behind the first one, each after a dot. -/
def keysRest : Nat → Read (List String)
  | 0 => malformed
  | rounds + 1 => do
      skipBlanks
      if ← passes "." then
        skipBlanks
        let key ← simpleKey rounds
        return key :: (← keysRest rounds)
      else return []

/-- A key that may have dots, and the blanks behind it. -/
def keys (rounds : Nat) : Read (List String) := do
  let first ← simpleKey rounds
  return first :: (← keysRest rounds)

/-! ## Data -/

/-- Whether a character may stand in a word without quotes. -/
def isWordChar (c : Char) : Bool :=
  c.isAlphanum || c == '_' || c == '+' || c == '-' || c == '.' || c == ':'

/-- A word without quotes. A time may stand behind its date with a space between them. -/
def word : Read (List Char) := do
  let first ← takeWhile isWordChar
  match afterDate? first, ← get with
  | some [], ' ' :: c :: rest =>
      if c.isDigit then
        set (c :: rest)
        return first ++ 'T' :: (← takeWhile isWordChar)
      else return first
  | _, _ => return first

def plainDatum (rounds : Nat) : Read Datum := do
  if ← quoteFollows then return .text (← quotedText rounds)
  else
    match scalar? (← word) with
    | some value => return value
    | none => malformed

/-- How deep brackets may stand inside one another. -/
def nestingLimit : Nat := 80

/-- How deep brackets may stand inside the next one. -/
def inside : Nat → Read Nat
  | 0 => malformed
  | room + 1 => return room

mutual

/-- A datum, with so much room for brackets inside one another. -/
def datum : Nat → Nat → Read Datum
  | 0, _ => malformed
  | rounds + 1, room => do
      if ← passes "[" then return .list (← items rounds (← inside room))
      else if ← passes "\x7b" then
        return .table (finishEntries (← members [] rounds (← inside room)))
      else plainDatum rounds

def items : Nat → Nat → Read (List Datum)
  | 0, _ => malformed
  | rounds + 1, room => do
      skipLines (rounds + 1)
      if ← passes "]" then return []
      else
        let first ← datum rounds room
        skipLines (rounds + 1)
        if ← passes "," then return first :: (← items rounds room)
        else
          expect "]"
          return [first]

/-- The rest of a table in one place, after some of its entries. -/
def members (entries : Entries) : Nat → Nat → Read Entries
  | 0, _ => malformed
  | rounds + 1, room => do
      skipLines (rounds + 1)
      if ← passes "\x7d" then return entries
      else
        let path ← keys rounds
        expect "="
        skipBlanks
        let value ← datum rounds room
        match addEntry entries path value with
        | none => malformed
        | some entries =>
            skipLines (rounds + 1)
            if ← passes "," then members entries rounds room
            else
              expect "\x7d"
              return entries

end

/-! ## Lines -/

/-- Passes over what may follow an entry or a header, up to the end of the line. -/
def endLine : Read Unit := do
  skipBlanks
  skipComment
  if ← passesLineEnd then return ()
  else if (← get).isEmpty then return ()
  else malformed

/-- The answer of a definition that may clash with others. -/
def accepted (entries : Option Entries) : Read Entries :=
  match entries with
  | some entries => return entries
  | none => malformed

/-- The rest of a document, after some of its entries; `here` leads to the table that the last
header opened. -/
def lines (here : List String) (entries : Entries) : Nat → Read Entries
  | 0 => malformed
  | rounds + 1 => do
      skipLines (rounds + 1)
      if (← get).isEmpty then return entries
      else if ← passes "[[" then
        skipBlanks
        let path ← keys rounds
        expect "]]"
        let entries ← accepted (openAt true path entries)
        endLine
        lines path entries rounds
      else if ← passes "[" then
        skipBlanks
        let path ← keys rounds
        expect "]"
        let entries ← accepted (openAt false path entries)
        endLine
        lines path entries rounds
      else
        let path ← keys rounds
        expect "="
        skipBlanks
        let value ← datum rounds nestingLimit
        let entries ← accepted (changeAt (fun table => addEntry table path value) here entries)
        endLine
        lines here entries rounds

/-- The text without the mark that may begin it. -/
def withoutMark (text : String) : String :=
  match text.toList with
  | '\uFEFF' :: rest => String.ofList rest
  | _ => text

/-- The table that a document writes, unless it is malformed. -/
def parse? (document : String) : Option Datum :=
  let text := (withoutMark document).toList
  ((lines [] [] (text.length + 2)).run text).map fun answer => .table (finishEntries answer.1)

end Stencil.Toml
