import Stencil.Report.Diagnostic
import Stencil.Token.Recognize

/-!
Contract: cutting template text into tokens.

Owns:
- the cursor, and the cut that turns the text it passes over into a token;
- the two modes, outside and inside a tag, and what happens when a tag is not closed.

The tokens tile the text: every token but the closing delimiter put in for a missing one holds the
text of its span, and the spans follow one another from the start to the end. Cutting never fails;
what is wrong is reported.

Does not own: how far a single piece reaches (`Stencil.Token.Recognize`).
-/

set_option autoImplicit false

namespace Stencil.Token

open Stencil.Text (Position Span isBlank distanceTo)
open Stencil.Report (Diagnostic)

/-- A place in the text: its position and what is still to be read. -/
structure Cursor where
  position : Position
  rest : List Char
deriving DecidableEq, Repr

namespace Cursor

def ofText (text : String) : Cursor := ⟨Position.start, text.toList⟩

def skip (cursor : Cursor) (count : Nat) : Cursor :=
  ⟨cursor.position.advanceAll (cursor.rest.take count), cursor.rest.drop count⟩

def spanOf (cursor : Cursor) (count : Nat) : Span :=
  ⟨cursor.position, (cursor.skip count).position⟩

/-- The token that takes the next `count` characters. -/
def cut (cursor : Cursor) (kind : Kind) (count : Nat) : Token :=
  ⟨kind, String.ofList (cursor.rest.take count), cursor.spanOf count⟩

def mark (cursor : Cursor) (kind : Kind) : Token := ⟨kind, "", Span.point cursor.position⟩

theorem skip_rest_length (cursor : Cursor) (count : Nat) :
    (cursor.skip count).rest.length = cursor.rest.length - count := by
  simp [skip]

end Cursor

/-- Tokens in the order of the text, and what is wrong with them in the order in which it is
noticed. -/
structure Scan where
  tokens : List Token
  problems : List Diagnostic
deriving DecidableEq, Repr

namespace Scan

def nothing : Scan := ⟨[], []⟩

def one (token : Token) : Scan := ⟨[token], []⟩

def append (first second : Scan) : Scan :=
  ⟨first.tokens ++ second.tokens, first.problems ++ second.problems⟩

instance : Append Scan := ⟨append⟩

@[simp] theorem tokens_append (first second : Scan) :
    (first ++ second).tokens = first.tokens ++ second.tokens := rfl

@[simp] theorem problems_append (first second : Scan) :
    (first ++ second).problems = first.problems ++ second.problems := rfl

end Scan

/-- What a tag's inside gives: its tokens with the closing delimiter as the last one, whether that
delimiter is in the text, and the place after it. -/
structure TagScan where
  scan : Scan
  closed : Bool
  cursor : Cursor
deriving DecidableEq, Repr

/-- The tag's end, if the tag may close here: how many characters it takes and whether it takes
blanks off the following text. The brace of an open map is not the end of a value's tag. -/
def closerAt? (delimiter : Delimiter) (brackets : List Symbol) (text : List Char) :
    Option (Nat × Bool) :=
  if delimiter = .output ∧ brackets.head? = some .leftBrace then none
  else if ('-' :: delimiter.closer).isPrefixOf text then some (3, true)
  else if delimiter.closer.isPrefixOf text then some (2, false)
  else none

/-- The inside of a tag that is given up: its end is put in where reading stopped. -/
def abandonTag (delimiter : Delimiter) (opened : Position) (cursor : Cursor) : TagScan where
  scan := ⟨[cursor.mark (delimiter.endKind false)],
    [.new delimiter.unclosed.1 delimiter.unclosed.2 (Span.between opened cursor.position)]⟩
  closed := false
  cursor := cursor

/-- The inside of a tag that was opened at `opened`. Reading gives up at the end of the text and
where another tag or comment opens. -/
def scanTag (delimiter : Delimiter) (opened : Position) (brackets : List Symbol)
    (cursor : Cursor) : TagScan :=
  match _isRest : cursor.rest with
  | [] => abandonTag delimiter opened cursor
  | c :: rest =>
      match closerAt? delimiter brackets (c :: rest) with
      | some (length, trim) =>
          ⟨.one (cursor.cut (delimiter.endKind trim) length), true, cursor.skip length⟩
      | none =>
          if opensConstruct (c :: rest) then abandonTag delimiter opened cursor
          else
            let piece := pieceAt delimiter c rest
            let problems := piece.problem.toList.map fun problem =>
              Diagnostic.new problem.1 problem.2 (cursor.spanOf piece.length)
            let inner := scanTag delimiter opened (bracketsAfter brackets piece.kind)
              (cursor.skip piece.length)
            { inner with scan := ⟨[cursor.cut piece.kind piece.length], problems⟩ ++ inner.scan }
termination_by cursor.rest.length
decreasing_by
  have positive := pieceAt_length_pos delimiter c rest
  rw [Cursor.skip_rest_length, _isRest]
  simp only [List.length_cons]
  omega

/-- Whether the tokens of a tag's inside are the single word that begins a verbatim body. -/
def beginsVerbatim (inside : List Token) : Bool :=
  match inside.filter fun token => !token.kind.isTrivia && !token.kind.isTagEnd with
  | [token] => token.isName "raw"
  | _ => false

/-- The next `count` characters as text, and nothing if there are none. -/
def scanText (cursor : Cursor) (count : Nat) : Scan :=
  if count = 0 then .nothing else .one (cursor.cut .text count)

/-- Whether the delimiter or comment opener at the cursor carries the marker that takes blanks off
the text before it. -/
def hasMarker (cursor : Cursor) : Bool := (cursor.rest.drop 2).head? == some '-'

/-- The length of the opening delimiter at the cursor, its marker included. -/
def openerLength (cursor : Cursor) : Nat := if hasMarker cursor then 3 else 2

/-- A whole tag. After the tag that begins a verbatim body, that body is one piece of text. -/
def scanWholeTag (delimiter : Delimiter) (cursor : Cursor) : Scan × Cursor :=
  let length := openerLength cursor
  let inside := scanTag delimiter cursor.position [] (cursor.skip length)
  let opening := cursor.cut (delimiter.startKind (hasMarker cursor)) length
  let whole := Scan.one opening ++ inside.scan
  if delimiter = .block ∧ inside.closed = true ∧ beginsVerbatim inside.scan.tokens = true then
    let body := distanceTo endsVerbatim inside.cursor.rest
    (whole ++ scanText inside.cursor body, inside.cursor.skip body)
  else
    (whole, inside.cursor)

/-- A whole comment; one that is never closed reaches to the end of the text. -/
def scanComment (cursor : Cursor) : Scan × Cursor :=
  let inside := cursor.rest.drop 2
  let trimBefore := hasMarker cursor
  let length := distanceTo commentCloser.isPrefixOf inside
  if inside.length ≤ length then
    let whole := cursor.rest.length
    (⟨[cursor.cut (.comment trimBefore false) whole],
      [.new .unterminatedComment "unclosed comment; expected '#\x7d'" (cursor.spanOf whole)]⟩,
      cursor.skip whole)
  else
    let trimAfter := (inside.take length).getLast? == some '-'
    let whole := 2 + length + 2
    (.one (cursor.cut (.comment trimBefore trimAfter) whole), cursor.skip whole)

/-- The tag, the comment or the text at the cursor, and the place after it. -/
def scanConstruct (cursor : Cursor) : Scan × Cursor :=
  if Delimiter.output.opener.isPrefixOf cursor.rest then scanWholeTag .output cursor
  else if Delimiter.block.opener.isPrefixOf cursor.rest then scanWholeTag .block cursor
  else if commentOpener.isPrefixOf cursor.rest then scanComment cursor
  else
    let length := distanceTo opensConstruct cursor.rest
    (scanText cursor length, cursor.skip length)

theorem scanTag_rest_length (delimiter : Delimiter) (opened : Position) (brackets : List Symbol)
    (cursor : Cursor) :
    (scanTag delimiter opened brackets cursor).cursor.rest.length ≤ cursor.rest.length := by
  fun_induction scanTag delimiter opened brackets cursor with
  | case1 => simp [abandonTag]
  | case2 => simp [Cursor.skip_rest_length]
  | case3 => simp [abandonTag]
  | case4 brackets cursor c rest isRest notClosed notOpened piece problems inner inductionHypothesis =>
      simp only [Cursor.skip_rest_length] at inductionHypothesis
      exact Nat.le_trans inductionHypothesis (Nat.sub_le _ _)

private theorem scanWholeTag_rest_length (delimiter : Delimiter) (cursor : Cursor)
    (nonempty : cursor.rest ≠ []) :
    (scanWholeTag delimiter cursor).2.rest.length < cursor.rest.length := by
  have positive : 0 < cursor.rest.length := List.length_pos_iff.2 nonempty
  have inside := scanTag_rest_length delimiter cursor.position []
    (cursor.skip (openerLength cursor))
  rw [Cursor.skip_rest_length] at inside
  have shorter : cursor.rest.length - openerLength cursor < cursor.rest.length := by
    unfold openerLength
    split <;> omega
  unfold scanWholeTag
  dsimp only
  split
  · rw [Cursor.skip_rest_length]
    omega
  · dsimp only
    omega

private theorem scanComment_rest_length (cursor : Cursor) (nonempty : cursor.rest ≠ []) :
    (scanComment cursor).2.rest.length < cursor.rest.length := by
  have positive : 0 < cursor.rest.length := List.length_pos_iff.2 nonempty
  unfold scanComment
  dsimp only
  split <;> rw [Cursor.skip_rest_length] <;> omega

/-- Every construct takes at least one character. -/
theorem scanConstruct_rest_length (cursor : Cursor) (nonempty : cursor.rest ≠ []) :
    (scanConstruct cursor).2.rest.length < cursor.rest.length := by
  have positive : 0 < cursor.rest.length := List.length_pos_iff.2 nonempty
  unfold scanConstruct
  split
  · exact scanWholeTag_rest_length .output cursor nonempty
  · split
    · exact scanWholeTag_rest_length .block cursor nonempty
    · split
      · exact scanComment_rest_length cursor nonempty
      · rename_i notVariable notBlock notComment
        simp only [Cursor.skip_rest_length]
        have advances : 0 < distanceTo opensConstruct cursor.rest := by
          match isRest : cursor.rest with
          | [] => exact absurd isRest nonempty
          | c :: rest =>
              rw [isRest] at notVariable notBlock notComment
              simp [distanceTo, opensConstruct, notVariable, notBlock, notComment]
        omega

def scanFrom (cursor : Cursor) : Scan :=
  if _finished : cursor.rest = [] then .one (cursor.mark .endOfInput)
  else (scanConstruct cursor).1 ++ scanFrom (scanConstruct cursor).2
termination_by cursor.rest.length
decreasing_by exact scanConstruct_rest_length cursor _finished

/-- The tokens of a text. The last one, and no other, is the end of the input. -/
def scan (text : String) : Scan := scanFrom (Cursor.ofText text)

end Stencil.Token
