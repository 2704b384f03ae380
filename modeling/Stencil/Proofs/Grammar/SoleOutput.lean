import Stencil.Proofs.Grammar.Lexeme
import Stencil.Proofs.Grammar.Output
import Stencil.Proofs.Token.Verbatim

/-!
Contract: templates of one tag that prints a value, from their text to their tree.

Owns:
- texts that are scanned to given words, with nothing wrong;
- the text of one output tag, scanned to the words that its inside is scanned to;
- the template of such words, if they are read as one expression.

Does not own: the words of any expression (`Stencil.Proofs.Grammar.Written`).
-/

set_option autoImplicit false

namespace Stencil.Grammar

open Stencil.Syntax
open Stencil.Text (Position isBlank)
open Stencil.Token

/-- Whether a text is scanned to the words, its blanks and comments left aside, and nothing is wrong
with it. -/
structure ScannedAs (source : String) (words : List Word) : Prop where
  words : (kept (scan source).tokens).map wordOf = words
  quiet : (scan source).problems = []

/-- The text of a template that is one output tag. -/
def outputTag (inside : List Char) : String :=
  String.ofList (Delimiter.output.opener ++ (inside ++ Delimiter.output.closer))

/-- The words of such a template, where the delimiters of the tag may carry markers. -/
def outputWords (marksFront marksBack : Bool) (words : List Word) : List Word :=
  ⟨.variableStart marksFront, String.ofList (Delimiter.output.opener ++ marker marksFront)⟩ ::
    (words ++ [⟨.variableEnd marksBack, String.ofList (marker marksBack ++ Delimiter.output.closer)⟩,
      ⟨.endOfInput, ""⟩])

/-- An output tag without markers is scanned to its delimiters and to what its inside is scanned
to. -/
theorem scansTo_outputTag {inside : List Char} {words : List Word} {cursor : Cursor}
    (notMarker : inside.head? ≠ some '-')
    (isRest : cursor.rest =
      Delimiter.output.opener ++ (inside ++ (Delimiter.output.closer ++ [])))
    (scanned : ∀ (opened : Position) (cursor : Cursor),
      cursor.rest = inside ++ (Delimiter.output.closer ++ []) →
        Inside (scanTag .output opened [] cursor)
          (words ++ [⟨.variableEnd false, String.ofList Delimiter.output.closer⟩]) []) :
    ScansTo (scanConstruct cursor)
      (⟨.variableStart false, String.ofList Delimiter.output.opener⟩ ::
        (words ++ [⟨.variableEnd false, String.ofList Delimiter.output.closer⟩])) [] := by
  have noMarker : hasMarker cursor = false := by
    rw [hasMarker, isRest]
    refine beq_eq_false_iff_ne.mpr fun isMarker => notMarker ?_
    cases inside with
    | nil => cases isMarker
    | cons first inside => exact isMarker
  have isLength : openerLength cursor = Delimiter.output.opener.length := by
    rw [openerLength, noMarker]
    rfl
  have notBlock : Delimiter.output ≠ .block := by decide
  have plain : ¬IsVerbatim .output cursor := fun verbatim => notBlock verbatim.1
  have isInside : Inside (insideTag .output cursor)
      (words ++ [⟨.variableEnd false, String.ofList Delimiter.output.closer⟩]) [] := by
    refine scanned _ _ ?_
    rw [isLength]
    exact rest_skip_of_append isRest
  have isOpening : wordOf (openingOf .output cursor) =
      ⟨.variableStart false, String.ofList Delimiter.output.opener⟩ := by
    rw [openingOf, noMarker, isLength, wordOf, Cursor.cut, isRest, List.take_left]
    rfl
  rw [scanConstruct_of_tag isRest, scanWholeTag_of_not_verbatim plain]
  refine ⟨?_, isInside.quiet, isInside.rest⟩
  rw [Scan.tokens_append, kept_append, List.map_append, isInside.words]
  exact congrArg (· :: _) isOpening

/-- The text of one output tag is scanned to the words of the tag. -/
theorem scannedAs_outputTag {inside : List Char} {words : List Word}
    (notMarker : inside.head? ≠ some '-')
    (scanned : ∀ (opened : Position) (cursor : Cursor),
      cursor.rest = inside ++ (Delimiter.output.closer ++ []) →
        Inside (scanTag .output opened [] cursor)
          (words ++ [⟨.variableEnd false, String.ofList Delimiter.output.closer⟩]) []) :
    ScannedAs (outputTag inside) (outputWords false false words) := by
  have isRest : (Cursor.ofText (outputTag inside)).rest =
      Delimiter.output.opener ++ (inside ++ (Delimiter.output.closer ++ [])) := by
    rw [Cursor.ofText, outputTag, String.toList_ofList, List.append_nil]
  have nonempty : (Cursor.ofText (outputTag inside)).rest ≠ [] := by
    rw [isRest]
    exact List.cons_ne_nil _ _
  have scans := scansTo_outputTag notMarker isRest scanned
  obtain ⟨areWords, quiet⟩ := scans.words_scanFrom nonempty (words_scanFrom_of_end scans.rest)
  refine ⟨?_, quiet⟩
  rw [scan, areWords, List.cons_append, List.append_assoc]
  rfl

/-- A template of words that are read as one expression, in an output tag, prints this expression,
and nothing is wrong with it. -/
theorem parse_of_reads (register : Register) (name : String) {source : String}
    {marksFront marksBack : Bool} {words : List Word} {means : Expr → Prop}
    (scanned : ScannedAs source (outputWords marksFront marksBack words))
    (reads : ∀ tape : Tape, tape.Shows words → (tape.past words).current.kind.isTagEnd = true →
      ∃ value, means value ∧ expression.run tape = (value, tape.past words)) :
    ∃ value span, means value ∧
      (parse register name source).template.body = [.output value span] ∧
      (parse register name source).problems = [] := by
  obtain ⟨opening, behind, isKept, isOpening, isBehind⟩ := List.map_eq_cons_iff.mp scanned.words
  obtain ⟨tokens, behind, rfl, areWords, isBehind⟩ := List.map_eq_append_iff.mp isBehind
  obtain ⟨closing, behind, rfl, isClosing, isBehind⟩ := List.map_eq_cons_iff.mp isBehind
  obtain ⟨last, rfl, isLast⟩ := List.map_eq_singleton_iff.mp isBehind
  have isEnd : last.kind = .endOfInput := congrArg Word.kind isLast
  have opens : opening.kind = .variableStart marksFront := congrArg Word.kind isOpening
  have closes : closing.kind.isTagEnd = true := by
    rw [show closing.kind = .variableEnd marksBack from congrArg Word.kind isClosing]
    rfl
  have isKept : kept (scan source).tokens = (opening :: (tokens ++ [closing])) ++ [last] := by
    rw [isKept, List.cons_append, List.append_assoc]
    rfl
  obtain ⟨first, rest, areTokens, isTape⟩ := ofTokens_of_kept isKept isEnd
  have isRest : opening = first ∧ tokens ++ [closing, last] = rest := by
    simpa using areTokens
  obtain ⟨rfl, rfl⟩ := isRest
  obtain ⟨value, span, isMeant, isBody, noProblems⟩ :=
    run_template_of_reads register reads opens closes isEnd areWords
  refine ⟨value, span, isMeant, ?_, ?_⟩
  · rw [parse, parseTokens, isTape]
    exact isBody
  · rw [parse, scanned.quiet, parseTokens, isTape]
    exact congrArg Array.toList noProblems

end Stencil.Grammar
