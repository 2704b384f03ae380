import Stencil.Proofs.Grammar.Lexeme
import Stencil.Proofs.Grammar.SoleOutput

/-!
Contract: string literals that follow one another in a tag are one string.

Owns:
- the ways to write texts as literals after one another, in either quote and with blanks between them;
- such literals are read back as words, whatever the texts hold;
- the literal that they form together, and the template that prints it.

Does not own: what a single literal stands for (`Stencil.Proofs.Text.Quoted`).
-/

set_option autoImplicit false

namespace Stencil.Grammar

open Stencil.Syntax
open Stencil.Text (Position Span isBlank)
open Stencil.Text.Quoted (decode decode_encode encode escape escaped?_of_isQuote)
open Stencil.Token
open Levels Read

/-! ### Ways to write literals -/

/-- A text as a string literal, with blanks behind it. -/
structure Quotation where
  quote : Char
  text : List Char
  gap : List Char
  isQuote : quote = '\'' ∨ quote = '"'
  gap_blank : gap.all isBlank = true

namespace Quotation

def literal (quotation : Quotation) : List Char := encode quotation.quote quotation.text

def chars (quotation : Quotation) : List Char := quotation.literal ++ quotation.gap

def word (quotation : Quotation) : Word := ⟨.string, String.ofList quotation.literal⟩

theorem literal_eq (quotation : Quotation) :
    quotation.literal =
      quotation.quote :: (escape quotation.quote quotation.text ++ [quotation.quote]) := rfl

theorem not_delimiter (quotation : Quotation) : quotation.quote ∉ ['-', '%', '{', '}'] := by
  rcases quotation.isQuote with isQuote | isQuote <;> rw [isQuote] <;> decide

theorem not_blank (quotation : Quotation) : isBlank quotation.quote = false := by
  rcases quotation.isQuote with isQuote | isQuote <;> rw [isQuote] <;> decide

/-- What the literal stands for is the text that it was written for. -/
theorem stringValue_of_word {quotation : Quotation} {token : Token}
    (isWord : wordOf token = quotation.word) :
    stringValue token = String.ofList quotation.text := by
  have isLexeme : token.lexeme = String.ofList quotation.literal := congrArg Word.lexeme isWord
  rw [stringValue, isLexeme, String.toList_ofList, literal,
    decode_encode (escaped?_of_isQuote quotation.isQuote)]

end Quotation

/-- The texts of quotations, one after the other. -/
def joined (quotations : List Quotation) : String :=
  String.ofList (quotations.flatMap Quotation.text)

theorem joined_cons (quotation : Quotation) (quotations : List Quotation) :
    joined (quotation :: quotations) = String.ofList quotation.text ++ joined quotations := by
  rw [joined, List.flatMap_cons, String.ofList_append, joined]

/-- The tag that prints quotations, with blanks in front of the first one. -/
def quotationTag (lead : List Char) (quotations : List Quotation) : String :=
  String.ofList (Delimiter.output.opener ++
    (lead ++ (quotations.flatMap Quotation.chars ++ Delimiter.output.closer)))

/-- The words that such a tag is read as. -/
def quotationWords (quotations : List Quotation) : List Word :=
  ⟨.variableStart false, String.ofList Delimiter.output.opener⟩ ::
    (quotations.map Quotation.word ++
      [⟨.variableEnd false, String.ofList Delimiter.output.closer⟩])

/-! ### Scanning -/

section Scanning

variable {opened : Position} {cursor : Cursor} {quotations : List Quotation} {lead rest : List Char}

/-- Behind blanks a quote stands, or the end of the tag. -/
theorem head_quotations (quotations : List Quotation) (rest : List Char) :
    ∀ c ∈ (quotations.flatMap Quotation.chars ++ (Delimiter.output.closer ++ rest)).head?,
      isBlank c = false ∧ c ≠ '-' := by
  intro c isHead
  cases quotations with
  | nil =>
      cases isHead
      decide
  | cons quotation quotations =>
      cases isHead
      refine ⟨quotation.not_blank, fun isMarker => quotation.not_delimiter ?_⟩
      rw [isMarker]
      exact List.mem_cons_self

/-- Literals are read one after the other, up to the end of the tag. -/
theorem inside_quotations
    (isRest : cursor.rest =
      quotations.flatMap Quotation.chars ++ (Delimiter.output.closer ++ rest)) :
    Inside (scanTag .output opened [] cursor)
      (quotations.map Quotation.word ++
        [⟨.variableEnd false, String.ofList Delimiter.output.closer⟩]) rest := by
  induction quotations generalizing cursor with
  | nil => exact inside_closer (fun both => nomatch both.2) isRest
  | cons quotation quotations inductionHypothesis =>
      let body := escape quotation.quote quotation.text
      let behind := quotations.flatMap Quotation.chars ++ (Delimiter.output.closer ++ rest)
      have isRest : cursor.rest =
          quotation.quote :: ((body ++ [quotation.quote]) ++ (quotation.gap ++ behind)) := by
        rw [isRest, List.flatMap_cons, Quotation.chars, Quotation.literal_eq]
        simp only [body, behind, List.cons_append, List.append_assoc]
      have isPiece : pieceAt .output quotation.quote
          ((body ++ [quotation.quote]) ++ (quotation.gap ++ behind)) =
            ⟨.string, (body ++ [quotation.quote]).length + 1, none⟩ := by
        rw [List.append_assoc, List.length_append]
        exact pieceAt_of_literal quotation.isQuote (literalBody_escape _ _) _ _
      have atGap : (cursor.skip ((body ++ [quotation.quote]).length + 1)).rest =
          quotation.gap ++ behind := by
        rw [Cursor.skip, isRest]
        exact List.drop_left
      have inside := inside_of_blanks quotation.gap_blank
        (fun c isHead => (head_quotations quotations rest c isHead).1) atGap
        (inductionHypothesis (rest_skip_of_append atGap))
      have isLexeme : quotation.word.lexeme.toList = quotation.quote :: (body ++ [quotation.quote]) :=
        String.toList_ofList
      exact inside_of_piece isLexeme rfl quotation.not_delimiter isRest isPiece inside

/-- A tag of quotations is scanned to their words and its delimiters, and nothing is wrong with it. -/
theorem scannedAs_quotationTag (lead_blank : lead.all isBlank = true) (quotations : List Quotation) :
    ScannedAs (quotationTag lead quotations)
      (outputWords false false (quotations.map Quotation.word)) := by
  have isTag : quotationTag lead quotations =
      outputTag (lead ++ quotations.flatMap Quotation.chars) := by
    rw [quotationTag, outputTag, List.append_assoc]
  rw [isTag]
  refine scannedAs_outputTag ?_ fun opened cursor isRest => ?_
  · intro isMarker
    cases lead with
    | nil =>
        refine (head_quotations quotations [] '-' ?_).2 rfl
        rw [List.nil_append] at isMarker
        rw [List.head?_append, isMarker]
        rfl
    | cons blank lead =>
        cases isMarker
        exact absurd (Bool.and_eq_true_iff.mp lead_blank).1 (by decide)
  · rw [List.append_assoc] at isRest
    exact inside_of_blanks lead_blank
      (fun c isHead => (head_quotations quotations [] c isHead).1) isRest
      (inside_quotations (rest_skip_of_append isRest))

theorem scan_quotationTag (lead_blank : lead.all isBlank = true) (quotations : List Quotation) :
    (kept (scan (quotationTag lead quotations)).tokens).map wordOf =
        quotationWords quotations ++ [⟨.endOfInput, ""⟩] ∧
      (scan (quotationTag lead quotations)).problems = [] := by
  have scanned := scannedAs_quotationTag lead_blank quotations
  refine ⟨?_, scanned.quiet⟩
  rw [scanned.words, quotationWords, List.cons_append, List.append_assoc]
  rfl

end Scanning

/-! ### Reading -/

/-- The turns of a string take in the literals that follow one another. -/
theorem settles_stringTurn {quotations : List Quotation} {sum : String × Span} {tape : Tape}
    (shown : tape.Shows (quotations.map Quotation.word))
    (ends : (tape.past (quotations.map Quotation.word)).current.kind ≠ .string) :
    ∃ span, Settles stringTurn sum tape (sum.1 ++ joined quotations, span)
      (tape.past (quotations.map Quotation.word)) := by
  induction quotations generalizing sum tape with
  | nil =>
      refine ⟨sum.2, .done ?_⟩
      have nothing : sum.1 ++ joined [] = sum.1 := String.append_empty
      have ends : tape.current.kind ≠ .string := ends
      rw [nothing]
      simp only [stringTurn, run_bind, run_take?, if_neg ends, run_pure]
      rfl
  | cons quotation quotations inductionHypothesis =>
      obtain ⟨isWord, more, shownBehind⟩ := shown
      have isString : tape.current.kind = .string := congrArg Word.kind isWord
      let next := (sum.1 ++ stringValue tape.current, sum.2.cover tape.current.span)
      have goesOn : (stringTurn sum).run tape = (.again next, tape.advance) := by
        simp only [stringTurn, run_bind, run_take?, if_pos isString, run_pure, next]
      have shorter : tape.advance.following.length < tape.following.length := by
        have positive := List.length_pos_iff.mpr more
        have moved := Tape.length_following_advance tape
        omega
      have isSum : next.1 ++ joined quotations = sum.1 ++ joined (quotation :: quotations) := by
        rw [joined_cons, ← Quotation.stringValue_of_word isWord, ← String.append_assoc]
      obtain ⟨span, settles⟩ := @inductionHypothesis next tape.advance shownBehind ends
      rw [isSum] at settles
      exact ⟨span, .again goesOn shorter settles⟩

/-- Literals up to the end of a tag are read as one. -/
theorem run_expression_of_quotations {quotations : List Quotation} (nonempty : quotations ≠ [])
    {tape : Tape} (shown : tape.Shows (quotations.map Quotation.word))
    (closes : (tape.past (quotations.map Quotation.word)).current.kind.isTagEnd = true) :
    ∃ span, expression.run tape =
      (.literal (.text (joined quotations)) span, tape.past (quotations.map Quotation.word)) := by
  cases quotations with
  | nil => contradiction
  | cons quotation quotations =>
      obtain ⟨isWord, more, shownBehind⟩ := shown
      have isString : tape.current.kind = .string := congrArg Word.kind isWord
      have ends : (tape.past ((quotation :: quotations).map Quotation.word)).current.kind ≠ .string := by
        intro isString
        rw [isString] at closes
        cases closes
      let first := (stringValue tape.current, tape.current.span)
      obtain ⟨span, settles⟩ : ∃ span, Settles stringTurn first tape.advance
          (first.1 ++ joined quotations, span) (tape.advance.past (quotations.map Quotation.word)) :=
        settles_stringTurn shownBehind ends
      have isJoined : first.1 ++ joined quotations =
          joined (quotation :: quotations) := by
        rw [joined_cons, ← Quotation.stringValue_of_word isWord]
      rw [isJoined] at settles
      have looped : (loop stringTurn (stringValue tape.current, tape.current.span)).run tape.advance =
          ((joined (quotation :: quotations), span),
            tape.advance.past (quotations.map Quotation.word)) := run_loop_of_settles settles
      have reads (inner : Levels) : (operand inner).run tape =
          (.literal (.text (joined (quotation :: quotations))) span,
            tape.advance.past (quotations.map Quotation.word)) := by
        simp only [operand, run_bind, run_peek, isString, stringOperand, run_advance, looped, run_pure]
      have notNegation : tape.current.isName "not" ≠ true := by simp [Token.isName, isString]
      have notSign : tape.current.kind ≠ .symbol .minus ∧ tape.current.kind ≠ .symbol .plus := by
        simp [isString]
      refine ⟨span, ?_⟩
      rw [expression, run_withNesting]
      exact run_levelReader_of_operand notNegation notSign (reads _)
        (Tape.endsAt_of_isTagEnd .conditional closes)

/-- A tag of quotations prints the one literal that they form, and nothing is wrong with it. -/
theorem parse_quotationTag (register : Register) (name : String) {lead : List Char}
    {quotations : List Quotation} (lead_blank : lead.all isBlank = true)
    (nonempty : quotations ≠ []) :
    ∃ literal span, (parse register name (quotationTag lead quotations)).template.body =
        [.output (.literal (.text (joined quotations)) literal) span] ∧
      (parse register name (quotationTag lead quotations)).problems = [] := by
  have reads (tape : Tape) (shown : tape.Shows (quotations.map Quotation.word))
      (ends : (tape.past (quotations.map Quotation.word)).current.kind.isTagEnd = true) :
      ∃ value, (∃ literal, value = .literal (.text (joined quotations)) literal) ∧
        expression.run tape = (value, tape.past (quotations.map Quotation.word)) := by
    obtain ⟨literal, isRead⟩ := run_expression_of_quotations nonempty shown ends
    exact ⟨_, ⟨literal, rfl⟩, isRead⟩
  obtain ⟨_, span, ⟨literal, rfl⟩, isBody, noProblems⟩ :=
    parse_of_reads register name (scannedAs_quotationTag lead_blank quotations) reads
  exact ⟨literal, span, isBody, noProblems⟩

end Stencil.Grammar
