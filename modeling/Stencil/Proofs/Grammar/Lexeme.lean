import Mathlib.Data.List.TakeWhile
import Stencil.Proofs.Text.Quoted
import Stencil.Proofs.Token.Apart

/-!
Contract: how the words of a tag are written, and that any sequence of them is read back.

Owns:
- the shapes of names, numbers, string literals and symbols, without a look at how they are read;
- each of them is one piece where blanks stand around it;
- a tag with such words in it, single blanks between them, is scanned to just these words.

The end of an output is not read while the innermost open bracket is a brace, which is why outputs
must not leave one open.

Does not own: the expressions and statements that the words form (`Stencil.Proofs.Grammar.Written`).
-/

set_option autoImplicit false

namespace Stencil.Grammar

open Stencil.Text (distanceTo isBlank)
open Stencil.Text.Quoted (escape)
open Stencil.Token

/-! ### Shapes -/

/-- A digit, and then digits and underscores. -/
def isDigits (text : List Char) : Bool :=
  match text with
  | [] => false
  | first :: rest => first.isDigit && rest.all continuesNumber

inductive IsFraction : List Char → Prop where
  | nothing : IsFraction []
  | point {digits : List Char} (areDigits : isDigits digits = true) : IsFraction ('.' :: digits)

/-- A letter, perhaps a sign, and digits without underscores. -/
inductive IsExponent : List Char → Prop where
  | nothing : IsExponent []
  | power {letter first : Char} {sign digits : List Char} (isLetter : letter = 'e' ∨ letter = 'E')
      (isSign : sign = [] ∨ sign = ['+'] ∨ sign = ['-']) (isDigit : first.isDigit = true)
      (areDigits : digits.all Char.isDigit = true) : IsExponent (letter :: (sign ++ first :: digits))

/-- The body of a string literal: every backslash has a character behind it, and the quote stands
behind a backslash only. -/
inductive LiteralBody (quote : Char) : List Char → Prop where
  | nothing : LiteralBody quote []
  | plain {c : Char} {rest : List Char} (notQuote : c ≠ quote) (notBackslash : c ≠ '\\')
      (further : LiteralBody quote rest) : LiteralBody quote (c :: rest)
  | escaped (c : Char) {rest : List Char} (further : LiteralBody quote rest) :
      LiteralBody quote ('\\' :: c :: rest)

/-- The words that may be written in a tag. A number is a float if it has a fraction or an
exponent. -/
inductive Lexeme : Word → Prop where
  | name {text : String} (named : isName text = true) : Lexeme (.name text)
  | integer {digits : List Char} (areDigits : isDigits digits = true) :
      Lexeme ⟨.integer, String.ofList digits⟩
  | float {digits fraction exponent : List Char} (areDigits : isDigits digits = true)
      (isFraction : IsFraction fraction) (isExponent : IsExponent exponent)
      (notInteger : ¬ (fraction = [] ∧ exponent = [])) :
      Lexeme ⟨.float, String.ofList (digits ++ (fraction ++ exponent))⟩
  | literal {quote : Char} {body : List Char} (isQuote : quote = '\'' ∨ quote = '"')
      (isBody : LiteralBody quote body) : Lexeme ⟨.string, String.ofList (quote :: (body ++ [quote]))⟩
  | symbol (symbol : Symbol) : Lexeme (.symbol symbol)

/-! ### Numbers -/

section Numbers

variable {digits fraction exponent rest : List Char}

theorem code_of_isDigit {c : Char} (digit : c.isDigit = true) : 48 ≤ c.toNat ∧ c.toNat ≤ 57 := by
  simpa [Char.isDigit, UInt32.le_iff_toNat_le] using digit

theorem isDigits_eq_true (areDigits : isDigits digits = true) :
    ∃ first others, digits = first :: others ∧ first.isDigit = true ∧
      others.all continuesNumber = true := by
  cases digits with
  | nil => cases areDigits
  | cons first others => exact ⟨first, others, rfl, Bool.and_eq_true_iff.mp areDigits⟩

theorem takeWhile_digits (areDigits : isDigits digits = true)
    (stops : ∀ c ∈ rest.head?, continuesNumber c = false) :
    (digits ++ rest).takeWhile continuesNumber = digits := by
  obtain ⟨first, others, rfl, isDigit, continues⟩ := isDigits_eq_true areDigits
  have all : (first :: others).all continuesNumber = true := by
    rw [List.all_cons, continues, continuesNumber, isDigit]
    rfl
  rw [takeWhile_append_of_stop stops, List.takeWhile_eq_self_iff.mpr (List.all_eq_true.mp all)]

theorem IsExponent.stops (isExponent : IsExponent exponent) :
    ∀ c ∈ exponent.head?, continuesNumber c = false := by
  cases isExponent with
  | nothing => nofun
  | power isLetter =>
      intro c isHead
      rw [← show _ = c from Option.some.inj isHead]
      rcases isLetter with rfl | rfl <;> decide

theorem IsFraction.stops (isFraction : IsFraction fraction) (isExponent : IsExponent exponent) :
    ∀ c ∈ (fraction ++ exponent).head?, continuesNumber c = false := by
  cases isFraction with
  | nothing => exact isExponent.stops
  | point areDigits =>
      intro c isHead
      rw [← show _ = c from Option.some.inj isHead]
      decide

theorem IsFraction.length (isFraction : IsFraction fraction) (isExponent : IsExponent exponent) :
    fractionLength (fraction ++ exponent) = fraction.length := by
  cases isFraction with
  | nothing =>
      cases isExponent with
      | nothing => rfl
      | power isLetter =>
          rcases isLetter with rfl | rfl <;> rfl
  | point areDigits =>
      obtain ⟨first, others, rfl, isDigit, continues⟩ := isDigits_eq_true areDigits
      have taken : (others ++ exponent).takeWhile continuesNumber = others := by
        rw [takeWhile_append_of_stop isExponent.stops,
          List.takeWhile_eq_self_iff.mpr (List.all_eq_true.mp continues)]
      rw [List.cons_append, List.cons_append, fractionLength, if_pos isDigit, taken, List.length_cons,
        List.length_cons]
      omega

theorem IsExponent.length (isExponent : IsExponent exponent) :
    exponentLength exponent = exponent.length := by
  cases isExponent with
  | nothing => rfl
  | @power letter first sign digits isLetter isSign isDigit areDigits =>
      have taken : digits.takeWhile Char.isDigit = digits :=
        List.takeWhile_eq_self_iff.mpr (List.all_eq_true.mp areDigits)
      rcases isSign with rfl | rfl | rfl
      · simp only [List.nil_append, exponentLength, if_pos isLetter, if_pos isDigit, taken,
          List.length_cons]
        omega
      · have notDigit : ('+').isDigit = false := by decide
        simp [exponentLength, isLetter, notDigit, isDigit, taken]
        omega
      · have notDigit : ('-').isDigit = false := by decide
        simp [exponentLength, isLetter, notDigit, isDigit, taken]
        omega

/-- A number is read as a whole. -/
theorem numberPiece_of_parts (areDigits : isDigits digits = true)
    (isFraction : IsFraction fraction) (isExponent : IsExponent exponent) :
    numberPiece (digits ++ (fraction ++ exponent)) =
      ⟨if fraction = [] ∧ exponent = [] then .integer else .float,
        (digits ++ (fraction ++ exponent)).length, none⟩ := by
  have behindFraction : (digits ++ (fraction ++ exponent)).drop (digits.length + fraction.length) =
      exponent := by
    rw [← List.append_assoc, ← List.length_append, List.drop_left]
  simp only [numberPiece, takeWhile_digits areDigits (isFraction.stops isExponent), List.drop_left,
    isFraction.length isExponent, behindFraction, isExponent.length, List.length_eq_zero_iff,
    List.length_append]
  rw [Nat.add_assoc]

theorem isBlank_of_isDigit {c : Char} (digit : c.isDigit = true) : isBlank c = false := by
  have code := code_of_isDigit digit
  simp only [isBlank, Bool.or_eq_false_iff, Bool.and_eq_false_iff, decide_eq_false_iff_not,
    beq_eq_false_iff_ne]
  omega

/-- A number begins like neither a blank nor a name. -/
theorem pieceAt_of_isDigit {delimiter : Delimiter} {c : Char} (digit : c.isDigit = true) :
    pieceAt delimiter c rest = numberPiece (c :: rest) := by
  have code := code_of_isDigit digit
  have notName : beginsName c = false := by
    refine Bool.eq_false_iff.mpr fun begins => ?_
    have name := code_of_beginsName begins
    omega
  rw [pieceAt, isBlank_of_isDigit digit, notName, digit]
  rfl

theorem isPiece_of_parts (areDigits : isDigits digits = true) (isFraction : IsFraction fraction)
    (isExponent : IsExponent exponent) :
    Word.IsPiece ⟨if fraction = [] ∧ exponent = [] then .integer else .float,
      String.ofList (digits ++ (fraction ++ exponent))⟩ := by
  have isNumber := numberPiece_of_parts areDigits isFraction isExponent
  obtain ⟨first, others, rfl, isDigit, -⟩ := isDigits_eq_true areDigits
  have isLexeme : (String.ofList (first :: others ++ (fraction ++ exponent))).toList =
      first :: (others ++ (fraction ++ exponent)) := String.toList_ofList
  refine isPiece_of_pieceAt isLexeme (isBlank_of_isDigit isDigit) ?_ fun delimiter => ?_
  · dsimp only
    split <;> rfl
  · rw [pieceAt_of_isDigit isDigit]
    exact isNumber

end Numbers

/-! ### Literals -/

section Literals

variable {quote : Char} {body : List Char}

/-- The body ends before the first quote that is not escaped. -/
theorem LiteralBody.closed (isBody : LiteralBody quote body) (notBackslash : quote ≠ '\\')
    (rest : List Char) :
    closedBodyLength? quote (body ++ quote :: rest) = some (body.length + 1) := by
  induction isBody with
  | nothing => simp [closedBodyLength?, notBackslash]
  | plain notQuote plain _ inductionHypothesis =>
      simp [closedBodyLength?, plain, notQuote, inductionHypothesis]
  | escaped c _ inductionHypothesis =>
      simp [closedBodyLength?, inductionHypothesis]

/-- Escaping leaves no quote alone. -/
theorem literalBody_escape (quote : Char) (text : List Char) :
    LiteralBody quote (escape quote text) := by
  induction text with
  | nil => exact .nothing
  | cons c text inductionHypothesis =>
      rw [escape]
      split
      · exact .escaped c inductionHypothesis
      · rename_i plain
        exact .plain (fun isQuote => plain (.inr isQuote)) (fun isBackslash => plain (.inl isBackslash))
          inductionHypothesis

/-- A literal is read up to its closing quote, whatever stands behind that. -/
theorem pieceAt_of_literal (isQuote : quote = '\'' ∨ quote = '"') (isBody : LiteralBody quote body)
    (delimiter : Delimiter) (rest : List Char) :
    pieceAt delimiter quote (body ++ quote :: rest) = ⟨.string, body.length + 2, none⟩ := by
  have notBackslash : quote ≠ '\\' := by
    rcases isQuote with rfl | rfl <;> decide
  have isString : pieceAt delimiter quote (body ++ quote :: rest) =
      stringPiece delimiter quote (body ++ quote :: rest) := by
    rcases isQuote with rfl | rfl <;> rfl
  rw [isString, stringPiece, isBody.closed notBackslash rest]
  exact congrArg (Piece.mk .string · none) (Nat.add_comm _ _)

end Literals

/-! ### Sequences of words -/

/-- However it is written, a lexeme is read as the word that it is, where blanks stand around it. -/
theorem Lexeme.isPiece {word : Word} (lexeme : Lexeme word) : word.IsPiece := by
  cases lexeme with
  | name named => exact (standsAlone_name named).toIsPiece
  | symbol symbol => exact isPiece_symbol symbol
  | integer areDigits => simpa using isPiece_of_parts areDigits .nothing .nothing
  | float areDigits isFraction isExponent notInteger =>
      have isPiece := isPiece_of_parts areDigits isFraction isExponent
      rwa [if_neg notInteger] at isPiece
  | @literal quote body isQuote isBody =>
      have isLexeme : (String.ofList (quote :: (body ++ [quote]))).toList = quote :: (body ++ [quote]) :=
        String.toList_ofList
      have notBlank : isBlank quote = false := by
        rcases isQuote with rfl | rfl <;> decide
      refine isPiece_of_pieceAt isLexeme notBlank rfl fun delimiter => ?_
      rw [pieceAt_of_literal isQuote isBody, List.length_append]
      rfl

/-- Where nothing stands behind a tag, its words are all there is, even if it begins a verbatim
body. -/
theorem words_scanFrom_of_last {delimiter : Delimiter} {cursor : Cursor} {words : List Word}
    (nonempty : cursor.rest ≠ []) (isWhole : scanConstruct cursor = scanWholeTag delimiter cursor)
    (spelled : Spelled (scanTag delimiter cursor.position [] (cursor.skip (openerLength cursor)))
      words []) :
    (scanFrom cursor).tokens.map wordOf =
        wordOf (cursor.cut (delimiter.startKind (hasMarker cursor)) (openerLength cursor)) ::
          (words ++ [⟨.endOfInput, ""⟩]) ∧
      (scanFrom cursor).problems = [] := by
  have noBody : distanceTo endsVerbatim [] = 0 := rfl
  obtain ⟨isTokens, quiet, isLast⟩ : (scanWholeTag delimiter cursor).1.tokens =
      cursor.cut (delimiter.startKind (hasMarker cursor)) (openerLength cursor) ::
        (scanTag delimiter cursor.position [] (cursor.skip (openerLength cursor))).scan.tokens ∧
      (scanWholeTag delimiter cursor).1.problems = [] ∧
      (scanWholeTag delimiter cursor).2.rest = [] := by
    unfold scanWholeTag
    dsimp only
    split
    · rw [spelled.rest, noBody]
      refine ⟨?_, ?_, spelled.rest⟩
      · simp [scanText, Scan.nothing, Scan.one]
      · simp [scanText, Scan.nothing, Scan.one, spelled.quiet]
    · simp [Scan.one, spelled.quiet, spelled.rest]
  rw [scanFrom, dif_neg nonempty, isWhole, scanFrom, dif_pos isLast, Scan.tokens_append,
    Scan.problems_append, List.map_append, isTokens, quiet, List.map_cons, spelled.words]
  exact ⟨rfl, rfl⟩

/-- A tag of lexemes with single blanks between them is scanned to these words, to the blanks and to
its delimiters. Blanks at its end are no different. The end of an output is not read inside a map. -/
theorem scan_lexemes (delimiter : Delimiter) {words : List Word} {blanks : List Char}
    (lexemes : ∀ word ∈ words, Lexeme word) (areBlank : blanks.all isBlank = true)
    (noMap : delimiter = .output → (bracketsBehind [] words).head? ≠ some .leftBrace) :
    let source := String.ofList (delimiter.opener ++
      (Fragment.spaced words ++ ' ' :: (blanks ++ delimiter.closer)))
    (scan source).tokens.map wordOf =
        ⟨delimiter.startKind false, String.ofList delimiter.opener⟩ ::
          (words.flatMap fun word => [.blanks [' '], word]) ++
            [.blanks (' ' :: blanks), ⟨delimiter.endKind false, String.ofList delimiter.closer⟩,
              ⟨.endOfInput, ""⟩] ∧
      (scan source).problems = [] := by
  intro source
  have isRest : (Cursor.ofText source).rest = delimiter.opener ++
      (Fragment.spaced words ++ ' ' :: (blanks ++ (delimiter.closer ++ []))) := by
    rw [Cursor.ofText, String.toList_ofList, List.append_nil]
  obtain ⟨behind, isBehind⟩ :=
    Fragment.exists_behind_spaced words (blanks ++ (delimiter.closer ++ []))
  have opens : (Cursor.ofText source).rest = delimiter.opener ++ ' ' :: behind :=
    isRest.trans (by rw [isBehind])
  obtain ⟨isWhole, noMarker, dropped⟩ := scanConstruct_of_opener opens
  have isLength : openerLength (Cursor.ofText source) = 2 := by
    rw [openerLength, noMarker]
    rfl
  have pieces : ∀ word ∈ words, word.IsPiece := fun word member => (lexemes word member).isPiece
  have isInside : ((Cursor.ofText source).skip 2).rest =
      Fragment.spaced words ++ ' ' :: (blanks ++ (delimiter.closer ++ [])) := by
    rw [Cursor.skip, dropped, isBehind]
  have spelled : Spelled (scanTag delimiter (Cursor.ofText source).position []
      ((Cursor.ofText source).skip 2)) _ [] :=
    spelled_scanTag pieces areBlank (fun both => noMap both.1 both.2) isInside
  rw [← isLength] at spelled
  have nonempty : (Cursor.ofText source).rest ≠ [] := by
    rw [opens]
    cases delimiter <;> exact List.cons_ne_nil _ _
  obtain ⟨isWords, quiet⟩ := words_scanFrom_of_last nonempty isWhole spelled
  refine ⟨?_, quiet⟩
  have isOpening : wordOf ((Cursor.ofText source).cut (delimiter.startKind false) 2) =
      ⟨delimiter.startKind false, String.ofList delimiter.opener⟩ := by
    rw [Cursor.cut, opens]
    cases delimiter <;> rfl
  rw [scan, isWords, noMarker, isLength, isOpening, Word.apart]
  simp

/-- Braces in a literal and braces that close no open one do not end an output; a name of the
language, a number and two symbols in a row are told apart. -/
theorem scan_lexemes_mixed :
    let words : List Word := [.symbol .leftBrace, ⟨.string, "'\x7d\x7d \\''"⟩, .symbol .leftParen,
      ⟨.float, "1_0.5e-3"⟩, .symbol .rightBrace, .symbol .starStar, .symbol .star, .symbol .rightParen,
      ⟨.integer, "7_"⟩, .symbol .rightBrace, .name "raw"]
    let source := "\x7b\x7b \x7b '\x7d\x7d \\'' ( 1_0.5e-3 \x7d ** * ) 7_ \x7d raw \x7d\x7d"
    (∀ word ∈ words, Lexeme word) ∧ [].all isBlank = true ∧
      (Delimiter.output = .output → (bracketsBehind [] words).head? ≠ some .leftBrace) ∧
      (scan source).tokens.map wordOf = ⟨.variableStart false, "\x7b\x7b"⟩ ::
          (words.flatMap fun word => [⟨.blank, " "⟩, word]) ++
            [⟨.blank, " "⟩, ⟨.variableEnd false, "\x7d\x7d"⟩, ⟨.endOfInput, ""⟩] ∧
      (scan source).problems = [] := by
  intro words source
  have literal : Lexeme ⟨.string, "'\x7d\x7d \\''"⟩ :=
    .literal (.inl rfl) (literalBody_escape '\'' "\x7d\x7d '".toList)
  have areDigits : isDigits ['1', '_', '0'] = true ∧ isDigits ['5'] = true := by decide
  have isDigit : ('3').isDigit = true ∧ ([] : List Char).all Char.isDigit = true := by decide
  have float : Lexeme ⟨.float, "1_0.5e-3"⟩ :=
    .float areDigits.1 (.point areDigits.2) (.power (.inl rfl) (.inr (.inr rfl)) isDigit.1 isDigit.2)
      nofun
  have integer : Lexeme ⟨.integer, "7_"⟩ := .integer rfl
  have lexemes : ∀ word ∈ words, Lexeme word := by
    simp only [words, List.forall_mem_cons]
    exact ⟨.symbol _, literal, .symbol _, float, .symbol _, .symbol _, .symbol _, .symbol _, integer,
      .symbol _, .name (by decide), nofun⟩
  have noBlanks : [].all isBlank = true := rfl
  have noMap : Delimiter.output = .output → (bracketsBehind [] words).head? ≠ some .leftBrace := by
    decide
  have isSource : String.ofList (Delimiter.output.opener ++
      (Fragment.spaced words ++ ' ' :: ([] ++ Delimiter.output.closer))) = source := by
    decide
  obtain ⟨isTokens, quiet⟩ := scan_lexemes .output lexemes noBlanks noMap
  rw [isSource] at isTokens quiet
  exact ⟨lexemes, noBlanks, noMap, isTokens, quiet⟩

end Stencil.Grammar
