import Mathlib
import Stencil.Proofs.Grammar.Lexeme
import Stencil.Proofs.Grammar.Spelling

/-!
Contract: every number that is found in a text has a value.

Owns:
- what stands inside a tag is a piece of the text, and pieces that are numbers are written so;
- without its underscores, the text of a number can be read as a decimal number;
- the literal that a number stands for as an operand: an integer if it is written as one and takes
  at most 64 bits, and otherwise a float. Nothing is reported.

Does not own: numbers behind the point of a chain (`Stencil.Proofs.Grammar.Dotted`).
-/

set_option autoImplicit false

namespace Stencil.Token

open Stencil.Text (Position)

/-! ### Pieces of a text -/

/-- Whether a token is a piece of a tag's inside, unless it does not stand inside a tag at all. -/
def IsPieceInside (token : Token) : Prop :=
  token.kind.isInner = true → ∃ delimiter cursor c rest, Cursor.rest cursor = c :: rest ∧
    token = cursor.cut (pieceAt delimiter c rest).kind (pieceAt delimiter c rest).length

theorem isPieceInside_of_not_inner {token : Token} (notInner : token.kind.isInner = false) :
    IsPieceInside token := by
  intro isInner
  rw [notInner] at isInner
  cases isInner

theorem isPieceInside_scanTag (delimiter : Delimiter) (opened : Position) (brackets : List Symbol)
    (cursor : Cursor) :
    ∀ token ∈ (scanTag delimiter opened brackets cursor).scan.tokens, IsPieceInside token := by
  have ending (trim : Bool) : (delimiter.endKind trim).isInner = false := by
    cases delimiter <;> rfl
  fun_induction scanTag delimiter opened brackets cursor with
  | case1 => exact List.forall_mem_singleton.mpr (isPieceInside_of_not_inner (ending _))
  | case2 => exact List.forall_mem_singleton.mpr (isPieceInside_of_not_inner (ending _))
  | case3 => exact List.forall_mem_singleton.mpr (isPieceInside_of_not_inner (ending _))
  | case4 brackets cursor c rest isRest notClosed notOpened piece problems inner
      inductionHypothesis =>
      exact List.forall_mem_cons.mpr
        ⟨fun _ => ⟨delimiter, cursor, c, rest, isRest, rfl⟩, inductionHypothesis⟩

theorem isPieceInside_scanText (cursor : Cursor) (count : Nat) :
    ∀ token ∈ (scanText cursor count).tokens, IsPieceInside token := by
  unfold scanText
  split
  · exact List.forall_mem_nil _
  · exact List.forall_mem_singleton.mpr (isPieceInside_of_not_inner rfl)

theorem isPieceInside_scanWholeTag (delimiter : Delimiter) (cursor : Cursor) :
    ∀ token ∈ (scanWholeTag delimiter cursor).1.tokens, IsPieceInside token := by
  have opening : IsPieceInside
      (cursor.cut (delimiter.startKind (hasMarker cursor)) (openerLength cursor)) := by
    apply isPieceInside_of_not_inner
    cases delimiter <;> rfl
  have whole := List.forall_mem_cons.mpr ⟨opening,
    isPieceInside_scanTag delimiter cursor.position [] (cursor.skip (openerLength cursor))⟩
  unfold scanWholeTag
  dsimp only
  split
  · exact List.forall_mem_append.mpr ⟨whole, isPieceInside_scanText _ _⟩
  · exact whole

theorem isPieceInside_scanConstruct (cursor : Cursor) :
    ∀ token ∈ (scanConstruct cursor).1.tokens, IsPieceInside token := by
  unfold scanConstruct
  split
  · exact isPieceInside_scanWholeTag .output cursor
  · split
    · exact isPieceInside_scanWholeTag .block cursor
    · split
      · unfold scanComment
        dsimp only
        split <;> exact List.forall_mem_singleton.mpr (isPieceInside_of_not_inner rfl)
      · exact isPieceInside_scanText cursor _

/-- Whatever stands inside the tags of a text is a piece of it. -/
theorem isPieceInside_scanFrom (cursor : Cursor) :
    ∀ token ∈ (scanFrom cursor).tokens, IsPieceInside token := by
  fun_induction scanFrom cursor with
  | case1 => exact List.forall_mem_singleton.mpr (isPieceInside_of_not_inner rfl)
  | case2 cursor unfinished inductionHypothesis =>
      exact List.forall_mem_append.mpr ⟨isPieceInside_scanConstruct cursor, inductionHypothesis⟩

/-- Only what begins with a digit is read as a number. -/
theorem pieceAt_of_isNumber {delimiter : Delimiter} {c : Char} {rest : List Char}
    (isNumber : (pieceAt delimiter c rest).kind = .integer ∨
      (pieceAt delimiter c rest).kind = .float) :
    c.isDigit = true ∧ pieceAt delimiter c rest = numberPiece (c :: rest) := by
  unfold pieceAt at isNumber ⊢
  split at isNumber
  · simp at isNumber
  · split at isNumber
    · simp at isNumber
    · split at isNumber
      · rename_i notBlank notName digit
        rw [if_neg notBlank, if_neg notName, if_pos digit]
        exact ⟨digit, rfl⟩
      · exfalso
        split at isNumber
        · unfold stringPiece at isNumber
          split at isNumber <;> simp at isNumber
        · unfold symbolPiece at isNumber
          split at isNumber
          · simp at isNumber
          · split at isNumber <;> simp at isNumber

end Stencil.Token

namespace Stencil.Grammar

open Stencil.Decimal
open Stencil.Syntax
open Stencil.Token
open Levels Read

/-! ### Numbers of a text -/

theorem take_length_takeWhile (test : Char → Bool) (text : List Char) :
    text.take (text.takeWhile test).length = text.takeWhile test :=
  (List.prefix_iff_eq_take.mp (List.takeWhile_prefix test)).symm

/-- A digit goes on with all digits and underscores behind it. -/
theorem isDigits_cons_takeWhile {digit : Char} (isDigit : digit.isDigit = true) (rest : List Char) :
    isDigits (digit :: rest.takeWhile continuesNumber) = true := by
  rw [isDigits, isDigit, List.all_takeWhile]
  rfl

theorem isFraction_take (text : List Char) : IsFraction (text.take (fractionLength text)) := by
  unfold fractionLength
  split
  · rename_i digit rest
    split
    · rename_i isDigit
      rw [Nat.add_comm, List.take_succ_cons, List.take_succ_cons, take_length_takeWhile]
      exact .point (isDigits_cons_takeWhile isDigit rest)
    · exact .nothing
  · exact .nothing

theorem isExponent_take (text : List Char) : IsExponent (text.take (exponentLength text)) := by
  unfold exponentLength
  split
  · rename_i letter sign rest
    split
    · rename_i isLetter
      split
      · rename_i isDigit
        rw [Nat.add_comm, List.take_succ_cons, List.take_succ_cons, take_length_takeWhile]
        exact .power isLetter (.inl rfl) isDigit List.all_takeWhile
      · split
        · rename_i isSign
          split
          · rename_i digit rest
            split
            · rename_i isDigit
              rw [Nat.add_comm, List.take_succ_cons, List.take_succ_cons, List.take_succ_cons,
                take_length_takeWhile]
              have isSigned : [sign] = ['+'] ∨ [sign] = ['-'] := by simpa using isSign
              exact .power isLetter (.inr isSigned) isDigit List.all_takeWhile
            · exact .nothing
          · exact .nothing
        · exact .nothing
    · exact .nothing
  · exact .nothing

/-- A piece that is read as a number is written as one. -/
theorem lexeme_numberPiece {digit : Char} (isDigit : digit.isDigit = true) (rest : List Char) :
    Lexeme ⟨(numberPiece (digit :: rest)).kind,
      String.ofList ((digit :: rest).take (numberPiece (digit :: rest)).length)⟩ := by
  have areDigits : isDigits ((digit :: rest).takeWhile continuesNumber) = true := by
    have continues : continuesNumber digit = true := by
      rw [continuesNumber, isDigit]
      rfl
    rw [List.takeWhile_cons_of_pos continues]
    exact isDigits_cons_takeWhile isDigit rest
  generalize digit :: rest = text at areDigits
  -- the three parts that are measured one after another are cut off in the same order
  let whole := (text.takeWhile continuesNumber).length
  let fraction := fractionLength (text.drop whole)
  let exponent := exponentLength (text.drop (whole + fraction))
  have isFraction : IsFraction ((text.drop whole).take fraction) := isFraction_take _
  have isExponent : IsExponent ((text.drop (whole + fraction)).take exponent) := isExponent_take _
  show Lexeme ⟨if fraction = 0 ∧ exponent = 0 then .integer else .float,
    String.ofList (text.take (whole + fraction + exponent))⟩
  by_cases isInteger : fraction = 0 ∧ exponent = 0
  · rw [if_pos isInteger, isInteger.1, isInteger.2, Nat.add_zero, take_length_takeWhile]
    exact .integer areDigits
  · rw [if_neg isInteger, List.take_add, List.take_add, take_length_takeWhile, List.append_assoc]
    refine .float areDigits isFraction isExponent ?_
    rintro ⟨noFraction, noExponent⟩
    apply isInteger
    have fractionFits := fractionLength_le (text.drop whole)
    have exponentFits := exponentLength_le (text.drop (whole + fraction))
    -- what is measured is there, so a part is empty only if it was measured as nothing
    rw [← List.length_eq_zero_iff, List.length_take] at noFraction noExponent
    omega

/-- The numbers of a text are lexemes. -/
theorem lexeme_of_isNumber {source : String} {token : Token} (member : token ∈ (scan source).tokens)
    (isNumber : token.kind = .integer ∨ token.kind = .float) : Lexeme (wordOf token) := by
  have isInner : token.kind.isInner = true := by
    rcases isNumber with isInteger | isFloat
    · rw [isInteger]
      rfl
    · rw [isFloat]
      rfl
  obtain ⟨delimiter, cursor, c, rest, isRest, rfl⟩ := isPieceInside_scanFrom _ token member isInner
  obtain ⟨isDigit, isPiece⟩ := pieceAt_of_isNumber isNumber
  rw [isPiece, wordOf, Cursor.cut, isRest]
  exact lexeme_numberPiece isDigit rest

/-! ### Numbers without underscores -/

section Decimals

variable {digits fraction exponent : List Char}

/-- The text of a number without the underscores that divide its digits. -/
def undivided (text : List Char) : List Char := text.filter (· != '_')

theorem undivided_of_not_mem {text : List Char} (absent : '_' ∉ text) :
    undivided text = text := by
  refine List.filter_eq_self.mpr fun c member => bne_iff_ne.mpr ?_
  rintro rfl
  exact absent member

theorem undivided_digits (areDigits : isDigits digits = true) :
    undivided digits ≠ [] ∧ (undivided digits).all Char.isDigit = true := by
  obtain ⟨first, others, rfl, isDigit, continues⟩ := isDigits_eq_true areDigits
  have isPlain : undivided (first :: others) = first :: undivided others := by
    refine List.filter_cons_of_pos (bne_iff_ne.mpr ?_)
    rintro rfl
    cases isDigit
  rw [isPlain]
  refine ⟨List.cons_ne_nil _ _, ?_⟩
  rw [List.all_cons, isDigit, Bool.true_and, undivided, List.all_filter, List.all_eq_true]
  intro c member
  have isContinued := List.all_eq_true.mp continues c member
  rw [continuesNumber] at isContinued
  by_cases isUnderscore : c = '_'
  · simp [isUnderscore]
  · simpa [isUnderscore] using isContinued

theorem IsExponent.undivided_eq (isExponent : IsExponent exponent) :
    undivided exponent = exponent := by
  refine undivided_of_not_mem ?_
  cases isExponent with
  | nothing => exact List.not_mem_nil
  | @power letter first sign digits isLetter isSign isDigit areDigits =>
      have noLetter : '_' ≠ letter := by
        rcases isLetter with rfl | rfl <;> decide
      have noSign : '_' ∉ sign := by
        rcases isSign with rfl | rfl | rfl <;> decide
      have noDigit : '_' ∉ first :: digits := by
        intro member
        have areAll := Bool.and_eq_true_iff.mpr ⟨isDigit, areDigits⟩
        exact absurd (List.all_eq_true.mp (List.all_cons ▸ areAll) _ member) (by decide)
      rw [List.mem_cons, List.mem_append, not_or, not_or]
      exact ⟨noLetter, noSign, noDigit⟩

/-- An exponent behind its letter is a number. -/
theorem isSome_exponent? {sign : List Char} {first : Char}
    (isSign : sign = [] ∨ sign = ['+'] ∨ sign = ['-']) (isDigit : first.isDigit = true)
    (areDigits : digits.all Char.isDigit = true) :
    (Scientific.exponent? (sign ++ first :: digits)).isSome = true := by
  have isNatural : natural? (first :: digits) = some (digitsValue 0 (first :: digits)) := by
    refine natural?_of_digits (List.cons_ne_nil _ _) ?_
    rw [List.all_cons, isDigit, areDigits]
    rfl
  rcases isSign with rfl | rfl | rfl
  · have noSign : first ≠ '+' ∧ first ≠ '-' := by
      constructor <;> (rintro rfl; cases isDigit)
    simp [Scientific.exponent?, noSign, isNatural]
  · simp [Scientific.exponent?, isNatural]
  · simp [Scientific.exponent?, isNatural]

theorem takeWhile_digits_append {behind : List Char} (areDigits : digits.all Char.isDigit = true)
    (stops : ∀ c ∈ behind.head?, c.isDigit = false) :
    (digits ++ behind).takeWhile Char.isDigit = digits ∧
      (digits ++ behind).dropWhile Char.isDigit = behind := by
  have areAll := List.all_eq_true.mp areDigits
  rw [takeWhile_append_of_stop stops, dropWhile_append_of_stop stops,
    List.takeWhile_eq_self_iff.mpr areAll, List.dropWhile_eq_nil_iff.mpr areAll]
  exact ⟨rfl, rfl⟩

theorem IsExponent.stops_digits (isExponent : IsExponent exponent) :
    ∀ c ∈ exponent.head?, c.isDigit = false := by
  intro c isHead
  have stops := isExponent.stops c isHead
  rw [continuesNumber, Bool.or_eq_false_iff] at stops
  exact stops.1

/-- Digits, perhaps a point with digits behind it, and perhaps an exponent are a decimal number. -/
theorem isSome_float?_of_parts {whole : List Char} (nonempty : whole ≠ [])
    (areDigits : whole.all Char.isDigit = true)
    (isFraction : fraction = [] ∨
      ∃ digits, fraction = '.' :: digits ∧ digits.all Char.isDigit = true)
    (isExponent : IsExponent exponent) :
    (float? (whole ++ (fraction ++ exponent))).isSome = true := by
  rw [float?, Option.isSome_map, Scientific.read?]
  rcases isFraction with rfl | ⟨digits, rfl, areMore⟩
  · obtain ⟨taken, dropped⟩ := takeWhile_digits_append areDigits isExponent.stops_digits
    rw [List.nil_append, taken, dropped]
    cases isExponent with
    | nothing => simp [natural?_of_digits nonempty areDigits]
    | power isLetter isSign isDigit areLast =>
        obtain ⟨power, isPower⟩ :=
          Option.isSome_iff_exists.mp (isSome_exponent? isSign isDigit areLast)
        rcases isLetter with rfl | rfl <;> simp [natural?_of_digits nonempty areDigits, isPower]
  · have stops : ∀ c ∈ ('.' :: digits ++ exponent).head?, c.isDigit = false := by
      intro c isHead
      cases isHead
      decide
    obtain ⟨taken, dropped⟩ := takeWhile_digits_append areDigits stops
    obtain ⟨takenMore, droppedMore⟩ := takeWhile_digits_append areMore isExponent.stops_digits
    have areAll : (whole ++ digits).all Char.isDigit = true := by
      rw [List.all_append, areDigits, areMore]
      rfl
    have notEmpty : whole ++ digits ≠ [] := List.append_ne_nil_of_left_ne_nil nonempty _
    rw [taken, dropped]
    cases isExponent with
    | nothing =>
        rw [List.append_nil] at takenMore droppedMore
        simp [takenMore, droppedMore, natural?_of_digits notEmpty areAll]
    | power isLetter isSign isDigit areLast =>
        obtain ⟨power, isPower⟩ :=
          Option.isSome_iff_exists.mp (isSome_exponent? isSign isDigit areLast)
        rcases isLetter with rfl | rfl <;>
          simp [takenMore, droppedMore, natural?_of_digits notEmpty areAll, isPower]

/-- The text of an integer is made of digits, once its underscores are gone. -/
theorem digits_of_integer {text : String} (lexeme : Lexeme ⟨.integer, text⟩) :
    undivided text.toList ≠ [] ∧ (undivided text.toList).all Char.isDigit = true := by
  cases lexeme with
  | integer areDigits =>
      rw [String.toList_ofList]
      exact undivided_digits areDigits

/-- The text of a float is a decimal number, once its underscores are gone. -/
theorem isSome_float?_of_float {text : String} (lexeme : Lexeme ⟨.float, text⟩) :
    (float? (undivided text.toList)).isSome = true := by
  cases lexeme with
  | @float digits fraction exponent areDigits isFraction isExponent notInteger =>
      obtain ⟨nonempty, arePlain⟩ := undivided_digits areDigits
      have isPlain : undivided (digits ++ (fraction ++ exponent)) =
          undivided digits ++ (undivided fraction ++ exponent) := by
        rw [undivided, List.filter_append, List.filter_append, ← undivided, ← undivided,
          ← undivided, isExponent.undivided_eq]
      rw [String.toList_ofList, isPlain]
      refine isSome_float?_of_parts nonempty arePlain ?_ isExponent
      cases isFraction with
      | nothing => exact .inl rfl
      | @point digits areMore => exact .inr ⟨undivided digits, rfl, (undivided_digits areMore).2⟩

/-- Digits that are worth too much are no integer of 64 bits. -/
theorem integer?_of_large (nonempty : digits ≠ []) (areDigits : digits.all Char.isDigit = true)
    (isLarge : 2 ^ 63 ≤ digitsValue 0 digits) : integer? digits = none := by
  have exceeds : ¬(digitsValue 0 digits : Int) ≤ maxInt := by
    rw [maxInt]
    omega
  rw [integer?, natural?_of_digits nonempty areDigits]
  exact if_neg exceeds

end Decimals

/-! ### Operands -/

section Operands

variable {token : Token} {tape : Tape} {number : Float}

/-- Whether a point stands behind the token under the head that no name and no number follows. -/
def Tape.EndsInPoint (tape : Tape) : Prop :=
  (tape.ahead 1).kind = .symbol .dot ∧ (tape.ahead 2).kind ∉ [.name, .integer, .float]

instance (tape : Tape) : Decidable tape.EndsInPoint := inferInstanceAs (Decidable (_ ∧ _))

theorem run_numberValue_of_float (isNumber : float? (undivided token.lexeme.toList) = some number)
    (tape : Tape) : (numberValue token true).run tape = (.float number, tape) := by
  rw [undivided] at isNumber
  simp only [numberValue, if_true, isNumber]
  rfl

theorem run_numberValue_of_fits (nonempty : undivided token.lexeme.toList ≠ [])
    (areDigits : (undivided token.lexeme.toList).all Char.isDigit = true)
    (fits : digitsValue 0 (undivided token.lexeme.toList) < 2 ^ 63) (tape : Tape) :
    (numberValue token false).run tape =
      (.int (digitsValue 0 (undivided token.lexeme.toList)), tape) := by
  have isInteger := integer?_of_digits nonempty areDigits (by rw [maxInt]; omega)
  rw [undivided] at isInteger
  simp only [numberValue, Bool.false_eq_true, if_false, isInteger]
  rfl

theorem run_numberValue_of_large (nonempty : undivided token.lexeme.toList ≠ [])
    (areDigits : (undivided token.lexeme.toList).all Char.isDigit = true)
    (isLarge : 2 ^ 63 ≤ digitsValue 0 (undivided token.lexeme.toList))
    (isNumber : float? (undivided token.lexeme.toList) = some number) (tape : Tape) :
    (numberValue token false).run tape = (.float number, tape) := by
  have noInteger := integer?_of_large nonempty areDigits isLarge
  rw [undivided] at noInteger isNumber
  simp only [numberValue, Bool.false_eq_true, if_false, noInteger, isNumber]
  rfl

/-- An integer is read together with a point that ends it, and otherwise alone. -/
theorem run_integerOperand_eq (token : Token) (tape : Tape) :
    (integerOperand token).run tape =
      if tape.EndsInPoint then
        (do return Expr.literal (← numberValue token true) (token.span.cover (tape.ahead 1).span) :
          Read Expr).run tape.advance.advance
      else
        (do return Expr.literal (← numberValue token false) token.span : Read Expr).run
          tape.advance := by
  simp only [integerOperand, run_bind, run_advance, run_peekAhead, Tape.ahead_one, run_atSymbol,
    Tape.EndsInPoint, Tape.ahead_two, run_ite]
  by_cases isPoint : tape.advance.current.kind = .symbol .dot
  -- what stands behind the point decides whether it belongs to a chain
  · generalize tape.advance.advance.current.kind = next
    cases next <;> simp [isPoint]
  · simp [isPoint]

section Integer

variable {value : Literal} (inner : Levels) (isInteger : tape.current.kind = .integer)
include isInteger

/-- An integer with a point that ends it is read as a float. -/
theorem run_operand_of_point (ends : tape.EndsInPoint)
    (isNumber : float? (undivided tape.current.lexeme.toList) = some number) :
    (operand inner).run tape =
      (.literal (.float number) (tape.current.span.cover (tape.ahead 1).span),
        tape.advance.advance) := by
  simp only [operand, run_bind, run_peek, isInteger, run_integerOperand_eq, if_pos ends,
    run_numberValue_of_float isNumber, run_pure]

/-- An integer without such a point is read as its token has it. -/
theorem run_operand_of_alone (alone : ¬tape.EndsInPoint)
    (isValue : (numberValue tape.current false).run tape.advance = (value, tape.advance)) :
    (operand inner).run tape = (.literal value tape.current.span, tape.advance) := by
  simp only [operand, run_bind, run_peek, isInteger, run_integerOperand_eq, if_neg alone, isValue,
    run_pure]

end Integer

theorem run_operand_of_float (inner : Levels) (isFloat : tape.current.kind = .float)
    (isNumber : float? (undivided tape.current.lexeme.toList) = some number) :
    (operand inner).run tape =
      (.literal (.float number) tape.current.span, tape.advance) := by
  simp only [operand, run_bind, run_peek, isFloat, run_advance,
    run_numberValue_of_float isNumber, run_pure]

/-- Where a number of a text is read as an operand, nothing is reported. An integer of 64 bits
stands for itself, unless a point ends it. Then, and if it is too large, it stands for a float, just
like a number that is written as a float. -/
theorem numbers_valued {source : String} {tape : Tape} (inner : Levels)
    (isToken : tape.current ∈ (scan source).tokens)
    (isNumber : tape.current.kind = .integer ∨ tape.current.kind = .float) :
    let token := tape.current
    let digits := undivided token.lexeme.toList
    let value := Nat.ofDigitChars 10 digits 0
    let result := (operand inner).run tape
    result.2.problems = tape.problems ∧
      (token.kind = .integer →
        (digits ≠ [] ∧ digits.all Char.isDigit = true) ∧
        (¬tape.EndsInPoint → value < 2 ^ 63 →
          result = (.literal (.int value) token.span, tape.advance)) ∧
        (¬tape.EndsInPoint → 2 ^ 63 ≤ value →
          ∃ number, float? digits = some number ∧
            result = (.literal (.float number) token.span, tape.advance)) ∧
        (tape.EndsInPoint →
          ∃ number, float? digits = some number ∧
            result = (.literal (.float number) (token.span.cover (tape.ahead 1).span),
              tape.advance.advance))) ∧
      (token.kind = .float →
        ∃ number, float? digits = some number ∧
          result = (.literal (.float number) token.span, tape.advance)) := by
  intro token digits value result
  have lexeme : Lexeme ⟨token.kind, token.lexeme⟩ := lexeme_of_isNumber isToken isNumber
  rcases isNumber with isInteger | isFloat
  · have notFloat : token.kind ≠ .float := by
      rw [isInteger]
      exact nofun
    obtain ⟨nonempty, areDigits⟩ := digits_of_integer (isInteger ▸ lexeme)
    obtain ⟨number, isNumber⟩ := Option.isSome_iff_exists.mp (float?_of_digits nonempty areDigits)
    have pointed (ends : tape.EndsInPoint) := run_operand_of_point inner isInteger ends isNumber
    have fitting (alone : ¬tape.EndsInPoint) (fits : value < 2 ^ 63) :=
      run_operand_of_alone inner isInteger alone
        (run_numberValue_of_fits nonempty areDigits fits tape.advance)
    have large (alone : ¬tape.EndsInPoint) (isLarge : 2 ^ 63 ≤ value) :=
      run_operand_of_alone inner isInteger alone
        (run_numberValue_of_large nonempty areDigits isLarge isNumber tape.advance)
    refine ⟨?_, fun _ => ⟨⟨nonempty, areDigits⟩, fitting, ?_, ?_⟩, (absurd · notFloat)⟩
    · by_cases ends : tape.EndsInPoint
      · rw [show result = _ from pointed ends, Tape.problems_advance, Tape.problems_advance]
      · rcases Nat.lt_or_ge value (2 ^ 63) with fits | isLarge
        · rw [show result = _ from fitting ends fits, Tape.problems_advance]
        · rw [show result = _ from large ends isLarge, Tape.problems_advance]
    · exact fun alone isLarge => ⟨number, isNumber, large alone isLarge⟩
    · exact fun ends => ⟨number, isNumber, pointed ends⟩
  · have notInteger : token.kind ≠ .integer := by
      rw [isFloat]
      exact nofun
    obtain ⟨number, isNumber⟩ :=
      Option.isSome_iff_exists.mp (isSome_float?_of_float (isFloat ▸ lexeme))
    have reads := run_operand_of_float inner isFloat isNumber
    refine ⟨?_, (absurd · notInteger), fun _ => ⟨number, isNumber, reads⟩⟩
    rw [show result = _ from reads, Tape.problems_advance]

/-- An integer alone, one that a point ends, one that is too large, and a float. -/
theorem numbers_valued_in_row :
    let source := "\x7b\x7b 1_0, 1_0., 9223372036854775808, 1_0.5_e+3 \x7d\x7d"
    let alone := (Tape.ofTokens (scan source).tokens).advance
    let pointed := alone.advance.advance
    let large := pointed.advance.advance.advance
    let float := large.advance.advance
    let inner : Levels := ⟨pure default, pure default, pure default, pure default⟩
    (operand inner).run alone = (.literal (.int 10) alone.current.span, alone.advance) ∧
      (∃ number, float? "10".toList = some number ∧
        (operand inner).run pointed =
          (.literal (.float number) (pointed.current.span.cover (pointed.ahead 1).span),
            pointed.advance.advance)) ∧
      (∃ number, float? "9223372036854775808".toList = some number ∧
        (operand inner).run large = (.literal (.float number) large.current.span, large.advance)) ∧
      ∃ number, float? "10.5e+3".toList = some number ∧
        (operand inner).run float =
          (.literal (.float number) float.current.span, float.advance) := by
  intro source alone pointed large float inner
  have areTokens : alone.current ∈ (scan source).tokens ∧ pointed.current ∈ (scan source).tokens ∧
      large.current ∈ (scan source).tokens ∧ float.current ∈ (scan source).tokens := by
    decide +kernel
  have kinds : alone.current.kind = .integer ∧ pointed.current.kind = .integer ∧
      large.current.kind = .integer ∧ float.current.kind = .float := by
    decide +kernel
  have ends : ¬alone.EndsInPoint ∧ pointed.EndsInPoint ∧ ¬large.EndsInPoint := by
    decide +kernel
  have texts : undivided alone.current.lexeme.toList = "10".toList ∧
      undivided pointed.current.lexeme.toList = "10".toList ∧
      undivided large.current.lexeme.toList = "9223372036854775808".toList ∧
      undivided float.current.lexeme.toList = "10.5e+3".toList := by
    decide +kernel
  obtain ⟨-, ofAlone, -⟩ := numbers_valued inner areTokens.1 (.inl kinds.1)
  obtain ⟨-, ofPointed, -⟩ := numbers_valued inner areTokens.2.1 (.inl kinds.2.1)
  obtain ⟨-, ofLarge, -⟩ := numbers_valued inner areTokens.2.2.1 (.inl kinds.2.2.1)
  obtain ⟨-, -, ofFloat⟩ := numbers_valued inner areTokens.2.2.2 (.inr kinds.2.2.2)
  rw [texts.1] at ofAlone
  rw [texts.2.1] at ofPointed
  rw [texts.2.2.1] at ofLarge
  rw [texts.2.2.2] at ofFloat
  refine ⟨(ofAlone kinds.1).2.1 ends.1 (by decide), (ofPointed kinds.2.1).2.2.2 ends.2.1, ?_,
    ofFloat kinds.2.2.2⟩
  exact (ofLarge kinds.2.2.1).2.2.1 ends.2.2 (by decide)

end Operands

end Stencil.Grammar
