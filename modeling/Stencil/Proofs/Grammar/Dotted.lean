import Stencil.Proofs.Grammar.Lexeme
import Stencil.Proofs.Grammar.SoleOutput

/-!
Contract: a name with points behind it, name by name and number by number.

Owns:
- paths of names and plain integers, as text and as the words that scanning makes of it: two
  integers in a row are one float;
- the chain of attributes and items that a path stands for;
- the template that prints a path, whatever its segments are.

Does not own: single attributes and items (`Stencil.Proofs.Grammar.Precedence`).
-/

set_option autoImplicit false

namespace Stencil.Grammar

open Stencil.Decimal (digitsValue maxInt)
open Stencil.Syntax
open Stencil.Text (Position Span isBlank)
open Stencil.Token
open Levels Read

/-! ### Paths -/

/-- What may stand behind a point: a name, or an integer of 64 bits in plain digits. -/
inductive PathSegment where
  | name (text : String) (named : isName text = true)
  | number (digits : List Char) (nonempty : digits ≠ []) (areDigits : digits.all Char.isDigit = true)
      (fits : digitsValue 0 digits < 2 ^ 63)

/-- The expression that one segment makes of a value: its attribute, or its item. -/
def PathSegment.on (value : Expr) : PathSegment → Expr
  | .name text _ => .attribute value text default
  | .number digits _ _ _ => .item value (.literal (.int (digitsValue 0 digits)) default) default

def PathSegment.chars : PathSegment → List Char
  | .name text _ => '.' :: text.toList
  | .number digits _ _ _ => '.' :: digits

/-- The expression that a path stands for: its segments are applied in order. -/
def pathExpr (name : String) (path : List PathSegment) : Expr :=
  path.foldl PathSegment.on (.name name default)

/-- A path inside an output tag, with blanks before and behind it. -/
def pathChars (lead : List Char) (name : String) (path : List PathSegment) (trail : List Char) :
    List Char :=
  lead ++ (name.toList ++ (path.flatMap PathSegment.chars ++ trail))

/-- The words of segments. The point between two numbers belongs to the float that they look like. -/
def pathWords : List PathSegment → List Word
  | [] => []
  | .name text _ :: rest => .symbol .dot :: .name text :: pathWords rest
  | .number first _ _ _ :: .number second _ _ _ :: rest =>
      .symbol .dot :: ⟨.float, String.ofList (first ++ '.' :: second)⟩ :: pathWords rest
  | .number digits _ _ _ :: rest =>
      .symbol .dot :: ⟨.integer, String.ofList digits⟩ :: pathWords rest

/-! ### Scanning -/

section Scanning

variable {c : Char} {digits first second rest trail : List Char} {path : List PathSegment}

theorem isDigits_of_all (nonempty : digits ≠ []) (areDigits : digits.all Char.isDigit = true) :
    isDigits digits = true := by
  cases digits with
  | nil => contradiction
  | cons first digits =>
      obtain ⟨isDigit, areDigits⟩ := Bool.and_eq_true_iff.mp areDigits
      have continues (c : Char) (member : c ∈ digits) : continuesNumber c = true := by
        rw [continuesNumber, List.all_eq_true.mp areDigits c member]
        rfl
      rw [isDigits, isDigit, List.all_eq_true.mpr continues]
      rfl

theorem not_digit_of_not_name (notName : continuesName c = false) : c.isDigit = false := by
  rw [continuesName, Char.isAlphanum, Bool.or_eq_false_iff, Bool.or_eq_false_iff] at notName
  exact notName.1.2

theorem not_number_of_not_name (notName : continuesName c = false) : continuesNumber c = false := by
  have notDigit := not_digit_of_not_name notName
  rw [continuesName, Bool.or_eq_false_iff] at notName
  rw [continuesNumber, notDigit, notName.2]
  rfl

theorem exponentLength_of_stop (stops : ∀ c ∈ rest.head?, continuesName c = false) :
    exponentLength rest = 0 := by
  match rest with
  | [] => rfl
  | [_] => rfl
  | c :: _ :: _ =>
      have notName := stops c rfl
      have notLetter : ¬ (c = 'e' ∨ c = 'E') := by
        rintro (rfl | rfl) <;> revert notName <;> decide
      simp [exponentLength, notLetter]

/-- Digits with no fraction behind them are an integer. -/
theorem numberPiece_of_digits (areDigits : isDigits digits = true)
    (stops : ∀ c ∈ rest.head?, continuesName c = false) (noFraction : fractionLength rest = 0) :
    numberPiece (digits ++ rest) = ⟨.integer, digits.length, none⟩ := by
  have whole := takeWhile_digits areDigits fun c isHead => not_number_of_not_name (stops c isHead)
  simp only [numberPiece, whole, List.drop_left, noFraction, Nat.add_zero,
    exponentLength_of_stop stops, and_self, if_true]

/-- Two numbers with a point between them are a float, whatever stands behind the second one. -/
theorem numberPiece_of_point (areDigits : isDigits first = true) (areMore : isDigits second = true)
    (stops : ∀ c ∈ rest.head?, continuesName c = false) :
    numberPiece (first ++ '.' :: (second ++ rest)) =
      ⟨.float, (first ++ '.' :: second).length, none⟩ := by
  have atPoint : ∀ c ∈ ('.' :: (second ++ rest)).head?, continuesNumber c = false := by
    intro c isHead
    cases isHead
    decide
  have whole := takeWhile_digits areDigits atPoint
  have behindPoint := takeWhile_digits areMore fun c isHead => not_number_of_not_name (stops c isHead)
  obtain ⟨digit, others, rfl, isDigit, continues⟩ := isDigits_eq_true areMore
  have isFraction : fractionLength ('.' :: (digit :: others ++ rest)) = others.length + 2 := by
    have taken : (others ++ rest).takeWhile continuesNumber = others := by
      rw [takeWhile_append_of_stop fun c isHead => not_number_of_not_name (stops c isHead),
        List.takeWhile_eq_self_iff.mpr (List.all_eq_true.mp continues)]
    rw [List.cons_append, fractionLength, if_pos isDigit, taken, Nat.add_comm]
  have behind : (first ++ '.' :: (digit :: others ++ rest)).drop (first.length + (others.length + 2)) =
      rest := by
    have split : first ++ '.' :: (digit :: others ++ rest) =
        (first ++ '.' :: digit :: others) ++ rest := by simp
    have isLength : first.length + (others.length + 2) =
        (first ++ '.' :: digit :: others).length := by simp
    rw [split, isLength, List.drop_left]
  simp only [numberPiece, whole, List.drop_left, isFraction, behind, exponentLength_of_stop stops,
    Nat.add_zero]
  simp

/-- Behind a segment there is a point, a blank or the end of the tag. -/
theorem head_behind_segment (rest : List Char) (trail_blank : trail.all isBlank = true)
    (path : List PathSegment) :
    ∀ c ∈ (path.flatMap PathSegment.chars ++ (trail ++ (Delimiter.output.closer ++ rest))).head?,
      continuesName c = false := by
  intro c isHead
  cases path with
  | nil =>
      cases trail with
      | nil =>
          cases isHead
          decide
      | cons blank trail =>
          cases isHead
          exact continuesName_of_isBlank (Bool.and_eq_true_iff.mp trail_blank).1
  | cons segment path =>
      have isPoint : c = '.' := by
        cases segment <;> cases isHead <;> rfl
      rw [isPoint]
      decide

theorem fractionLength_of_ne (notPoint : c ≠ '.') : fractionLength (c :: rest) = 0 := by
  unfold fractionLength
  split
  · rename_i isPoint
    exact (notPoint (List.cons.inj isPoint).1).elim
  · rfl

/-- Only a number behind the point makes a fraction. -/
theorem fractionLength_behind_segment (trail_blank : trail.all isBlank = true)
    (noNumber : ∀ digits nonempty areDigits fits others,
      path = .number digits nonempty areDigits fits :: others → False) :
    fractionLength (path.flatMap PathSegment.chars ++ (trail ++ (Delimiter.output.closer ++ rest))) =
      0 := by
  cases path with
  | nil =>
      cases trail with
      | nil => exact fractionLength_of_ne (by decide)
      | cons blank trail =>
          refine fractionLength_of_ne ?_
          rintro rfl
          exact absurd (Bool.and_eq_true_iff.mp trail_blank).1 (by decide)
  | cons segment path =>
      cases segment with
      | number => exact (noNumber _ _ _ _ _ rfl).elim
      | name text named =>
          obtain ⟨first, others, isText, begins, -⟩ := exists_of_isName named
          have notDigit : first.isDigit = false := by
            refine Bool.eq_false_iff.mpr fun isDigit => ?_
            have code := code_of_isDigit isDigit
            have letter := code_of_beginsName begins
            omega
          rw [List.flatMap_cons, PathSegment.chars, isText]
          show (if first.isDigit then _ else 0) = 0
          rw [notDigit]
          rfl

variable {opened : Position} {cursor : Cursor} {words : List Word} {behind : List Char}

/-- A point is read alone, a digit behind it or not. -/
theorem inside_of_point (isRest : cursor.rest = '.' :: behind)
    (inside : Inside (scanTag .output opened [] (cursor.skip 1)) words rest) :
    Inside (scanTag .output opened [] cursor) (.symbol .dot :: words) rest := by
  have isLexeme : (Word.symbol .dot).lexeme.toList = '.' :: [] := rfl
  have isPiece : pieceAt .output '.' ([] ++ behind) = ⟨.symbol .dot, 1, none⟩ := by
    cases behind <;> rfl
  exact inside_of_piece isLexeme rfl (by decide) isRest isPiece inside

/-- A number is read where its piece ends. -/
theorem inside_of_number {kind : Kind} {text : List Char} (isDigit : ∀ c ∈ text.head?, c.isDigit = true)
    (nonempty : text ≠ []) (inner : kind = .integer ∨ kind = .float)
    (isPiece : numberPiece (text ++ behind) = ⟨kind, text.length, none⟩)
    (isRest : cursor.rest = text ++ behind)
    (inside : Inside (scanTag .output opened [] (cursor.skip text.length)) words rest) :
    Inside (scanTag .output opened [] cursor) (⟨kind, String.ofList text⟩ :: words) rest := by
  cases text with
  | nil => exact (nonempty rfl).elim
  | cons first others =>
      have digit : first.isDigit = true := isDigit first rfl
      have plain : first ∉ ['-', '%', '{', '}'] := by
        intro member
        simp only [List.mem_cons, List.not_mem_nil, or_false] at member
        rcases member with rfl | rfl | rfl | rfl <;> revert digit <;> decide
      have matters : kind.isTrivia = false ∧ bracketsAfter [] kind = [] := by
        rcases inner with rfl | rfl <;> exact ⟨rfl, rfl⟩
      have isNumber : pieceAt .output first (others ++ behind) =
          numberPiece (first :: (others ++ behind)) := pieceAt_of_isDigit digit
      refine inside_of_piece String.toList_ofList matters.1 plain isRest (isNumber.trans isPiece) ?_
      rw [matters.2]
      exact inside

/-- The segments of a path are read up to the end of the tag, two numbers in a row at once. -/
theorem inside_path (trail_blank : trail.all isBlank = true)
    (isRest : cursor.rest =
      path.flatMap PathSegment.chars ++ (trail ++ (Delimiter.output.closer ++ rest))) :
    Inside (scanTag .output opened [] cursor)
      (pathWords path ++ [⟨.variableEnd false, String.ofList Delimiter.output.closer⟩]) rest := by
  fun_induction pathWords path generalizing cursor with
  | case1 =>
      have noMap : ¬ (Delimiter.output = .output ∧ ([] : List Symbol).head? = some .leftBrace) :=
        fun both => nomatch both.2
      refine inside_of_blanks trail_blank ?_ isRest
        (inside_closer noMap (rest_skip_of_append isRest))
      intro c isHead
      cases isHead
      decide
  | case2 text named path inductionHypothesis =>
      have stops := head_behind_segment rest trail_blank path
      rw [List.flatMap_cons, PathSegment.chars, List.append_assoc] at isRest
      have atName := rest_skip_of_cons isRest
      exact inside_of_point isRest
        (inside_of_name named stops atName (inductionHypothesis (rest_skip_of_append atName)))
  | case3 first nonempty areDigits fits second nonemptySecond areMore fitsSecond path
      inductionHypothesis =>
      have stops := head_behind_segment rest trail_blank path
      have digits := isDigits_of_all nonempty areDigits
      have isPiece :=
        numberPiece_of_point digits (isDigits_of_all nonemptySecond areMore) stops
      have isRest : cursor.rest = '.' :: ((first ++ '.' :: second) ++
          (path.flatMap PathSegment.chars ++ (trail ++ (Delimiter.output.closer ++ rest)))) := by
        rw [isRest]
        simp [PathSegment.chars]
      have atNumber := rest_skip_of_cons isRest
      have isDigit : ∀ c ∈ (first ++ '.' :: second).head?, c.isDigit = true := by
        intro c isHead
        cases first with
        | nil => contradiction
        | cons digit first =>
            cases isHead
            exact (Bool.and_eq_true_iff.mp areDigits).1
      refine inside_of_point isRest (inside_of_number isDigit (by simp) (.inr rfl) ?_ atNumber
        (inductionHypothesis (rest_skip_of_append atNumber)))
      rw [List.append_assoc]
      exact isPiece
  | case4 digits nonempty areDigits fits path noNumber inductionHypothesis =>
      have stops := head_behind_segment rest trail_blank path
      have isPiece := numberPiece_of_digits (isDigits_of_all nonempty areDigits) stops
        (fractionLength_behind_segment trail_blank noNumber)
      rw [List.flatMap_cons, PathSegment.chars, List.append_assoc] at isRest
      have atNumber := rest_skip_of_cons isRest
      have isDigit : ∀ c ∈ digits.head?, c.isDigit = true := fun c isHead =>
        List.all_eq_true.mp areDigits c (List.mem_of_head? isHead)
      exact inside_of_point isRest (inside_of_number isDigit nonempty (.inl rfl) isPiece atNumber
        (inductionHypothesis (rest_skip_of_append atNumber)))

/-- A path in an output tag is scanned to its name and the words of its segments. -/
theorem scannedAs_path {lead : List Char} {name : String} (lead_blank : lead.all isBlank = true)
    (named : isName name = true) (trail_blank : trail.all isBlank = true) :
    ScannedAs (outputTag (pathChars lead name path trail))
      (outputWords false false (.name name :: pathWords path)) := by
  have begins := beginsName_of_named named
  obtain ⟨first, others, isName, -⟩ := exists_of_isName named
  have headOfName {behind : List Char} : ∀ c ∈ (name.toList ++ behind).head?, beginsName c = true := by
    intro c isHead
    rw [isName] at isHead begins
    exact begins c isHead
  refine scannedAs_outputTag ?_ fun opened cursor isRest => ?_
  · intro isMarker
    cases lead with
    | nil => exact absurd (headOfName '-' isMarker) (by decide)
    | cons blank lead =>
        cases isMarker
        exact absurd (Bool.and_eq_true_iff.mp lead_blank).1 (by decide)
  · rw [pathChars, List.append_assoc, List.append_assoc, List.append_assoc] at isRest
    have atName := rest_skip_of_append isRest
    exact inside_of_blanks lead_blank (fun c isHead => isBlank_of_beginsName (headOfName c isHead))
      isRest (inside_of_name named (head_behind_segment [] trail_blank path) atName
        (inside_path trail_blank (rest_skip_of_append atName)))

end Scanning

/-! ### Reading -/

section Reading

variable {inner : Levels} {tape : Tape} {value : Expr} {first digits rest : List Char}

theorem segmentKey_of_digits (nonempty : digits ≠ []) (areDigits : digits.all Char.isDigit = true)
    (fits : digitsValue 0 digits < 2 ^ 63) :
    segmentKey digits = .int (digitsValue 0 digits) := by
  have bounded : (digitsValue 0 digits : Int) ≤ maxInt := by
    rw [maxInt]
    omega
  rw [segmentKey, Decimal.integer?_of_digits nonempty areDigits bounded]

theorem no_point_of_digits (areDigits : digits.all Char.isDigit = true) : '.' ∉ digits :=
  fun member => absurd (List.all_eq_true.mp areDigits _ member) (by decide)

theorem segments_of_plain (plain : '.' ∉ first) : segments first = [first] := by
  induction first with
  | nil => rfl
  | cons c first inductionHypothesis =>
      rw [List.mem_cons, not_or] at plain
      rw [segments, if_neg (Ne.symm plain.1), inductionHypothesis plain.2]

theorem segments_append_point (plain : '.' ∉ first) :
    segments (first ++ '.' :: rest) = first :: segments rest := by
  induction first with
  | nil => rw [List.nil_append, segments, if_pos rfl]
  | cons c first inductionHypothesis =>
      rw [List.mem_cons, not_or] at plain
      rw [List.cons_append, segments, if_neg (Ne.symm plain.1), inductionHypothesis plain.2]

theorem run_chainTurn_of_point (isPoint : tape.current.kind = .symbol .dot) (value : Expr) :
    (chainTurn inner value).run tape = (Turn.again <$> attributeOf value).run tape := by
  simp only [chainTurn, run_bind, run_peek, isPoint]

/-- Behind a point the segments of a number are items, one of the other. -/
theorem run_attributeOf_of_number
    (isNumber : tape.advance.current.kind = .integer ∨ tape.advance.current.kind = .float)
    (value : Expr) :
    ∃ result, result.unplaced = (segments tape.advance.current.lexeme.toList).foldl
        (fun value segment => .item value (.literal (segmentKey segment) default) default)
        value.unplaced ∧
      (attributeOf value).run tape = (result, tape.advance.advance) := by
  let token := tape.advance.current
  let keys := segments token.lexeme.toList
  let result := keys.foldl (fun value segment =>
    .item value (.literal (segmentKey segment) token.span) (value.span.cover token.span)) value
  refine ⟨result, ?_, ?_⟩
  · show result.unplaced = keys.foldl _ _
    simp only [result]
    generalize keys = keys
    induction keys generalizing value with
    | nil => rfl
    | cons key keys inductionHypothesis =>
        rw [List.foldl_cons, List.foldl_cons, inductionHypothesis]
        rfl
  · rcases isNumber with isKind | isKind <;>
      simp only [Levels.attributeOf, run_bind, run_advance, run_peek, isKind, run_pure] <;> rfl

/-- The turns of a chain read a path segment by segment. -/
theorem settles_path (inner : Levels) {path : List PathSegment} (shown : tape.Shows (pathWords path))
    (ends : (tape.past (pathWords path)).EndsAt .chain) (value : Expr) :
    ∃ result, result.unplaced = path.foldl PathSegment.on value.unplaced ∧
      Settles (chainTurn inner) value tape result (tape.past (pathWords path)) := by
  fun_induction pathWords path generalizing tape value with
  | case1 => exact ⟨value, rfl, .done (run_chainTurn_of_endsAt ends value)⟩
  | case2 text named path inductionHypothesis =>
      obtain ⟨span, reads⟩ := run_attributeOf_of_name shown.tail.kind value
      rw [shown.tail.lexeme] at reads
      obtain ⟨result, same, settles⟩ := inductionHypothesis shown.tail.tail ends
        (.attribute value text span)
      refine ⟨result, same, .again ?_ ?_ settles⟩
      · rw [run_chainTurn_of_point shown.isSymbol, run_map, reads]
        rfl
      · exact Tape.Shows.shorter (show tape.Shows ([.symbol .dot] ++ _) from shown)
  | case3 first nonempty areDigits fits second nonemptySecond areMore fitsSecond path
      inductionHypothesis =>
      obtain ⟨next, sameNext, reads⟩ := run_attributeOf_of_number (.inr shown.tail.kind) value
      have areSegments : segments (String.ofList (first ++ '.' :: second)).toList = [first, second] := by
        rw [String.toList_ofList, segments_append_point (no_point_of_digits areDigits),
          segments_of_plain (no_point_of_digits areMore)]
      rw [shown.tail.lexeme, areSegments, List.foldl_cons, List.foldl_cons, List.foldl_nil,
        segmentKey_of_digits nonempty areDigits fits,
        segmentKey_of_digits nonemptySecond areMore fitsSecond] at sameNext
      obtain ⟨result, same, settles⟩ := inductionHypothesis shown.tail.tail ends next
      refine ⟨result, ?_, .again ?_ ?_ settles⟩
      · rw [same, sameNext]
        rfl
      · rw [run_chainTurn_of_point shown.isSymbol, run_map, reads]
      · exact Tape.Shows.shorter (show tape.Shows ([.symbol .dot] ++ _) from shown)
  | case4 digits nonempty areDigits fits path noNumber inductionHypothesis =>
      obtain ⟨next, sameNext, reads⟩ := run_attributeOf_of_number (.inl shown.tail.kind) value
      have areSegments : segments (String.ofList digits).toList = [digits] := by
        rw [String.toList_ofList, segments_of_plain (no_point_of_digits areDigits)]
      rw [shown.tail.lexeme, areSegments, List.foldl_cons, List.foldl_nil,
        segmentKey_of_digits nonempty areDigits fits] at sameNext
      obtain ⟨result, same, settles⟩ := inductionHypothesis shown.tail.tail ends next
      refine ⟨result, ?_, .again ?_ ?_ settles⟩
      · rw [same, sameNext]
        rfl
      · rw [run_chainTurn_of_point shown.isSymbol, run_map, reads]
      · exact Tape.Shows.shorter (show tape.Shows ([.symbol .dot] ++ _) from shown)

/-- A path up to the end of a tag is read as the chain that it stands for. -/
theorem run_expression_of_path {name : String} {path : List PathSegment} (free : name ∉ reservedNames)
    (shown : tape.Shows (.name name :: pathWords path))
    (closes : (tape.past (.name name :: pathWords path)).current.kind.isTagEnd = true) :
    ∃ value, value.unplaced = pathExpr name path ∧
      expression.run tape = (value, tape.past (.name name :: pathWords path)) := by
  have isKind : tape.current.kind = .name := shown.kind
  have notNegation : tape.current.isName "not" ≠ true := by
    intro isNot
    have isText : name = "not" := congrArg Word.lexeme (shown.1.symm.trans (isName_eq_true.mp isNot))
    exact free (isText ▸ by decide)
  have notSign : tape.current.kind ≠ .symbol .minus ∧ tape.current.kind ≠ .symbol .plus := by
    simp [isKind]
  have ends := Tape.endsAt_of_isTagEnd .conditional closes
  obtain ⟨result, same, settles⟩ := settles_path (nested (tape.following.length + 1))
    shown.tail (ends.tighten (by decide)) (.name name tape.current.span)
  have reads : (chainLevel (nested (tape.following.length + 1))).run tape =
      (result, tape.past (.name name :: pathWords path)) := by
    simp only [chainLevel, run_bind, run_operand_of_name free shown.1]
    exact run_loop_of_settles settles
  refine ⟨result, same, ?_⟩
  rw [expression, run_withNesting]
  exact run_conditionalLevel_of_chain notNegation notSign reads ends

end Reading

/-- A tag with a path in it prints the chain that applies the segments of the path in order: for a
name the attribute, for an integer the item. That two integers in a row are scanned as one float
makes no difference, and nothing is wrong with the tag. The name may be any that does not begin or
go on with an operator and does not stand for a literal. -/
theorem parse_path (register : Register) (templateName : String) {lead trail : List Char}
    {name : String} (lead_blank : lead.all isBlank = true) (trail_blank : trail.all isBlank = true)
    (named : isName name = true) (free : name ∉ reservedNames) (path : List PathSegment) :
    let source := outputTag (pathChars lead name path trail)
    ∃ value span, (parse register templateName source).template.body = [.output value span] ∧
      value.unplaced = pathExpr name path ∧
      (parse register templateName source).problems = [] := by
  intro source
  obtain ⟨value, span, same, isBody, quiet⟩ := parse_of_reads register templateName
    (scannedAs_path lead_blank named trail_blank)
    fun tape shown closes => run_expression_of_path free shown closes
  exact ⟨value, span, isBody, same, quiet⟩

/-- Three integers in a row, a name that looks like an exponent, one that looks like a word of the
language, and the largest integer. -/
theorem parse_path_mixed :
    let source := "\x7b\x7b x.1.02.3.e1.9223372036854775807.if \x7d\x7d"
    let item (value : Expr) (index : Int) : Expr := .item value (.literal (.int index) default) default
    [' '].all isBlank = true ∧ isName "x" = true ∧ "x" ∉ reservedNames ∧
      ∃ value span, (parse .empty "path" source).template.body = [.output value span] ∧
        value.unplaced = .attribute (item (.attribute
          (item (item (item (.name "x" default) 1) 2) 3) "e1" default) 9223372036854775807)
            "if" default ∧
        (parse .empty "path" source).problems = [] := by
  intro source item
  let path : List PathSegment :=
    [.number ['1'] (by decide) (by decide) (by decide),
      .number ['0', '2'] (by decide) (by decide) (by decide),
      .number ['3'] (by decide) (by decide) (by decide), .name "e1" (by decide),
      .number "9223372036854775807".toList (by decide) (by decide) (by decide),
      .name "if" (by decide)]
  have blank : [' '].all isBlank = true := by decide
  have named : isName "x" = true ∧ "x" ∉ reservedNames := by decide
  have isSource : outputTag (pathChars [' '] "x" path [' ']) = source := by decide
  have parsed := parse_path .empty "path" blank blank named.1 named.2 path
  rw [isSource] at parsed
  exact ⟨blank, named.1, named.2, parsed⟩

end Stencil.Grammar
