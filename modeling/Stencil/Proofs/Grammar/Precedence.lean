import Stencil.Proofs.Grammar.Operand

/-!
Contract: every expression that is written as it is reads back.

Owns:
- the links of a chain: attributes, items, calls, filters and tests;
- operators, which bind as their levels say;
- the reading of a whole expression, and of a template that prints one.

Does not own: statements (`Stencil.Proofs.Grammar.Statement`).
-/

set_option autoImplicit false

namespace Stencil.Grammar

open Stencil.Syntax
open Stencil.Syntax.Expr (argumentWords)
open Stencil.Text (Span)
open Stencil.Token (Kind Symbol)
open Levels Read

/-! ### Names with points -/

theorem settles_dottedTurn {parts : List String} (name : String) {tape : Tape}
    (shown : tape.Shows ((parts.map fun part => [Word.name part]).flatMap (.symbol .dot :: ·)))
    (noPoint : (tape.past ((parts.map fun part => [Word.name part]).flatMap
      (.symbol .dot :: ·))).current.kind ≠ .symbol .dot) :
    Settles dottedTurn name tape (parts.foldl joinParts name)
      (tape.past ((parts.map fun part => [Word.name part]).flatMap (.symbol .dot :: ·))) := by
  induction parts generalizing name tape with
  | nil =>
      refine .done ?_
      have noPoint : tape.current.kind ≠ .symbol .dot := noPoint
      simp only [dottedTurn, run_bind, run_peekAhead, run_atSymbol, beq_eq_false_iff_ne.mpr noPoint,
        Bool.false_and, Bool.false_eq_true, if_false, run_pure]
      rfl
  | cons part rest inductionHypothesis =>
      have words : ((part :: rest).map fun part => [Word.name part]).flatMap (.symbol .dot :: ·) =
          .symbol .dot :: .name part ::
            (rest.map fun part => [Word.name part]).flatMap (.symbol .dot :: ·) := rfl
      rw [words] at shown noPoint ⊢
      have isName : tape.advance.current.kind = .name := shown.tail.kind
      have isPart : tape.advance.current.lexeme = part := shown.tail.lexeme
      have shorter : tape.advance.advance.following.length < tape.following.length :=
        Tape.Shows.shorter (show tape.Shows ([.symbol .dot] ++ _) from shown)
      refine .again ?_ shorter
        (inductionHypothesis (joinParts name part) shown.tail.tail noPoint)
      simp only [dottedTurn, run_bind, run_peekAhead, Tape.ahead_one, run_atSymbol, shown.isSymbol,
        isName, beq_self_eq_true, Bool.and_self, if_true, run_advance, isPart, run_pure]
      rfl

/-- A name with points reads back, whatever its parts are. -/
theorem run_dottedName {what text : String} {tape : Tape} (shown : tape.Shows (Word.dotted text))
    (noPoint : (tape.past (Word.dotted text)).current.kind ≠ .symbol .dot) :
    (dottedName what).run tape = (text, tape.past (Word.dotted text)) := by
  obtain ⟨first, rest, areParts, joined⟩ := nameParts_joined text
  have words : Word.dotted text =
      .name first :: (rest.map fun part => [Word.name part]).flatMap (.symbol .dot :: ·) := by
    rw [Word.dotted, areParts]
    rfl
  rw [words] at shown noPoint ⊢
  have isName : tape.current.kind = .name := shown.kind
  have isFirst : tape.current.lexeme = first := shown.lexeme
  have settles := settles_dottedTurn first shown.tail noPoint
  rw [joined] at settles
  simp only [dottedName, run_bind, run_expectName_of_present isName, isFirst,
    run_loop_of_settles settles]
  rfl

/-! ### Links and operators -/

/-- A level that carries an expression carries what one more link or operator makes of it. -/
theorem Carries.link {inner : Levels} {level : Level} {value whole : Expr}
    (carries : Carries inner level value) {first : Word} {link : List Word}
    (words : whole.written = value.written ++ first :: link)
    (ends : ∀ tape : Tape, tape.Shows (first :: link) → tape.EndsAt level.tighter)
    (turns : ∀ (given : Expr) (tape : Tape), given.unplaced = value.unplaced →
      tape.Shows (first :: link) → (tape.past (first :: link)).EndsAt level.tighter →
        ∃ next, next.unplaced = whole.unplaced ∧
          (levelTurn inner level given).run tape = (.again next, tape.past (first :: link))) :
    Carries inner level whole := by
  intro tape shown behind
  rw [words] at shown behind ⊢
  rw [Tape.past_append] at behind ⊢
  obtain ⟨shownValue, shownLink⟩ := (Tape.shows_append _ _ _).mp shown
  obtain ⟨given, same, goesOn⟩ := carries tape shownValue (ends _ shownLink)
  obtain ⟨next, sameWhole, turn⟩ := turns given _ same shownLink behind
  refine ⟨next, sameWhole, fun result final settles => goesOn result final (.again turn ?_ settles)⟩
  have passed := shownLink.length_following
  rw [List.length_cons] at passed
  omega

theorem Tape.Shows.endsAt {tape : Tape} {word : Word} {words : List Word} {level other : Level}
    (shown : tape.Shows (word :: words)) (continues : ∀ next, word.continuation? next = some other)
    (looser : ¬ level ≤ other) : tape.EndsAt level := by
  refine Tape.endsAt_of_continuation ?_ looser
  rw [shown.1]
  exact continues _

theorem Tape.Shows.endsAt_pair {tape : Tape} {word next : Word} {words : List Word}
    {level other : Level} (shown : tape.Shows (word :: next :: words))
    (continues : word.continuation? next = some other) (looser : ¬ level ≤ other) :
    tape.EndsAt level := by
  refine Tape.endsAt_of_continuation ?_ looser
  rw [shown.1, shown.tail.1]
  exact continues

/-! ### The chain -/

/-- Behind a point a name is an attribute. -/
theorem run_attributeOf_of_name {tape : Tape} (isName : tape.advance.current.kind = .name)
    (value : Expr) :
    ∃ span, (attributeOf value).run tape =
      (.attribute value tape.advance.current.lexeme span, tape.advance.advance) := by
  refine ⟨value.span.cover tape.advance.current.span, ?_⟩
  simp only [Levels.attributeOf, run_bind, run_advance, run_peek, isName, run_pure]

theorem carries_attribute {inner : Levels} {value : Expr} (attr : String) (span : Span)
    (carries : Carries inner .chain value) : Carries inner .chain (.attribute value attr span) := by
  have continues : (Word.symbol .dot).continuation? (.name attr) = some .chain := rfl
  refine carries.link rfl (fun tape shown => shown.endsAt_pair continues (by decide)) ?_
  intro given tape same shown _
  obtain ⟨attrSpan, reads⟩ := run_attributeOf_of_name shown.tail.kind given
  rw [shown.tail.lexeme] at reads
  refine ⟨.attribute given attr attrSpan, congrArg (Expr.attribute · attr default) same, ?_⟩
  simp only [levelTurn, chainTurn, run_bind, run_peek, shown.isSymbol, run_map, reads]
  rfl

theorem carries_item {inner : Levels} {value index : Expr} (span : Span)
    (carries : Carries inner .chain value) (givenIndex : GivesItem inner.expression index) :
    Carries inner .chain (.item value index span) := by
  refine carries.link rfl (fun tape shown => shown.endsAt (fun _ => rfl) (by decide)) ?_
  intro given tape same shown _
  obtain ⟨shownIndex, shownClosing⟩ := (Tape.shows_append _ _ _).mp shown.tail
  obtain ⟨key, reads, sameIndex⟩ :=
    givenIndex.gives _ shownIndex (shownClosing.delimited (by decide))
  refine ⟨.item given key ?_, ?same, ?run⟩
  case run =>
    simp only [levelTurn, chainTurn, run_bind, run_peek, shown.isSymbol, run_map, subscriptOf,
      run_advance, reads, run_expectSymbol_of_present shownClosing.isSymbol, run_previousSpan,
      run_pure, Tape.past_cons, Tape.past_append]
    rfl
  case same =>
    show Expr.item given.unplaced key.unplaced default = _
    rw [same, sameIndex]
    rfl

theorem carries_call {inner : Levels} {callee : Expr} {args : List Expr} (span : Span)
    (carries : Carries inner .chain callee)
    (givenArgs : ∀ arg ∈ args, GivesItem (argument inner.expression) arg) :
    Carries inner .chain (.call callee args span) := by
  refine carries.link (Expr.written_call callee args span)
    (fun tape shown => shown.endsAt (fun _ => rfl) (by decide)) ?_
  intro given tape same shown _
  obtain ⟨values, sameArgs, reads⟩ := run_arguments givenArgs shown
  refine ⟨.call given values ?_, ?same, ?run⟩
  case run =>
    simp only [levelTurn, chainTurn, run_bind, run_peek, shown.isSymbol, run_map, callOf, reads,
      run_previousSpan, run_pure]
    rfl
  case same => rw [Expr.unplaced_call, Expr.unplaced_call, same, sameArgs]

theorem run_filterCall {inner : Levels} {text : String} {args : List Expr}
    (givenArgs : ∀ arg ∈ args, GivesItem (argument inner.expression) arg) {tape : Tape}
    (shown : tape.Shows (Word.dotted text ++ argumentWords args)) :
    ∃ values span, values.map Expr.unplaced = args.map Expr.unplaced ∧
      (Levels.filterCall inner).run tape =
        (⟨text, values, span⟩, tape.past (Word.dotted text ++ argumentWords args)) := by
  obtain ⟨shownName, shownArgs⟩ := (Tape.shows_append _ _ _).mp shown
  have opening : (tape.past (Word.dotted text)).current.kind = .symbol .leftParen :=
    shownArgs.isSymbol
  have noPoint : (tape.past (Word.dotted text)).current.kind ≠ .symbol .dot := by
    rw [opening]
    decide
  obtain ⟨values, sameArgs, reads⟩ := run_arguments givenArgs shownArgs
  refine ⟨values, ?_, sameArgs, ?run⟩
  case run =>
    rw [Tape.past_append]
    simp only [Levels.filterCall, run_bind, run_peek, run_dottedName shownName noPoint,
      run_atSymbol, opening, beq_self_eq_true, if_true, reads, run_spanFrom, run_pure]
    rfl

theorem carries_filter {inner : Levels} {value : Expr} {text : String} {args : List Expr}
    (callSpan span : Span) (carries : Carries inner .chain value)
    (givenArgs : ∀ arg ∈ args, GivesItem (argument inner.expression) arg) :
    Carries inner .chain (.filter value text args callSpan span) := by
  refine carries.link (Expr.written_filter value text args callSpan span)
    (fun tape shown => shown.endsAt (fun _ => rfl) (by decide)) ?_
  intro given tape same shown _
  obtain ⟨values, callSpan, sameArgs, reads⟩ := run_filterCall givenArgs shown.tail
  refine ⟨.filter given text values callSpan ?_, ?same, ?run⟩
  case run =>
    simp only [levelTurn, chainTurn, run_bind, run_peek, shown.isSymbol, run_advance, reads,
      run_pure]
    rfl
  case same => rw [Expr.unplaced_filter, Expr.unplaced_filter, same, sameArgs]

/-- Behind the beginning of a test, the name of one is no negation. -/
theorem run_takeWord_of_affirmative {text : String}
    (affirmative : (nameParts text).head? ≠ some "not") {tape : Tape}
    (shown : tape.Shows (Word.dotted text)) :
    (takeWord "not").run tape = (false, tape) := by
  obtain ⟨first, rest, areParts, _⟩ := nameParts_joined text
  rw [Word.dotted, areParts] at shown
  have isFirst : wordOf tape.current = .name first := shown.1
  have notNegation : tape.current.isName "not" ≠ true := by
    intro isNot
    rw [isName_eq_true, isFirst] at isNot
    exact affirmative (by rw [areParts]; exact congrArg some (congrArg Word.lexeme isNot))
  rw [run_takeWord, if_neg notNegation]

/-- A test is given back behind what has been found out about its negation. -/
theorem run_testOf {inner : Levels} {negated : Bool} {text : String} {args : List Expr}
    (givenArgs : ∀ arg ∈ args, GivesItem (argument inner.expression) arg) {start tape : Tape}
    (takes : (takeWord "not").run start.advance = (negated, tape))
    (shown : tape.Shows (Word.dotted text ++ argumentWords args)) (value : Expr) :
    ∃ values span, values.map Expr.unplaced = args.map Expr.unplaced ∧
      (testOf inner value).run start =
        (.test value negated text values span,
          tape.past (Word.dotted text ++ argumentWords args)) := by
  obtain ⟨shownName, shownArgs⟩ := (Tape.shows_append _ _ _).mp shown
  have opening : (tape.past (Word.dotted text)).current.kind = .symbol .leftParen :=
    shownArgs.isSymbol
  have noPoint : (tape.past (Word.dotted text)).current.kind ≠ .symbol .dot := by
    rw [opening]
    decide
  obtain ⟨values, sameArgs, reads⟩ := run_arguments givenArgs shownArgs
  refine ⟨values, ?_, sameArgs, ?run⟩
  case run =>
    rw [Tape.past_append]
    simp only [testOf, run_bind, run_advance, takes, run_dottedName shownName noPoint, run_peek,
      Token.isSymbol, opening, beq_self_eq_true, if_true, reads, run_previousSpan, run_pure]
    rfl

theorem carries_test {inner : Levels} {value : Expr} {negated : Bool} {text : String}
    {args : List Expr} (span : Span) (affirmative : (nameParts text).head? ≠ some "not")
    (carries : Carries inner .chain value)
    (givenArgs : ∀ arg ∈ args, GivesItem (argument inner.expression) arg) :
    Carries inner .chain (.test value negated text args span) := by
  have turn {start : Tape} (isIs : wordOf start.current = .name "is") (given : Expr) :
      (levelTurn inner .chain given).run start = (Turn.again <$> testOf inner given).run start := by
    have isName : start.current.kind = .name := congrArg Word.kind isIs
    simp only [levelTurn, chainTurn, run_bind, run_peek, isName, run_atWord,
      if_pos (isName_eq_true.mpr isIs)]
  have same {given : Expr} {values : List Expr} (callSpan : Span)
      (sameValue : given.unplaced = value.unplaced)
      (sameArgs : values.map Expr.unplaced = args.map Expr.unplaced) :
      (Expr.test given negated text values callSpan).unplaced =
        (Expr.test value negated text args span).unplaced := by
    rw [Expr.unplaced_test, Expr.unplaced_test, sameValue, sameArgs]
  cases negated with
  | false =>
      refine carries.link (Expr.written_test value false text args span)
        (fun tape shown => shown.endsAt (fun _ => rfl) (by decide)) ?_
      intro given tape sameValue shown _
      obtain ⟨shownName, _⟩ := (Tape.shows_append _ (Word.dotted text) _).mp shown.tail
      obtain ⟨values, testSpan, sameArgs, reads⟩ := run_testOf givenArgs
        (run_takeWord_of_affirmative affirmative shownName) shown.tail given
      refine ⟨_, same testSpan sameValue sameArgs, ?_⟩
      rw [turn shown.1, run_map, reads]
      rfl
  | true =>
      refine carries.link (Expr.written_test value true text args span)
        (fun tape shown => shown.endsAt (fun _ => rfl) (by decide)) ?_
      intro given tape sameValue shown _
      have takes : (takeWord "not").run tape.advance = (true, tape.advance.advance) := by
        rw [run_takeWord, if_pos (isName_eq_true.mpr shown.tail.1)]
      obtain ⟨values, testSpan, sameArgs, reads⟩ :=
        run_testOf givenArgs takes shown.tail.tail given
      refine ⟨_, same testSpan sameValue sameArgs, ?_⟩
      rw [turn shown.1, run_map, reads]
      rfl

/-! ### Operators -/

theorem run_leftTurn_of_some {operator? : Token → Option BinaryOp} {op : BinaryOp} {tape : Tape}
    (isOp : operator? tape.current = some op) (tighter : Read Expr) (left : Expr) :
    (leftTurn operator? tighter left).run tape =
      (.again (binary op left (tighter.run tape.advance).1), (tighter.run tape.advance).2) := by
  simp only [leftTurn, run_bind, run_peek, isOp, run_advance, run_pure]

/-- The word of an operator leads to its right operand. -/
theorem run_levelTurn_of_word {inner : Levels} {op : BinaryOp} (proper : op ≠ .power) {tape : Tape}
    (isOp : wordOf tape.current = op.word) (left : Expr) :
    (levelTurn inner op.level left).run tape =
      (.again (binary op left ((levelReader inner op.level.tighter).run tape.advance).1),
        ((levelReader inner op.level.tighter).run tape.advance).2) := by
  have isKind : tape.current.kind = op.word.kind := congrArg Word.kind isOp
  cases op with
  | power => exact (proper rfl).elim
  | or =>
      apply run_leftTurn_of_some
      rw [wordOperator?, if_pos (isName_eq_true.mpr isOp)]
  | and =>
      apply run_leftTurn_of_some
      rw [wordOperator?, if_pos (isName_eq_true.mpr isOp)]
  | concat =>
      apply run_leftTurn_of_some
      rw [concatOperator?, Token.isSymbol, isKind]
      rfl
  | equal | notEqual | less | lessEqual | greater | greaterEqual =>
      apply run_leftTurn_of_some
      rw [comparisonOperator?, isKind]
      rfl
  | add | subtract =>
      apply run_leftTurn_of_some
      rw [sumOperator?, isKind]
      rfl
  | multiply | divide | floorDivide | modulo =>
      apply run_leftTurn_of_some
      rw [productOperator?, isKind]
      rfl

theorem continuation?_word (op : BinaryOp) (next : Word) :
    op.word.continuation? next = some op.level := by
  cases op <;> rfl

theorem carries_binary {inner : Levels} {op : BinaryOp} (proper : op ≠ .power) {left right : Expr}
    (span : Span) (carries : Carries inner op.level left)
    (gives : GivesBack (levelReader inner op.level.tighter) op.level.tighter right) :
    Carries inner op.level (.binary op left right span) := by
  have looser : ¬ op.level.tighter ≤ op.level := by
    cases op <;> decide
  refine carries.link rfl (fun tape shown => shown.endsAt (continuation?_word op) looser) ?_
  intro given tape same shown behind
  obtain ⟨value, reads, sameRight⟩ := gives _ shown.tail behind
  refine ⟨binary op given value, ?_, ?_⟩
  · show Expr.binary op given.unplaced value.unplaced default = _
    rw [same, sameRight]
    rfl
  · rw [run_levelTurn_of_word proper shown.1, reads]
    rfl

theorem carries_membership {inner : Levels} {negated : Bool} {element container : Expr}
    (span : Span) (carries : Carries inner .membership element)
    (gives : GivesBack (concatLevel inner) .concat container) :
    Carries inner .membership (.membership negated element container span) := by
  have same {given value : Expr} (membershipSpan : Span)
      (sameElement : given.unplaced = element.unplaced)
      (sameContainer : value.unplaced = container.unplaced) :
      (Expr.membership negated given value membershipSpan).unplaced =
        (Expr.membership negated element container span).unplaced := by
    show Expr.membership negated given.unplaced value.unplaced default = _
    rw [sameElement, sameContainer]
    rfl
  cases negated with
  | false =>
      refine carries.link rfl (fun tape shown => shown.endsAt (fun _ => rfl) (by decide)) ?_
      intro given tape sameElement shown behind
      obtain ⟨value, reads, sameContainer⟩ := gives _ shown.tail behind
      have isIn : membershipOperator? tape.current tape.advance.current = some false := by
        rw [membershipOperator?, if_pos (isName_eq_true.mpr shown.1)]
      refine ⟨_, same ?_ sameElement sameContainer, ?run⟩
      case run =>
        simp only [levelTurn, membershipTurn, run_bind, run_peek, run_peekAhead, Tape.ahead_one,
          isIn, run_advance, Bool.false_eq_true, if_false, reads, run_pure]
        rfl
  | true =>
      have continues : (Word.name "not").continuation? (.name "in") = some .membership := rfl
      refine carries.link rfl (fun tape shown => shown.endsAt_pair continues (by decide)) ?_
      intro given tape sameElement shown behind
      obtain ⟨value, reads, sameContainer⟩ := gives _ shown.tail.tail behind
      have notIn : tape.current.isName "in" ≠ true := by
        rw [ne_eq, isName_eq_true, shown.1]
        decide
      have isNotIn : membershipOperator? tape.current tape.advance.current = some true := by
        rw [membershipOperator?, if_neg notIn, if_pos (by
          rw [Bool.and_eq_true, isName_eq_true, isName_eq_true]
          exact ⟨shown.1, shown.tail.1⟩)]
      refine ⟨_, same ?_ sameElement sameContainer, ?run⟩
      case run =>
        simp only [levelTurn, membershipTurn, run_bind, run_peek, run_peekAhead, Tape.ahead_one,
          isNotIn, run_advance, if_true, reads, run_pure]
        rfl

theorem givesBack_power {inner : Levels} {left right : Expr} (span : Span)
    (givesLeft : GivesBack (chainLevel inner) .chain left)
    (givesRight : GivesBack inner.signed .sign right) :
    GivesBack (powerLevel inner) .power (.binary .power left right span) := by
  intro tape shown ends
  rw [Expr.written] at shown ends ⊢
  rw [Tape.past_append] at ends ⊢
  obtain ⟨shownLeft, shownRight⟩ := (Tape.shows_append _ _ _).mp shown
  obtain ⟨base, readsBase, sameBase⟩ := givesLeft tape shownLeft
    (shownRight.endsAt (continuation?_word .power) (by decide))
  obtain ⟨exponent, readsExponent, sameExponent⟩ := givesRight _ shownRight.tail ends.at_sign
  refine ⟨binary .power base exponent, ?_, ?_⟩
  · simp only [powerLevel, run_bind, readsBase, run_takeSymbol, if_pos shownRight.isSymbol, if_true,
      readsExponent, run_pure]
    rfl
  · show Expr.binary .power base.unplaced exponent.unplaced default = _
    rw [sameBase, sameExponent]
    rfl

theorem run_signedLevel_of_word {inner : Levels} {op : UnaryOp} (isSign : op ≠ .not) {tape : Tape}
    (isOp : tape.current.kind = op.word.kind) :
    (signedLevel inner).run tape =
      (.unary op (inner.signed.run tape.advance).1
        (tape.current.span.cover (inner.signed.run tape.advance).1.span),
        (inner.signed.run tape.advance).2) := by
  cases op with
  | not => exact (isSign rfl).elim
  | negative =>
      have isMinus : tape.current.kind = .symbol .minus := isOp
      simp only [signedLevel, run_bind, run_peek, isMinus, run_advance, run_pure]
  | positive =>
      have isPlus : tape.current.kind = .symbol .plus := isOp
      simp only [signedLevel, run_bind, run_peek, isPlus, run_advance, run_pure]

theorem givesBack_negation {inner : Levels} {operand : Expr} (span : Span)
    (gives : GivesBack inner.negation .negation operand) :
    GivesBack (negationLevel inner) .negation (.unary .not operand span) := by
  intro tape shown ends
  obtain ⟨value, reads, same⟩ := gives _ shown.tail ends
  refine ⟨.unary .not value ?_, ?run, congrArg (Expr.unary .not · default) same⟩
  case run =>
    show (if tape.current.isName "not" then _ else comparisonLevel inner).run tape = _
    rw [if_pos (isName_eq_true.mpr shown.1)]
    simp only [run_bind, run_advance, reads, run_pure]
    rfl

theorem givesBack_signed {inner : Levels} {op : UnaryOp} (isSign : op ≠ .not) {operand : Expr}
    (span : Span) (gives : GivesBack inner.signed .sign operand) :
    GivesBack (signedLevel inner) .sign (.unary op operand span) := by
  intro tape shown ends
  obtain ⟨value, reads, same⟩ := gives _ shown.tail ends
  refine ⟨.unary op value ?_, ?run, congrArg (Expr.unary op · default) same⟩
  case run =>
    rw [run_signedLevel_of_word isSign shown.kind, reads]
    rfl

theorem givesBack_conditional {inner : Levels} {condition whenTrue : Expr} {otherwise : Option Expr}
    (span : Span) (givesCondition : GivesBack (disjunctionLevel inner) .disjunction condition)
    (givesWhenTrue : GivesBack (disjunctionLevel inner) .disjunction whenTrue)
    (givesOtherwise : ∀ expr, otherwise = some expr →
      GivesBack inner.expression .conditional expr) :
    GivesBack (conditionalLevel inner) .conditional
      (.conditional condition whenTrue otherwise span) := by
  intro tape shown ends
  rw [Expr.written] at shown ends ⊢
  rw [Tape.past_append, Tape.past_cons, Tape.past_append] at ends ⊢
  obtain ⟨shownWhenTrue, shownIf⟩ := (Tape.shows_append _ _ _).mp shown
  obtain ⟨shownCondition, shownOtherwise⟩ := (Tape.shows_append _ _ _).mp shownIf.tail
  obtain ⟨value, readsWhenTrue, sameWhenTrue⟩ := givesWhenTrue tape shownWhenTrue
    (shownIf.endsAt (fun _ => rfl) (by decide))
  have takesIf := isName_eq_true.mpr shownIf.1
  cases otherwise with
  | none =>
      have noElse : ((tape.past whenTrue.written).advance.past condition.written).current.isName
          "else" ≠ true := by
        intro isElse
        have stops := ends.continuation_ne
        rw [Expr.writtenOtherwise, Tape.past_nil, isName_eq_true.mp isElse] at stops
        exact stops rfl
      obtain ⟨test, readsCondition, sameCondition⟩ := givesCondition _ shownCondition
        (ends.tighten (by decide))
      refine ⟨.conditional test value none ?_, ?run, ?same⟩
      case run =>
        simp only [conditionalLevel, run_bind, readsWhenTrue, run_takeWord, if_pos takesIf, if_true,
          readsCondition, if_neg noElse, Bool.false_eq_true, if_false, run_pure, run_previousSpan]
        rfl
      case same => rw [Expr.unplaced_conditional, Expr.unplaced_conditional, sameWhenTrue,
          sameCondition]
  | some expr =>
      rw [Expr.writtenOtherwise] at shownOtherwise ends ⊢
      have takesElse := isName_eq_true.mpr shownOtherwise.1
      obtain ⟨test, readsCondition, sameCondition⟩ := givesCondition _ shownCondition
        (shownOtherwise.endsAt (fun _ => rfl) (by decide))
      obtain ⟨other, readsOther, sameOther⟩ := givesOtherwise expr rfl _ shownOtherwise.tail ends
      refine ⟨.conditional test value (some other) ?_, ?run, ?same⟩
      case run =>
        simp only [conditionalLevel, run_bind, readsWhenTrue, run_takeWord, if_pos takesIf, if_true,
          readsCondition, if_pos takesElse, run_map, readsOther, run_pure, run_previousSpan]
        rfl
      case same =>
        rw [Expr.unplaced_conditional, Expr.unplaced_conditional, sameWhenTrue, sameCondition,
          Option.map_some, Option.map_some, sameOther]

/-! ### Whole expressions -/

/-- Whether every level that an expression fits gives it back, once as many nestings are left as
the expression has words. -/
def Reads (expr : Expr) : Prop :=
  ∀ depth, expr.written.length ≤ depth → ∀ level, level ≤ expr.level →
    GivesBack (levelReader (nested depth) level) level expr ∧
      (Loops level → Carries (nested depth) level expr)

variable {expr : Expr} {depth : Nat}

theorem Reads.givesBack (reads : Reads expr) (enough : expr.written.length ≤ depth) {level : Level}
    (le : level ≤ expr.level) : GivesBack (levelReader (nested depth) level) level expr :=
  (reads depth enough level le).1

theorem Reads.carries (reads : Reads expr) (enough : expr.written.length ≤ depth) {level : Level}
    (le : level ≤ expr.level) (loops : Loops level) : Carries (nested depth) level expr :=
  (reads depth enough level le).2 loops

/-- One nesting deeper, a shorter expression is given back. -/
theorem Reads.givesBack_expression (reads : Reads expr) (shorter : expr.written.length < depth) :
    GivesBack (nested depth).expression .conditional expr := by
  obtain ⟨fewer, rfl⟩ := Nat.exists_eq_add_of_lt shorter
  exact reads.givesBack (by omega) expr.level.conditional_le

theorem Reads.givesBack_negation (reads : Reads expr) (shorter : expr.written.length < depth)
    (le : .negation ≤ expr.level) : GivesBack (nested depth).negation .negation expr := by
  obtain ⟨fewer, rfl⟩ := Nat.exists_eq_add_of_lt shorter
  exact reads.givesBack (by omega) le

theorem Reads.givesBack_signed (reads : Reads expr) (shorter : expr.written.length < depth)
    (le : .sign ≤ expr.level) : GivesBack (nested depth).signed .sign expr := by
  obtain ⟨fewer, rfl⟩ := Nat.exists_eq_add_of_lt shorter
  exact reads.givesBack (by omega) le

theorem Reads.givesItem (reads : Reads expr) (tight : expr.Tight)
    (shorter : expr.written.length < depth) : GivesItem (nested depth).expression expr :=
  (reads.givesBack_expression shorter).givesItem tight

theorem givesItem_of_args {args : List Expr}
    (tight : ∀ arg ∈ args, arg.argumentValue.Tight) (reads : ∀ arg ∈ args, Reads arg.argumentValue)
    (enough : (argumentWords args).length ≤ depth) (arg : Expr) (member : arg ∈ args) :
    GivesItem (argument (nested depth).expression) arg := by
  have shorter : arg.written.length < (argumentWords args).length :=
    length_lt_enclosed _ _ (List.mem_map_of_mem member)
  have bound := length_argumentValue_le arg
  exact givesItem_argument (tight arg member)
    ((reads arg member).givesBack_expression (by omega))

/-- What is given back as an operand is given back at every level. -/
theorem Reads.of_operand (tight : expr.Tight) (isOperand : expr.level = .operand)
    (gives : ∀ depth, expr.written.length ≤ depth →
      GivesBack (operand (nested depth)) .operand expr) : Reads expr := by
  intro depth enough level le
  refine GivesBack.ladder tight ?_ (fun loops => ?_) le
  · rw [isOperand]
    exact gives depth enough
  · rw [isOperand] at loops
    exact loops.elim

/-- What its own level carries is given back at every looser level. -/
theorem Reads.of_carries (tight : expr.Tight) (loops : Loops expr.level)
    (carries : ∀ depth, expr.written.length ≤ depth → Carries (nested depth) expr.level expr) :
    Reads expr := fun depth enough _ le =>
  ((carries depth enough).givesBack loops).ladder tight (fun _ => carries depth enough) le

/-- What its own level gives back, though it does not loop, is given back at every looser level. -/
theorem Reads.of_givesBack (tight : expr.Tight) (single : ¬ Loops expr.level)
    (gives : ∀ depth, expr.written.length ≤ depth →
      GivesBack (levelReader (nested depth) expr.level) expr.level expr) :
    Reads expr := fun depth enough _ le =>
  (gives depth enough).ladder tight (fun loops => (single loops).elim) le

theorem loops_of_ne_power {op : BinaryOp} (proper : op ≠ .power) : Loops op.level := by
  cases op <;> first | exact True.intro | exact (proper rfl).elim

/-- Every expression that is written as it is reads back. -/
theorem reads_of_tight {expr : Expr} (tight : expr.Tight) : Reads expr := by
  induction tight with
  | literal span exact =>
      exact .of_operand (.literal span exact) rfl fun _ _ => givesBack_literal span exact
  | name span free => exact .of_operand (.name span free) rfl fun _ _ => givesBack_name span free
  | @group inner span innerTight innerReads =>
      refine .of_operand (.group span innerTight) rfl fun depth enough => ?_
      rw [Expr.written, List.length_cons, List.length_append] at enough
      exact givesBack_group span (innerReads.givesItem innerTight (by omega))
  | @unary op operand span fits operandTight operandReads =>
      have tight := Expr.Writable.unary span fits operandTight
      have single : ¬ Loops (Expr.unary op operand span).level := by
        cases op <;> exact id
      refine .of_givesBack tight single fun depth enough => ?_
      rw [Expr.written, List.length_cons] at enough
      by_cases isNot : op = .not
      · subst isNot
        exact givesBack_negation span (operandReads.givesBack_negation (by omega) fits)
      · show GivesBack (levelReader (nested depth) op.level) op.level (.unary op operand span)
        rw [UnaryOp.level_of_ne_not isNot] at fits ⊢
        exact givesBack_signed isNot span (operandReads.givesBack_signed (by omega) fits)
  | @binary op left right span leftFits rightFits leftTight rightTight leftReads rightReads =>
      have tight := Expr.Writable.binary span leftFits rightFits leftTight rightTight
      by_cases isPower : op = .power
      · subst isPower
        refine .of_givesBack tight id fun depth enough => ?_
        rw [Expr.written, List.length_append, List.length_cons] at enough
        exact givesBack_power span (leftReads.givesBack (by omega) leftFits)
          (rightReads.givesBack_signed (by omega) rightFits)
      · refine .of_carries tight (loops_of_ne_power isPower) fun depth enough => ?_
        rw [Expr.written, List.length_append, List.length_cons] at enough
        rw [BinaryOp.leftLevel_of_ne_power isPower] at leftFits
        rw [BinaryOp.rightLevel_of_ne_power isPower] at rightFits
        exact carries_binary isPower span
          (leftReads.carries (by omega) leftFits (loops_of_ne_power isPower))
          (rightReads.givesBack (by omega) rightFits)
  | @membership negated element container span elementFits containerFits elementTight
      containerTight elementReads containerReads =>
      have tight : (Expr.membership negated element container span).Tight :=
        .membership span elementFits containerFits elementTight containerTight
      refine .of_carries tight trivial fun depth enough => ?_
      rw [Expr.written, List.length_append, List.length_append] at enough
      exact carries_membership span (elementReads.carries (by omega) elementFits trivial)
        (containerReads.givesBack (by omega) containerFits)
  | @conditional condition whenTrue otherwise span conditionFits whenTrueFits conditionTight
      whenTrueTight otherwiseTight conditionReads whenTrueReads otherwiseReads =>
      refine .of_givesBack (.conditional span conditionFits whenTrueFits conditionTight
        whenTrueTight otherwiseTight) id fun depth enough => ?_
      rw [Expr.written, List.length_append, List.length_cons, List.length_append] at enough
      refine givesBack_conditional span (conditionReads.givesBack (by omega) conditionFits)
        (whenTrueReads.givesBack (by omega) whenTrueFits) ?_
      rintro expr rfl
      rw [Expr.writtenOtherwise, List.length_cons] at enough
      exact (otherwiseReads expr rfl).givesBack_expression (by omega)
  | call span calleeFits calleeTight argsTight calleeReads argsReads =>
      refine .of_carries (.call span calleeFits calleeTight argsTight) trivial
        fun depth enough => ?_
      rw [Expr.written_call, List.length_append] at enough
      exact carries_call span (calleeReads.carries (by omega) calleeFits trivial)
        (givesItem_of_args argsTight argsReads (by omega))
  | @filter value text args callSpan span valueFits valueTight argsTight valueReads argsReads =>
      refine .of_carries (.filter callSpan span valueFits valueTight argsTight) trivial
        fun depth enough => ?_
      rw [Expr.written_filter, List.length_append, List.length_cons, List.length_append] at enough
      exact carries_filter callSpan span (valueReads.carries (by omega) valueFits trivial)
        (givesItem_of_args argsTight argsReads (by omega))
  | @test value negated text args span affirmative valueFits valueTight argsTight valueReads
      argsReads =>
      refine .of_carries (.test span affirmative valueFits valueTight argsTight) trivial
        fun depth enough => ?_
      rw [Expr.written_test, List.length_append, List.length_append, List.length_append] at enough
      exact carries_test span affirmative (valueReads.carries (by omega) valueFits trivial)
        (givesItem_of_args argsTight argsReads (by omega))
  | attributeOf span valueFits valueTight valueReads =>
      refine .of_carries (.attributeOf span valueFits valueTight) trivial fun depth enough => ?_
      rw [Expr.written, List.length_append] at enough
      exact carries_attribute _ span (valueReads.carries (by omega) valueFits trivial)
  | item span valueFits valueTight indexTight valueReads indexReads =>
      refine .of_carries (.item span valueFits valueTight indexTight) trivial fun depth enough => ?_
      rw [Expr.written, List.length_append, List.length_cons, List.length_append] at enough
      exact carries_item span (valueReads.carries (by omega) valueFits trivial)
        (indexReads.givesItem indexTight (by omega))
  | @list items span itemsTight itemsReads =>
      refine .of_operand (.list span itemsTight) rfl fun depth enough => ?_
      rw [Expr.written, Expr.writtenAll_eq_map] at enough
      refine givesBack_list span fun item member => ?_
      have shorter := length_lt_enclosed .leftBracket .rightBracket
        (List.mem_map_of_mem (f := Expr.written) member)
      exact (itemsReads item member).givesItem (itemsTight item member) (by omega)
  | @tuple items span itemsTight itemsReads =>
      refine .of_operand (.tuple span itemsTight) rfl fun depth enough => ?_
      rw [Expr.written, Expr.writtenAll_eq_map] at enough
      refine givesBack_tuple span fun item member => ?_
      have shorter := length_lt_tupled (List.mem_map_of_mem (f := Expr.written) member)
      exact (itemsReads item member).givesItem (itemsTight item member) (by omega)
  | @dict entries span keysTight valuesTight keysReads valuesReads =>
      refine .of_operand (.dict span keysTight valuesTight) rfl fun depth enough => ?_
      rw [Expr.written, Expr.writtenEntries_eq_map] at enough
      have shorter (entry : Expr × Expr) (member : entry ∈ entries) :
          entry.1.written.length < depth ∧ entry.2.written.length < depth := by
        have bound := length_lt_enclosed .leftBrace .rightBrace
          (List.mem_map_of_mem (f := Expr.writtenEntry) member)
        rw [Expr.writtenEntry, List.length_append, List.length_cons] at bound
        constructor <;> omega
      refine givesBack_dict span (fun entry member => ?_) fun entry member => ?_
      · exact (keysReads entry member).givesItem (keysTight entry member) (shorter entry member).1
      · exact (valuesReads entry member).givesItem (valuesTight entry member)
          (shorter entry member).2

theorem run_withNesting {α : Type} (part : Levels → Read α) (tape : Tape) :
    (withNesting part).run tape = (part (nested (tape.following.length + 1))).run tape := by
  rw [withNesting, run_bind, run_get]

/-- Reading an expression gives it back wherever its words stand and it ends behind them. -/
theorem givesBack_expression {expr : Expr} (tight : expr.Tight) :
    GivesBack expression .conditional expr := by
  intro tape shown ends
  have passed := shown.length_following
  have enough : expr.written.length ≤ tape.following.length + 1 := by omega
  rw [expression, run_withNesting]
  exact (reads_of_tight tight).givesBack enough expr.level.conditional_le tape shown ends

end Stencil.Grammar
