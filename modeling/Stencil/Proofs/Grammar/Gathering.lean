import Stencil.Proofs.Grammar.Confined
import Stencil.Proofs.Grammar.Timely

/-!
Contract: what is read inside a tag begins one part after another, and so do the reports about it.

Owns:
- every reader of the expression grammar, and of the clauses of tags, reads parts that begin no
  earlier than those read before, and reports in order.

An expression begins where its first operand or its first token does. What only covers it, such as
the span of a call up to the closing bracket, reaches to the token passed over last, which is behind
the operand by then.

Does not own: statements and bodies (`Stencil.Proofs.Grammar.Chronology`).
-/

set_option autoImplicit false

namespace Stencil.Grammar

open Stencil.Syntax
open Stencil.Text (Span)
open Stencil.Token (Kind Symbol)
open Levels Read

variable {α β : Type} {tape : Tape} {low since before : Nat} {row : List Part} {inner : Levels}
  {token : Token}

/-- Whether an action reads one expression, which does not begin before the head. -/
abbrev GathersExpr (action : Read Expr) : Prop := Gathers action fun expr => [.expr expr]

/-! ### Wholes -/

namespace Tape.Behind

theorem concat {items : List Expr} {item : Expr}
    (behind : tape.Behind low since (items.map .expr ++ [.expr item])) :
    tape.Behind low since ((items ++ [item]).map .expr) := by
  rw [List.map_append]
  exact behind

theorem first_le {first : Part} {others : List Part}
    (behind : tape.Behind low since (first :: others)) : first.start ≤ tape.here :=
  behind.inRow.begins.2

theorem first_le_second {first second : Part} {others : List Part}
    (behind : tape.Behind low since (first :: second :: others)) : first.start ≤ second.start := by
  have fromFirst := behind.inRow.fromFirst
  apply fromFirst.low
  rw [List.flatMap_cons, List.flatMap_cons]
  exact List.mem_append_right _ (List.mem_append_left _ second.start_mem_starts)

/-- An expression whose span covers its two operands. -/
theorem cover {first second expr : Expr}
    (behind : tape.Behind low since [.expr first, .expr second])
    (areInside : (Part.expr expr).visited = [.expr first, .expr second])
    (isSpan : expr.span = first.span.cover second.span) : tape.Behind low since [.expr expr] := by
  apply behind.headed areInside
  show expr.span.start.offset = first.span.start.offset
  rw [isSpan]
  exact start_cover behind.first_le_second

end Tape.Behind

/-- An expression that begins with a token which has been passed over, and holds the row behind
it. -/
theorem timely_enclosed {make : Span → Expr} {start : Span} (behind : tape.Behind since since row)
    (isBefore : low ≤ since) (isLast : before ≤ since) (begins : start.start.offset = since)
    (areInside : ∀ span, (Part.expr (make span)).visited = row)
    (isSpan : ∀ span, (make span).span = span) :
    Timely tape (do return make (← spanFrom start)) fun expr final =>
      final.Behind low before [.expr expr] := by
  refine (timely_spanFrom behind (Nat.le_of_eq begins)).bind fun span here passed => ?_
  obtain ⟨isStart, behind⟩ := passed
  refine .pure behind.inOrder (behind.whole (areInside span) ?_ isBefore isLast)
  show (make span).span.start.offset = since
  rw [isSpan, isStart, begins]

/-- An expression that begins with an operand, and whose span reaches to the token passed over
last. -/
theorem timely_extended {make : Span → Expr} {first : Expr} {others : List Part}
    (behind : tape.Behind low since (.expr first :: others))
    (isFirst : first.span.start.offset ≤ since)
    (areInside : ∀ span, (Part.expr (make span)).visited = .expr first :: others)
    (isSpan : ∀ span, (make span).span = span) :
    Timely tape (do return make (first.span.cover (← previousSpan))) fun expr final =>
      final.Behind low since [.expr expr] := by
  refine (timely_previousSpan behind).bind fun span here passed => ?_
  obtain ⟨isSince, behind⟩ := passed
  refine .pure behind.inOrder (behind.headed (areInside _) ?_)
  show (make _).span.start.offset = first.span.start.offset
  rw [isSpan]
  exact start_cover (Nat.le_trans isFirst isSince)

/-! ### Operands -/

/-- A number token that has been passed over is reported where it stands. -/
theorem course_numberValue {here : Tape} (course : tape.Course here)
    (silent : here.problems = tape.problems) (isLow : tape.here ≤ token.span.start.offset)
    (isHigh : token.span.start.offset ≤ here.here) (isFloat : Bool) :
    tape.Course ((numberValue token isFloat).run here).2 := by
  unfold numberValue
  dsimp only
  split
  · exact course
  · split
    · exact course
    · exact course.report silent (.inr isLow) isHigh

/-- The value of a number token that has been passed over, as an expression. -/
theorem timely_number {here : Tape} (course : tape.Course here)
    (silent : here.problems = tape.problems) (begins : token.span.start.offset = tape.here)
    (isFloat : Bool) {span : Span} (isSpan : span.start.offset = tape.here) :
    TimelyFrom tape here (do return Expr.literal (← numberValue token isFloat) span)
      fun expr final => InRow tape.here final.here [.expr expr] := by
  have reported := course_numberValue course silent (Nat.le_of_eq begins.symm)
    (begins ▸ course.here) isFloat
  refine ⟨reported, .alone (Nat.le_of_eq isSpan.symm) ?_ rfl⟩
  show span.start.offset ≤ _
  rw [isSpan]
  exact reported.here

theorem timely_integerOperand (inOrder : tape.InOrder) :
    Timely tape (integerOperand tape.current) fun expr final =>
      InRow tape.here final.here [.expr expr] := by
  have passed := inOrder.advance
  refine .passing (.seeing (run_peekAhead 1 _) (.seeing (run_atSymbol .dot _) ?_))
  refine .ite (fun _ => .passing ?_) fun _ => ?_
  · have silent : tape.advance.advance.problems = tape.problems := by
      rw [Tape.problems_advance, Tape.problems_advance]
    exact timely_number (passed.trans passed.inOrder.advance) silent rfl true
      (start_cover passed.here)
  · exact timely_number passed (Tape.problems_advance tape) rfl false rfl

/-- Whether a string begins between an offset and the head. -/
structure BeginsFrom (low : Nat) (sum : String × Span) (tape : Tape) : Prop where
  inOrder : tape.InOrder
  low : low ≤ sum.2.start.offset
  high : sum.2.start.offset ≤ tape.here

theorem timely_stringTurn (sum : String × Span) (tape : Tape) (begins : BeginsFrom low sum tape) :
    Timely tape (stringTurn sum) (turnEnds (BeginsFrom low) (BeginsFrom low)) := by
  have passed := begins.inOrder.advance
  refine (timely_take? begins.inOrder .string).bind fun found here taken => ?_
  rcases taken with ⟨rfl, rfl⟩ | ⟨rfl, rfl⟩
  · exact .pure begins.inOrder begins
  · have isCover : (sum.2.cover tape.current.span).start.offset = sum.2.start.offset :=
      start_cover begins.high
    refine .pure passed.inOrder ⟨passed.inOrder, ?_, ?_⟩
    · show low ≤ (sum.2.cover tape.current.span).start.offset
      rw [isCover]
      exact begins.low
    · show (sum.2.cover tape.current.span).start.offset ≤ tape.advance.here
      rw [isCover]
      exact Nat.le_trans begins.high passed.here

theorem timely_stringOperand (inOrder : tape.InOrder) :
    Timely tape stringOperand fun expr final => InRow tape.here final.here [.expr expr] := by
  have passed := inOrder.advance
  have begins : BeginsFrom tape.here (stringValue tape.current, tape.current.span) tape.advance :=
    ⟨passed.inOrder, Nat.le_refl _, passed.here⟩
  refine .passing (.after passed ?_)
  refine (TimelyFrom.loop timely_stringTurn (fun _ _ begins => ⟨begins.inOrder, begins⟩) begins).bind
    fun sum here begins => ?_
  exact .pure begins.inOrder (.alone begins.low begins.high rfl)

theorem visited_wordOperand : (Part.expr (wordOperand token)).visited = [] := by
  unfold wordOperand
  split <;> rfl

theorem span_wordOperand : (wordOperand token).span = token.span := by
  unfold wordOperand
  split <;> rfl

/-- Whether the readers of the grammar one nesting deeper read one part after another. -/
structure Levels.Gather (inner : Levels) : Prop where
  expression : GathersExpr inner.expression
  negation : GathersExpr inner.negation
  signed : GathersExpr inner.signed
  chain : GathersExpr inner.chain

theorem extends_tupleTurn (levels : inner.Gather) :
    Extends (tupleTurn inner) fun items => items.map Part.expr := by
  intro low since items tape behind
  refine ((moves_takeSymbol _).on behind).bind fun _ here behind => .ite (fun _ => ?_) fun _ => ?_
  · refine .seeing (run_atSymbol .rightParen here) (.ite (fun _ => ?_) fun _ => ?_)
    · exact .pure behind.inOrder behind
    · refine (levels.expression.on behind).bind fun item here behind => ?_
      refine .pure behind.inOrder ?_
      split
      · exact behind.concat
      · exact behind.concat
  · exact .pure behind.inOrder behind

theorem timely_parenthesized (levels : inner.Gather) (behind : tape.Behind tape.here tape.last [])
    (opens : tape.current.kind ≠ .endOfInput) :
    Timely tape (parenthesized inner) fun expr final =>
      final.Behind tape.here tape.last [.expr expr] := by
  have isLast := behind.inOrder.last_le
  refine (timely_pass behind opens).bind fun start here passed => ?_
  obtain ⟨rfl, behind⟩ := passed
  refine ((moves_takeSymbol _).on behind).bind fun _ here behind => .ite (fun _ => ?_) fun _ => ?_
  · exact timely_enclosed behind (Nat.le_refl _) isLast rfl (fun _ => rfl) fun _ => rfl
  · refine (levels.expression.on behind).bind fun first here behind =>
      .seeing (run_atSymbol .comma here) (.ite (fun _ => ?_) fun _ => ?_)
    · refine ((extends_tupleTurn levels).loop behind).bind fun items here behind => ?_
      refine ((moves_expectSymbol _).on behind).bind fun _ here behind => ?_
      exact timely_enclosed behind (Nat.le_refl _) isLast rfl (fun _ => rfl) fun _ => rfl
    · refine ((moves_expectSymbol _).on behind).bind fun _ here behind => ?_
      exact timely_enclosed behind (Nat.le_refl _) isLast rfl (fun _ => rfl) fun _ => rfl

theorem extends_itemTurn {item : Read Expr} (gathers : GathersExpr item) (closing : Symbol) :
    Extends (itemTurn closing item) fun items => items.map Part.expr := by
  intro low since items tape behind
  refine .seeing (run_atSymbol closing tape) (.seeing (run_atClose tape) ?_)
  refine .ite (fun _ => .pure behind.inOrder behind) fun _ => ?_
  refine (gathers.on behind).bind fun item here behind => ?_
  exact .ite (fun _ => .pure behind.inOrder behind.concat) fun _ => timely_pastComma behind.concat

theorem timely_listOperand (levels : inner.Gather) (behind : tape.Behind tape.here tape.last [])
    (opens : tape.current.kind ≠ .endOfInput) :
    Timely tape (listOperand inner) fun expr final =>
      final.Behind tape.here tape.last [.expr expr] := by
  have isLast := behind.inOrder.last_le
  refine (timely_pass behind opens).bind fun start here passed => ?_
  obtain ⟨rfl, behind⟩ := passed
  refine ((extends_itemTurn levels.expression _).loop behind).bind fun items here behind => ?_
  refine ((moves_expectSymbol _).on behind).bind fun _ here behind => ?_
  exact timely_enclosed behind (Nat.le_refl _) isLast rfl (fun _ => rfl) fun _ => rfl

/-- The keys and the values of a dictionary. -/
def entryParts (entries : List (Expr × Expr)) : List Part :=
  (entries.flatMap fun entry => [entry.1, entry.2]).map .expr

theorem Tape.Behind.concatEntry {entries : List (Expr × Expr)} {key value : Expr}
    (behind : tape.Behind low since (entryParts entries ++ [.expr key] ++ [.expr value])) :
    tape.Behind low since (entryParts (entries ++ [(key, value)])) := by
  rw [entryParts, List.flatMap_append, List.map_append]
  rw [List.append_assoc] at behind
  exact behind

theorem extends_entryTurn (levels : inner.Gather) : Extends (entryTurn inner) entryParts := by
  intro low since entries tape behind
  refine .seeing (run_atSymbol .rightBrace tape) (.seeing (run_atClose tape) ?_)
  refine .ite (fun _ => .pure behind.inOrder behind) fun _ => ?_
  refine (levels.expression.on behind).bind fun key here behind => ?_
  refine .ite (fun _ => .pure behind.inOrder behind.left) fun _ => ?_
  refine ((moves_expectSymbol _).on behind).bind fun _ here behind => ?_
  refine .ite (fun _ => .pure behind.inOrder behind.left) fun _ => ?_
  refine (levels.expression.on behind).bind fun value here behind => ?_
  have longer := behind.concatEntry
  exact .ite (fun _ => .pure longer.inOrder longer) fun _ => timely_pastComma longer

theorem timely_dictOperand (levels : inner.Gather) (behind : tape.Behind tape.here tape.last [])
    (opens : tape.current.kind ≠ .endOfInput) :
    Timely tape (dictOperand inner) fun expr final =>
      final.Behind tape.here tape.last [.expr expr] := by
  have isLast := behind.inOrder.last_le
  refine (timely_pass behind opens).bind fun start here passed => ?_
  obtain ⟨rfl, behind⟩ := passed
  refine ((extends_entryTurn levels).loop behind).bind fun entries here behind => ?_
  refine ((moves_expectSymbol _).on behind).bind fun _ here behind => ?_
  exact timely_enclosed behind (Nat.le_refl _) isLast rfl (fun _ => rfl) fun _ => rfl

theorem gathers_operand (levels : inner.Gather) : GathersExpr (operand inner) := by
  intro tape inOrder
  have behind := inOrder.behind
  have passed := inOrder.advance
  refine .seeing (run_peek tape) ?_
  split
  · refine .passing (.after passed (.pure passed.inOrder (.alone ?_ ?_ visited_wordOperand)))
    · show tape.here ≤ (wordOperand tape.current).span.start.offset
      rw [span_wordOperand]
      exact Nat.le_refl _
    · show (wordOperand tape.current).span.start.offset ≤ tape.advance.here
      rw [span_wordOperand]
      exact passed.here
  · exact timely_integerOperand inOrder
  · exact .passing (timely_number passed (Tape.problems_advance tape) rfl true rfl)
  · exact timely_stringOperand inOrder
  · rename_i isParen
    exact (timely_parenthesized levels behind (by rw [isParen]; nofun)).weaken
      fun _ _ _ behind => behind.inRow
  · rename_i isBracket
    exact (timely_listOperand levels behind (by rw [isBracket]; nofun)).weaken
      fun _ _ _ behind => behind.inRow
  · rename_i isBrace
    exact (timely_dictOperand levels behind (by rw [isBrace]; nofun)).weaken
      fun _ _ _ behind => behind.inRow
  · have expects := moves_expected "expression" tape inOrder
    exact ⟨expects, .alone (Nat.le_refl _) expects.here rfl⟩

/-! ### The chain after an operand -/

/-- Items with the same key's place begin where the first value does. -/
theorem inRow_items {value : Expr} {span : Span} (inRow : InRow low span.start.offset [.expr value])
    (keys : List (List Char)) :
    InRow low span.start.offset [.expr (keys.foldl (fun value segment =>
      Expr.item value (.literal (segmentKey segment) span) (value.span.cover span)) value)] := by
  induction keys generalizing value with
  | nil => exact inRow
  | cons segment rest inductionHypothesis =>
      apply inductionHypothesis
      have key : InRow span.start.offset span.start.offset
          [.expr (.literal (segmentKey segment) span)] :=
        .alone (Nat.le_refl _) (Nat.le_refl _) rfl
      exact (inRow.append key).headed rfl (start_cover inRow.begins.2)

theorem timely_attributeOf {value : Expr} (behind : tape.Behind low since [.expr value]) :
    Timely tape (attributeOf value) fun expr final => final.Behind low since [.expr expr] := by
  refine .passing (.after behind.inOrder.advance (.seeing (run_peek _) ?_))
  have behind := behind.advance
  have name : (value.span.cover tape.advance.current.span).start.offset = value.span.start.offset :=
    start_cover behind.first_le
  have items (keys : List (List Char)) := inRow_items behind.inRow keys
  have passes {expr : Expr} (behind : tape.advance.Behind low since [.expr expr]) :
      Timely tape.advance (do let _ ← advance; return expr) fun expr final =>
        final.Behind low since [.expr expr] :=
    (moves_advance.on behind).bind fun _ _ behind => .pure behind.inOrder behind
  split
  · exact passes (behind.headed rfl name)
  · exact passes ⟨behind.inOrder, items _, behind.since⟩
  · exact passes ⟨behind.inOrder, items _, behind.since⟩
  · refine ((moves_expected _).on behind).bind fun _ here behind => ?_
    exact .pure behind.inOrder behind

theorem timely_subscriptOf (levels : inner.Gather) {value : Expr}
    (behind : tape.Behind low since [.expr value]) (opens : tape.current.kind ≠ .endOfInput) :
    Timely tape (subscriptOf inner value) fun expr final => final.Behind low since [.expr expr] := by
  have isSince := behind.since_le
  have isFirst := behind.first_le
  refine (timely_pass behind opens).bind fun _ here passed => ?_
  refine (levels.expression.on passed.2).bind fun index here behind => ?_
  refine ((moves_expectSymbol _).on behind).bind fun _ here behind => ?_
  refine (timely_extended behind isFirst (fun _ => rfl) fun _ => rfl).weaken fun _ _ _ behind => ?_
  exact behind.lower isSince

theorem ne_endOfInput_of_isName {word : String} (isWord : token.isName word = true) :
    token.kind ≠ .endOfInput := by
  intro isEnd
  have isInner := isInner_of_isName isWord
  rw [isEnd] at isInner
  cases isInner

theorem gathers_namedArgument? {value : Read Expr} (gathers : GathersExpr value) :
    Gathers (namedArgument? value) fun found => found.toList.map Part.expr := by
  refine .of_behind fun tape behind => ?_
  refine .seeing (run_peekAhead 1 tape) (.seeing (run_atKind .name tape) (.ite (fun named => ?_) ?_))
  · rw [Bool.and_eq_true, beq_iff_eq] at named
    have isLast := behind.inOrder.last_le
    have goesOn : tape.current.kind ≠ .endOfInput := by
      rw [named.1]
      nofun
    refine (timely_pass behind goesOn).bind fun name here passed => ?_
    obtain ⟨rfl, behind⟩ := passed
    refine (moves_advance.on behind).bind fun _ here behind => ?_
    refine (gathers.on behind).bind fun value here behind => .pure behind.inOrder ?_
    exact behind.whole rfl (start_cover behind.inRow.begins.1) (Nat.le_refl _) isLast
  · exact fun _ => .pure behind.inOrder behind

theorem gathers_argument {value : Read Expr} (gathers : GathersExpr value) :
    GathersExpr (argument value) := by
  refine .of_behind fun tape behind => ?_
  refine ((gathers_namedArgument? gathers).on behind).bind fun found here behind => ?_
  cases found with
  | none => exact gathers.on behind
  | some arg => exact .pure behind.inOrder behind

theorem timely_arguments (levels : inner.Gather) (behind : tape.Behind low since row)
    (opens : tape.current.kind ≠ .endOfInput) :
    Timely tape (arguments inner) fun args final =>
      final.Behind low tape.here (row ++ args.map .expr) := by
  have args : Gathers (loop (itemTurn .rightParen (argument inner.expression)) [])
      fun args => args.map Part.expr :=
    (extends_itemTurn (gathers_argument levels.expression) _).gathers rfl
  refine (timely_pass behind opens).bind fun _ here passed => ?_
  refine (args.on passed.2).bind fun args here behind => ?_
  exact ((moves_expectSymbol _).on behind).bind fun _ here behind => .pure behind.inOrder behind

theorem timely_callOf (levels : inner.Gather) {callee : Expr}
    (behind : tape.Behind low since [.expr callee]) (opens : tape.current.kind ≠ .endOfInput) :
    Timely tape (callOf inner callee) fun expr final => final.Behind low since [.expr expr] := by
  have isSince := behind.since_le
  have isFirst := behind.first_le
  refine (timely_arguments levels behind opens).bind fun args here behind => ?_
  refine (timely_extended behind isFirst (fun _ => rfl) fun _ => rfl).weaken fun _ _ _ behind => ?_
  exact behind.lower isSince

theorem extends_plainTurn (levels : inner.Gather) (withCalls : Bool) :
    Extends (plainTurn inner withCalls) fun value => [.expr value] := by
  intro low since value tape behind
  refine .seeing (run_peek tape) ?_
  split
  · exact .map (timely_attributeOf behind)
  · rename_i isBracket
    exact .map (timely_subscriptOf levels behind (by rw [isBracket]; nofun))
  · rename_i isParen
    split
    · exact .map (timely_callOf levels behind (by rw [isParen]; nofun))
    · exact .pure behind.inOrder behind
  · exact .pure behind.inOrder behind

theorem gathers_plainChain (levels : inner.Gather) (withCalls : Bool) :
    GathersExpr (plainChain inner withCalls) :=
  .of_behind fun _ behind => ((gathers_operand levels).on behind).bind fun _ _ behind =>
    (extends_plainTurn levels withCalls).loop behind

theorem extends_bareTurn (levels : inner.Gather) :
    Extends (bareTurn inner) fun args => args.map Part.expr := by
  intro low since args tape behind
  have argument := gathers_argument (gathers_plainChain levels true)
  refine (argument.on behind).bind fun arg here behind => ?_
  refine .seeing (run_peekAhead 1 here) (.seeing (run_peekAhead 2 here) ?_)
  refine .seeing (run_atSymbol .comma here) (.ite (fun _ => ?_) fun _ => ?_)
  · exact (moves_advance.on behind).bind fun _ _ behind => .pure behind.inOrder behind.concat
  · exact .pure behind.inOrder behind.concat

theorem gathers_bareArguments (levels : inner.Gather) :
    Gathers (bareArguments inner) fun args => args.map Part.expr := by
  refine .of_behind fun tape behind => .seeing (run_peek tape) (.ite (fun _ => ?_) fun _ => ?_)
  · exact .pure behind.inOrder behind
  · exact (extends_bareTurn levels).loop behind

theorem moves_dottedTurn (name : String) : Moves (dottedTurn name) :=
  (moves_peekAhead 1).bind fun _ => (moves_atKind _).bind fun _ =>
    .ite (moves_advance.bind fun _ => moves_advance.bind fun _ => moves_pure _) (moves_pure _)

theorem moves_dottedName (what : String) : Moves (dottedName what) := by
  refine (moves_expectName what).bind fun found => ?_
  cases found with
  | none => exact moves_pure _
  | some first => exact moves_loop moves_dottedTurn first

/-- A filter's call begins no earlier than the token before it. -/
theorem timely_filterCall (levels : inner.Gather) (behind : tape.Behind low since row) :
    Timely tape (Levels.filterCall inner) fun call final =>
      final.Behind low since (row ++ call.args.map .expr) ∧ since ≤ call.span.start.offset := by
  have isHere := behind.since_le
  have calls (name : String) (args : List Expr) (here : Tape)
      (behind : here.Behind low since (row ++ args.map .expr)) :
      Timely here (do return FilterCall.mk name args (← spanFrom tape.current.span))
        fun call final => final.Behind low since (row ++ call.args.map .expr) ∧
          since ≤ call.span.start.offset := by
    refine .seeing (run_spanFrom _ here) (.pure behind.inOrder ⟨behind, ?_⟩)
    have isLast : since ≤ here.previousSpan.start.offset := behind.since
    show since ≤ (tape.current.span.cover here.previousSpan).start.offset
    unfold Span.cover
    dsimp only
    split
    · exact isLast
    · exact isHere
  refine .seeing (run_peek tape) ?_
  refine ((moves_dottedName _).on behind).bind fun name here behind => ?_
  refine .seeing (run_atSymbol .leftParen here) ?_
  dsimp only
  split
  · rename_i isParen
    have goesOn : here.current.kind ≠ .endOfInput := by
      rw [beq_iff_eq.mp isParen]
      nofun
    refine (timely_arguments levels behind goesOn).bind fun args there read => ?_
    exact calls name args there (read.lower behind.since_le)
  · exact ((gathers_bareArguments levels).on behind).bind fun args there read =>
      calls name args there read

theorem timely_testOf (levels : inner.Gather) {value : Expr}
    (behind : tape.Behind low since [.expr value]) (opens : tape.current.kind ≠ .endOfInput) :
    Timely tape (testOf inner value) fun expr final => final.Behind low since [.expr expr] := by
  have isSince := behind.since_le
  have isFirst := behind.first_le
  refine (timely_pass behind opens).bind fun _ here passed => ?_
  refine ((moves_takeWord _).on passed.2).bind fun negated here behind => ?_
  refine ((moves_dottedName _).on behind).bind fun name here behind => .seeing (run_peek here) ?_
  have tests (args : List Expr) (there : Tape)
      (behind : there.Behind low tape.here (.expr value :: args.map .expr)) :
      Timely there (do
        return Expr.test value negated name args (value.span.cover (← previousSpan)))
        fun expr final => final.Behind low since [.expr expr] :=
    (timely_extended behind isFirst (fun _ => rfl) fun _ => rfl).weaken fun _ _ _ behind =>
      behind.lower isSince
  dsimp only
  split
  · rename_i isParen
    have goesOn : here.current.kind ≠ .endOfInput := by
      rw [beq_iff_eq.mp isParen]
      nofun
    refine (timely_arguments levels behind goesOn).bind fun args there read => ?_
    exact tests args there (read.lower behind.since_le)
  · split
    · refine (levels.chain.on behind).bind fun arg there behind => ?_
      exact tests [arg] there behind
    · exact tests [] here behind

theorem extends_chainTurn (levels : inner.Gather) :
    Extends (chainTurn inner) fun value => [.expr value] := by
  intro low since value tape behind
  refine .seeing (run_peek tape) ?_
  split
  · exact .map (timely_attributeOf behind)
  · rename_i isBracket
    exact .map (timely_subscriptOf levels behind (by rw [isBracket]; nofun))
  · rename_i isParen
    exact .map (timely_callOf levels behind (by rw [isParen]; nofun))
  · rename_i isPipe
    have isSince := behind.since_le
    have isFirst := behind.first_le
    refine (timely_pass behind (by rw [isPipe]; nofun)).bind fun _ here passed => ?_
    refine (timely_filterCall levels passed.2).bind fun call here read => ?_
    obtain ⟨behind, begins⟩ := read
    refine .pure behind.inOrder ((behind.headed rfl ?_).lower isSince)
    exact start_cover (Nat.le_trans isFirst begins)
  · rename_i isName
    refine .seeing (run_atWord "is" tape) (.ite (fun _ => ?_) fun _ => ?_)
    · exact .map (timely_testOf levels behind (by rw [isName]; nofun))
    · exact .pure behind.inOrder behind
  · exact .pure behind.inOrder behind

theorem gathers_chainLevel (levels : inner.Gather) : GathersExpr (chainLevel inner) :=
  .of_behind fun _ behind => ((gathers_operand levels).on behind).bind fun _ _ behind =>
    (extends_chainTurn levels).loop behind

/-! ### Operators -/

theorem extends_leftTurn {operator? : Token → Option BinaryOp} {tighter : Read Expr}
    (gathers : GathersExpr tighter) :
    Extends (leftTurn operator? tighter) fun left => [.expr left] := by
  intro low since left tape behind
  refine .seeing (run_peek tape) ?_
  split
  · refine (moves_advance.on behind).bind fun _ here behind => ?_
    refine (gathers.on behind).bind fun right here behind => .pure behind.inOrder ?_
    exact behind.cover rfl rfl
  · exact .pure behind.inOrder behind

theorem gathers_leftAssociative {operator? : Token → Option BinaryOp} {tighter : Read Expr}
    (gathers : GathersExpr tighter) : GathersExpr (leftAssociative operator? tighter) :=
  .of_behind fun _ behind => (gathers.on behind).bind fun _ _ behind =>
    (extends_leftTurn gathers).loop behind

theorem gathers_powerLevel (levels : inner.Gather) : GathersExpr (powerLevel inner) := by
  refine .of_behind fun tape behind => ?_
  refine ((gathers_chainLevel levels).on behind).bind fun base here behind => ?_
  refine ((moves_takeSymbol _).on behind).bind fun _ here behind => .ite (fun _ => ?_) fun _ => ?_
  · refine (levels.signed.on behind).bind fun exponent here behind => .pure behind.inOrder ?_
    exact behind.cover rfl rfl
  · exact .pure behind.inOrder behind

/-- An operator before its operand. -/
theorem timely_unary {op : UnaryOp} {operand : Read Expr} (gathers : GathersExpr operand)
    (behind : tape.Behind tape.here tape.last []) (goesOn : tape.current.kind ≠ .endOfInput) :
    Timely tape (do
      let _ ← advance
      let operand ← operand
      return Expr.unary op operand (tape.current.span.cover operand.span)) fun expr final =>
        final.Behind tape.here tape.last [.expr expr] := by
  have isLast := behind.inOrder.last_le
  refine (timely_pass behind goesOn).bind fun _ here passed => ?_
  refine (gathers.on passed.2).bind fun operand here behind => .pure behind.inOrder ?_
  exact behind.whole rfl (start_cover behind.inRow.begins.1) (Nat.le_refl _) isLast

theorem gathers_signedLevel (levels : inner.Gather) : GathersExpr (signedLevel inner) := by
  refine .of_behind fun tape behind => .seeing (run_peek tape) ?_
  dsimp only
  split
  · rename_i op isOperator
    have goesOn : tape.current.kind ≠ .endOfInput := by
      rintro isEnd
      rw [isEnd] at isOperator
      cases isOperator
    exact timely_unary levels.signed behind goesOn
  · exact (gathers_powerLevel levels).on behind

theorem gathers_concatLevel (levels : inner.Gather) : GathersExpr (concatLevel inner) :=
  gathers_leftAssociative <| gathers_leftAssociative <| gathers_leftAssociative <|
    gathers_signedLevel levels

theorem extends_membershipTurn (levels : inner.Gather) :
    Extends (membershipTurn inner) fun element => [.expr element] := by
  intro low since element tape behind
  have contains (negated : Bool) (here : Tape) (behind : here.Behind low since [.expr element]) :
      Timely here (do
        let container ← concatLevel inner
        return Turn.again (Expr.membership negated element container
          (element.span.cover container.span)))
        (EndsBehind low since fun value => [.expr value]) := by
    refine ((gathers_concatLevel levels).on behind).bind fun container here behind => ?_
    exact .pure behind.inOrder (behind.cover rfl rfl)
  refine .seeing (run_peek tape) (.seeing (run_peekAhead 1 tape) ?_)
  split
  · exact .pure behind.inOrder behind
  · rename_i negated isOperator
    refine (moves_advance.on behind).bind fun _ here behind => .ite (fun _ => ?_) fun _ => ?_
    · exact (moves_advance.on behind).bind fun _ here behind => contains negated here behind
    · exact contains negated here behind

theorem gathers_comparisonLevel (levels : inner.Gather) : GathersExpr (comparisonLevel inner) :=
  gathers_leftAssociative <| .of_behind fun _ behind =>
    ((gathers_concatLevel levels).on behind).bind fun _ _ behind =>
      (extends_membershipTurn levels).loop behind

theorem gathers_negationLevel (levels : inner.Gather) : GathersExpr (negationLevel inner) := by
  refine .of_behind fun tape behind => .seeing (run_peek tape) (.ite (fun isNot => ?_) fun _ => ?_)
  · exact timely_unary levels.negation behind (ne_endOfInput_of_isName isNot)
  · exact (gathers_comparisonLevel levels).on behind

theorem gathers_disjunctionLevel (levels : inner.Gather) : GathersExpr (disjunctionLevel inner) :=
  gathers_leftAssociative <| gathers_leftAssociative <| gathers_negationLevel levels

/-- A word that is passed over begins where it stood under the head. -/
theorem timely_takeWord (word : String) (behind : tape.Behind low since row) :
    Timely tape (takeWord word) fun taken final =>
      final.Behind low since row ∧ (taken = true → final.Behind low tape.here row) := by
  refine .seeing (run_atWord word tape) (.ite (fun isWord => ?_) fun _ => ?_)
  · refine (timely_pass behind (ne_endOfInput_of_isName isWord)).bind fun _ here passed => ?_
    exact .pure passed.2.inOrder ⟨passed.2.lower behind.since_le, fun _ => passed.2⟩
  · exact .pure behind.inOrder ⟨behind, nofun⟩

/-- Whether an action reads an expression that may be there. -/
abbrev GathersOption (action : Read (Option Expr)) : Prop :=
  Gathers action fun found => found.toList.map .expr

theorem gathers_some {action : Read Expr} (gathers : GathersExpr action) :
    GathersOption (some <$> action) :=
  fun tape inOrder => .map (gathers tape inOrder)

theorem gathers_conditionalLevel (levels : inner.Gather) :
    GathersExpr (conditionalLevel inner) := by
  refine .of_behind fun tape behind => ?_
  refine ((gathers_disjunctionLevel levels).on behind).bind fun value middle behind => ?_
  have isFirst := behind.first_le
  have isSince := behind.since_le
  have chooses (test : Expr) (otherwise : Option Expr) (there : Tape)
      (behind : there.Behind tape.here middle.here
        (.expr value :: .expr test :: otherwise.toList.map .expr)) :
      Timely there (do
        return Expr.conditional test value otherwise (value.span.cover (← previousSpan)))
        fun expr final => final.Behind tape.here tape.last [.expr expr] :=
    (timely_extended behind isFirst (fun _ => rfl) fun _ => rfl).weaken fun _ _ _ behind =>
      behind.lower isSince
  refine (timely_takeWord "if" behind).bind fun taken here read => ?_
  obtain ⟨behind, passed⟩ := read
  refine .ite (fun isTaken => ?_) fun _ => .pure behind.inOrder behind
  refine ((gathers_disjunctionLevel levels).on (passed isTaken)).bind fun test here behind => ?_
  refine ((moves_takeWord "else").on behind).bind fun _ here behind => .ite (fun _ => ?_) fun _ => ?_
  · exact ((gathers_some levels.expression).on behind).bind (chooses test)
  · exact chooses test none here behind

/-! ### All nestings -/

theorem gather_nested (depth : Nat) : (nested depth).Gather := by
  induction depth with
  | zero =>
      have missing : GathersExpr (do return Expr.missing (Span.point (← peek).span.start)) :=
        fun tape inOrder => ⟨.refl inOrder, .alone (Nat.le_refl _) (Nat.le_refl _) rfl⟩
      exact ⟨missing, missing, missing, missing⟩
  | succ fewer inductionHypothesis =>
      exact ⟨gathers_conditionalLevel inductionHypothesis,
        gathers_negationLevel inductionHypothesis, gathers_signedLevel inductionHypothesis,
        gathers_chainLevel inductionHypothesis⟩

theorem gathers_withNesting {part : Levels → Read α} {parts : α → List Part}
    (gathers : ∀ inner : Levels, inner.Gather → Gathers (part inner) parts) :
    Gathers (withNesting part) parts :=
  fun tape inOrder => .seeing (run_get tape) (gathers _ (gather_nested _) tape inOrder)

theorem gathers_expression : GathersExpr expression :=
  gathers_withNesting fun _ => gathers_conditionalLevel

theorem gathers_disjunction : GathersExpr disjunction :=
  gathers_withNesting fun _ => gathers_disjunctionLevel

theorem gathers_targetOperand : GathersExpr targetOperand :=
  gathers_withNesting fun _ levels => gathers_plainChain levels false

theorem gathers_filter : Gathers filterCall fun call => call.args.map Part.expr :=
  gathers_withNesting fun _ levels => .of_behind fun _ behind =>
    (timely_filterCall levels behind).weaken fun _ _ _ read => read.1

/-- One more of several expressions behind a comma. -/
def commaTurn (more : List Expr → Read (Turn (List Expr))) (items : List Expr) :
    Read (Turn (List Expr)) := do
  if ← takeSymbol .comma then more items else return .done items

/-- Several expressions with commas between them, from the first comma on. -/
theorem timely_commaLoop {more : List Expr → Read (Turn (List Expr))} {items : List Expr}
    (extendsMore : Extends more fun items => items.map Part.expr)
    (behind : tape.Behind low since (items.map .expr))
    (atComma : tape.current.kind = .symbol .comma) :
    Timely tape (loop (commaTurn more) items) fun items final =>
      final.Behind low tape.here (items.map .expr) := by
  have turn : Extends (commaTurn more) fun items => items.map Part.expr := by
    intro low since items tape behind
    refine ((moves_takeSymbol _).on behind).bind fun _ here behind => .ite (fun _ => ?_) fun _ => ?_
    · exact extendsMore low since items here behind
    · exact .pure behind.inOrder behind
  refine turn.loopFrom ((timely_takeSymbol .comma behind).bind fun taken here read => ?_)
  rcases read with ⟨rfl, passed⟩ | ⟨-, noComma, -⟩
  · exact extendsMore low tape.here items here passed
  · exact absurd atComma noComma

/-- Several expressions with commas between them are a tuple that begins where the first one
does. -/
theorem Tape.Behind.tuple {first : Expr} {items : List Expr} {span : Span}
    (behind : tape.Behind first.span.start.offset since (items.map .expr))
    (isFirst : first.span.start.offset ≤ span.start.offset) (isLow : low ≤ first.span.start.offset)
    (isBefore : before ≤ since) :
    tape.Behind low before [.expr (.tuple items (first.span.cover span))] :=
  behind.whole rfl (start_cover isFirst) isLow isBefore

theorem gathers_expressionList : GathersExpr expressionList := by
  have more : Extends (fun items => do
      if ← atClose then return Turn.done items else return .again (items ++ [← expression]))
      fun items => items.map Part.expr := by
    intro low since items tape behind
    refine .seeing (run_atClose tape) (.ite (fun _ => .pure behind.inOrder behind) fun _ => ?_)
    exact (gathers_expression.on behind).bind fun _ _ behind => .pure behind.inOrder behind.concat
  refine .of_behind fun tape behind => ?_
  refine (gathers_expression.on behind).bind fun first middle behind => ?_
  have isLow := behind.inRow.begins.1
  have isFirst := behind.first_le
  have isSince := behind.since_le
  refine .seeing (run_atSymbol .comma middle) (.ite (fun atComma => ?_) fun _ => ?_)
  · refine (timely_commaLoop more behind.fromFirst (beq_iff_eq.mp atComma)).bind
      fun items here behind => ?_
    refine (timely_previousSpan behind).bind fun span here read => .pure read.2.inOrder ?_
    exact read.2.tuple (Nat.le_trans isFirst read.1) isLow isSince
  · exact .pure behind.inOrder behind

/-- Whether an action reads one target, which does not begin before the head. -/
abbrev GathersTarget (action : Read Target) : Prop := Gathers action fun target => [.target target]

/-- The target that an expression is made into stands where the expression does. What is in the way
of it is reported late. -/
theorem timely_toTarget (tag : String) (row : List Part) {expr : Expr}
    (behind : tape.Behind low since (row ++ [.expr expr])) :
    Timely tape (toTarget tag expr) fun target final =>
      final.Behind low since (row ++ [.target target]) := by
  have areStarts (part : Part) :
      (row ++ [part]).flatMap Part.starts = row.flatMap Part.starts ++ part.starts := by
    rw [List.flatMap_append, List.flatMap_cons, List.flatMap_nil, List.append_nil]
  have starts := Target.starts_ofExpr expr
  unfold toTarget
  split
  · rename_i target isTarget
    rw [isTarget] at starts
    refine .pure behind.inOrder ⟨behind.inOrder, behind.inRow.sublist ?_, behind.since⟩
    rw [areStarts, areStarts]
    exact (List.Sublist.refl _).append starts
  · rename_i bad isBad
    rw [isBad] at starts
    have isHigh : bad.start.offset ≤ tape.here := by
      apply behind.inRow.high
      rw [areStarts]
      exact List.mem_append_right _ starts
    have isLate : ((Mistake.notAssignable tag).toDiagnostic bad).IsLate :=
      .tail _ (.tail _ (.tail _ (.head _)))
    refine (timely_mistake behind (.inl isLate) isHigh).bind fun _ here behind => ?_
    refine .pure behind.inOrder ⟨behind.inOrder, behind.inRow.sublist ?_, behind.since⟩
    rw [areStarts, areStarts, Part.starts_eq (.expr expr)]
    exact (List.Sublist.refl _).append ((List.nil_sublist _).cons_cons _)

theorem gathers_assignTarget (tag : String) : GathersTarget (assignTarget tag) := by
  have more : Extends (fun items => do
      if (← atSymbol .assign) || (← atWord "in") || (← atTagEnd) then return Turn.done items
      else return .again (items ++ [← targetOperand])) fun items => items.map Part.expr := by
    intro low since items tape behind
    refine .seeing (run_atSymbol .assign tape) (.seeing (run_atWord "in" tape) ?_)
    refine .seeing (run_atTagEnd tape) (.ite (fun _ => .pure behind.inOrder behind) fun _ => ?_)
    exact (gathers_targetOperand.on behind).bind fun _ _ behind =>
      .pure behind.inOrder behind.concat
  refine .of_behind fun tape behind => ?_
  refine (gathers_targetOperand.on behind).bind fun first middle behind => ?_
  have isLow := behind.inRow.begins.1
  have isFirst := behind.first_le
  have isSince := behind.since_le
  refine .seeing (run_atSymbol .comma middle) (.ite (fun atComma => ?_) fun _ => ?_)
  · refine (timely_commaLoop more behind.fromFirst (beq_iff_eq.mp atComma)).bind
      fun items here behind => ?_
    refine (timely_previousSpan behind).bind fun span here read => ?_
    exact timely_toTarget tag [] (read.2.tuple (Nat.le_trans isFirst read.1) isLow isSince)
  · exact timely_toTarget tag [] behind

/-! ### Clauses -/

open Statement

theorem moves_contextClause? : Moves contextClause? := by
  have looks : Moves atContextClause := moves_of_looks fun _ => rfl
  exact looks.bind fun _ => .ite
    (moves_advance.bind fun _ => moves_advance.bind fun _ => moves_pure _) (moves_pure _)

/-- The defaults of several parameters. -/
def defaultParts (params : List Param) : List Part := (Node.defaultsOf params).map .expr

theorem extends_paramTurn : Extends paramTurn defaultParts := by
  intro low since params tape behind
  refine .seeing (run_atSymbol .rightParen tape) (.seeing (run_atClose tape) ?_)
  refine .ite (fun _ => .pure behind.inOrder behind) fun _ => ?_
  refine ((moves_take? .name).on behind).bind fun found here behind => ?_
  cases found with
  | none => exact ((moves_expected _).on behind).bind fun _ _ behind => .pure behind.inOrder behind
  | some token =>
      have ends (default : Option Expr) (there : Tape)
          (behind : there.Behind low since (defaultParts params ++ default.toList.map .expr)) :
          Timely there (do
            let params := params ++ [⟨token.lexeme, default, ← spanFrom token.span⟩]
            if ← takeSymbol .comma then return Turn.again params else return .done params)
            (EndsBehind low since defaultParts) := by
        refine .seeing (run_spanFrom _ there) (timely_pastComma ?_)
        cases default <;> simpa [defaultParts, Node.defaultsOf] using behind
      refine ((moves_takeSymbol _).on behind).bind fun _ here behind =>
        .ite (fun _ => ?_) fun _ => ?_
      · exact ((gathers_some gathers_expression).on behind).bind ends
      · exact ends none here (by simpa using behind)

theorem gathers_params : Gathers params defaultParts := by
  have turns : Gathers (loop paramTurn []) defaultParts := extends_paramTurn.gathers rfl
  refine .of_behind fun tape behind => ?_
  refine (moves_advance.on behind).bind fun _ here behind => ?_
  refine (turns.on behind).bind fun params here behind => ?_
  exact ((moves_expectSymbol _).on behind).bind fun _ _ behind => .pure behind.inOrder behind

theorem gathers_callerParams : Gathers callerParams defaultParts := by
  refine .of_behind fun tape behind => .seeing (run_atSymbol .leftParen tape) ?_
  refine .ite (fun _ => ?_) fun _ => .pure behind.inOrder behind
  exact gathers_params.on behind

theorem gathers_loopCondition? : GathersOption loopCondition? := by
  refine .of_behind fun tape behind => ?_
  refine ((moves_takeWord _).on behind).bind fun _ here behind => .ite (fun _ => ?_) fun _ => ?_
  · exact (gathers_some gathers_disjunction).on behind
  · exact .pure behind.inOrder behind

/-- The arguments of several filters. -/
def filterParts (filters : List FilterCall) : List Part :=
  (filters.flatMap FilterCall.args).map .expr

theorem Tape.Behind.concatFilter {filters : List FilterCall} {call : FilterCall}
    (behind : tape.Behind low since (filterParts filters ++ call.args.map .expr)) :
    tape.Behind low since (filterParts (filters ++ [call])) := by
  simpa [filterParts] using behind

theorem extends_filterTurn : Extends filterTurn filterParts := by
  intro low since filters tape behind
  refine ((moves_takeSymbol _).on behind).bind fun _ here behind => .ite (fun _ => ?_) fun _ => ?_
  · exact (gathers_filter.on behind).bind fun _ _ behind => .pure behind.inOrder behind.concatFilter
  · exact .pure behind.inOrder behind

theorem moves_blockWords : Moves (loop blockWordTurn ()) :=
  moves_loop (fun _ => (moves_takeWord _).bind fun _ => .ite (moves_pure _) <|
    (moves_takeWord _).bind fun _ => .ite (moves_pure _) (moves_pure _)) ()

theorem moves_clauseTurn (clauses : Clauses) : Moves (clauseTurn clauses) := by
  refine (moves_peekAhead 1).bind fun _ => (moves_atWord _).bind fun _ => .ite ?_ ?_
  · exact moves_advance.bind fun _ => moves_advance.bind fun _ => moves_pure _
  · refine moves_contextClause?.bind fun found => ?_
    cases found with
    | none => exact moves_pure _
    | some context => exact moves_pure _

theorem moves_importTurn (names : List ImportName) : Moves (importTurn names) := by
  have looks : Moves atContextClause := moves_of_looks fun _ => rfl
  have ends (token : Token) (boundAs : Option String) : Moves (do
      let names := names ++ [⟨token.lexeme, boundAs, ← spanFrom token.span⟩]
      if ← takeSymbol .comma then return Turn.again names else return .done names) := by
    have spans : Moves (spanFrom token.span) := moves_of_looks fun _ => rfl
    exact spans.bind fun _ => (moves_takeSymbol _).bind fun _ => .ite (moves_pure _) (moves_pure _)
  refine (moves_atKind _).bind fun _ => looks.bind fun _ => .ite ?_ (moves_pure _)
  refine moves_advance.bind fun token => (moves_takeWord _).bind fun _ => .ite ?_ ?_
  · exact (moves_expectName _).bind fun boundAs => ends token boundAs
  · exact ends token none

/-- The targets and the values of several bindings. -/
def bindingParts (bindings : List Binding) : List Part :=
  bindings.flatMap fun binding => [.target binding.target, .expr binding.value]

theorem extends_bindingTurn : Extends bindingTurn bindingParts := by
  intro low since bindings tape behind
  refine .seeing (run_atClose tape) (.ite (fun _ => .pure behind.inOrder behind) fun _ => ?_)
  refine (gathers_targetOperand.on behind).bind fun expr here behind => ?_
  refine (timely_toTarget "with" _ behind).bind fun target here behind => ?_
  refine ((moves_expectSymbol _).on behind).bind fun _ here behind => ?_
  refine (gathers_expression.on behind).bind fun value here behind => ?_
  apply timely_pastComma
  simpa [bindingParts] using behind

theorem extends_hookTurn (words : List String) :
    Extends (hookTurn words) fun exprs => exprs.map Part.expr := by
  intro low since exprs tape behind
  refine .seeing (run_peek tape) (.seeing (run_atClose tape) ?_)
  refine .ite (fun _ => .pure behind.inOrder behind) fun _ => .seeing (run_get tape) ?_
  refine (gathers_expression.on behind).bind fun expr here behind => ?_
  refine ((moves_takeSymbol _).on behind).bind fun _ here behind => .seeing (run_get here) ?_
  refine .ite (fun _ => ?_) fun _ => ?_
  · exact .pure behind.inOrder behind.concat
  · exact .pure behind.inOrder behind.concat

theorem gathers_expressionsUntil (words : List String) :
    Gathers (expressionsUntil words) fun exprs => exprs.map Part.expr :=
  (extends_hookTurn words).gathers rfl

end Stencil.Grammar
