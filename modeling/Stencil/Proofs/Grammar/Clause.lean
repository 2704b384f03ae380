import Stencil.Grammar.Statement
import Stencil.Proofs.Grammar.Precedence
import Stencil.Proofs.Grammar.Printed

/-!
Contract: the clauses of tags read back from their words.

Owns:
- values, targets and filters in a tag;
- parameters, bindings, imported names and the clauses of a tag that takes another template.

Does not own: the tags that the clauses stand in (`Stencil.Proofs.Grammar.Statement`).
-/

set_option autoImplicit false

namespace Stencil.Grammar

open Stencil.Syntax
open Stencil.Syntax.Expr (argumentWords)
open Stencil.Text (Span)
open Stencil.Token (Kind Symbol)
open Read Statement

/-! ### Values -/

theorem not_reserved_of_isIdentifier {text : String} (identifier : IsIdentifier text) :
    text ∉ reservedNames := by
  intro reserved
  have kept : ∀ word ∈ reservedNames, word ∈ keptWords := by decide
  exact identifier.free (kept text reserved)

theorem tight_of_isVariable {value : Expr} (isVariable : value.IsVariable) : value.Tight := by
  cases isVariable with
  | name span identifier => exact .name span (not_reserved_of_isIdentifier identifier)

theorem tight_of_argsVariable {args : List Expr} (argsVariable : ∀ arg ∈ args, arg.IsVariable)
    (arg : Expr) (member : arg ∈ args) : arg.argumentValue.Tight := by
  have isVariable := argsVariable arg member
  have tight := tight_of_isVariable isVariable
  cases isVariable
  exact tight

theorem tight_of_isPlainCall {call : Expr} (plain : call.IsPlainCall) : call.Tight := by
  cases plain with
  | bare isVariable => exact tight_of_isVariable isVariable
  | @call callee args span isVariable argsVariable =>
      refine .call span ?_ (tight_of_isVariable isVariable) (tight_of_argsVariable argsVariable)
      cases isVariable
      exact Level.le_operand _

/-- A value without `if` is given back where that is not read as part of it. -/
theorem givesBack_disjunction {expr : Expr} (tight : expr.Tight) (le : .disjunction ≤ expr.level) :
    GivesBack disjunction .disjunction expr := by
  intro tape shown ends
  have passed := shown.length_following
  have enough : expr.written.length ≤ tape.following.length + 1 := by omega
  rw [disjunction, run_withNesting]
  exact (reads_of_tight tight).givesBack enough le tape shown ends

theorem run_disjunction {value : Expr} (isVariable : value.IsVariable) {tape : Tape}
    (shown : tape.Shows value.written) (ends : (tape.past value.written).EndsAt .disjunction) :
    ∃ given, disjunction.run tape = (given, tape.past value.written) ∧
      given.unplaced = value.unplaced := by
  refine givesBack_disjunction (tight_of_isVariable isVariable) ?_ tape shown ends
  cases isVariable
  exact Level.le_operand _

/-- The words behind a value that no expression goes on with. -/
def bounds : List String := ["as", "import", "ignore", "with"]

/-- Whether no expression goes on under the head: a tag ends there, or a clause begins. -/
def Tape.Bounded (tape : Tape) : Prop :=
  tape.current.kind.isTagEnd = true ∨ ∃ word, word ∈ bounds ∧ wordOf tape.current = .name word

theorem Tape.Bounded.endsAt {tape : Tape} (bounded : tape.Bounded) (level : Level) :
    tape.EndsAt level := by
  rcases bounded with closes | ⟨word, isBound, isWord⟩
  · exact Tape.endsAt_of_isTagEnd level closes
  · apply Tape.endsAt_of_none
    rw [isWord]
    simp only [bounds, List.mem_cons, List.not_mem_nil, or_false] at isBound
    rcases isBound with rfl | rfl | rfl | rfl <;> rfl

theorem not_symbol_of_isTagEnd {kind : Kind} (closes : kind.isTagEnd = true) (symbol : Symbol) :
    kind ≠ .symbol symbol := by
  rintro rfl
  cases closes

theorem run_expression {value : Expr} (tight : value.Tight) {tape : Tape}
    (shown : tape.Shows value.written) (ends : ∀ level, (tape.past value.written).EndsAt level) :
    ∃ given, expression.run tape = (given, tape.past value.written) ∧
      given.unplaced = value.unplaced :=
  givesBack_expression tight tape shown (ends _)

/-! ### Targets -/

theorem tight_target {target : Target} (plain : target.IsPlain) : target.expr.Tight := by
  induction plain with
  | name span identifier => exact .name span (not_reserved_of_isIdentifier identifier)
  | @tuple items span _ itemsTight =>
      rw [Target.expr, targetExprs_eq_map]
      exact .tuple span (List.forall_mem_map.mpr itemsTight)

theorem level_target {target : Target} (plain : target.IsPlain) :
    target.expr.level = .operand := by
  cases plain <;> rfl

/-- What is read as several expressions is read as several targets. -/
theorem ofExprs_of_each {items : List Target} {values : List Expr}
    (each : ∀ item ∈ items, ∀ value : Expr, value.unplaced = item.expr.unplaced →
      ∃ given, Target.ofExpr value = .ok given ∧ given.unplaced = item.unplaced)
    (same : values.map Expr.unplaced = (items.map Target.expr).map Expr.unplaced) :
    ∃ givens, Target.ofExprs values = .ok givens ∧
      givens.map Target.unplaced = items.map Target.unplaced := by
  induction items generalizing values with
  | nil =>
      have isEmpty : values = [] := List.map_eq_nil_iff.mp same
      rw [isEmpty]
      exact ⟨[], rfl, rfl⟩
  | cons item rest inductionHypothesis =>
      cases values with
      | nil => cases same
      | cons value values =>
          obtain ⟨sameItem, sameRest⟩ := List.cons.inj same
          obtain ⟨given, isGiven, sameGiven⟩ := each item List.mem_cons_self value sameItem
          obtain ⟨givens, areGiven, sameGivens⟩ := inductionHypothesis
            (fun other member => each other (List.mem_cons_of_mem _ member)) sameRest
          refine ⟨given :: givens, ?_, ?_⟩
          · rw [Target.ofExprs, isGiven, areGiven]
          · rw [List.map_cons, List.map_cons, sameGiven, sameGivens]

/-- What is read as a target's expression is the target, up to its places. -/
theorem ofExpr_of_unplaced {target : Target} (plain : target.IsPlain) :
    ∀ value : Expr, value.unplaced = target.expr.unplaced →
      ∃ given, Target.ofExpr value = .ok given ∧ given.unplaced = target.unplaced := by
  induction plain with
  | @name bound span identifier =>
      intro value same
      cases value with
      | name text other =>
          have isBound : text = bound := (Expr.name.inj same).1
          rw [isBound]
          exact ⟨.name bound other, rfl, rfl⟩
      | _ => cases same
  | @tuple items span _ each =>
      intro value same
      rw [Target.expr, targetExprs_eq_map, Expr.unplaced_tuple] at same
      cases value with
      | tuple values other =>
          rw [Expr.unplaced_tuple] at same
          obtain ⟨givens, areGiven, sameGivens⟩ := ofExprs_of_each each (Expr.tuple.inj same).1
          refine ⟨.tuple givens other, ?_, ?_⟩
          · rw [Target.ofExpr, areGiven]
          · rw [Target.unplaced_tuple, Target.unplaced_tuple, sameGivens]
      | _ => cases same

/-- Whether a target ends under the head: nothing there goes on with it. -/
def Tape.EndsTarget (tape : Tape) : Prop :=
  tape.EndsAt .operand ∧ tape.current.kind ≠ .symbol .dot ∧
    tape.current.kind ≠ .symbol .leftBracket ∧ tape.current.kind ≠ .symbol .comma

theorem run_targetOperand {target : Target} (plain : target.IsPlain) {tape : Tape}
    (shown : tape.Shows target.written) (ends : (tape.past target.written).EndsTarget) :
    ∃ given, targetOperand.run tape = (given, tape.past target.written) ∧
      given.unplaced = target.expr.unplaced := by
  obtain ⟨endsOperand, noPoint, noBracket, _⟩ := ends
  have passed := shown.length_following
  have enough : target.expr.written.length ≤ tape.following.length + 1 := by
    rw [Target.written] at passed
    omega
  have le : Level.operand ≤ target.expr.level := by
    rw [level_target plain]
    exact Level.le_refl _
  obtain ⟨given, reads, same⟩ :=
    (reads_of_tight (tight_target plain)).givesBack enough le tape shown endsOperand
  refine ⟨given, ?_, same⟩
  have readsOperand : (Levels.operand (Levels.nested (tape.following.length + 1))).run tape =
      (given, tape.past target.written) := reads
  have settles : Settles (Levels.plainTurn (Levels.nested (tape.following.length + 1)) false) given
      (tape.past target.written) given (tape.past target.written) := by
    refine .done ?_
    simp only [Levels.plainTurn, run_bind, run_peek]
    split <;> first | rfl | contradiction
  rw [targetOperand, run_withNesting]
  simp only [Levels.targetOperand, Levels.plainChain, run_bind, readsOperand,
    run_loop_of_settles settles]

theorem run_toTarget (tag : String) {target : Target} (plain : target.IsPlain) {value : Expr}
    (same : value.unplaced = target.expr.unplaced) :
    ∃ given, given.unplaced = target.unplaced ∧
      ∀ tape, (toTarget tag value).run tape = (given, tape) := by
  obtain ⟨given, isGiven, sameGiven⟩ := ofExpr_of_unplaced plain value same
  refine ⟨given, sameGiven, fun tape => ?_⟩
  rw [toTarget, isGiven]
  rfl

/-- A target is given back where nothing goes on with it. -/
theorem run_assignTarget (tag : String) {target : Target} (plain : target.IsPlain) {tape : Tape}
    (shown : tape.Shows target.written) (ends : (tape.past target.written).EndsTarget) :
    ∃ given, (assignTarget tag).run tape = (given, tape.past target.written) ∧
      given.unplaced = target.unplaced := by
  obtain ⟨value, reads, same⟩ := run_targetOperand plain shown ends
  obtain ⟨given, sameGiven, turned⟩ := run_toTarget tag plain same
  refine ⟨given, ?_, sameGiven⟩
  have noComma := beq_eq_false_iff_ne.mpr ends.2.2.2
  simp only [assignTarget, run_bind, reads, run_atSymbol, noComma, Bool.false_eq_true, if_false,
    turned]

/-! ### Filters -/

/-- Whether a filter ends under the head: the next one follows, or the tag ends. -/
def Tape.EndsFilter (tape : Tape) : Prop :=
  tape.current.kind = .symbol .pipe ∨ tape.current.kind.isTagEnd = true

theorem Tape.EndsFilter.not_symbol {tape : Tape} (ends : tape.EndsFilter) (symbol : Symbol)
    (other : symbol ≠ .pipe) : tape.current.kind ≠ .symbol symbol := by
  rcases ends with isPipe | closes
  · rw [isPipe]
    exact fun same => other (Kind.symbol.inj same).symm
  · exact not_symbol_of_isTagEnd closes symbol

theorem Tape.EndsFilter.no_argument {tape : Tape} (ends : tape.EndsFilter) :
    Levels.beginsBareArgument tape.current = false := by
  unfold Levels.beginsBareArgument
  rcases ends with isPipe | closes
  · rw [isPipe]
  · cases isKind : tape.current.kind <;> first | rfl | (rw [isKind] at closes; cases closes)

/-- A filter is given back, with arguments in parentheses or without any. -/
theorem run_filterCall_of_isPlain {call : FilterCall} (plain : call.IsPlain) {tape : Tape}
    (shown : tape.Shows call.written) (ends : (tape.past call.written).EndsFilter) :
    ∃ given, filterCall.run tape = (given, tape.past call.written) ∧
      given.unplaced = call.unplaced := by
  obtain ⟨name, args, span⟩ := call
  rw [filterCall, run_withNesting]
  cases args with
  | nil =>
      have shown : tape.Shows (Word.dotted name) := shown
      have ends : (tape.past (Word.dotted name)).EndsFilter := ends
      have noPoint := ends.not_symbol .dot (by decide)
      have noParen := beq_eq_false_iff_ne.mpr (ends.not_symbol .leftParen (by decide))
      refine ⟨⟨name, [], ?_⟩, ?run, rfl⟩
      case run =>
        simp only [Levels.filterCall, run_bind, run_peek, run_dottedName shown noPoint,
          run_atSymbol, noParen, Bool.false_eq_true, if_false, Levels.bareArguments,
          ends.no_argument, Bool.not_false, if_true, run_pure, run_spanFrom]
        rfl
  | cons arg rest =>
      have shown : tape.Shows (Word.dotted name ++ argumentWords (arg :: rest)) := shown
      have passed := shown.length_following
      rw [List.length_append] at passed
      have enough : (argumentWords (arg :: rest)).length ≤ tape.following.length + 1 := by omega
      have tight := tight_of_argsVariable plain.argsVariable
      obtain ⟨values, span, same, reads⟩ := run_filterCall
        (givesItem_of_args tight (fun arg member => reads_of_tight (tight arg member)) enough) shown
      exact ⟨_, reads, congrArg (FilterCall.mk name · default) same⟩

/-- Filters with bars before them are read one by one. -/
theorem run_furtherFilters {filters : List FilterCall} (plain : ∀ call ∈ filters, call.IsPlain)
    (before : List FilterCall) {tape : Tape} (shown : tape.Shows (filterWords filters))
    (closes : (tape.past (filterWords filters)).current.kind.isTagEnd = true) :
    ∃ values, values.map FilterCall.unplaced = filters.map FilterCall.unplaced ∧
      Settles filterTurn before tape (before ++ values) (tape.past (filterWords filters)) := by
  induction filters generalizing before tape with
  | nil =>
      have closes : tape.current.kind.isTagEnd = true := closes
      refine ⟨[], rfl, .done ?_⟩
      simp only [filterTurn, run_bind, run_takeSymbol,
        if_neg (not_symbol_of_isTagEnd closes .pipe), Bool.false_eq_true, if_false, run_pure,
        List.append_nil]
      rfl
  | cons call rest inductionHypothesis =>
      have words : filterWords (call :: rest) =
          .symbol .pipe :: (call.written ++ filterWords rest) := rfl
      rw [words] at shown closes ⊢
      obtain ⟨shownCall, shownRest⟩ := (Tape.shows_append _ _ _).mp shown.tail
      rw [Tape.past_cons, Tape.past_append] at closes ⊢
      have ends : (tape.advance.past call.written).EndsFilter := by
        cases rest with
        | nil => exact Or.inr closes
        | cons next others => exact Or.inl shownRest.isSymbol
      obtain ⟨value, reads, same⟩ := run_filterCall_of_isPlain
        (plain call List.mem_cons_self) shownCall ends
      obtain ⟨values, sameRest, settles⟩ := inductionHypothesis
        (fun other member => plain other (List.mem_cons_of_mem _ member)) (before ++ [value])
        shownRest closes
      rw [List.append_assoc] at settles
      refine ⟨value :: values, by rw [List.map_cons, same, sameRest, List.map_cons], ?_⟩
      refine .again ?_ ?_ settles
      · simp only [filterTurn, run_bind, run_takeSymbol, if_pos shown.isSymbol, if_true, reads,
          run_pure]
      · have passed := shownCall.length_following
        have shorter := Tape.length_following_advance tape
        have positive := List.length_pos_iff.mpr shown.2.1
        omega

/-! ### Parameters -/

theorem Tape.Delimited.not_symbol {tape : Tape} (delimited : tape.Delimited) {symbol : Symbol}
    (other : symbol ∉ delimiters) : tape.current.kind ≠ .symbol symbol := by
  obtain ⟨delimiter, delimits, isDelimiter⟩ := delimited
  intro isSymbol
  have same : Kind.symbol delimiter = .symbol symbol :=
    (congrArg Word.kind isDelimiter).symm.trans isSymbol
  exact other (Kind.symbol.inj same ▸ delimits)

/-- Where a name is under the head, nothing closes. -/
theorem not_closing_of_name {tape : Tape} (isName : tape.current.kind = .name) (symbol : Symbol) :
    (tape.current.kind == .symbol symbol) = false ∧ tape.current.kind.isTagEnd = false ∧
      (tape.current.kind == .endOfInput) = false := by
  rw [isName]
  exact ⟨rfl, rfl, rfl⟩

/-- One turn reads one parameter, and the comma behind it if there is one. -/
theorem turnReads_param {param : Param} (plain : param.IsPlain) :
    TurnReads paramTurn (Tape.Faces .rightParen) param.written
      fun value => value.unplaced = param.unplaced := by
  intro before tape shown behind
  have delimited : (tape.past param.written).Delimited := by
    rcases behind with isComma | isClosing
    · exact ⟨.comma, by decide, isComma⟩
    · exact ⟨.rightParen, by decide, isClosing⟩
  obtain ⟨name, default, span⟩ := param
  cases default with
  | none =>
      have words : Param.written ⟨name, none, span⟩ = [.name name] := rfl
      rw [words, Tape.past_cons, Tape.past_nil] at delimited ⊢
      rw [words] at shown
      have isName : tape.current.kind = .name := shown.kind
      have isText : tape.current.lexeme = name := shown.lexeme
      obtain ⟨notParen, notTagEnd, notEnd⟩ := not_closing_of_name isName .rightParen
      have noAssign : tape.advance.current.kind ≠ .symbol .assign :=
        delimited.not_symbol (by decide)
      refine ⟨⟨name, none, tape.current.span.cover tape.advance.previousSpan⟩, rfl, ?run⟩
      case run =>
        simp only [paramTurn, run_bind, run_atSymbol, run_atClose, notParen, notTagEnd, notEnd,
          Bool.or_self, run_take?, if_pos isName, run_takeSymbol, if_neg noAssign,
          Bool.false_eq_true, if_false, run_pure, run_spanFrom, isText]
        split <;> rfl
  | some value =>
      have words : Param.written ⟨name, some value, span⟩ =
          .name name :: .symbol .assign :: value.written := rfl
      rw [words, Tape.past_cons, Tape.past_cons] at delimited ⊢
      rw [words] at shown
      have isName : tape.current.kind = .name := shown.kind
      have isText : tape.current.lexeme = name := shown.lexeme
      obtain ⟨notParen, notTagEnd, notEnd⟩ := not_closing_of_name isName .rightParen
      obtain ⟨given, reads, same⟩ := run_expression
        (tight_of_isVariable (plain.defaultVariable value rfl)) shown.tail.tail delimited.endsAt
      refine ⟨⟨name, some given, tape.current.span.cover
        (tape.advance.advance.past value.written).previousSpan⟩,
        congrArg (Param.mk name · Inhabited.default) (congrArg some same), ?run⟩
      case run =>
        simp only [paramTurn, run_bind, run_atSymbol, run_atClose, notParen, notTagEnd, notEnd,
          Bool.or_self, run_take?, if_pos isName, run_takeSymbol, if_pos shown.tail.isSymbol,
          Bool.false_eq_true, if_false, if_true, run_map, reads, run_spanFrom, isText]
        split <;> rfl

theorem run_params {items : List Param} (plain : ∀ param ∈ items, param.IsPlain) {tape : Tape}
    (shown : tape.Shows (paramWords items)) :
    ∃ values, values.map Param.unplaced = items.map Param.unplaced ∧
      params.run tape = (values, tape.past (paramWords items)) := by
  have stops (tape : Tape) (isParen : tape.current.kind = .symbol .rightParen) :
      (paramTurn []).run tape = (.done [], tape) := by
    simp only [paramTurn, run_bind, run_atSymbol, isParen, beq_self_eq_true, Bool.true_or, if_true,
      run_pure]
    rfl
  obtain ⟨values, same, reads⟩ := run_loop_enclosed (by decide) stops
    (fun param member => turnReads_param (plain param member)) shown.tail
  have closing := ((Tape.shows_append _ _ _).mp shown.tail).2.isSymbol
  refine ⟨values, same, ?_⟩
  rw [paramWords, Tape.past_enclosed]
  simp only [params, run_bind, run_advance, reads, run_expectSymbol_of_present closing, run_pure]

/-! ### Bindings -/

def Tape.Closes (tape : Tape) : Prop := tape.current.kind.isTagEnd = true

theorem opens_target {target : Target} (plain : target.IsPlain) : Opens target.written :=
  (begins_written (tight_target plain)).opens

/-- One turn reads one binding, and the comma behind it if there is one. -/
theorem turnReads_binding {binding : Binding} (plain : binding.IsPlain) :
    TurnReads bindingTurn Tape.Closes binding.written
      fun value => value.unplaced = binding.unplaced := by
  intro before tape shown behind
  have ends (level : Level) : (tape.past binding.written).EndsAt level := by
    rcases behind with isComma | closes
    · exact Tape.Delimited.endsAt ⟨.comma, by decide, isComma⟩ level
    · exact Tape.endsAt_of_isTagEnd level closes
  rw [Binding.written, Tape.past_append, Tape.past_cons] at ends ⊢
  obtain ⟨shownTarget, shownAssign⟩ := (Tape.shows_append _ _ _).mp shown
  have atAssign : (tape.past binding.target.written).current.kind = .symbol .assign :=
    shownAssign.isSymbol
  have endsTarget : (tape.past binding.target.written).EndsTarget := by
    refine ⟨Tape.endsAt_of_none _ ?_, ?_, ?_, ?_⟩
    · rw [shownAssign.1]
      rfl
    · rw [atAssign]
      decide
    · rw [atAssign]
      decide
    · rw [atAssign]
      decide
  obtain ⟨_, notTagEnd, notEnd⟩ := (opens_target plain.targetPlain).current shownTarget
  obtain ⟨value, reads, same⟩ := run_targetOperand plain.targetPlain shownTarget endsTarget
  obtain ⟨target, sameTarget, turned⟩ := run_toTarget "with" plain.targetPlain same
  obtain ⟨given, readsValue, sameValue⟩ :=
    run_expression (tight_of_isVariable plain.isVariable) shownAssign.tail ends
  refine ⟨⟨target, given⟩, ?_, ?_⟩
  · show Binding.mk target.unplaced given.unplaced = binding.unplaced
    rw [sameTarget, sameValue]
    rfl
  · simp only [bindingTurn, run_bind, run_atClose, notTagEnd, beq_eq_false_iff_ne.mpr notEnd,
      Bool.or_self, Bool.false_eq_true, if_false, reads, turned,
      run_expectSymbol_of_present atAssign, readsValue, run_takeSymbol]
    split <;> rfl

/-- The bindings of a tag are given back, also when there are none. -/
theorem run_bindings {bindings : List Binding} (plain : ∀ binding ∈ bindings, binding.IsPlain)
    {tape : Tape}
    (shown : tape.Shows (Word.separated (.symbol .comma) (bindings.map Binding.written)))
    (closes : (tape.past
      (Word.separated (.symbol .comma) (bindings.map Binding.written))).current.kind.isTagEnd =
        true) :
    ∃ values, values.map Binding.unplaced = bindings.map Binding.unplaced ∧
      (loop bindingTurn []).run tape =
        (values, tape.past (Word.separated (.symbol .comma) (bindings.map Binding.written))) := by
  by_cases isEmpty : bindings = []
  · subst isEmpty
    have closes : tape.current.kind.isTagEnd = true := closes
    refine ⟨[], rfl, run_loop_of_settles (.done ?_)⟩
    simp only [bindingTurn, run_bind, run_atClose, closes, Bool.true_or, if_true, run_pure]
    rfl
  · obtain ⟨values, same, settles⟩ := settles_separated isEmpty
      (fun binding member => turnReads_binding (plain binding member)) [] shown closes
      (not_symbol_of_isTagEnd closes .comma)
    exact ⟨values, same, run_loop_of_settles settles⟩

/-! ### Context and imported names -/

theorem run_atContextClause (tape : Tape) :
    atContextClause.run tape =
      ((tape.current.isName "with" || tape.current.isName "without") &&
        tape.advance.current.isName "context", tape) := by
  simp only [atContextClause, run_bind, run_peek, run_peekAhead, Tape.ahead_one, run_pure]

theorem isName_eq_false {token : Token} {word : String} :
    token.isName word = false ↔ wordOf token ≠ .name word := by
  rw [← Bool.not_eq_true, isName_eq_true]

theorem not_word_of_isTagEnd {token : Token} (closes : token.kind.isTagEnd = true) (word : String) :
    token.isName word = false := by
  refine isName_eq_false.mpr fun isWord => ?_
  have isName : token.kind = .name := congrArg Word.kind isWord
  rw [isName] at closes
  cases closes

/-- A context clause is given back, or its absence where the tag ends. -/
theorem run_contextClause? {withContext : Bool} {tape : Tape}
    (shown : tape.Shows (contextWords withContext))
    (closes : (tape.past (contextWords withContext)).current.kind.isTagEnd = true) :
    ∃ clause, clause.getD false = withContext ∧
      contextClause?.run tape = (clause, tape.past (contextWords withContext)) := by
  cases withContext with
  | false =>
      have closes : tape.current.kind.isTagEnd = true := closes
      refine ⟨none, rfl, ?_⟩
      simp only [contextClause?, run_bind, run_atContextClause, not_word_of_isTagEnd closes,
        Bool.or_self, Bool.false_and, Bool.false_eq_true, if_false, run_pure]
      rfl
  | true =>
      have isWith : tape.current.isName "with" = true := isName_eq_true.mpr shown.1
      have isContext : tape.advance.current.isName "context" = true :=
        isName_eq_true.mpr shown.tail.1
      refine ⟨some true, rfl, ?_⟩
      simp only [contextClause?, run_bind, run_atContextClause, isWith, isContext, Bool.true_or,
        Bool.and_self, if_true, run_advance, run_pure]
      rfl

/-- Where the names of an import end: at a context clause, or at the end of the tag. -/
def Tape.EndsNames (tape : Tape) : Prop :=
  wordOf tape.current = .name "with" ∨ tape.current.kind.isTagEnd = true

theorem not_word_of_isIdentifier {token : Token} {text : String} (identifier : IsIdentifier text)
    (isText : wordOf token = .name text) (word : String) (reserved : word ∈ reservedWords) :
    token.isName word = false := by
  refine isName_eq_false.mpr fun isWord => identifier.free ?_
  have same : text = word := congrArg Word.lexeme (isText.symm.trans isWord)
  exact List.mem_append_left _ (same ▸ reserved)

/-- One turn reads one imported name, and the comma behind it if there is one. -/
theorem turnReads_importName {imported : ImportName} (plain : imported.IsPlain) :
    TurnReads importTurn Tape.EndsNames imported.written
      fun value => value.unplaced = imported.unplaced := by
  intro before tape shown behind
  obtain ⟨name, boundAs, span⟩ := imported
  have isWord : wordOf tape.current = .name name := by
    cases boundAs with
    | none => exact shown.1
    | some other => exact shown.1
  have isName : tape.current.kind = .name := congrArg Word.kind isWord
  have isText : tape.current.lexeme = name := congrArg Word.lexeme isWord
  have notWith := not_word_of_isIdentifier plain.identifier isWord "with" (by decide)
  have notWithout := not_word_of_isIdentifier plain.identifier isWord "without" (by decide)
  cases boundAs with
  | none =>
      have words : ImportName.written ⟨name, none, span⟩ = [.name name] := rfl
      rw [words, Tape.past_cons, Tape.past_nil] at behind ⊢
      have notAs : tape.advance.current.isName "as" = false := by
        rcases behind with isComma | isWith | closes
        · exact isName_eq_false.mpr (isComma ▸ by decide)
        · exact isName_eq_false.mpr (isWith ▸ by decide)
        · exact not_word_of_isTagEnd closes "as"
      refine ⟨⟨name, none, tape.current.span.cover tape.advance.previousSpan⟩, rfl, ?_⟩
      simp only [importTurn, run_bind, run_atKind, isName, beq_self_eq_true, run_atContextClause,
        notWith, notWithout, Bool.or_self, Bool.false_and, Bool.not_false, Bool.and_self, if_true,
        run_advance, run_takeWord, notAs, Bool.false_eq_true, if_false, run_pure, run_spanFrom,
        isText, run_takeSymbol]
      split <;> rfl
  | some other =>
      have words : ImportName.written ⟨name, some other, span⟩ =
          [.name name, .name "as", .name other] := rfl
      rw [words] at shown
      rw [words, Tape.past_cons, Tape.past_cons, Tape.past_cons, Tape.past_nil]
      have isAs : tape.advance.current.isName "as" = true := isName_eq_true.mpr shown.tail.1
      have isOther : tape.advance.advance.current.kind = .name := shown.tail.tail.kind
      have isAlias : tape.advance.advance.current.lexeme = other := shown.tail.tail.lexeme
      refine ⟨⟨name, some other,
        tape.current.span.cover tape.advance.advance.advance.previousSpan⟩, rfl, ?_⟩
      simp only [importTurn, run_bind, run_atKind, isName, beq_self_eq_true, run_atContextClause,
        notWith, notWithout, Bool.or_self, Bool.false_and, Bool.not_false, Bool.and_self, if_true,
        run_advance, run_takeWord, isAs, run_expectName_of_present isOther, isAlias, run_spanFrom,
        isText, run_takeSymbol]
      split <;> rfl

theorem run_importNames {names : List ImportName} (nonempty : names ≠ [])
    (plain : ∀ imported ∈ names, imported.IsPlain) {tape : Tape}
    (shown : tape.Shows (Word.separated (.symbol .comma) (names.map ImportName.written)))
    (ends : (tape.past
      (Word.separated (.symbol .comma) (names.map ImportName.written))).EndsNames) :
    ∃ values, values.map ImportName.unplaced = names.map ImportName.unplaced ∧
      (loop importTurn []).run tape =
        (values, tape.past (Word.separated (.symbol .comma) (names.map ImportName.written))) := by
  have noComma : (tape.past (Word.separated (.symbol .comma)
      (names.map ImportName.written))).current.kind ≠ .symbol .comma := by
    rcases ends with isWith | closes
    · intro isComma
      have isName := congrArg Word.kind isWith
      rw [kind_wordOf, isComma] at isName
      cases isName
    · exact not_symbol_of_isTagEnd closes .comma
  obtain ⟨values, same, settles⟩ := settles_separated nonempty
    (fun imported member => turnReads_importName (plain imported member)) [] shown ends noComma
  exact ⟨values, same, run_loop_of_settles settles⟩

/-! ### Clauses of a tag that renders another template -/

theorem run_clauseTurn_of_isTagEnd {tape : Tape} (closes : tape.current.kind.isTagEnd = true)
    (clauses : Clauses) : (clauseTurn clauses).run tape = (.done clauses, tape) := by
  simp only [clauseTurn, contextClause?, run_bind, run_peekAhead, run_atWord,
    run_atContextClause, not_word_of_isTagEnd closes, Bool.or_self, Bool.false_and,
    Bool.false_eq_true, if_false, run_pure]

/-- The context clause is the last one that is written. -/
theorem settles_contextClause {withContext : Bool} (ignoreMissing : Bool) {tape : Tape}
    (shown : tape.Shows (contextWords withContext))
    (closes : (tape.past (contextWords withContext)).current.kind.isTagEnd = true) :
    Settles clauseTurn ⟨false, ignoreMissing⟩ tape ⟨withContext, ignoreMissing⟩
      (tape.past (contextWords withContext)) := by
  cases withContext with
  | false => exact .done (run_clauseTurn_of_isTagEnd closes _)
  | true =>
      have isWith : tape.current.isName "with" = true := isName_eq_true.mpr shown.1
      have notIgnore : tape.current.isName "ignore" = false :=
        isName_eq_false.mpr (shown.1 ▸ by decide)
      obtain ⟨clause, isClause, reads⟩ := run_contextClause? shown closes
      have isContext : clause = some true := by
        cases clause with
        | none => cases isClause
        | some context => exact congrArg some isClause
      have shorter : (tape.past (contextWords true)).following.length < tape.following.length :=
        Tape.Shows.shorter (show tape.Shows ([.name "with"] ++ [.name "context"]) from shown)
      refine .again ?_ shorter (.done (run_clauseTurn_of_isTagEnd closes _))
      simp only [clauseTurn, run_bind, run_peekAhead, run_atWord, notIgnore, Bool.false_and,
        Bool.false_eq_true, if_false, reads, isContext, run_pure]

/-- The clauses of a tag that renders another template are given back. -/
theorem run_clauses {withContext ignoreMissing : Bool} {tape : Tape}
    (shown : tape.Shows (missingWords ignoreMissing ++ contextWords withContext))
    (closes : (tape.past
      (missingWords ignoreMissing ++ contextWords withContext)).current.kind.isTagEnd = true) :
    (loop clauseTurn ⟨false, false⟩).run tape =
      (⟨withContext, ignoreMissing⟩,
        tape.past (missingWords ignoreMissing ++ contextWords withContext)) := by
  refine run_loop_of_settles ?_
  cases ignoreMissing with
  | false => exact settles_contextClause false shown closes
  | true =>
      have isIgnore : tape.current.isName "ignore" = true := isName_eq_true.mpr shown.1
      have isMissing : tape.advance.current.isName "missing" = true :=
        isName_eq_true.mpr shown.tail.1
      have shorter : tape.advance.advance.following.length < tape.following.length :=
        Tape.Shows.shorter (show tape.Shows ([.name "ignore"] ++ .name "missing" :: _) from shown)
      refine .again ?_ shorter (settles_contextClause true shown.tail.tail closes)
      simp only [clauseTurn, run_bind, run_peekAhead, Tape.ahead_one, run_atWord, isIgnore,
        isMissing, Bool.and_self, if_true, run_advance, run_pure]

end Stencil.Grammar
