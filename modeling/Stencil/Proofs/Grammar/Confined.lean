import Stencil.Grammar.Statement
import Stencil.Proofs.Grammar.Onward
import Stencil.Proofs.Grammar.Precedence

/-!
Contract: no expression and no clause is read beyond the inside of a tag.

Owns:
- every reader of the expression grammar, and of the clauses of tags, passes over nothing but tokens
  from the inside of tags, whatever the tokens are and whether they form an expression or not.

Does not own: statements and bodies (`Stencil.Proofs.Grammar.Synchrony`).
-/

set_option autoImplicit false

namespace Stencil.Grammar

open Stencil.Syntax
open Stencil.Token (Kind Symbol)
open Levels Read

/-! ### Operands -/

theorem confined_numberValue (token : Token) (isFloat : Bool) :
    Confined (numberValue token isFloat) := by
  unfold numberValue
  dsimp only
  split
  · exact confined_pure _
  · split
    · exact confined_pure _
    · exact (confined_mistake _ _).bind fun _ => confined_pure _

theorem inside_integerOperand (token : Token) {tape : Tape}
    (inner : tape.current.kind.isInner = true) :
    tape.Inside ((integerOperand token).run tape).2 := by
  refine (inside_advance inner).bind fun _ => (confined_peekAhead 1).bind fun _ =>
    confined_guarded rfl (fun tape point => ?_) ?_
  · exact (inside_advance point).bind fun _ =>
      (confined_numberValue token true).bind fun _ => confined_pure _
  · exact (confined_numberValue token false).bind fun _ => confined_pure _

theorem confined_stringTurn (sum : String × Text.Span) : Confined (stringTurn sum) := by
  refine (confined_take? rfl).bind fun found => ?_
  cases found with
  | none => exact confined_pure _
  | some token => exact confined_pure _

theorem inside_stringOperand {tape : Tape} (inner : tape.current.kind.isInner = true) :
    tape.Inside (stringOperand.run tape).2 :=
  (inside_advance inner).bind fun _ => (confined_loop confined_stringTurn _).bind fun _ =>
    confined_pure _

/-- Whether the readers of the grammar one nesting deeper stay inside tags. -/
structure Levels.AreConfined (inner : Levels) : Prop where
  expression : Confined inner.expression
  negation : Confined inner.negation
  signed : Confined inner.signed
  chain : Confined inner.chain

variable {inner : Levels} {tape : Tape}

theorem confined_tupleTurn (confined : inner.AreConfined) (items : List Expr) :
    Confined (tupleTurn inner items) := by
  refine (confined_takeSymbol _).bind fun _ => .ite ?_ (confined_pure _)
  refine (confined_atKind _).bind fun _ => .ite (confined_pure _) ?_
  exact confined.expression.bind fun _ => confined_pure _

theorem inside_parenthesized (confined : inner.AreConfined)
    (opens : tape.current.kind.isInner = true) :
    tape.Inside ((parenthesized inner).run tape).2 := by
  refine (inside_advance opens).bind fun _ => (confined_takeSymbol _).bind fun _ => .ite ?_ ?_
  · exact (confined_spanFrom _).bind fun _ => confined_pure _
  · refine confined.expression.bind fun _ => (confined_atKind _).bind fun _ => .ite ?_ ?_
    · exact (confined_loop (confined_tupleTurn confined) _).bind fun _ =>
        (confined_expectSymbol _).bind fun _ => (confined_spanFrom _).bind fun _ => confined_pure _
    · exact (confined_expectSymbol _).bind fun _ =>
        (confined_spanFrom _).bind fun _ => confined_pure _

theorem confined_itemTurn {item : Read Expr} (confined : Confined item) (closing : Symbol)
    (items : List Expr) : Confined (itemTurn closing item items) := by
  refine (confined_atKind _).bind fun _ => confined_atClose.bind fun _ =>
    .ite (confined_pure _) ?_
  refine confined.bind fun _ => .ite (confined_pure _) ?_
  exact (confined_takeSymbol _).bind fun _ => .ite (confined_pure _) (confined_pure _)

theorem inside_listOperand (confined : inner.AreConfined)
    (opens : tape.current.kind.isInner = true) :
    tape.Inside ((listOperand inner).run tape).2 :=
  (inside_advance opens).bind fun _ =>
    (confined_loop (confined_itemTurn confined.expression _) _).bind fun _ =>
      (confined_expectSymbol _).bind fun _ => (confined_spanFrom _).bind fun _ => confined_pure _

theorem confined_entryTurn (confined : inner.AreConfined) (entries : List (Expr × Expr)) :
    Confined (entryTurn inner entries) := by
  refine (confined_atKind _).bind fun _ => confined_atClose.bind fun _ =>
    .ite (confined_pure _) ?_
  refine confined.expression.bind fun _ => .ite (confined_pure _) ?_
  refine (confined_expectSymbol _).bind fun _ => .ite (confined_pure _) ?_
  refine confined.expression.bind fun _ => .ite (confined_pure _) ?_
  exact (confined_takeSymbol _).bind fun _ => .ite (confined_pure _) (confined_pure _)

theorem inside_dictOperand (confined : inner.AreConfined)
    (opens : tape.current.kind.isInner = true) :
    tape.Inside ((dictOperand inner).run tape).2 :=
  (inside_advance opens).bind fun _ =>
    (confined_loop (confined_entryTurn confined) _).bind fun _ =>
      (confined_expectSymbol _).bind fun _ => (confined_spanFrom _).bind fun _ => confined_pure _

theorem confined_operand (confined : inner.AreConfined) : Confined (operand inner) := by
  intro tape
  simp only [operand, run_bind, run_peek]
  split
  · rename_i isName
    exact (inside_advance (by rw [isName]; rfl)).bind fun _ => confined_pure _
  · rename_i isInteger
    exact inside_integerOperand _ (by rw [isInteger]; rfl)
  · rename_i isFloat
    exact (inside_advance (by rw [isFloat]; rfl)).bind fun _ =>
      (confined_numberValue _ true).bind fun _ => confined_pure _
  · rename_i isString
    exact inside_stringOperand (by rw [isString]; rfl)
  · rename_i isParen
    exact inside_parenthesized confined (by rw [isParen]; rfl)
  · rename_i isBracket
    exact inside_listOperand confined (by rw [isBracket]; rfl)
  · rename_i isBrace
    exact inside_dictOperand confined (by rw [isBrace]; rfl)
  · exact (confined_expected _).bind (fun _ => confined_pure _) tape

/-! ### The chain after an operand -/

theorem inside_attributeOf (value : Expr) (inner : tape.current.kind.isInner = true) :
    tape.Inside ((attributeOf value).run tape).2 := by
  refine (inside_advance inner).bind fun _ => fun tape => ?_
  simp only [run_bind, run_peek]
  split
  · rename_i isName
    exact (inside_advance (by rw [isName]; rfl)).bind fun _ => confined_pure _
  · rename_i isInteger
    exact (inside_advance (by rw [isInteger]; rfl)).bind fun _ => confined_pure _
  · rename_i isFloat
    exact (inside_advance (by rw [isFloat]; rfl)).bind fun _ => confined_pure _
  · exact (confined_expected _).bind (fun _ => confined_pure _) tape

theorem inside_subscriptOf (confined : inner.AreConfined) (value : Expr)
    (opens : tape.current.kind.isInner = true) :
    tape.Inside ((subscriptOf inner value).run tape).2 :=
  (inside_advance opens).bind fun _ => confined.expression.bind fun _ =>
    (confined_expectSymbol _).bind fun _ => confined_previousSpan.bind fun _ => confined_pure _

theorem confined_namedArgument? {value : Read Expr} (confined : Confined value) :
    Confined (namedArgument? value) := by
  intro tape
  rw [run_namedArgument?]
  split
  · rename_i named
    have passesName : tape.Inside tape.advance :=
      Tape.passes_advance (by rw [named.1]; rfl)
    have passesAssign : tape.advance.Inside tape.advance.advance :=
      Tape.passes_advance (by rw [named.2]; rfl)
    exact (passesName.trans passesAssign).trans (confined _)
  · exact .refl _

theorem confined_argument {value : Read Expr} (confined : Confined value) :
    Confined (argument value) := by
  refine (confined_namedArgument? confined).bind fun found => ?_
  cases found with
  | none => exact confined
  | some arg => exact confined_pure arg

theorem inside_arguments (confined : inner.AreConfined)
    (opens : tape.current.kind.isInner = true) :
    tape.Inside ((arguments inner).run tape).2 :=
  (inside_advance opens).bind fun _ =>
    (confined_loop (confined_itemTurn (confined_argument confined.expression) _) _).bind fun _ =>
      (confined_expectSymbol _).bind fun _ => confined_pure _

theorem inside_callOf (confined : inner.AreConfined) (callee : Expr)
    (opens : tape.current.kind.isInner = true) :
    tape.Inside ((callOf inner callee).run tape).2 :=
  (inside_arguments confined opens).bind fun _ =>
    confined_previousSpan.bind fun _ => confined_pure _

theorem confined_plainTurn (confined : inner.AreConfined) (withCalls : Bool) (value : Expr) :
    Confined (plainTurn inner withCalls value) := by
  intro tape
  simp only [plainTurn, run_bind, run_peek]
  split
  · rename_i isPoint
    exact inside_attributeOf value (by rw [isPoint]; rfl)
  · rename_i isBracket
    exact inside_subscriptOf confined value (by rw [isBracket]; rfl)
  · rename_i isParen
    split
    · exact inside_callOf confined value (by rw [isParen]; rfl)
    · exact .refl _
  · exact .refl _

theorem confined_plainChain (confined : inner.AreConfined) (withCalls : Bool) :
    Confined (plainChain inner withCalls) :=
  (confined_operand confined).bind fun _ => confined_loop (confined_plainTurn confined withCalls) _

theorem confined_bareTurn (confined : inner.AreConfined) (args : List Expr) :
    Confined (bareTurn inner args) := by
  refine (confined_argument (confined_plainChain confined true)).bind fun _ =>
    (confined_peekAhead 1).bind fun _ => (confined_peekAhead 2).bind fun _ => ?_
  intro tape
  simp only [run_bind, run_atSymbol, run_ite]
  split
  · rename_i isComma
    simp only [Bool.and_eq_true, beq_iff_eq] at isComma
    exact (inside_advance (by rw [isComma.1.1]; rfl)).bind fun _ => confined_pure _
  · exact .refl _

theorem confined_bareArguments (confined : inner.AreConfined) : Confined (bareArguments inner) :=
  confined_peek.bind fun _ =>
    .ite (confined_pure _) (confined_loop (confined_bareTurn confined) _)

theorem confined_dottedTurn (name : String) : Confined (dottedTurn name) := by
  intro tape
  simp only [dottedTurn, run_bind, run_peekAhead, Tape.ahead_one, run_atSymbol, run_ite]
  split
  · rename_i isPoint
    simp only [Bool.and_eq_true, beq_iff_eq] at isPoint
    have passesPoint : tape.Inside tape.advance :=
      Tape.passes_advance (by rw [isPoint.1]; rfl)
    have passesName : tape.advance.Inside tape.advance.advance :=
      Tape.passes_advance (by rw [isPoint.2]; rfl)
    exact passesPoint.trans passesName
  · exact .refl _

theorem confined_dottedName (what : String) : Confined (dottedName what) := by
  refine (confined_expectName what).bind fun found => ?_
  cases found with
  | none => exact confined_pure _
  | some first => exact confined_loop confined_dottedTurn first

theorem confined_filterCall (confined : inner.AreConfined) :
    Confined (Levels.filterCall inner) := by
  refine confined_peek.bind fun _ => (confined_dottedName _).bind fun _ => fun tape => ?_
  simp only [run_bind, run_atSymbol]
  split
  · rename_i isParen
    exact (inside_arguments confined (by rw [beq_iff_eq.mp isParen]; rfl)).bind fun _ =>
      (confined_spanFrom _).bind fun _ => confined_pure _
  · exact (confined_bareArguments confined).bind (fun _ =>
      (confined_spanFrom _).bind fun _ => confined_pure _) tape

theorem inside_testOf (confined : inner.AreConfined) (value : Expr)
    (opens : tape.current.kind.isInner = true) :
    tape.Inside ((testOf inner value).run tape).2 := by
  refine (inside_advance opens).bind fun _ => (confined_takeWord _).bind fun _ =>
    (confined_dottedName _).bind fun _ => fun tape => ?_
  rw [run_bind, run_peek]
  by_cases isParen : tape.current.isSymbol .leftParen = true
  · have isKind : tape.current.kind = .symbol .leftParen := beq_iff_eq.mp isParen
    simp only [if_pos isParen]
    exact (inside_arguments confined (by rw [isKind]; rfl)).bind fun _ =>
      confined_previousSpan.bind fun _ => confined_pure _
  · simp only [if_neg isParen]
    refine Confined.ite ?_ ?_ tape
    · exact confined.chain.bind fun _ => (confined_pure _).bind fun _ =>
        confined_previousSpan.bind fun _ => confined_pure _
    · exact (confined_pure _).bind fun _ => confined_previousSpan.bind fun _ => confined_pure _

theorem confined_chainTurn (confined : inner.AreConfined) (value : Expr) :
    Confined (chainTurn inner value) := by
  intro tape
  simp only [chainTurn, run_bind, run_peek]
  split
  · rename_i isPoint
    exact inside_attributeOf value (by rw [isPoint]; rfl)
  · rename_i isBracket
    exact inside_subscriptOf confined value (by rw [isBracket]; rfl)
  · rename_i isParen
    exact inside_callOf confined value (by rw [isParen]; rfl)
  · rename_i isPipe
    exact (inside_advance (by rw [isPipe]; rfl)).bind fun _ =>
      (confined_filterCall confined).bind fun _ => confined_pure _
  · rename_i isName
    rw [run_bind, run_atWord]
    split
    · exact inside_testOf confined value (by rw [isName]; rfl)
    · exact .refl _
  · exact .refl _

theorem confined_chainLevel (confined : inner.AreConfined) : Confined (chainLevel inner) :=
  (confined_operand confined).bind fun _ => confined_loop (confined_chainTurn confined) _

/-! ### Operators -/

/-- Whether an operator is always a token from the inside of a tag. -/
def OperatesInside (operator? : Token → Option BinaryOp) : Prop :=
  ∀ token op, operator? token = some op → token.kind.isInner = true

theorem confined_leftTurn {operator? : Token → Option BinaryOp}
    (operates : OperatesInside operator?) {tighter : Read Expr} (confined : Confined tighter)
    (left : Expr) :
    Confined (leftTurn operator? tighter left) := by
  intro tape
  simp only [leftTurn, run_bind, run_peek]
  split
  · rename_i op isOperator
    exact (inside_advance (operates _ op isOperator)).bind fun _ =>
      confined.bind fun _ => confined_pure _
  · exact .refl _

theorem confined_leftAssociative {operator? : Token → Option BinaryOp}
    (operates : OperatesInside operator?) {tighter : Read Expr} (confined : Confined tighter) :
    Confined (leftAssociative operator? tighter) :=
  confined.bind fun _ => confined_loop (confined_leftTurn operates confined) _

theorem confined_powerLevel (confined : inner.AreConfined) : Confined (powerLevel inner) :=
  (confined_chainLevel confined).bind fun _ => (confined_takeSymbol _).bind fun _ =>
    .ite (confined.signed.bind fun _ => confined_pure _) (confined_pure _)

theorem confined_signedLevel (confined : inner.AreConfined) : Confined (signedLevel inner) := by
  intro tape
  simp only [signedLevel, run_bind, run_peek]
  split
  · rename_i op isOperator
    have isInner : tape.current.kind.isInner = true := by
      split at isOperator
      · rename_i isMinus
        rw [isMinus]
        rfl
      · rename_i isPlus
        rw [isPlus]
        rfl
      · cases isOperator
    exact (inside_advance isInner).bind fun _ => confined.signed.bind fun _ => confined_pure _
  · exact confined_powerLevel confined tape

theorem operatesInside_product : OperatesInside productOperator? := by
  intro token op isOperator
  unfold productOperator? at isOperator
  split at isOperator <;> first | (rename_i isKind; rw [isKind]; rfl) | cases isOperator

theorem operatesInside_sum : OperatesInside sumOperator? := by
  intro token op isOperator
  unfold sumOperator? at isOperator
  split at isOperator <;> first | (rename_i isKind; rw [isKind]; rfl) | cases isOperator

theorem operatesInside_concat : OperatesInside concatOperator? := by
  intro token op isOperator
  unfold concatOperator? at isOperator
  split at isOperator
  · rename_i isTilde
    have isKind : token.kind = .symbol .tilde := beq_iff_eq.mp isTilde
    rw [isKind]
    rfl
  · cases isOperator

theorem operatesInside_comparison : OperatesInside comparisonOperator? := by
  intro token op isOperator
  unfold comparisonOperator? at isOperator
  split at isOperator <;> first | (rename_i isKind; rw [isKind]; rfl) | cases isOperator

theorem operatesInside_word (word : String) (op : BinaryOp) :
    OperatesInside (wordOperator? word op) := by
  intro token other isOperator
  unfold wordOperator? at isOperator
  split at isOperator
  · rename_i isWord
    exact isInner_of_isName isWord
  · cases isOperator

theorem confined_concatLevel (confined : inner.AreConfined) : Confined (concatLevel inner) :=
  confined_leftAssociative operatesInside_concat <|
    confined_leftAssociative operatesInside_sum <|
      confined_leftAssociative operatesInside_product (confined_signedLevel confined)

theorem confined_membershipTurn (confined : inner.AreConfined) (element : Expr) :
    Confined (membershipTurn inner element) := by
  intro tape
  simp only [membershipTurn, run_bind, run_peek, run_peekAhead, Tape.ahead_one]
  split
  · exact .refl _
  · rename_i negated isOperator
    unfold membershipOperator? at isOperator
    split at isOperator
    · rename_i isIn
      cases isOperator
      exact (inside_advance (isInner_of_isName isIn)).bind fun _ =>
        (confined_concatLevel confined).bind fun _ => confined_pure _
    · split at isOperator
      · rename_i isNotIn
        cases isOperator
        rw [Bool.and_eq_true] at isNotIn
        have passesNot : tape.Inside tape.advance :=
          Tape.passes_advance (isInner_of_isName isNotIn.1)
        have passesIn : tape.advance.Inside tape.advance.advance :=
          Tape.passes_advance (isInner_of_isName isNotIn.2)
        exact (passesNot.trans passesIn).trans
          ((confined_concatLevel confined).bind (fun _ => confined_pure _) _)
      · cases isOperator

theorem confined_comparisonLevel (confined : inner.AreConfined) :
    Confined (comparisonLevel inner) :=
  confined_leftAssociative operatesInside_comparison <|
    (confined_concatLevel confined).bind fun _ => confined_loop (confined_membershipTurn confined) _

theorem confined_negationLevel (confined : inner.AreConfined) : Confined (negationLevel inner) := by
  intro tape
  rw [negationLevel, run_bind, run_peek, run_ite]
  split
  · rename_i isNot
    exact (inside_advance (isInner_of_isName isNot)).bind fun _ =>
      confined.negation.bind fun _ => confined_pure _
  · exact confined_comparisonLevel confined tape

theorem confined_disjunctionLevel (confined : inner.AreConfined) :
    Confined (disjunctionLevel inner) :=
  confined_leftAssociative (operatesInside_word "or" .or) <|
    confined_leftAssociative (operatesInside_word "and" .and) (confined_negationLevel confined)

theorem confined_conditionalLevel (confined : inner.AreConfined) :
    Confined (conditionalLevel inner) := by
  refine (confined_disjunctionLevel confined).bind fun _ => (confined_takeWord _).bind fun _ =>
    .ite ?_ (confined_pure _)
  refine (confined_disjunctionLevel confined).bind fun _ => (confined_takeWord _).bind fun _ =>
    .ite ?_ ?_
  · exact (confined.expression.map _).bind fun _ =>
      confined_previousSpan.bind fun _ => confined_pure _
  · exact (confined_pure _).bind fun _ => confined_previousSpan.bind fun _ => confined_pure _

/-! ### All nestings -/

theorem areConfined_nested (depth : Nat) : (nested depth).AreConfined := by
  induction depth with
  | zero => exact ⟨fun _ => .refl _, fun _ => .refl _, fun _ => .refl _, fun _ => .refl _⟩
  | succ fewer inductionHypothesis =>
      exact ⟨confined_conditionalLevel inductionHypothesis,
        confined_negationLevel inductionHypothesis, confined_signedLevel inductionHypothesis,
        confined_chainLevel inductionHypothesis⟩

theorem confined_withNesting {α : Type} {part : Levels → Read α}
    (confined : ∀ inner : Levels, inner.AreConfined → Confined (part inner)) :
    Confined (withNesting part) := by
  intro tape
  rw [run_withNesting]
  exact confined _ (areConfined_nested _) tape

theorem confined_expression : Confined expression :=
  confined_withNesting fun _ => confined_conditionalLevel

theorem confined_disjunction : Confined disjunction :=
  confined_withNesting fun _ => confined_disjunctionLevel

theorem confined_targetOperand : Confined targetOperand :=
  confined_withNesting fun _ confined => confined_plainChain confined false

theorem confined_filter : Confined filterCall :=
  confined_withNesting fun _ => confined_filterCall

theorem confined_listedTurn (items : List Expr) : Confined (listedTurn items) :=
  (confined_takeSymbol _).bind fun _ =>
    .ite (confined_atClose.bind fun _ =>
      .ite (confined_pure _) (confined_expression.bind fun _ => confined_pure _)) (confined_pure _)

theorem confined_expressionList : Confined expressionList :=
  confined_expression.bind fun _ => (confined_atKind _).bind fun _ =>
    .ite ((confined_loop confined_listedTurn _).bind fun _ =>
      confined_previousSpan.bind fun _ => confined_pure _) (confined_pure _)

theorem confined_toTarget (tag : String) (expr : Expr) : Confined (toTarget tag expr) := by
  unfold toTarget
  split
  · exact confined_pure _
  · exact (confined_mistake _ _).bind fun _ => confined_pure _

theorem confined_targetTurn (items : List Expr) : Confined (targetTurn items) := by
  refine (confined_takeSymbol _).bind fun _ => .ite ?_ (confined_pure _)
  refine (confined_atKind _).bind fun _ => (confined_atWord _).bind fun _ =>
    confined_atTagEnd.bind fun _ => .ite (confined_pure _) ?_
  exact confined_targetOperand.bind fun _ => confined_pure _

theorem confined_assignTarget (tag : String) : Confined (assignTarget tag) := by
  refine confined_targetOperand.bind fun _ => (confined_atKind _).bind fun _ =>
    .ite ?_ (confined_toTarget _ _)
  exact (confined_loop confined_targetTurn _).bind fun _ =>
    confined_previousSpan.bind fun _ => confined_toTarget _ _

/-! ### Clauses -/

open Statement

theorem confined_contextClause? : Confined contextClause? := by
  intro tape
  rw [contextClause?, run_bind]
  have sees : atContextClause.run tape =
      ((tape.current.isName "with" || tape.current.isName "without") &&
        tape.advance.current.isName "context", tape) := by
    rw [← Tape.ahead_one]
    rfl
  rw [sees, run_ite]
  split
  · rename_i isClause
    rw [Bool.and_eq_true, Bool.or_eq_true] at isClause
    have passesWord : tape.Inside tape.advance :=
      Tape.passes_advance (isClause.1.elim isInner_of_isName isInner_of_isName)
    have passesContext : tape.advance.Inside tape.advance.advance :=
      Tape.passes_advance (isInner_of_isName isClause.2)
    exact passesWord.trans passesContext
  · exact .refl _

theorem confined_optional {condition : Prop} {_ : Decidable condition} {α : Type} {action : Read α}
    (confined : Confined action) :
    Confined (if condition then some <$> action else pure none) :=
  .ite (confined.map _) (confined_pure _)

theorem confined_paramTurn (params : List Param) : Confined (paramTurn params) := by
  refine (confined_atKind _).bind fun _ => confined_atClose.bind fun _ => .ite (confined_pure _) ?_
  refine (confined_take? rfl).bind fun found => ?_
  cases found with
  | none => exact (confined_expected _).bind fun _ => confined_pure _
  | some token =>
      refine (confined_takeSymbol _).bind fun _ => .ite ?_ ?_
      · exact (confined_expression.map _).bind fun _ => (confined_spanFrom _).bind fun _ =>
          (confined_takeSymbol _).bind fun _ => .ite (confined_pure _) (confined_pure _)
      · exact (confined_pure _).bind fun _ => (confined_spanFrom _).bind fun _ =>
          (confined_takeSymbol _).bind fun _ => .ite (confined_pure _) (confined_pure _)

theorem inside_params {tape : Tape} (opens : tape.current.kind.isInner = true) :
    tape.Inside (params.run tape).2 :=
  (inside_advance opens).bind fun _ => (confined_loop confined_paramTurn _).bind fun _ =>
    (confined_expectSymbol _).bind fun _ => confined_pure _

theorem confined_callerParams : Confined callerParams := by
  intro tape
  rw [callerParams, run_bind, run_atSymbol, run_ite]
  split
  · rename_i isParen
    exact inside_params (by rw [beq_iff_eq.mp isParen]; rfl)
  · exact .refl _

theorem confined_loopCondition? : Confined loopCondition? :=
  (confined_takeWord _).bind fun _ => confined_optional confined_disjunction

theorem confined_filterTurn (filters : List FilterCall) : Confined (filterTurn filters) :=
  (confined_takeSymbol _).bind fun _ =>
    .ite (confined_filter.bind fun _ => confined_pure _) (confined_pure _)

theorem confined_furtherFilters (filters : List FilterCall) : Confined (furtherFilters filters) :=
  confined_loop confined_filterTurn filters

theorem confined_blockWordTurn (value : Unit) : Confined (blockWordTurn value) :=
  (confined_takeWord _).bind fun _ => .ite (confined_pure _) <|
    (confined_takeWord _).bind fun _ => .ite (confined_pure _) (confined_pure _)

theorem confined_clauseTurn (clauses : Clauses) : Confined (clauseTurn clauses) := by
  intro tape
  simp only [clauseTurn, run_bind, run_peekAhead, Tape.ahead_one, run_atWord]
  rw [run_ite]
  split
  · rename_i ignores
    rw [Bool.and_eq_true] at ignores
    have passesIgnore : tape.Inside tape.advance :=
      Tape.passes_advance (isInner_of_isName ignores.1)
    have passesMissing : tape.advance.Inside tape.advance.advance :=
      Tape.passes_advance (isInner_of_isName ignores.2)
    exact passesIgnore.trans passesMissing
  · refine (confined_contextClause?).bind (fun found => ?_) tape
    cases found with
    | none => exact confined_pure _
    | some context => exact confined_pure _

theorem confined_importTurn (names : List ImportName) : Confined (importTurn names) := by
  intro tape
  have sees : (atContextClause.run tape).2 = tape := rfl
  simp only [importTurn, run_bind, run_atKind, sees]
  rw [run_ite]
  split
  · rename_i names
    rw [Bool.and_eq_true, beq_iff_eq] at names
    refine (inside_advance (by rw [names.1]; rfl)).bind fun _ => (confined_takeWord _).bind fun _ =>
      .ite ?_ ?_
    · exact (confined_expectName _).bind fun _ => (confined_spanFrom _).bind fun _ =>
        (confined_takeSymbol _).bind fun _ => .ite (confined_pure _) (confined_pure _)
    · exact (confined_pure _).bind fun _ => (confined_spanFrom _).bind fun _ =>
        (confined_takeSymbol _).bind fun _ => .ite (confined_pure _) (confined_pure _)
  · exact .refl _

theorem confined_bindingTurn (bindings : List Binding) : Confined (bindingTurn bindings) := by
  refine confined_atClose.bind fun _ => .ite (confined_pure _) ?_
  refine confined_targetOperand.bind fun _ => (confined_toTarget _ _).bind fun _ =>
    (confined_expectSymbol _).bind fun _ => confined_expression.bind fun _ =>
      (confined_takeSymbol _).bind fun _ => .ite (confined_pure _) (confined_pure _)

theorem confined_hookTurn (words : List String) (exprs : List Expr) :
    Confined (hookTurn words exprs) := by
  refine confined_peek.bind fun _ => confined_atClose.bind fun _ => .ite (confined_pure _) ?_
  refine confined_get.bind fun _ => confined_expression.bind fun _ =>
    (confined_takeSymbol _).bind fun _ => confined_get.bind fun _ =>
      .ite (confined_pure _) (confined_pure _)

theorem confined_expressionsUntil (words : List String) : Confined (expressionsUntil words) :=
  confined_loop (confined_hookTurn words) []

end Stencil.Grammar
