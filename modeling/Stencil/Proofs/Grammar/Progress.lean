import Stencil.Proofs.Grammar.Clause
import Stencil.Proofs.Grammar.Confined
import Stencil.Proofs.Grammar.Sealed

/-!
Contract: reading expressions and clauses uses up tokens, whatever the tokens are.

Owns:
- every part of the expression grammar does the same for readers of nested expressions that agree
  on tapes with fewer tokens;
- every turn of a loop over expressions and clauses passes over a token unless it is the last;
- as many nestings as there are tokens suffice for every expression.

Does not own: statements and bodies (`Stencil.Proofs.Grammar.Spending`).
-/

set_option autoImplicit false

namespace Stencil.Grammar

open Stencil.Syntax
open Stencil.Token (Kind Symbol)
open Levels Read

/-- Whether readers of nested expressions do the same from every tape with fewer tokens left than
`bound`. -/
structure Levels.AllAgree (inner : Levels) (bound : Nat) (other : Levels) : Prop where
  expression : Agree bound inner.expression other.expression
  negation : Agree bound inner.negation other.negation
  signed : Agree bound inner.signed other.signed
  chain : Agree bound inner.chain other.chain

theorem Levels.AllAgree.mono {bound fewer : Nat} {inner other : Levels}
    (agree : inner.AllAgree bound other) (isFewer : fewer ≤ bound) : inner.AllAgree fewer other :=
  ⟨agree.expression.mono isFewer, agree.negation.mono isFewer, agree.signed.mono isFewer,
    agree.chain.mono isFewer⟩

theorem Levels.AreConfined.agree {inner : Levels} (confined : inner.AreConfined) (bound : Nat) :
    inner.AllAgree bound inner :=
  ⟨confined.expression.agree, confined.negation.agree, confined.signed.agree,
    confined.chain.agree⟩

variable {inner other : Levels} {bound : Nat} {tape : Tape}

theorem lockstep_inside {α : Type} {action : Read α} (inside : tape.Inside (action.run tape).2)
    (isSealed : tape.Sealed bound) : Lockstep tape action action fun _ => Tape.Sealed bound :=
  ⟨rfl, inside.onward, isSealed.onward inside.onward⟩

/-- The end of a bracketed part: the closing symbol, and what is made of everything up to it. -/
theorem agree_closing {α : Type} (symbol : Symbol) (start : Text.Span) (make : Text.Span → α) :
    Agree bound (do let _ ← expectSymbol symbol; return make (← spanFrom start))
      (do let _ ← expectSymbol symbol; return make (← spanFrom start)) :=
  ((confined_expectSymbol _).bind fun _ => (confined_spanFrom _).bind fun _ => confined_pure _).agree

/-- One more of several parts, which is the last one if no comma follows. -/
theorem lockstep_orLast {α : Type} (make : Text.Span → α) (start : Text.Span)
    (isSealed : tape.Sealed bound) :
    Lockstep tape
      (do
        let parts := make (← spanFrom start)
        if ← takeSymbol .comma then return Turn.again parts else return Turn.done parts)
      (do
        let parts := make (← spanFrom start)
        if ← takeSymbol .comma then return Turn.again parts else return Turn.done parts)
      (turnEnds (fun _ => Tape.Sealed bound) fun _ => Tape.Sealed (bound + 1)) := by
  refine .seeing (run_spanFrom start tape) ?_
  refine ((confined_takeSymbol _).agree tape isSealed).bind fun found final isSealed => ?_
  exact .ite (fun _ => .pure isSealed) fun _ => .pure (isSealed.mono (Nat.le_succ bound))

/-! ### Operands -/

theorem progresses_stringTurn : Progresses stringTurn := by
  intro bound fewer isFewer sum tape isSealed
  exact lockstep_take? rfl isSealed (fun token here isSealed => .pure isSealed) (.pure isSealed)

/-- One more item of a tuple is used up with its comma. -/
theorem turnsAgree_tupleTurn (agree : inner.AllAgree bound other) :
    TurnsAgree bound (tupleTurn inner) (tupleTurn other) := by
  intro fewer isFewer items tape isSealed
  refine lockstep_ifSymbol isSealed (fun here isSealed => ?_) (.pure isSealed)
  refine .seeing (run_atSymbol _ here) ?_
  refine .ite (fun _ => .pure (isSealed.mono (Nat.le_succ fewer))) fun _ => ?_
  refine (agree.expression.on isSealed (Nat.le_of_lt isFewer)).bind fun item there isSealed => ?_
  split
  · exact .pure (isSealed.mono (Nat.le_succ fewer))
  · exact .pure isSealed

theorem agree_parenthesized (agree : inner.AllAgree bound other) (isSealed : tape.Sealed (bound + 1))
    (opens : tape.current.kind.isInner = true) :
    Lockstep tape (parenthesized inner) (parenthesized other) fun _ => Tape.Sealed bound := by
  refine Agree.passing (fun token => ?_) isSealed opens
  refine (confined_takeSymbol _).agree.bind fun _ => .ite ?_ ?_
  · exact ((confined_spanFrom _).bind fun _ => confined_pure _).agree
  · refine agree.expression.bind fun first => (confined_atKind _).agree.bind fun _ => .ite ?_ ?_
    · refine ((turnsAgree_tupleTurn agree).loop _).bind fun items => ?_
      exact agree_closing _ _ (Expr.tuple items)
    · exact agree_closing _ _ (Expr.group first)

/-- One more item in brackets is used up with the comma behind it. -/
theorem turnsAgree_itemTurn {item otherItem : Read Expr} (agree : Agree bound item otherItem)
    (closing : Symbol) : TurnsAgree bound (itemTurn closing item) (itemTurn closing otherItem) := by
  intro fewer isFewer items tape isSealed
  refine .seeing (run_atSymbol closing tape) ?_
  refine .seeing (run_atClose tape) ?_
  refine .ite (fun _ => .pure isSealed) fun _ => ?_
  refine (agree.on isSealed isFewer).bind fun item here isSealed => ?_
  refine .ite (fun _ => .pure isSealed) fun _ => ?_
  exact lockstep_ifSymbol isSealed (fun there isSealed => .pure isSealed) (.pure isSealed)

theorem agree_listOperand (agree : inner.AllAgree bound other) (isSealed : tape.Sealed (bound + 1))
    (opens : tape.current.kind.isInner = true) :
    Lockstep tape (listOperand inner) (listOperand other) fun _ => Tape.Sealed bound := by
  refine Agree.passing (fun token => ?_) isSealed opens
  refine ((turnsAgree_itemTurn agree.expression _).loop _).bind fun items => ?_
  exact agree_closing _ _ (Expr.list items)

theorem turnsAgree_entryTurn (agree : inner.AllAgree bound other) :
    TurnsAgree bound (entryTurn inner) (entryTurn other) := by
  intro fewer isFewer entries tape isSealed
  refine .seeing (run_atSymbol _ tape) ?_
  refine .seeing (run_atClose tape) ?_
  refine .ite (fun _ => .pure isSealed) fun _ => ?_
  refine (agree.expression.on isSealed isFewer).bind fun key here isSealed => ?_
  refine .ite (fun _ => .pure isSealed) fun _ => ?_
  refine ((confined_expectSymbol _).agree here isSealed).bind fun _ here isSealed => ?_
  refine .ite (fun _ => .pure isSealed) fun _ => ?_
  refine (agree.expression.on isSealed isFewer).bind fun value here isSealed => ?_
  refine .ite (fun _ => .pure isSealed) fun _ => ?_
  exact lockstep_ifSymbol isSealed (fun there isSealed => .pure isSealed) (.pure isSealed)

theorem agree_dictOperand (agree : inner.AllAgree bound other) (isSealed : tape.Sealed (bound + 1))
    (opens : tape.current.kind.isInner = true) :
    Lockstep tape (dictOperand inner) (dictOperand other) fun _ => Tape.Sealed bound := by
  refine Agree.passing (fun token => ?_) isSealed opens
  refine ((turnsAgree_entryTurn agree).loop _).bind fun entries => ?_
  exact agree_closing _ _ (Expr.dict entries)

theorem agree_operand (agree : inner.AllAgree bound other) :
    Agree (bound + 1) (operand inner) (operand other) := by
  intro tape isSealed
  have fewer : ∀ final : Tape, final.Sealed bound → final.Sealed (bound + 1) :=
    fun _ isSealed => isSealed.mono (Nat.le_succ bound)
  refine .seeing (run_peek tape) ?_
  split
  · rename_i isName
    refine lockstep_inside ((inside_advance ?_).bind fun _ => confined_pure _) isSealed
    rw [isName]
    rfl
  · rename_i isInteger
    exact lockstep_inside (inside_integerOperand _ (by rw [isInteger]; rfl)) isSealed
  · rename_i isFloat
    refine lockstep_inside ((inside_advance ?_).bind fun _ =>
      (confined_numberValue _ true).bind fun _ => confined_pure _) isSealed
    rw [isFloat]
    rfl
  · rename_i isString
    exact lockstep_inside (inside_stringOperand (by rw [isString]; rfl)) isSealed
  · rename_i isParen
    exact (agree_parenthesized agree isSealed (by rw [isParen]; rfl)).weaken fun _ final _ =>
      fewer final
  · rename_i isBracket
    exact (agree_listOperand agree isSealed (by rw [isBracket]; rfl)).weaken fun _ final _ =>
      fewer final
  · rename_i isBrace
    exact (agree_dictOperand agree isSealed (by rw [isBrace]; rfl)).weaken fun _ final _ =>
      fewer final
  · exact ((confined_expected _).bind fun _ => confined_pure _).agree tape isSealed

/-! ### The chain after an operand -/

theorem passing_attributeOf (value : Expr) (isSealed : tape.Sealed (bound + 1))
    (opens : tape.current.kind.isInner = true) :
    Lockstep tape (attributeOf value) (attributeOf value) fun _ => Tape.Sealed bound := by
  refine Agree.passing (fun _ => Confined.agree fun here => ?_) isSealed opens
  simp only [run_bind, run_peek]
  split
  · rename_i isName
    exact (inside_advance (by rw [isName]; rfl)).bind fun _ => confined_pure _
  · rename_i isInteger
    exact (inside_advance (by rw [isInteger]; rfl)).bind fun _ => confined_pure _
  · rename_i isFloat
    exact (inside_advance (by rw [isFloat]; rfl)).bind fun _ => confined_pure _
  · exact (confined_expected _).bind (fun _ => confined_pure _) here

theorem agree_subscriptOf (agree : inner.AllAgree bound other) (value : Expr)
    (isSealed : tape.Sealed (bound + 1)) (opens : tape.current.kind.isInner = true) :
    Lockstep tape (subscriptOf inner value) (subscriptOf other value) fun _ =>
      Tape.Sealed bound := by
  refine Agree.passing (fun token => ?_) isSealed opens
  refine agree.expression.bind fun index => ?_
  exact ((confined_expectSymbol _).bind fun _ => confined_previousSpan.bind fun _ =>
    confined_pure _).agree

theorem agree_namedArgument? {value otherValue : Read Expr}
    (agree : Agree bound value otherValue) :
    Agree bound (namedArgument? value) (namedArgument? otherValue) := by
  intro tape isSealed
  by_cases named : tape.current.kind = .name ∧ tape.advance.current.kind = .symbol .assign
  · have passes : tape.Onward tape.advance.advance :=
      (Tape.passes_advance trivial).trans (Tape.passes_advance trivial)
    have reads := agree tape.advance.advance (isSealed.onward passes)
    have runs (reader : Read Expr) := run_namedArgument? reader tape
    simp only [if_pos named] at runs
    refine ⟨?_, ?_, ?_⟩
    · rw [runs, runs, reads.same]
    · rw [runs]
      exact passes.trans reads.onward
    · rw [runs]
      exact reads.arrives
  · have runs (reader : Read Expr) := run_namedArgument? reader tape
    simp only [if_neg named] at runs
    refine ⟨?_, ?_, ?_⟩
    · rw [runs, runs]
    · rw [runs]
      exact .refl _
    · rw [runs]
      exact isSealed

theorem agree_argument {value otherValue : Read Expr} (agree : Agree bound value otherValue) :
    Agree bound (argument value) (argument otherValue) := by
  refine (agree_namedArgument? agree).bind fun found => ?_
  cases found with
  | none => exact agree
  | some arg => exact .pure arg

theorem agree_arguments (agree : inner.AllAgree bound other) (isSealed : tape.Sealed (bound + 1))
    (opens : tape.current.kind.isInner = true) :
    Lockstep tape (arguments inner) (arguments other) fun _ => Tape.Sealed bound := by
  refine Agree.passing (fun token => ?_) isSealed opens
  refine ((turnsAgree_itemTurn (agree_argument agree.expression) _).loop _).bind fun args => ?_
  exact ((confined_expectSymbol _).bind fun _ => confined_pure _).agree

theorem agree_callOf (agree : inner.AllAgree bound other) (callee : Expr)
    (isSealed : tape.Sealed (bound + 1)) (opens : tape.current.kind.isInner = true) :
    Lockstep tape (callOf inner callee) (callOf other callee) fun _ => Tape.Sealed bound :=
  (agree_arguments agree isSealed opens).bind fun _ =>
    (confined_previousSpan.bind fun _ => confined_pure _).agree

theorem turnsAgree_plainTurn (agree : inner.AllAgree bound other) (withCalls : Bool) :
    TurnsAgree (bound + 1) (plainTurn inner withCalls) (plainTurn other withCalls) := by
  intro fewer isFewer value tape isSealed
  have agree := agree.mono (Nat.le_of_lt_succ isFewer)
  refine .seeing (run_peek tape) ?_
  split
  · rename_i isPoint
    exact (passing_attributeOf value isSealed (by rw [isPoint]; rfl)).again
  · rename_i isBracket
    exact (agree_subscriptOf agree value isSealed (by rw [isBracket]; rfl)).again
  · rename_i isParen
    refine .ite (fun _ => ?_) fun _ => .pure isSealed
    exact (agree_callOf agree value isSealed (by rw [isParen]; rfl)).again
  · exact .pure isSealed

theorem agree_plainChain (agree : inner.AllAgree bound other) (withCalls : Bool) :
    Agree (bound + 1) (plainChain inner withCalls) (plainChain other withCalls) :=
  (agree_operand agree).bind fun first => (turnsAgree_plainTurn agree withCalls).loop first

/-- One more argument without parentheses is used up with the comma behind it. -/
theorem turnsAgree_bareTurn (agree : inner.AllAgree bound other) :
    TurnsAgree (bound + 1) (bareTurn inner) (bareTurn other) := by
  intro fewer isFewer args tape isSealed
  have reads := agree_argument (agree_plainChain agree true)
  refine (reads.on isSealed isFewer).bind fun arg here isSealed => ?_
  refine .seeing (run_peekAhead 1 here) ?_
  refine .seeing (run_peekAhead 2 here) ?_
  refine .seeing (run_atSymbol .comma here) ?_
  refine .ite (fun goesOn => ?_) fun _ => .pure isSealed
  have isComma : here.current.kind = .symbol .comma := by
    rw [Bool.and_eq_true, Bool.and_eq_true, beq_iff_eq] at goesOn
    exact goesOn.1.1
  have inner : here.current.kind.isInner = true := by rw [isComma]; rfl
  exact (lockstep_pass isSealed (ne_end_of_isInner inner)).bind fun _ there passed =>
    .pure passed.2.2

theorem agree_bareArguments (agree : inner.AllAgree bound other) :
    Agree (bound + 1) (bareArguments inner) (bareArguments other) :=
  confined_peek.agree.bind fun _ => .ite (.pure _) ((turnsAgree_bareTurn agree).loop _)

/-- A further part of a name is used up with the point before it. -/
theorem progresses_dottedTurn : Progresses dottedTurn := by
  intro bound fewer isFewer name tape isSealed
  refine .seeing (run_peekAhead 1 tape) ?_
  refine .seeing (run_atSymbol .dot tape) ?_
  refine .ite (fun goesOn => ?_) fun _ => .pure isSealed
  rw [Bool.and_eq_true, beq_iff_eq, Tape.ahead_one, beq_iff_eq] at goesOn
  obtain ⟨isPoint, isName⟩ := goesOn
  have point : tape.current.kind.isInner = true := by rw [isPoint]; rfl
  refine (lockstep_pass isSealed (ne_end_of_isInner point)).bind fun _ here passed => ?_
  obtain ⟨-, rfl, isSealed⟩ := passed
  have part : tape.advance.Inside (Read.advance.run tape.advance).2 :=
    inside_advance (by rw [isName]; rfl)
  exact (lockstep_inside part isSealed).bind fun _ _ isSealed => .pure isSealed

theorem agree_filterCall (agree : inner.AllAgree bound other) :
    Agree (bound + 1) (Levels.filterCall inner) (Levels.filterCall other) := by
  refine confined_peek.agree.bind fun _ => (confined_dottedName _).agree.bind fun name => ?_
  have rest (args : List Expr) (start : Text.Span) :
      Agree (bound + 1) (do return ⟨name, args, ← spanFrom start⟩ : Read FilterCall)
        (do return ⟨name, args, ← spanFrom start⟩) :=
    ((confined_spanFrom start).bind fun _ => confined_pure _).agree
  intro tape isSealed
  refine .seeing (run_atSymbol .leftParen tape) ?_
  by_cases isParen : (tape.current.kind == .symbol .leftParen) = true
  · simp only [isParen, if_true]
    have opens : tape.current.kind.isInner = true := by rw [beq_iff_eq.mp isParen]; rfl
    refine (agree_arguments agree isSealed opens).bind fun args here isSealed => ?_
    exact rest args _ here (isSealed.mono (Nat.le_succ bound))
  · simp only [isParen]
    exact ((agree_bareArguments agree) tape isSealed).bind fun args => rest args _

theorem agree_testOf (agree : inner.AllAgree bound other) (value : Expr)
    (isSealed : tape.Sealed (bound + 1)) (opens : tape.current.kind.isInner = true) :
    Lockstep tape (testOf inner value) (testOf other value) fun _ => Tape.Sealed bound := by
  refine Agree.passing (fun _ => ?_) isSealed opens
  refine (confined_takeWord _).agree.bind fun negated => ?_
  refine (confined_dottedName _).agree.bind fun name => ?_
  have rest (args : List Expr) :
      Agree bound
        (do return .test value negated name args (value.span.cover (← previousSpan)) : Read Expr)
        (do return .test value negated name args (value.span.cover (← previousSpan))) :=
    (confined_previousSpan.bind fun _ => confined_pure _).agree
  intro tape isSealed
  refine .seeing (run_peek tape) ?_
  by_cases isParen : tape.current.isSymbol .leftParen = true
  · simp only [if_pos isParen]
    obtain ⟨fewer, rfl⟩ := isSealed.exists_succ
    have isKind : tape.current.kind = .symbol .leftParen := beq_iff_eq.mp isParen
    refine (agree_arguments (agree.mono (Nat.le_succ fewer)) isSealed
      (by rw [isKind]; rfl)).bind fun args here isSealed => ?_
    exact rest args here (isSealed.mono (Nat.le_succ fewer))
  · simp only [if_neg isParen]
    refine Agree.ite ?_ ?_ tape isSealed
    · exact agree.chain.bind fun arg => (Agree.pure _).bind rest
    · exact (Agree.pure _).bind rest

theorem turnsAgree_chainTurn (agree : inner.AllAgree bound other) :
    TurnsAgree (bound + 1) (chainTurn inner) (chainTurn other) := by
  intro fewer isFewer value tape isSealed
  have agree := agree.mono (Nat.le_of_lt_succ isFewer)
  refine .seeing (run_peek tape) ?_
  split
  · rename_i isPoint
    exact (passing_attributeOf value isSealed (by rw [isPoint]; rfl)).again
  · rename_i isBracket
    exact (agree_subscriptOf agree value isSealed (by rw [isBracket]; rfl)).again
  · rename_i isParen
    exact (agree_callOf agree value isSealed (by rw [isParen]; rfl)).again
  · rename_i isPipe
    have inner : tape.current.kind.isInner = true := by rw [isPipe]; rfl
    refine (lockstep_pass isSealed (ne_end_of_isInner inner)).bind fun _ here passed => ?_
    exact ((agree_filterCall agree).on passed.2.2 (Nat.le_succ fewer)).bind
      fun _ _ isSealed => .pure isSealed
  · rename_i isName
    refine .seeing (run_atWord "is" tape) ?_
    refine .ite (fun _ => ?_) fun _ => .pure isSealed
    exact (agree_testOf agree value isSealed (by rw [isName]; rfl)).again
  · exact .pure isSealed

theorem agree_chainLevel (agree : inner.AllAgree bound other) :
    Agree (bound + 1) (chainLevel inner) (chainLevel other) :=
  (agree_operand agree).bind fun first => (turnsAgree_chainTurn agree).loop first

/-! ### Operators -/

/-- One more operator is used up, whatever its right operand is. -/
theorem turnsAgree_leftTurn {operator? : Token → Option BinaryOp}
    (operates : OperatesInside operator?) {tighter otherTighter : Read Expr}
    (agree : Agree bound tighter otherTighter) :
    TurnsAgree bound (leftTurn operator? tighter) (leftTurn operator? otherTighter) := by
  intro fewer isFewer left tape isSealed
  refine .seeing (run_peek tape) ?_
  split
  · rename_i op isOperator
    have inner := operates _ op isOperator
    refine (lockstep_pass isSealed (ne_end_of_isInner inner)).bind fun _ here passed => ?_
    exact (agree.on passed.2.2 (Nat.le_of_lt isFewer)).bind fun _ _ isSealed => .pure isSealed
  · exact .pure isSealed

theorem agree_leftAssociative {operator? : Token → Option BinaryOp}
    (operates : OperatesInside operator?) {tighter otherTighter : Read Expr}
    (agree : Agree bound tighter otherTighter) :
    Agree bound (leftAssociative operator? tighter) (leftAssociative operator? otherTighter) :=
  agree.bind fun first => (turnsAgree_leftTurn operates agree).loop first

theorem agree_powerLevel (agree : inner.AllAgree bound other) :
    Agree (bound + 1) (powerLevel inner) (powerLevel other) := by
  refine (agree_chainLevel agree).bind fun base tape isSealed => ?_
  refine lockstep_ifSymbol isSealed (fun here isSealed => ?_) (.pure isSealed)
  exact (agree.signed here isSealed).bind fun _ _ isSealed =>
    .pure (isSealed.mono (Nat.le_succ bound))

theorem agree_signedLevel (agree : inner.AllAgree bound other) :
    Agree (bound + 1) (signedLevel inner) (signedLevel other) := by
  intro tape isSealed
  refine .seeing (run_peek tape) ?_
  dsimp only
  split
  · rename_i op isOperator
    have isInner : tape.current.kind.isInner = true := by
      split at isOperator
      · rename_i isMinus
        rw [isMinus]
        rfl
      · rename_i isPlus
        rw [isPlus]
        rfl
      · cases isOperator
    refine (lockstep_pass isSealed (ne_end_of_isInner isInner)).bind fun _ here passed => ?_
    exact (agree.signed here passed.2.2).bind fun _ _ isSealed =>
      .pure (isSealed.mono (Nat.le_succ bound))
  · exact agree_powerLevel agree tape isSealed

theorem agree_productLevel (agree : inner.AllAgree bound other) :
    Agree (bound + 1) (productLevel inner) (productLevel other) :=
  agree_leftAssociative operatesInside_product (agree_signedLevel agree)

theorem agree_sumLevel (agree : inner.AllAgree bound other) :
    Agree (bound + 1) (sumLevel inner) (sumLevel other) :=
  agree_leftAssociative operatesInside_sum (agree_productLevel agree)

theorem agree_concatLevel (agree : inner.AllAgree bound other) :
    Agree (bound + 1) (concatLevel inner) (concatLevel other) :=
  agree_leftAssociative operatesInside_concat (agree_sumLevel agree)

theorem turnsAgree_membershipTurn (agree : inner.AllAgree bound other) :
    TurnsAgree (bound + 1) (membershipTurn inner) (membershipTurn other) := by
  intro fewer isFewer element tape isSealed
  refine .seeing (run_peek tape) ?_
  refine .seeing (run_peekAhead 1 tape) ?_
  rw [Tape.ahead_one]
  split
  · exact .pure isSealed
  · rename_i negated isOperator
    have containers (here : Tape) (isSealed : here.Sealed fewer) :
        Lockstep here
          (do
            let container ← concatLevel inner
            return Turn.again (Expr.membership negated element container
              (element.span.cover container.span)))
          (do
            let container ← concatLevel other
            return Turn.again (Expr.membership negated element container
              (element.span.cover container.span)))
          (turnEnds (fun _ => Tape.Sealed fewer) fun _ => Tape.Sealed (fewer + 1)) :=
      ((agree_concatLevel agree).on isSealed (Nat.le_of_lt isFewer)).bind
        fun _ _ isSealed => .pure isSealed
    unfold membershipOperator? at isOperator
    split at isOperator
    · rename_i isIn
      cases isOperator
      have inner := isInner_of_isName isIn
      refine (lockstep_pass isSealed (ne_end_of_isInner inner)).bind fun _ here passed => ?_
      exact containers here passed.2.2
    · split at isOperator
      · rename_i isNotIn
        cases isOperator
        rw [Bool.and_eq_true] at isNotIn
        have inner := isInner_of_isName isNotIn.1
        refine (lockstep_pass isSealed (ne_end_of_isInner inner)).bind fun _ here passed => ?_
        obtain ⟨-, rfl, isSealed⟩ := passed
        have second : tape.advance.Inside (Read.advance.run tape.advance).2 :=
          inside_advance (isInner_of_isName isNotIn.2)
        exact (lockstep_inside second isSealed).bind fun _ there => containers there
      · cases isOperator

theorem agree_membershipLevel (agree : inner.AllAgree bound other) :
    Agree (bound + 1) (membershipLevel inner) (membershipLevel other) :=
  (agree_concatLevel agree).bind fun first => (turnsAgree_membershipTurn agree).loop first

theorem agree_comparisonLevel (agree : inner.AllAgree bound other) :
    Agree (bound + 1) (comparisonLevel inner) (comparisonLevel other) :=
  agree_leftAssociative operatesInside_comparison (agree_membershipLevel agree)

theorem agree_negationLevel (agree : inner.AllAgree bound other) :
    Agree (bound + 1) (negationLevel inner) (negationLevel other) := by
  intro tape isSealed
  refine .seeing (run_peek tape) ?_
  refine .ite (fun isNot => ?_) fun _ => agree_comparisonLevel agree tape isSealed
  have inner := isInner_of_isName isNot
  refine (lockstep_pass isSealed (ne_end_of_isInner inner)).bind fun _ here passed => ?_
  exact (agree.negation here passed.2.2).bind fun _ _ isSealed =>
    .pure (isSealed.mono (Nat.le_succ bound))

theorem agree_conjunctionLevel (agree : inner.AllAgree bound other) :
    Agree (bound + 1) (conjunctionLevel inner) (conjunctionLevel other) :=
  agree_leftAssociative (operatesInside_word "and" .and) (agree_negationLevel agree)

theorem agree_disjunctionLevel (agree : inner.AllAgree bound other) :
    Agree (bound + 1) (disjunctionLevel inner) (disjunctionLevel other) :=
  agree_leftAssociative (operatesInside_word "or" .or) (agree_conjunctionLevel agree)

theorem agree_conditionalLevel (agree : inner.AllAgree bound other) :
    Agree (bound + 1) (conditionalLevel inner) (conditionalLevel other) := by
  refine (agree_disjunctionLevel agree).bind fun value => ?_
  refine (confined_takeWord _).agree.bind fun _ => .ite ?_ (.pure _)
  refine (agree_disjunctionLevel agree).bind fun test tape isSealed => ?_
  have rest (otherwise : Option Expr) :
      Agree (bound + 1)
        (do return .conditional test value otherwise (value.span.cover (← previousSpan)) :
          Read Expr)
        (do return .conditional test value otherwise (value.span.cover (← previousSpan))) :=
    (confined_previousSpan.bind fun _ => confined_pure _).agree
  refine lockstep_ifWord isSealed (fun here isSealed => ?_) ?_
  · have deeper := agree.expression.map some
    refine (deeper here isSealed).bind fun otherwise there isSealed => ?_
    exact rest otherwise there (isSealed.mono (Nat.le_succ bound))
  · exact (Agree.pure none).bind rest tape isSealed

/-! ### All nestings -/

/-- The grammar for expressions nested less than `depth` times. Expressions nested deeper are left
to other readers. -/
def Levels.nestedOver (deeper : Levels) : Nat → Levels
  | 0 => deeper
  | depth + 1 =>
      { expression := conditionalLevel (nestedOver deeper depth)
        negation := negationLevel (nestedOver deeper depth)
        signed := signedLevel (nestedOver deeper depth)
        chain := chainLevel (nestedOver deeper depth) }

theorem allAgree_nested (deeper : Levels) (depth : Nat) :
    (nested depth).AllAgree depth (nestedOver deeper depth) := by
  induction depth with
  | zero =>
      have none (action other : Read Expr) : Agree 0 action other :=
        fun _ isSealed => absurd isSealed.short (Nat.not_lt_zero _)
      exact ⟨none _ _, none _ _, none _ _, none _ _⟩
  | succ depth inductionHypothesis =>
      exact ⟨agree_conditionalLevel inductionHypothesis, agree_negationLevel inductionHypothesis,
        agree_signedLevel inductionHypothesis, agree_chainLevel inductionHypothesis⟩

/-- The parts of the expression grammar that are read from outside expressions. -/
inductive Levels.Entry : {α : Type} → (Levels → Read α) → Prop where
  | conditional : Entry conditionalLevel
  | disjunction : Entry disjunctionLevel
  | target : Entry targetOperand
  | filter : Entry filterCall

theorem Levels.Entry.agree {α : Type} {part : Levels → Read α} (entry : Entry part)
    (agree : inner.AllAgree bound other) : Agree (bound + 1) (part inner) (part other) := by
  cases entry with
  | conditional => exact agree_conditionalLevel agree
  | disjunction => exact agree_disjunctionLevel agree
  | target => exact agree_plainChain agree false
  | filter => exact agree_filterCall agree

theorem nestedOver_nestedOver (deeper : Levels) (further depth : Nat) :
    nestedOver (nestedOver deeper further) depth = nestedOver deeper (depth + further) := by
  induction depth with
  | zero => rw [Nat.zero_add, nestedOver]
  | succ depth inductionHypothesis =>
      rw [Nat.succ_add, nestedOver, nestedOver, inductionHypothesis]

/-- As many nestings as there are tokens suffice, and what would read the expressions for which
none is left makes no difference. -/
theorem run_nestedOver {α : Type} {part : Levels → Read α} (entry : Levels.Entry part)
    (deeper : Levels) {depth : Nat} (isSealed : tape.Sealed depth) :
    (part (nestedOver deeper depth)).run tape = (withNesting part).run tape := by
  obtain ⟨further, rfl⟩ := Nat.exists_eq_add_of_le isSealed.short
  have agree := allAgree_nested (nestedOver deeper further) tape.following.length.succ
  rw [nestedOver_nestedOver] at agree
  have goes := entry.agree agree tape (isSealed.tight.mono (Nat.le_succ _))
  rw [run_withNesting]
  exact goes.same

/-! ### Clauses -/

open Statement

theorem progresses_listedTurn : Progresses listedTurn := by
  intro bound fewer isFewer items tape isSealed
  refine lockstep_ifSymbol isSealed (fun here isSealed => ?_) (.pure isSealed)
  refine .seeing (run_atClose here) ?_
  refine .ite (fun _ => .pure (isSealed.mono (Nat.le_succ fewer))) fun _ => ?_
  exact (confined_expression.agree here isSealed).bind fun _ _ isSealed => .pure isSealed

theorem progresses_targetTurn : Progresses targetTurn := by
  intro bound fewer isFewer items tape isSealed
  refine lockstep_ifSymbol isSealed (fun here isSealed => ?_) (.pure isSealed)
  refine .seeing (run_atSymbol .assign here) ?_
  refine .seeing (run_atWord "in" here) ?_
  refine .seeing (run_atTagEnd here) ?_
  refine .ite (fun _ => .pure (isSealed.mono (Nat.le_succ fewer))) fun _ => ?_
  exact (confined_targetOperand.agree here isSealed).bind fun _ _ isSealed => .pure isSealed

theorem progresses_paramTurn : Progresses paramTurn := by
  intro bound fewer isFewer params tape isSealed
  refine .seeing (run_atSymbol .rightParen tape) ?_
  refine .seeing (run_atClose tape) ?_
  refine .ite (fun _ => .pure isSealed) fun _ => ?_
  refine lockstep_take? rfl isSealed (fun token here isSealed => ?_) ?_
  · have rest (default : Option Expr) {there : Tape} (isSealed : there.Sealed fewer) :=
      lockstep_orLast (fun span => params ++ [⟨token.lexeme, default, span⟩]) token.span isSealed
    refine ((confined_takeSymbol _).agree here isSealed).bind fun found there isSealed => ?_
    refine .ite (fun _ => ?_) fun _ => rest none isSealed
    exact ((confined_expression.map some).agree there isSealed).bind fun default _ => rest default
  · refine ((confined_expected _).agree tape isSealed).bind fun _ _ isSealed => .pure isSealed

theorem progresses_filterTurn : Progresses filterTurn := by
  intro bound fewer isFewer filters tape isSealed
  refine lockstep_ifSymbol isSealed (fun here isSealed => ?_) (.pure isSealed)
  exact (confined_filter.agree here isSealed).bind fun _ _ isSealed => .pure isSealed

theorem progresses_blockWordTurn : Progresses blockWordTurn := by
  intro bound fewer isFewer value tape isSealed
  refine lockstep_ifWord isSealed (fun here isSealed => .pure isSealed) ?_
  exact lockstep_ifWord isSealed (fun here isSealed => .pure isSealed) (.pure isSealed)

/-- Two words that are passed over one after the other. -/
theorem lockstep_passWords {α : Type} {next : Token → Token → Read α} {ends : α → Tape → Prop}
    (isSealed : tape.Sealed (bound + 1)) (first : tape.current.kind.isInner = true)
    (second : tape.advance.current.kind.isInner = true)
    (rest : ∀ one two here, here.Sealed bound → Lockstep here (next one two) (next one two) ends) :
    Lockstep tape (do next (← advance) (← advance)) (do next (← advance) (← advance)) ends := by
  refine (lockstep_pass isSealed (ne_end_of_isInner first)).bind fun one here passed => ?_
  obtain ⟨-, rfl, isSealed⟩ := passed
  exact (lockstep_inside (inside_advance second) isSealed).bind fun two here => rest one two here

/-- A context clause uses up a token, if it is there. -/
theorem lockstep_contextClause? (isSealed : tape.Sealed (bound + 1)) :
    Lockstep tape contextClause? contextClause? fun found final =>
      final.Sealed (if found.isSome then bound else bound + 1) := by
  refine .seeing (run_atContextClause tape) ?_
  refine .ite (fun isClause => ?_) fun _ => .pure isSealed
  rw [Bool.and_eq_true, Bool.or_eq_true] at isClause
  exact lockstep_passWords isSealed (isClause.1.elim isInner_of_isName isInner_of_isName)
    (isInner_of_isName isClause.2) fun _ _ here isSealed => .pure isSealed

theorem progresses_clauseTurn : Progresses clauseTurn := by
  intro bound fewer isFewer clauses tape isSealed
  refine .seeing (run_peekAhead 1 tape) ?_
  refine .seeing (run_atWord "ignore" tape) ?_
  rw [Tape.ahead_one]
  refine .ite (fun ignores => ?_) fun _ => ?_
  · rw [Bool.and_eq_true] at ignores
    exact lockstep_passWords isSealed (isInner_of_isName ignores.1) (isInner_of_isName ignores.2)
      fun _ _ here isSealed => .pure isSealed
  · refine (lockstep_contextClause? isSealed).bind fun found here isSealed => ?_
    cases found with
    | none => exact .pure isSealed
    | some context => exact .pure isSealed

theorem progresses_importTurn : Progresses importTurn := by
  intro bound fewer isFewer names tape isSealed
  refine .seeing (run_atKind .name tape) ?_
  refine .seeing (run_atContextClause tape) ?_
  refine .ite (fun isImport => ?_) fun _ => .pure isSealed
  rw [Bool.and_eq_true, beq_iff_eq] at isImport
  have isInner : tape.current.kind.isInner = true := by rw [isImport.1]; rfl
  refine (lockstep_pass isSealed (ne_end_of_isInner isInner)).bind fun token here passed => ?_
  have rest (boundAs : Option String) {there : Tape} (isSealed : there.Sealed fewer) :=
    lockstep_orLast (fun span => names ++ [⟨token.lexeme, boundAs, span⟩]) token.span isSealed
  refine ((confined_takeWord _).agree here passed.2.2).bind fun found there isSealed => ?_
  refine .ite (fun _ => ?_) fun _ => rest none isSealed
  exact ((confined_expectName _).agree there isSealed).bind fun boundAs _ => rest boundAs

theorem progresses_bindingTurn : Progresses bindingTurn := by
  intro bound fewer isFewer bindings tape isSealed
  refine .seeing (run_atClose tape) ?_
  refine .ite (fun _ => .pure isSealed) fun _ => ?_
  refine (confined_targetOperand.agree tape isSealed).bind fun _ here isSealed => ?_
  refine ((confined_toTarget _ _).agree here isSealed).bind fun target here isSealed => ?_
  refine ((confined_expectSymbol _).agree here isSealed).bind fun _ here isSealed => ?_
  refine (confined_expression.agree here isSealed).bind fun value here isSealed => ?_
  exact lockstep_ifSymbol isSealed (fun there isSealed => .pure isSealed) (.pure isSealed)

/-- A hook's expressions end where one passes over nothing. -/
theorem progresses_hookTurn (words : List String) : Progresses (hookTurn words) := by
  intro bound fewer isFewer exprs tape isSealed
  refine .seeing (run_peek tape) ?_
  refine .seeing (run_atClose tape) ?_
  refine .ite (fun _ => .pure isSealed) fun _ => ?_
  refine .seeing (run_get tape) ?_
  have isFewer : tape.following.length ≤ fewer := Nat.le_of_lt_succ isSealed.short
  refine (confined_expression.agree tape isSealed.tight).bind fun value here isSealed => ?_
  refine ((confined_takeSymbol _).agree here isSealed).bind fun _ there isSealed => ?_
  refine .seeing (run_get there) ?_
  refine .ite (fun _ => .pure (isSealed.mono (Nat.succ_le_succ isFewer))) fun isShorter => ?_
  have short : there.following.length < fewer :=
    Nat.lt_of_lt_of_le (Nat.lt_of_le_of_ne (Nat.le_of_lt_succ isSealed.short) isShorter) isFewer
  exact .pure ⟨isSealed.last, short⟩

end Stencil.Grammar
