import Mathlib.Data.List.DropRight
import Stencil.Proofs.Grammar.Heedless
import Stencil.Proofs.Grammar.Trimming

/-!
Contract: reading does not depend on how marks are written, but on what they take off.

Owns:
- every reader of the grammar reads the same once all marks are carried out, if the tags of the
  host make nothing of marks;
- a template of tokens with marks is that of the tokens without them.

Does not own: texts of which nothing is left (`Stencil.Proofs.Grammar.Parallel`).
-/

set_option autoImplicit false

-- The readers of tags are long chains of actions, each of which counts.
set_option synthInstance.maxSize 1024

namespace Stencil.Text

theorem trimStart_trimStart (text : String) : trimStart (trimStart text) = trimStart text := by
  rw [trimStart, trimStart, String.toList_ofList, List.dropWhile_idempotent]

theorem trimEnd_trimEnd (text : String) : trimEnd (trimEnd text) = trimEnd text := by
  rw [trimEnd, trimEnd, String.toList_ofList, dropBlanksAtEnd, dropBlanksAtEnd,
    List.reverse_reverse, List.dropWhile_idempotent]

/-- Where no blanks are left at the ends, none are taken off. -/
theorem trim_trim (text : String) : trim (trim text) = trim text := by
  rw [trim, trim, ← trimEnd_trimStart, trimEnd_trimEnd, trimStart_trimStart]

end Stencil.Text

namespace Stencil.Grammar

open Stencil.Syntax
open Stencil.Text (Span)
open Stencil.Token (Kind Symbol)
open Levels Read Statement

variable {α : Type}

/-! ### Operands -/

instance (token : Token) (isFloat : Bool) : Indifferent (numberValue token isFloat) := by
  unfold numberValue
  dsimp only
  split
  · infer_instance
  · split <;> infer_instance

instance (token : Token) : Indifferent (integerOperand token) := by
  refine .advance (fun _ _ _ => rfl) fun _ => ?_
  refine .peekAhead 1 (by rintro ⟨⟨⟩, _, _⟩ _ _ <;> rfl) fun next => ?_
  refine .bind inferInstance fun isPoint => ?_
  have point : Indifferent (do
      let dot ← Read.advance
      let value ← numberValue token true
      return Expr.literal value (token.span.cover dot.span)) :=
    .advance (fun _ _ _ => rfl) fun _ => inferInstance
  infer_instance

instance (sum : String × Span) : Indifferent (stringTurn sum) := by
  refine .bind inferInstance fun found => ?_
  cases found <;> infer_instance

/-- Whether the readers of the grammar one nesting deeper read the same without marks. -/
class Levels.AreIndifferent (inner : Levels) : Prop where
  expression : Indifferent inner.expression
  negation : Indifferent inner.negation
  signed : Indifferent inner.signed
  chain : Indifferent inner.chain

section Operands

variable {inner : Levels} [areIndifferent : inner.AreIndifferent]

instance : Indifferent inner.expression := areIndifferent.expression

instance : Indifferent inner.negation := areIndifferent.negation

instance : Indifferent inner.signed := areIndifferent.signed

instance : Indifferent inner.chain := areIndifferent.chain

instance (items : List Expr) : Indifferent (tupleTurn inner items) := by
  unfold tupleTurn
  infer_instance

instance : Indifferent (parenthesized inner) := by
  unfold parenthesized
  exact .advance (fun _ _ _ => rfl) fun _ => inferInstance

instance (closing : Symbol) (item : Read Expr) [Indifferent item] (items : List Expr) :
    Indifferent (itemTurn closing item items) := by
  unfold itemTurn
  infer_instance

instance : Indifferent (listOperand inner) := by
  unfold listOperand
  exact .advance (fun _ _ _ => rfl) fun _ => inferInstance

instance (entries : List (Expr × Expr)) : Indifferent (entryTurn inner entries) := by
  unfold entryTurn
  infer_instance

instance : Indifferent (dictOperand inner) := by
  unfold dictOperand
  exact .advance (fun _ _ _ => rfl) fun _ => inferInstance

instance : Indifferent (operand inner) := by
  refine .peekInside (by rintro ⟨⟨⟩, _, _⟩ _ _ <;> rfl) (fun token _ => ?_) fun token outer => ?_
  · split
    case h_4 => exact .advance fun _ => inferInstance
    all_goals exact Indifferent.inside inferInstance
  · split
    case h_4 isString =>
      rw [isString] at outer
      cases outer
    all_goals infer_instance

/-! ### The chain after an operand -/

instance (value : Expr) : Indifferent (attributeOf value) := by
  refine .advance (fun _ _ _ => rfl) fun _ => ?_
  refine .peek (by rintro ⟨⟨⟩, _, _⟩ _ _ <;> rfl) fun token => ?_
  split <;> infer_instance

instance (value : Expr) : Indifferent (subscriptOf inner value) := by
  unfold subscriptOf
  infer_instance

instance (value : Read Expr) [Indifferent value] : Indifferent (namedArgument? value) := by
  refine .peekAhead 1 (by rintro ⟨⟨⟩, _, _⟩ _ _ <;> rfl) fun next => ?_
  refine .whether rfl ?_ (inferInstanceAs (Indifferent (pure none)))
  split
  · exact .advance fun _ => inferInstance
  · exact Indifferent.inside inferInstance

instance (value : Read Expr) [Indifferent value] : Indifferent (argument value) := by
  refine .bind inferInstance fun found => ?_
  cases found <;> infer_instance

instance : Indifferent (arguments inner) := by
  unfold arguments
  infer_instance

instance (callee : Expr) : Indifferent (callOf inner callee) := by
  unfold callOf
  infer_instance

instance (withCalls : Bool) (value : Expr) : Indifferent (plainTurn inner withCalls value) := by
  refine .peek (by rintro ⟨⟨⟩, _, _⟩ _ _ <;> rfl) fun token => ?_
  split
  · infer_instance
  · infer_instance
  · split <;> infer_instance
  · infer_instance

instance (withCalls : Bool) : Indifferent (plainChain inner withCalls) := by
  unfold plainChain
  infer_instance

theorem unseen_beginsBareArgument : Unseen beginsBareArgument := by
  rintro ⟨⟨⟩, _, _⟩ _ _ <;> rfl

instance (args : List Expr) : Indifferent (bareTurn inner args) := by
  have value : Indifferent (bareValue inner) :=
    inferInstanceAs (Indifferent (plainChain inner true))
  refine .bind inferInstance fun arg => ?_
  refine .peekAhead 1 (fun token before after => ?_) fun next => ?_
  · rw [unseen_beginsBareArgument]
  · refine .peekAhead 2 (by rintro ⟨⟨⟩, _, _⟩ _ _ <;> rfl) fun afterNext => ?_
    infer_instance

instance : Indifferent (bareArguments inner) := by
  refine .peek (fun token before after => ?_) fun token => inferInstance
  rw [unseen_beginsBareArgument]

theorem run_dottedTurn_eq (name : String) (tape : Tape) :
    (dottedTurn name).run tape =
      if (tape.current.kind == .symbol .dot && tape.advance.current.kind == .name) = true then
        (.again (name ++ "." ++ tape.advance.current.lexeme), tape.advance.advance)
      else (.done name, tape) := by
  rw [dottedTurn, run_bind, run_peekAhead, run_bind, run_atSymbol, run_ite, Tape.ahead_one]
  rfl

instance (name : String) : Indifferent (dottedTurn name) := by
  refine ⟨fun {tape bare} is => ?_⟩
  have samePoint : (bare.current.kind == .symbol .dot) = (tape.current.kind == .symbol .dot) :=
    ((inferInstance : Indifferent (atSymbol .dot)).bare is).1
  have sameName : (bare.advance.current.kind == .name) = (tape.advance.current.kind == .name) :=
    ((inferInstance : Indifferent (atKind .name)).bare is.advance).1
  rw [run_dottedTurn_eq, run_dottedTurn_eq, samePoint, sameName]
  split
  · rename_i isPart
    rw [Bool.and_eq_true, beq_iff_eq, beq_iff_eq] at isPart
    rw [is.advance.current_of_isInner (by rw [isPart.2]; rfl)]
    exact ⟨rfl, is.advance.advance⟩
  · exact ⟨rfl, is⟩

instance (what : String) : Indifferent (dottedName what) := by
  refine .bind inferInstance fun found => ?_
  cases found <;> infer_instance

instance : Indifferent (Levels.filterCall inner) := by
  refine .peek (fun _ _ _ => rfl) fun _ => ?_
  infer_instance

instance (value : Expr) : Indifferent (testOf inner value) := by
  refine .advance (fun _ _ _ => rfl) fun _ => ?_
  refine .bind inferInstance fun negated => .bind inferInstance fun name => ?_
  refine .peek (by rintro ⟨⟨⟩, _, _⟩ _ _ <;> rfl) fun token => ?_
  infer_instance

instance (value : Expr) : Indifferent (chainTurn inner value) := by
  refine .peek (by rintro ⟨⟨⟩, _, _⟩ _ _ <;> rfl) fun token => ?_
  split <;> infer_instance

instance : Indifferent (chainLevel inner) := by
  unfold chainLevel
  infer_instance

/-! ### Operators -/

theorem Indifferent.leftAssociative {operator? : Token → Option BinaryOp}
    (unseen : Unseen operator?) (tighter : Read Expr) [Indifferent tighter] :
    Indifferent (leftAssociative operator? tighter) := by
  have turn (left : Expr) : Indifferent (leftTurn operator? tighter left) := by
    refine .peek (fun token before after => ?_) fun token => ?_
    · rw [unseen]
    · split <;> infer_instance
  unfold Levels.leftAssociative
  infer_instance

instance : Indifferent (powerLevel inner) := by
  unfold powerLevel
  infer_instance

instance : Indifferent (signedLevel inner) := by
  refine .peek (by rintro ⟨⟨⟩, _, _⟩ _ _ <;> rfl) fun token => ?_
  dsimp only
  split <;> infer_instance

instance : Indifferent (productLevel inner) :=
  .leftAssociative (by rintro ⟨⟨⟩, _, _⟩ _ _ <;> rfl) _

instance : Indifferent (sumLevel inner) :=
  .leftAssociative (by rintro ⟨⟨⟩, _, _⟩ _ _ <;> rfl) _

instance : Indifferent (concatLevel inner) :=
  .leftAssociative (by rintro ⟨⟨⟩, _, _⟩ _ _ <;> rfl) _

instance (element : Expr) : Indifferent (membershipTurn inner element) := by
  refine .peek (fun token before after => ?_) fun token => ?_
  · simp only [membershipOperator?, Indifferent.unseen_isName _ token before after]
  · refine .peekAhead 1 (fun next before after => ?_) fun next => ?_
    · simp only [membershipOperator?, Indifferent.unseen_isName _ next before after]
    · split <;> infer_instance

instance : Indifferent (membershipLevel inner) := by
  unfold membershipLevel
  infer_instance

instance : Indifferent (comparisonLevel inner) :=
  .leftAssociative (by rintro ⟨⟨⟩, _, _⟩ _ _ <;> rfl) _

instance : Indifferent (negationLevel inner) := by
  refine .peek (fun token before after => ?_) fun token => ?_
  · simp only [Indifferent.unseen_isName _ token before after]
    rfl
  · infer_instance

theorem unseen_wordOperator (word : String) (op : BinaryOp) : Unseen (wordOperator? word op) := by
  intro token before after
  simp only [wordOperator?, Indifferent.unseen_isName _ token before after]

instance : Indifferent (disjunctionLevel inner) := by
  have conjunction : Indifferent (conjunctionLevel inner) :=
    .leftAssociative (unseen_wordOperator _ _) _
  exact .leftAssociative (unseen_wordOperator _ _) _

instance : Indifferent (conditionalLevel inner) := by
  unfold conditionalLevel
  infer_instance

end Operands

/-! ### All nestings -/

instance (depth : Nat) : (nested depth).AreIndifferent := by
  induction depth with
  | zero =>
      have missing : Indifferent (do return Expr.missing (Span.point (← peek).span.start)) :=
        .peek (fun _ _ _ => rfl) fun _ => inferInstance
      exact ⟨missing, missing, missing, missing⟩
  | succ depth inductionHypothesis =>
      have conditional : Indifferent (conditionalLevel (nested depth)) := inferInstance
      have negation : Indifferent (negationLevel (nested depth)) := inferInstance
      have signed : Indifferent (signedLevel (nested depth)) := inferInstance
      have chain : Indifferent (chainLevel (nested depth)) := inferInstance
      exact ⟨conditional, negation, signed, chain⟩

instance {part : Levels → Read α} [reads : ∀ depth, Indifferent (part (nested depth))] :
    Indifferent (withNesting part) := by
  refine ⟨fun {tape bare} is => ?_⟩
  rw [run_withNesting, run_withNesting, is.length_following]
  exact (reads _).bare is

instance : Indifferent expression := inferInstanceAs (Indifferent (withNesting _))

instance : Indifferent disjunction := inferInstanceAs (Indifferent (withNesting _))

instance : Indifferent targetOperand :=
  inferInstanceAs (Indifferent (withNesting fun inner => plainChain inner false))

instance : Indifferent filterCall := inferInstanceAs (Indifferent (withNesting _))

/-! ### Clauses -/

instance (items : List Expr) : Indifferent (listedTurn items) := by
  unfold listedTurn
  infer_instance

instance : Indifferent expressionList := by
  unfold expressionList
  infer_instance

instance (tag : String) (expr : Expr) : Indifferent (toTarget tag expr) := by
  unfold toTarget
  split <;> infer_instance

instance (items : List Expr) : Indifferent (targetTurn items) := by
  unfold targetTurn
  infer_instance

instance (tag : String) : Indifferent (assignTarget tag) := by
  unfold assignTarget
  infer_instance

instance : Indifferent atContextClause := by
  refine .peek (fun token before after => ?_) fun token => ?_
  · simp only [Indifferent.unseen_isName _ token before after]
  · refine .peekAhead 1 (fun next before after => ?_) fun next => inferInstance
    simp only [Indifferent.unseen_isName _ next before after]

instance : Indifferent contextClause? := by
  have passes : Indifferent (do
      let token ← advance
      let _ ← advance
      return some (token.isName "with")) := by
    refine .advance (fun token before after => ?_) fun _ => inferInstance
    simp only [Indifferent.unseen_isName _ token before after]
  unfold contextClause?
  infer_instance

instance (params : List Param) : Indifferent (paramTurn params) := by
  refine .bind inferInstance fun closes => .bind inferInstance fun ends => ?_
  split
  · infer_instance
  · refine .bind inferInstance fun found => ?_
    cases found <;> infer_instance

instance : Indifferent params := by
  unfold params
  infer_instance

instance : Indifferent callerParams := by
  unfold callerParams
  infer_instance

instance : Indifferent loopCondition? := by
  unfold loopCondition?
  infer_instance

instance (filters : List FilterCall) : Indifferent (furtherFilters filters) := by
  have turn (filters : List FilterCall) : Indifferent (filterTurn filters) := by
    unfold filterTurn
    infer_instance
  unfold furtherFilters
  infer_instance

instance (value : Unit) : Indifferent (blockWordTurn value) := by
  unfold blockWordTurn
  infer_instance

instance (clauses : Clauses) : Indifferent (clauseTurn clauses) := by
  refine .peekAhead 1 (fun next before after => ?_) fun next => ?_
  · simp only [Indifferent.unseen_isName _ next before after]
  · refine .bind inferInstance fun ignores => ?_
    split
    · infer_instance
    · refine .bind inferInstance fun clause => ?_
      cases clause <;> infer_instance

instance (names : List ImportName) : Indifferent (importTurn names) := by
  refine .whether rfl ?_ (.bind inferInstance fun _ => inferInstanceAs (Indifferent (pure _)))
  refine .seeing inferInstance (fun tape => by rw [run_atContextClause]) fun isClause => ?_
  split
  · exact .advance fun _ => inferInstance
  · exact Indifferent.inside inferInstance

instance (bindings : List Binding) : Indifferent (bindingTurn bindings) := by
  unfold bindingTurn
  infer_instance

/-- How many tokens follow the head does not depend on marks. -/
theorem Indifferent.count {next : Nat → Read α} (rest : ∀ count, Indifferent (next count)) :
    Indifferent (get >>= fun tape => next tape.following.length) := by
  refine ⟨fun {tape bare} is => ?_⟩
  rw [run_bind, run_bind, run_get, run_get, is.length_following]
  exact (rest _).bare is

instance (words : List String) (exprs : List Expr) : Indifferent (hookTurn words exprs) := by
  let ends (before : Nat) (exprs : List Expr) (left : Nat) : Read (Turn (List Expr)) :=
    if left = before then return .done exprs else return .again exprs
  let reads (before : Nat) : Read (Turn (List Expr)) := do
    let exprs := exprs ++ [← expression]
    let _ ← takeSymbol .comma
    ends before exprs (← get).following.length
  have indifferent (before : Nat) : Indifferent (reads before) := by
    refine .bind inferInstance fun expr => .bind inferInstance fun _ => ?_
    exact Indifferent.count fun left => inferInstanceAs (Indifferent (ite _ _ _))
  refine .peek (fun token before after => ?_) fun token => .bind inferInstance fun isClose => ?_
  · have sameWord : (token.unmarked before after).isName = token.isName :=
      funext fun word => Indifferent.unseen_isName word token before after
    simp only [sameWord]
  · have counts : Indifferent (get >>= fun tape => reads tape.following.length) := .count indifferent
    exact inferInstanceAs (Indifferent (ite _ _ (get >>= fun tape => reads tape.following.length)))

instance (words : List String) : Indifferent (expressionsUntil words) := by
  unfold expressionsUntil
  infer_instance

/-! ### Statements -/

instance : Indifferent output := by
  refine .advance (fun _ _ _ => rfl) fun _ => ?_
  infer_instance

instance : Indifferent openTag := by
  refine .advance (fun _ _ _ => rfl) fun _ => ?_
  infer_instance

instance : Indifferent finishTag := by
  refine .bind inferInstance fun _ => ?_
  refine .peekAhead 1 (by rintro ⟨⟨⟩, _, _⟩ _ _ <;> rfl) fun next => ?_
  infer_instance

instance (tag ending : String) (start : Span) : Indifferent (missingEnd tag ending start) :=
  inferInstanceAs (Indifferent (mistake _ _))

instance (start : Span) : Indifferent (inherit start) := by
  unfold inherit
  infer_instance

instance (start : Span) : Indifferent (embed start) := by
  unfold embed
  infer_instance

instance (start : Span) : Indifferent (importAs start) := by
  unfold importAs
  infer_instance

instance (start : Span) : Indifferent (importNames start) := by
  unfold importNames
  infer_instance

/-! #### Text and comments -/

theorem unseen_describe : Unseen Token.describe := by
  rintro ⟨⟨⟩, _, _⟩ _ _ <;> rfl

/-- Text that has lost its blanks has none to lose. -/
theorem Tape.Bare.content {tape bare : Tape} (is : tape.Bare bare)
    (isText : tape.current.kind = .text) :
    (trimmedText.run bare).1 = (trimmedText.run tape).1 := by
  rw [content_eq, content_eq, is.trims, is.trimsEnd, is.current, Token.unmarked_of_text _ _ isText]
  rfl

theorem withoutPrefix_of_append (pattern text : List Char) :
    Text.withoutPrefix pattern (pattern ++ text) = text := by
  rw [Text.withoutPrefix, Text.after?_append]
  rfl

theorem withoutSuffix_of_append (pattern text : List Char) :
    Text.withoutSuffix pattern (text ++ pattern) = text := by
  rw [Text.withoutSuffix, List.reverse_append, withoutPrefix_of_append]
  exact List.reverse_reverse text

/-- A comment without marks says what the one with marks does. -/
theorem commentContent_commentText (lexeme : String) (trimBefore trimAfter : Bool) :
    commentContent (commentText (commentContent lexeme trimBefore trimAfter)) false false =
      commentContent lexeme trimBefore trimAfter := by
  obtain ⟨content, isContent⟩ : ∃ content, commentContent lexeme trimBefore trimAfter =
      Text.trim content := ⟨_, rfl⟩
  rw [isContent, commentContent, commentText, String.toList_ofList, List.append_assoc,
    Token.commentOpener, withoutPrefix_of_append, Token.commentCloser, withoutSuffix_of_append]
  exact (congrArg Text.trim (String.ofList_toList ..)).trans (Text.trim_trim content)

theorem Tape.Bare.text {tape bare : Tape} (is : tape.Bare bare)
    (isText : tape.current.kind = .text) :
    (Statement.text.run bare).1 = (Statement.text.run tape).1 := by
  have run (tape : Tape) : (Statement.text.run tape).1 =
      if (trimmedText.run tape).1.isEmpty = true then none
      else some (.text (trimmedText.run tape).1 tape.current.span) := rfl
  rw [run, run, is.content isText, is.span]

theorem Tape.Bare.comment {tape bare : Tape} (is : tape.Bare bare) {trimBefore trimAfter : Bool}
    (isComment : tape.current.kind = .comment trimBefore trimAfter) :
    ((Statement.comment false false).run bare).1 =
      ((Statement.comment trimBefore trimAfter).run tape).1 := by
  have run (trimBefore trimAfter : Bool) (tape : Tape) :
      ((Statement.comment trimBefore trimAfter).run tape).1 =
        .comment (commentContent tape.current.lexeme trimBefore trimAfter) tape.current.span := rfl
  have isLexeme : bare.current.lexeme =
      commentText (commentContent tape.current.lexeme trimBefore trimAfter) := by
    rw [is.current]
    simp only [Token.unmarked, Word.unmarkedLexeme, kind_wordOf, isComment]
    rfl
  rw [run, run, isLexeme, commentContent_commentText, is.span]

instance (content : String) (start : Span) : Indifferent (verbatimEnd content start) := by
  refine .peek (by rintro ⟨⟨⟩, _, _⟩ _ _ <;> rfl) fun token => ?_
  refine .peekAhead 1 (fun next before after => ?_) fun next => ?_
  · simp only [Indifferent.unseen_isName _ next before after]
  · infer_instance

instance (start : Span) : Indifferent (verbatimRest start) := by
  refine ⟨fun {tape bare} is => ?_⟩
  have same : (bare.current.kind == .text) = (tape.current.kind == .text) :=
    ((inferInstance : Indifferent (atKind .text)).bare is).1
  rw [run_verbatimRest, run_verbatimRest, same]
  split
  · rename_i isText
    rw [is.content (beq_iff_eq.mp isText)]
    exact (inferInstance : Indifferent (verbatimEnd _ start)).bare is.advance
  · exact (inferInstance : Indifferent (verbatimEnd _ start)).bare is

instance (start : Span) : Indifferent (verbatim start) :=
  .bind (inferInstance : Indifferent expectBlockEnd)
    fun _ => (inferInstance : Indifferent (verbatimRest start))

/-- What is done with a name depends on the name, which has no marks. -/
theorem unseen_whenName (yes : Token → Read α) (no : Read α) :
    Unseen fun token => if (token.kind == .name) = true then yes token else no := by
  intro token before after
  dsimp only
  by_cases isName : token.kind = .name
  · rw [Token.unmarked_of_isInner before after (by rw [isName]; rfl)]
  · have notName := mt (Indifferent.plain_of_isInner (show Kind.name.isInner = true from rfl) token.kind).mp isName
    rw [Token.kind_unmarked, beq_eq_false_iff_ne.mpr isName, beq_eq_false_iff_ne.mpr notName]
    rfl

instance (name : String) : Indifferent (closesEnclosing name) := by
  refine ⟨fun {tape bare} is => ?_⟩
  rw [run_closesEnclosing, run_closesEnclosing, is.enclosing]
  exact ⟨rfl, is⟩

section Bodies

variable {body : BodyReader} [∀ endings, Indifferent (body endings)]

instance (ending tag : String) (start : Span) : Indifferent (closedBody body ending tag start) := by
  unfold closedBody
  infer_instance

instance (start : Span) (choice : Choice) : Indifferent (nextBranch body start choice) := by
  refine .bind inferInstance fun result => .bind inferInstance fun span => ?_
  dsimp only
  split <;> infer_instance

instance (start : Span) : Indifferent (choose body start) := by
  unfold choose
  infer_instance

instance (found : Option String) (start : Span) :
    Indifferent (loopOtherwise? body found start) := by
  unfold loopOtherwise?
  split <;> infer_instance

instance (start : Span) : Indifferent (each body start) := by
  unfold each
  infer_instance

instance (start : Span) : Indifferent (assign body start) := by
  unfold assign
  infer_instance

instance (start : Span) : Indifferent (block body start) := by
  unfold block
  infer_instance

instance (start : Span) : Indifferent (define body start) := by
  unfold define
  infer_instance

instance (start : Span) : Indifferent (callBlock body start) := by
  unfold callBlock
  infer_instance

instance (start : Span) : Indifferent (withBlock body start) := by
  unfold withBlock
  infer_instance

instance (start : Span) : Indifferent (filterBlock body start) := by
  unfold filterBlock
  infer_instance

instance (name : String) (start : Span) : Indifferent (builtin body name start) := by
  unfold builtin
  split
  case h_14 => exact .bind inferInstance fun _ => inferInstance
  all_goals infer_instance

/-! #### Tags of the host -/

theorem indifferent_runHook {hook : Hook} (unmarking : hook.Unmarking) (name : String)
    (start : Span) (closed : Bool) : Indifferent (runHook body name start hook closed) := by
  induction unmarking generalizing closed with
  | finish node => exact inferInstanceAs (Indifferent (pure _))
  | look unseen _ inductionHypothesis =>
      refine .peek (fun token before after => ?_) (inductionHypothesis · closed)
      rw [unseen]
  | takeWord _ inductionHypothesis | expression _ inductionHypothesis
  | expressionsUntil _ inductionHypothesis | spanFrom _ inductionHypothesis =>
      exact .bind inferInstance (inductionHypothesis · closed)
  | closeTag _ inductionHypothesis =>
      have rest := inductionHypothesis true
      unfold runHook
      infer_instance
  | bodyUntil _ inductionHypothesis =>
      have rest (nodes : List Node) (found : Option String) := inductionHypothesis nodes found true
      unfold runHook
      infer_instance
  | report _ inductionHypothesis => exact .bind inferInstance fun _ => inductionHypothesis closed

theorem indifferent_custom {extension : Extension} (heedless : extension.Heedless) (name : String)
    (start : Span) : Indifferent (custom body extension name start) := by
  have hook : Indifferent (runHook body name start (extension name start) false) :=
    indifferent_runHook (heedless.unmarking name start) name start false
  unfold custom
  infer_instance

/-! #### Statements and bodies -/

variable {register : Register} (heedless : register.Heedless)
include heedless

theorem indifferent_statement : Indifferent (statement register body) := by
  refine .advance (fun _ _ _ => rfl) fun opening => .whether rfl (.advance fun token => ?_) ?_
  · dsimp only
    cases found : extensionFor? register token.lexeme with
    | none => infer_instance
    | some extension => exact indifferent_custom (heedless.of_extensionFor? found) _ _
  · rw [if_neg Bool.false_ne_true]
    infer_instance

/-- Text is left as it reads, a comment as it says; nothing else is left of marks. -/
theorem indifferent_nextNode (endings : List String) (sofar : Body) :
    Indifferent (nextNode register body endings sofar) := by
  have statements : Indifferent (statement register body) := indifferent_statement heedless
  refine ⟨fun {tape bare} is => ?_⟩
  have bareKind : bare.current.kind = tape.current.kind.unmarked := by
    rw [is.current]
    rfl
  have sameWrong : Indifferent (do
      mistake (.unexpected tape.current.describe) tape.current.span
      let _ ← advance
      return Turn.again sofar) := inferInstance
  have sameDescription : bare.current.describe = tape.current.describe := by
    rw [is.current]
    exact unseen_describe _ _ _
  rw [nextNode, run_bind, run_bind, run_peek, run_peek]
  cases isKind : tape.current.kind
  all_goals
    rw [isKind] at bareKind
    simp only [bareKind, Kind.unmarked]
  case text =>
    have same := congrArg (fun node => Turn.again (sofar.add node)) (is.text isKind)
    exact ⟨same, is.advance⟩
  case comment trimBefore trimAfter =>
    have same := congrArg (fun node => Turn.again (sofar.add (some node))) (is.comment isKind)
    exact ⟨same, is.advance⟩
  case variableStart =>
    exact (inferInstance : Indifferent (do return Turn.again (sofar.add (some (← output))))).bare is
  case blockStart =>
    refine (Indifferent.peekAhead 1 (unseen_whenName _ _) fun next => ?_ : Indifferent _).bare is
    infer_instance
  case endOfInput => exact ⟨rfl, is⟩
  all_goals
    rw [sameDescription, is.span]
    exact sameWrong.bare is

end Bodies

section Templates

variable {register : Register} (heedless : register.Heedless)
include heedless

theorem indifferent_nestedBody (depth : Nat) (endings : List String) :
    Indifferent (nestedBody register depth endings) := by
  induction depth generalizing endings with
  | zero => exact inferInstanceAs (Indifferent (pure _))
  | succ fewer inductionHypothesis =>
      have turn (sofar : Body) :
          Indifferent (nextNode register (nestedBody register fewer) endings sofar) :=
        indifferent_nextNode heedless endings sofar
      have turns : Indifferent
          (loop (nextNode register (nestedBody register fewer) endings) ⟨#[], none⟩) :=
        inferInstance
      refine ⟨fun {tape bare} is => ?_⟩
      rw [nestedBody, run_bodyAround, run_bodyAround, is.enclosing]
      obtain ⟨same, moved⟩ := turns.bare (is.surrounded (endings :: tape.enclosing))
      dsimp only
      rw [same]
      exact ⟨rfl, moved.surrounded tape.enclosing⟩

theorem indifferent_body (endings : List String) : Indifferent (body register endings) := by
  refine ⟨fun {tape bare} is => ?_⟩
  have nested := indifferent_nestedBody heedless (tape.following.length + 1) endings
  rw [run_body, run_body, is.length_following]
  exact nested.bare is

theorem indifferent_template : Indifferent (template register) := by
  refine .peek (fun _ _ _ => rfl) fun _ => .bind (indifferent_body heedless []) fun _ => ?_
  exact .peek (fun _ _ _ => rfl) fun _ => inferInstance

end Templates

end Stencil.Grammar
