import Stencil.Proofs.Grammar.Alongside

/-!
Contract: two tapes on which the same is read as long as nothing is reported on the first one.

Owns:
- actions that lead further on, among them all statements and bodies;
- the comparison of two actions that says nothing once the first one reports.

Does not own: what the statements of the grammar read (`Stencil.Proofs.Grammar.Abreast`).
-/

set_option autoImplicit false

-- The readers of tags are long chains of actions, each of which counts.
set_option synthInstance.maxSize 1024

namespace Stencil.Grammar

open Stencil.Report (Diagnostic)
open Stencil.Syntax
open Stencil.Text (Span)
open Stencil.Token (Kind Symbol)
open Read Statement

variable {α β : Type}

/-! ### Further on -/

/-- Whether an action leads further on from every tape: the head does not move back, the same
closing tags are waited for, and no report is taken back. -/
class Steady (action : Read α) : Prop where
  onward : ∀ tape : Tape, tape.Onward (action.run tape).2

section Steady

theorem Confined.steady {action : Read α} (confined : Confined action) : Steady action :=
  ⟨fun tape => (confined tape).onward⟩

instance (value : α) : Steady (pure value : Read α) := (confined_pure value).steady

theorem Steady.bind {first : Read α} {next : α → Read β} (steady : Steady first)
    (rest : ∀ value, Steady (next value)) : Steady (first >>= next) :=
  ⟨fun tape => (steady.onward tape).trans ((rest _).onward _)⟩

instance {first : Read α} {next : α → Read β} [steady : Steady first]
    [rest : ∀ value, Steady (next value)] : Steady (first >>= next) := steady.bind rest

instance {f : α → β} {action : Read α} [steady : Steady action] : Steady (f <$> action) :=
  ⟨steady.onward⟩

instance {condition : Prop} {_ : Decidable condition} {yes no : Read α} [Steady yes] [Steady no] :
    Steady (if condition then yes else no) := by
  split <;> infer_instance

instance {turn : α → Read (Turn α)} [∀ value, Steady (turn value)] (limit : Nat) (value : α) :
    Steady (turns turn limit value) := by
  induction limit generalizing value with
  | zero => exact (confined_pure value).steady
  | succ fewer inductionHypothesis =>
      refine Steady.bind inferInstance fun result => ?_
      cases result with
      | again next => exact inductionHypothesis next
      | done result => exact (confined_pure result).steady

instance {turn : α → Read (Turn α)} [∀ value, Steady (turn value)] (value : α) :
    Steady (loop turn value) := by
  unfold loop
  have steady : Steady (get : Read Tape) := confined_get.steady
  infer_instance

instance : Steady peek := confined_peek.steady

instance (distance : Nat) : Steady (peekAhead distance) := (confined_peekAhead distance).steady

instance (kind : Kind) : Steady (atKind kind) := (confined_atKind kind).steady

instance (symbol : Symbol) : Steady (atSymbol symbol) := (confined_atKind (.symbol symbol)).steady

instance (word : String) : Steady (atWord word) := (confined_atWord word).steady

instance : Steady atTagEnd := confined_atTagEnd.steady

instance : Steady atClose := confined_atClose.steady

instance : Steady previousSpan := confined_previousSpan.steady

instance (start : Span) : Steady (spanFrom start) := (confined_spanFrom start).steady

instance (cause : Mistake) (span : Span) : Steady (mistake cause span) :=
  (confined_mistake cause span).steady

instance (what : String) : Steady (expected what) := (confined_expected what).steady

instance (symbol : Symbol) : Steady (takeSymbol symbol) := (confined_takeSymbol symbol).steady

instance (symbol : Symbol) : Steady (expectSymbol symbol) := (confined_expectSymbol symbol).steady

instance (word : String) : Steady (expectWord word) := (confined_expectWord word).steady

instance (what : String) : Steady (expectName what) := (confined_expectName what).steady

instance : Steady expression := confined_expression.steady

instance : Steady disjunction := confined_disjunction.steady

instance : Steady expressionList := confined_expressionList.steady

instance : Steady targetOperand := confined_targetOperand.steady

instance : Steady filterCall := confined_filter.steady

instance (tag : String) (expr : Expr) : Steady (toTarget tag expr) :=
  (confined_toTarget tag expr).steady

instance (items : List Expr) : Steady (targetTurn items) := (confined_targetTurn items).steady

instance (tag : String) : Steady (assignTarget tag) := (confined_assignTarget tag).steady

instance : Steady contextClause? := confined_contextClause?.steady

instance (filters : List FilterCall) : Steady (furtherFilters filters) :=
  (confined_furtherFilters filters).steady

instance : Steady loopCondition? := confined_loopCondition?.steady

instance : Steady callerParams := confined_callerParams.steady

instance (params : List Param) : Steady (paramTurn params) := (confined_paramTurn params).steady

instance (value : Unit) : Steady (blockWordTurn value) := (confined_blockWordTurn value).steady

instance (clauses : Clauses) : Steady (clauseTurn clauses) := (confined_clauseTurn clauses).steady

instance (names : List ImportName) : Steady (importTurn names) := (confined_importTurn names).steady

instance (bindings : List Binding) : Steady (bindingTurn bindings) :=
  (confined_bindingTurn bindings).steady

instance : Steady advance := ⟨fun _ => Tape.passes_advance trivial⟩

instance : Steady skipTag := by
  have skips : Steady (modify (·.skipTo resumes) : Read Unit) := ⟨fun _ => Tape.onward_skipTo _⟩
  unfold skipTag
  infer_instance

instance (what : Kind) : Steady (expectTagEnd what) := by
  unfold expectTagEnd
  infer_instance

instance : Steady expectBlockEnd := inferInstanceAs (Steady (expectTagEnd _))

instance : Steady params := by
  unfold params
  infer_instance

instance : Steady openTag := by
  unfold openTag
  infer_instance

instance : Steady finishTag := by
  unfold finishTag
  infer_instance

instance (tag ending : String) (start : Span) : Steady (missingEnd tag ending start) :=
  inferInstanceAs (Steady (mistake _ _))

instance : Steady output := by
  unfold output
  infer_instance

instance (start : Span) : Steady (inherit start) := by
  unfold inherit
  infer_instance

instance (start : Span) : Steady (embed start) := by
  unfold embed
  infer_instance

instance (start : Span) : Steady (importAs start) := by
  unfold importAs
  infer_instance

instance (start : Span) : Steady (importNames start) := by
  unfold importNames
  infer_instance

instance : Steady trimmedText := ⟨fun _ => .refl _⟩

instance (start : Span) : Steady (verbatim start) := by
  unfold verbatim
  infer_instance

instance : Steady text := by
  unfold text
  infer_instance

instance (trimBefore trimAfter : Bool) : Steady (comment trimBefore trimAfter) := by
  unfold comment
  infer_instance

instance (name : String) : Steady (closesEnclosing name) :=
  ⟨fun _ => .refl _⟩

theorem extensionFor?_empty (name : String) : extensionFor? .empty name = none := by
  unfold extensionFor?
  split <;> rfl

section Bodies

variable {body : BodyReader} [∀ endings, Steady (body endings)]

instance (ending tag : String) (start : Span) : Steady (closedBody body ending tag start) := by
  unfold closedBody
  infer_instance

instance (start : Span) (choice : Choice) : Steady (nextBranch body start choice) := by
  refine Steady.bind inferInstance fun result => Steady.bind inferInstance fun span => ?_
  dsimp only
  split <;> infer_instance

instance (start : Span) : Steady (choose body start) := by
  unfold choose
  infer_instance

instance (found : Option String) (start : Span) : Steady (loopOtherwise? body found start) := by
  unfold loopOtherwise?
  split <;> infer_instance

instance (start : Span) : Steady (each body start) := by
  unfold each
  infer_instance

instance (start : Span) : Steady (assign body start) := by
  unfold assign
  infer_instance

instance (start : Span) : Steady (block body start) := by
  unfold block
  infer_instance

instance (start : Span) : Steady (define body start) := by
  unfold define
  infer_instance

instance (start : Span) : Steady (callBlock body start) := by
  unfold callBlock
  infer_instance

instance (start : Span) : Steady (withBlock body start) := by
  unfold withBlock
  infer_instance

instance (start : Span) : Steady (filterBlock body start) := by
  unfold filterBlock
  infer_instance

instance (name : String) (start : Span) : Steady (builtin body name start) := by
  unfold builtin
  split <;> infer_instance

instance : Steady (statement .empty body) := by
  unfold statement
  simp only [extensionFor?_empty]
  infer_instance

instance (endings : List String) (sofar : Body) :
    Steady (nextNode .empty body endings sofar) := by
  refine Steady.bind inferInstance fun token => ?_
  dsimp only
  split <;> infer_instance

end Bodies

instance (depth : Nat) (endings : List String) : Steady (nestedBody .empty depth endings) := by
  induction depth generalizing endings with
  | zero => exact (confined_pure _).steady
  | succ fewer inductionHypothesis =>
      have steady : Steady (loop (nextNode .empty (nestedBody .empty fewer) endings) ⟨#[], none⟩) :=
        inferInstance
      refine ⟨fun tape => ?_⟩
      have inside := steady.onward { tape with enclosing := endings :: tape.enclosing }
      exact ⟨inside.moved, rfl, inside.reported⟩

end Steady

/-! ### Actions that report -/

/-- An action that leads further on and reports nothing in the end has reported nothing on its way. -/
theorem Steady.quiet_of_bind {first : Read α} {next : α → Read β} (steady : Steady first)
    (rest : ∀ value, Steady (next value)) {tape : Tape}
    (quiet : ((first >>= next).run tape).2.problems = tape.problems) :
    (first.run tape).2.problems = tape.problems ∧
      ((next (first.run tape).1).run (first.run tape).2).2.problems =
        (first.run tape).2.problems := by
  obtain ⟨more, isMore⟩ := (steady.onward tape).reported
  obtain ⟨further, isFurther⟩ := ((rest (first.run tape).1).onward (first.run tape).2).reported
  have noneReported : more = #[] ∧ further = #[] := by
    rw [run_bind, isFurther, isMore, Array.append_assoc] at quiet
    exact Array.append_eq_empty_iff.mp (Array.self_eq_append_right.mp quiet.symm)
  rw [isFurther, isMore, noneReported.1, noneReported.2, Array.append_empty, Array.append_empty]
  exact ⟨rfl, rfl⟩

/-- Whether an action reports something on its way from a tape. -/
def Reports (tape : Tape) (action : Read α) : Prop :=
  (action.run tape).2.problems ≠ tape.problems

namespace Reports

variable {tape : Tape} {first : Read α} {next : α → Read β}

theorem bind [steady : Steady first] [steadyOn : ∀ value, Steady (next value)]
    (reports : Reports tape first) : Reports tape (first >>= next) :=
  fun quiet => reports (steady.quiet_of_bind steadyOn quiet).1

theorem behind [steady : Steady first] [steadyOn : ∀ value, Steady (next value)]
    (reports : Reports (first.run tape).2 (next (first.run tape).1)) :
    Reports tape (first >>= next) :=
  fun quiet => reports (steady.quiet_of_bind steadyOn quiet).2

theorem mistake (cause : Mistake) (span : Span) : Reports tape (mistake cause span) := by
  intro quiet
  have longer := congrArg Array.size quiet
  rw [show ((Read.mistake cause span).run tape).2.problems = tape.problems.push _ from rfl,
    Array.size_push] at longer
  omega

theorem expected (what : String) : Reports tape (expected what) := by
  unfold Read.expected
  exact Reports.behind (Reports.mistake _ _)

end Reports

/-! ### Two actions, as long as the first one reports nothing -/

/-- Whether a condition holds of what two actions give and where they lead, unless the first one
reports something. -/
structure Follows (tape other : Tape) (action twin : Read α) (ends : α → α → Tape → Tape → Prop) :
    Prop where
  twin_of_quiet : (action.run tape).2.problems = tape.problems → Twin tape other action twin ends

namespace Follows

variable {tape other : Tape} {action twin : Read α} {middle : α → α → Tape → Tape → Prop}
  {ends : β → β → Tape → Tape → Prop}

theorem bind_of_steady {next others : α → Read β} (steady : Steady action)
    (steadyOn : ∀ value, Steady (next value)) (first : Follows tape other action twin middle)
    (rest : ∀ value same here there, middle value same here there →
      Follows here there (next value) (others same) ends) :
    Follows tape other (action >>= next) (twin >>= others) ends := by
  refine ⟨fun quiet => ?_⟩
  obtain ⟨quietFirst, quietRest⟩ := steady.quiet_of_bind steadyOn quiet
  exact (rest _ _ _ _ (first.twin_of_quiet quietFirst)).twin_of_quiet quietRest

theorem bind {next others : α → Read β} [steady : Steady action]
    [steadyOn : ∀ value, Steady (next value)] (first : Follows tape other action twin middle)
    (rest : ∀ value same here there, middle value same here there →
      Follows here there (next value) (others same) ends) :
    Follows tape other (action >>= next) (twin >>= others) ends :=
  bind_of_steady steady steadyOn first rest

/-- What is read alike in any case is read alike as long as nothing is reported. -/
theorem of_twin (holds : Twin tape other action twin middle) :
    Follows tape other action twin middle := ⟨fun _ => holds⟩

theorem pure {value same : α} (holds : middle value same tape other) :
    Follows tape other (Pure.pure value) (Pure.pure same) middle := ⟨fun _ => holds⟩

theorem map {f g : α → β}
    (holds : Follows tape other action twin fun value same => ends (f value) (g same)) :
    Follows tape other (f <$> action) (g <$> twin) ends := ⟨holds.twin_of_quiet⟩

theorem weaken {weaker : α → α → Tape → Tape → Prop}
    (holds : Follows tape other action twin middle)
    (weakens : ∀ value same here there, middle value same here there →
      weaker value same here there) :
    Follows tape other action twin weaker :=
  ⟨fun quiet => (holds.twin_of_quiet quiet).weaken weakens⟩

theorem ite {condition twinCondition : Prop} {_ : Decidable condition}
    {_ : Decidable twinCondition} {yes no otherYes otherNo : Read α}
    (same : twinCondition ↔ condition) (left : condition → Follows tape other yes otherYes middle)
    (right : ¬condition → Follows tape other no otherNo middle) :
    Follows tape other (if condition then yes else no) (if twinCondition then otherYes else otherNo)
      middle := by
  by_cases holds : condition
  · rw [if_pos holds, if_pos (same.mpr holds)]
    exact left holds
  · rw [if_neg holds, if_neg (mt same.mp holds)]
    exact right holds

/-- What comes after two actions that only look at their tapes. -/
theorem seeing {value same : α} {next others : α → Read β}
    (looks : action.run tape = (value, tape)) (alsoLooks : twin.run other = (same, other))
    (rest : Follows tape other (next value) (others same) ends) :
    Follows tape other (action >>= next) (twin >>= others) ends := by
  refine ⟨fun quiet => ?_⟩
  rw [run_bind, looks] at quiet
  exact .seeing looks alsoLooks (rest.twin_of_quiet quiet)

/-- Actions that do the same from the tapes on may take the place of the two. -/
theorem of_runs {plain plainTwin : Read α} (holds : Follows tape other action twin middle)
    (runs : plain.run tape = action.run tape) (twinRuns : plainTwin.run other = twin.run other) :
    Follows tape other plain plainTwin middle :=
  ⟨fun quiet => (holds.twin_of_quiet (runs ▸ quiet)).of_runs runs twinRuns⟩

/-- Once something is reported, nothing is said. -/
theorem of_reports (reports : Reports tape action) : Follows tape other action twin middle :=
  ⟨fun quiet => absurd quiet reports⟩

theorem of_mistake {next : Unit → Read β} {twin : Read β} [steadyOn : ∀ value, Steady (next value)]
    (cause : Mistake) (span : Span) : Follows tape other (mistake cause span >>= next) twin ends :=
  of_reports (Reports.mistake cause span).bind

theorem of_expected {next : Unit → Read β} {twin : Read β} [steadyOn : ∀ value, Steady (next value)]
    (what : String) : Follows tape other (expected what >>= next) twin ends :=
  of_reports (Reports.expected what).bind

end Follows

/-! ### Loops -/

section Loops

variable {like : Likeness} {margin : Margin} {bound : Nat} {region : Token.Region}
  {tape other : Tape} {turn others : α → Read (Turn α)} {kept : α → α → Prop}
  {ends : α → α → Tape → Tape → Prop} [∀ value, Steady (turn value)]

/-- Turns of which none reports anything: neither does the first one, nor do those behind it. -/
theorem quiet_of_turns {limit : Nat} {value : α}
    (quiet : ((turns turn (limit + 1) value).run tape).2.problems = tape.problems) :
    ((turn value).run tape).2.problems = tape.problems ∧
      ∀ next, ((turn value).run tape).1 = .again next →
        ((turns turn limit next).run ((turn value).run tape).2).2.problems =
          ((turn value).run tape).2.problems := by
  have steady : Steady (turn value) := inferInstance
  obtain ⟨quietFirst, quietRest⟩ :=
    steady.quiet_of_bind (fun result => by cases result <;> infer_instance) quiet
  refine ⟨quietFirst, fun next goesOn => ?_⟩
  rw [goesOn] at quietRest
  exact quietRest

/-- Turns side by side, each of which passes over a shared token unless it is the last, as long as
nothing is reported. -/
theorem follows_turns
    (each : ∀ (limit : Nat) (value same : α) (here there : Tape), limit < bound → kept value same →
      Beside like margin (limit + 1) region here there →
      Follows here there (turn value) (others same)
        (turnsEnd (fun value same here there =>
          kept value same ∧ Beside like margin limit region here there) ends))
    {limit most otherMost : Nat} (isFewer : limit ≤ bound) (enough : limit ≤ most)
    (otherEnough : limit ≤ otherMost) {value same : α} (holds : kept value same)
    (beside : Beside like margin limit region tape other) :
    Follows tape other (turns turn most value) (turns others otherMost same) ends := by
  induction limit generalizing most otherMost value same tape other with
  | zero =>
      obtain ⟨_, isZero⟩ := beside.exists_succ
      cases isZero
  | succ limit inductionHypothesis =>
      obtain ⟨most, rfl⟩ := Nat.exists_eq_add_of_le' (Nat.le_trans (Nat.succ_pos limit) enough)
      obtain ⟨otherMost, rfl⟩ :=
        Nat.exists_eq_add_of_le' (Nat.le_trans (Nat.succ_pos limit) otherEnough)
      refine Follows.bind_of_steady inferInstance (fun result => ?_)
        (each limit value same tape other isFewer holds beside) fun result twin here there ended => ?_
      · cases result <;> infer_instance
      · match result, twin, ended with
        | .again next, .again other, ended =>
            exact inductionHypothesis (Nat.le_of_lt isFewer) (Nat.le_of_succ_le_succ enough)
              (Nat.le_of_succ_le_succ otherEnough) ended.1 ended.2
        | .done result, .done twin, ended => exact .pure ended

theorem follows_loop
    (each : ∀ (limit : Nat) (value same : α) (here there : Tape), limit < bound → kept value same →
      Beside like margin (limit + 1) region here there →
      Follows here there (turn value) (others same)
        (turnsEnd (fun value same here there =>
          kept value same ∧ Beside like margin limit region here there) ends))
    {value same : α} (holds : kept value same) (beside : Beside like margin bound region tape other) :
    Follows tape other (loop turn value) (loop others same) ends := by
  obtain ⟨least, beside, isLeast, enough, otherEnough⟩ := beside.least
  exact (follows_turns each isLeast enough otherEnough holds beside).of_runs rfl rfl

end Loops

end Stencil.Grammar
