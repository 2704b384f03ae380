import Stencil.Proofs.Render.Depth
import Stencil.Proofs.Syntax.Inner

/-!
Contract: expressions without calls have a value in every render, and leave nothing but reports.

Owns:
- runs that only add reports to a state;
- actions that ask for values, looks and reports, and for nothing else;
- the value and the reports of an expression without calls, which do not depend on the reports that
  stand in the state before it.

Does not own: which of the reports a host wants (`Stencil.Proofs.Render.Strictness`).
-/

set_option autoImplicit false

namespace Stencil.Render

open Stencil.Host (Environment Registry)
open Stencil.Report (Diagnostic)
open Stencil.Syntax (Expr FilterCall)
open Stencil.Text (Span)

variable {α β : Type} {environment : Environment} {below : Below} {state : State}

/-! ### Reports on top of a state -/

/-- The state with more reports. -/
def State.telling (state : State) (reports : List Diagnostic) : State :=
  { state with problems := state.problems ++ reports.toArray }

namespace State

variable (state) (reports : List Diagnostic) (diagnostic : Diagnostic)

theorem telling_nil : state.telling [] = state := by
  simp [telling]

theorem report_telling :
    (state.telling reports).report diagnostic =
      state.telling (reports ++ [ascribe state.place diagnostic]) := by
  simp [telling, report]

end State

/-- Whether a run gives an answer in a state, whatever reports are added to the state, and leaves the
state as it was with some reports added behind them. -/
def Run.Tells (run : Run α) (state : State) (answer : α) (reports : List Diagnostic) : Prop :=
  ∀ before, run (state.telling before) = some (answer, state.telling (before ++ reports))

theorem Run.Tells.perform {run : Run α} {answer : α} {reports : List Diagnostic}
    (tells : run.Tells state answer reports) : run state = some (answer, state.telling reports) := by
  have result := tells []
  rwa [State.telling_nil, List.nil_append] at result

namespace Action

/-- Whether carrying out an action tells something. -/
abbrev Tells (environment : Environment) (below : Below) (action : Action α) (state : State)
    (answer : α) (reports : List Diagnostic) : Prop :=
  (action.perform environment below).Tells state answer reports

theorem tells_pure (answer : α) :
    (pure answer : Action α).Tells environment below state answer [] := by
  intro before
  rw [List.append_nil]
  rfl

theorem Tells.bind {first : Action α} {rest : α → Action β} {middle : α} {answer : β}
    {reports more : List Diagnostic} (tells : first.Tells environment below state middle reports)
    (further : (rest middle).Tells environment below state answer more) :
    (first >>= rest).Tells environment below state answer (reports ++ more) := by
  intro before
  change (first.andThen rest).perform environment below (state.telling before) = _
  rw [perform_andThen, tells before, Option.bind_some, further, List.append_assoc]

/-- What is made of an answer without another request adds nothing to what was told. -/
theorem Tells.bind_pure {first : Action α} {rest : α → Action β} {middle : α} {answer : β}
    {reports : List Diagnostic} (tells : first.Tells environment below state middle reports)
    (isPure : rest middle = pure answer) :
    (first >>= rest).Tells environment below state answer reports := by
  rw [← List.append_nil reports]
  apply tells.bind
  rw [isPure]
  exact tells_pure answer

theorem tells_valueOf {expr : Expr} {value : Value} {reports : List Diagnostic}
    (tells : (below.eval expr).Tells state value reports) :
    (valueOf expr).Tells environment below state value reports := by
  intro before
  rw [perform_valueOf, tells]

/-! ### Actions that only ask and report -/

/-- Whether an action asks for the values of some expressions, for looks and for reports, and for
nothing else. -/
inductive Inquires (allowed : Expr → Prop) {α : Type} : Action α → Prop where
  | done (answer : α) : Inquires allowed (.done answer)
  | eval {expr : Expr} {next : Value → Action α} (isAllowed : allowed expr)
      (further : ∀ value, Inquires allowed (next value)) : Inquires allowed (.eval expr next)
  | look {next : View → Action α} (further : ∀ view, Inquires allowed (next view)) :
      Inquires allowed (.look next)
  | consult {next : Registry → Action α} (further : ∀ registry, Inquires allowed (next registry)) :
      Inquires allowed (.consult next)
  | report {diagnostic : Diagnostic} {next : Action α} (further : Inquires allowed next) :
      Inquires allowed (.report diagnostic next)
  | complain {lookup : Lookup} {diagnostic : Diagnostic} {next : Action α}
      (further : Inquires allowed next) : Inquires allowed (.complain lookup diagnostic next)

/-- Such an action tells something if the expressions do. -/
theorem Inquires.tells {allowed : Expr → Prop} {action : Action α} (inquires : action.Inquires allowed)
    (values : ∀ expr, allowed expr → ∃ value reports, (below.eval expr).Tells state value reports) :
    ∃ answer reports, action.Tells environment below state answer reports := by
  induction inquires with
  | done answer => exact ⟨answer, [], tells_pure answer⟩
  | @eval expr next isAllowed further inductionHypothesis =>
      obtain ⟨value, reports, tells⟩ := values expr isAllowed
      obtain ⟨answer, more, furtherTells⟩ := inductionHypothesis value
      exact ⟨answer, reports ++ more, (tells_valueOf tells).bind furtherTells⟩
  | look further inductionHypothesis => exact inductionHypothesis state.toView
  | consult further inductionHypothesis => exact inductionHypothesis environment.toRegistry
  | @report diagnostic next further inductionHypothesis =>
      obtain ⟨answer, more, tells⟩ := inductionHypothesis
      refine ⟨answer, State.ascribe state.place diagnostic :: more, fun before => ?_⟩
      rw [perform, State.report_telling, tells, List.append_assoc]
      rfl
  | @complain lookup diagnostic next further inductionHypothesis =>
      obtain ⟨answer, more, tells⟩ := inductionHypothesis
      by_cases wanted : lookup.isStrict environment.strict = true
      · refine ⟨answer, State.ascribe state.place diagnostic :: more, fun before => ?_⟩
        rw [perform, if_pos wanted, State.report_telling, tells, List.append_assoc]
        rfl
      · refine ⟨answer, more, fun before => ?_⟩
        rw [perform, if_neg wanted, tells]

namespace Inquires

variable {allowed : Expr → Prop}

theorem bind {first : Action α} {rest : α → Action β} (inquires : first.Inquires allowed)
    (further : ∀ answer, (rest answer).Inquires allowed) : (first >>= rest).Inquires allowed := by
  change (first.andThen rest).Inquires allowed
  induction inquires with
  | done answer => exact further answer
  | eval isAllowed _ inductionHypothesis => exact .eval isAllowed inductionHypothesis
  | look _ inductionHypothesis => exact .look inductionHypothesis
  | consult _ inductionHypothesis => exact .consult inductionHypothesis
  | report _ inductionHypothesis => exact .report inductionHypothesis
  | complain _ inductionHypothesis => exact .complain inductionHypothesis

theorem pure (answer : α) : (Pure.pure answer : Action α).Inquires allowed := .done answer

theorem valueOf {expr : Expr} (isAllowed : allowed expr) : (Action.valueOf expr).Inquires allowed :=
  .eval isAllowed .done

theorem view : Action.view.Inquires allowed := .look .done

theorem registry : Action.registry.Inquires allowed := .consult .done

theorem problem (cause : Problem) (span : Span) : (Action.problem cause span).Inquires allowed :=
  .report (.done ())

theorem failedLookup (lookup : Lookup) (cause : Problem) (span : Span) :
    (Action.failedLookup lookup cause span).Inquires allowed :=
  .complain (.done ())

/-! ### Look-ups -/

theorem resolve (name : String) : (Action.resolve name).Inquires allowed := by
  refine view.bind fun view => ?_
  split
  · exact pure _
  · exact registry.bind fun registry => pure _

theorem lookup (name : String) (span : Span) : (Action.lookup name span).Inquires allowed := by
  refine (resolve name).bind fun found => ?_
  cases found with
  | some value => exact pure value
  | none => exact (failedLookup _ _ span).bind fun _ => pure _

theorem partOr (part : Option Value) (base : Value) (cause : Problem) (span : Span) :
    (Action.partOr part base cause span).Inquires allowed := by
  cases part with
  | some value => exact pure value
  | none =>
      unfold Action.partOr
      dsimp only
      split
      · exact (failedLookup _ _ span).bind fun _ => pure _
      · exact pure _

theorem settle (result : Except Value.Fault Value) (span : Span) :
    (Action.settle result span).Inquires allowed := by
  cases result with
  | ok value => exact pure value
  | error fault => exact (problem _ span).bind fun _ => pure _

theorem accept (name : String) (answer : Except String Value) (span : Span) :
    (Action.accept name answer span).Inquires allowed := by
  cases answer with
  | ok value => exact pure value
  | error reason => exact (problem _ span).bind fun _ => pure _

/-! ### Several expressions -/

theorem valuesOf {exprs : List Expr} (areAllowed : ∀ expr ∈ exprs, allowed expr) :
    (Action.valuesOf exprs).Inquires allowed := by
  induction exprs with
  | nil => exact pure _
  | cons expr rest inductionHypothesis =>
      rw [List.forall_mem_cons] at areAllowed
      exact (valueOf areAllowed.1).bind fun value =>
        (inductionHypothesis areAllowed.2).bind fun values => pure _

theorem entriesAfter (entries : Table Value) {pairs : List (Expr × Expr)}
    (areAllowed : ∀ pair ∈ pairs, allowed pair.1 ∧ allowed pair.2) :
    (Action.entriesAfter entries pairs).Inquires allowed := by
  induction pairs generalizing entries with
  | nil => exact pure _
  | cons pair rest inductionHypothesis =>
      rw [List.forall_mem_cons] at areAllowed
      exact (valueOf areAllowed.1.1).bind fun key =>
        (valueOf areAllowed.1.2).bind fun value => inductionHypothesis _ areAllowed.2

section Closed

variable (closed : ∀ {expr part : Expr}, allowed expr → part ∈ expr.children → allowed part)

include closed

theorem argumentsAfter (positional : List Value) (keywords : Table Value) {args : List Expr}
    (areAllowed : ∀ arg ∈ args, allowed arg) :
    (Action.argumentsAfter positional keywords args).Inquires allowed := by
  induction args generalizing positional keywords with
  | nil => exact pure _
  | cons arg rest inductionHypothesis =>
      rw [List.forall_mem_cons] at areAllowed
      unfold Action.argumentsAfter
      split
      · exact pure _
      · rename_i isArgs
        cases isArgs
        exact (valueOf (closed areAllowed.1 (List.mem_singleton.mpr rfl))).bind fun value =>
          inductionHypothesis _ _ areAllowed.2
      · rename_i isArgs
        cases isArgs
        exact (valueOf areAllowed.1).bind fun value => inductionHypothesis _ _ areAllowed.2

theorem argumentsOf {args : List Expr} (areAllowed : ∀ arg ∈ args, allowed arg) :
    (Action.argumentsOf args).Inquires allowed :=
  argumentsAfter closed [] [] areAllowed

/-! ### Filters and tests -/

theorem applyFilter (value : Value) {call : FilterCall} (areAllowed : ∀ arg ∈ call.args, allowed arg) :
    (Action.applyFilter value call).Inquires allowed := by
  refine (argumentsOf closed areAllowed).bind fun args => registry.bind fun registry => ?_
  split
  · exact accept _ _ _
  · exact (failedLookup _ _ _).bind fun _ => pure _

theorem resolvePath? {expr : Expr} (isAllowed : allowed expr) :
    (Action.resolvePath? expr).Inquires allowed := by
  fun_induction Action.resolvePath? expr with
  | case1 name => exact resolve name
  | case2 inner _ inductionHypothesis =>
      exact inductionHypothesis (closed isAllowed (List.mem_singleton.mpr rfl))
  | case3 value attr _ inductionHypothesis =>
      refine (inductionHypothesis (closed isAllowed (List.mem_singleton.mpr rfl))).bind fun base => ?_
      cases base <;> exact pure _
  | case4 value index _ inductionHypothesis =>
      refine (inductionHypothesis (closed isAllowed List.mem_cons_self)).bind fun base => ?_
      cases base with
      | none => exact pure _
      | some base =>
          have isIndex := closed isAllowed (List.mem_cons_of_mem _ List.mem_cons_self)
          exact (valueOf isIndex).bind fun index => pure _
  | case5 other => exact (valueOf isAllowed).bind fun value => pure _

theorem isDefined {expr : Expr} (isAllowed : allowed expr) :
    (Action.isDefined expr).Inquires allowed := by
  unfold Action.isDefined
  split
  · exact (resolve _).bind fun value => view.bind fun view => pure _
  · exact (resolvePath? closed isAllowed).bind fun value => pure _

theorem passes {value : Expr} (isAllowed : allowed value) (name : String) {args : List Expr}
    (areAllowed : ∀ arg ∈ args, allowed arg) (span : Span) :
    (Action.passes value name args span).Inquires allowed := by
  refine (valueOf isAllowed).bind fun value => (argumentsOf closed areAllowed).bind fun args =>
    registry.bind fun registry => ?_
  split
  · split
    · exact pure _
    · exact (problem _ _).bind fun _ => pure _
  · exact (failedLookup _ _ _).bind fun _ => pure _

theorem holds {value : Expr} (isAllowed : allowed value) (name : String) {args : List Expr}
    (areAllowed : ∀ arg ∈ args, allowed arg) (span : Span) :
    (Action.holds value name args span).Inquires allowed := by
  unfold Action.holds
  split
  · exact isDefined closed isAllowed
  · split
    · exact (isDefined closed isAllowed).bind fun result => pure _
    · exact passes closed isAllowed name areAllowed span

/-! ### Expressions -/

/-- An expression that is no call asks for the values of its parts. -/
theorem evaluate {expr : Expr} (notCall : ∀ callee args span, expr ≠ .call callee args span)
    (areAllowed : ∀ part ∈ expr.children, allowed part) :
    (Action.evaluate expr).Inquires allowed := by
  have part {part : Expr} (member : part ∈ expr.children) :
      (Action.valueOf part).Inquires allowed := valueOf (areAllowed part member)
  cases expr with
  | literal value span => exact pure _
  | missing span => exact pure _
  | name name span => exact lookup name span
  | group inner span => exact part (by simp [Expr.children])
  | keyword name value span => exact part (by simp [Expr.children])
  | unary op operand span =>
      exact (part (by simp [Expr.children])).bind fun value => settle _ span
  | binary op left right span =>
      have leftPart : (Action.valueOf left).Inquires allowed := part (by simp [Expr.children])
      have rightPart : (Action.valueOf right).Inquires allowed := part (by simp [Expr.children])
      cases op
      case and =>
        refine leftPart.bind fun value => ?_
        split
        · exact rightPart
        · exact pure _
      case or =>
        refine leftPart.bind fun value => ?_
        split
        · exact pure _
        · exact rightPart
      all_goals exact leftPart.bind fun left => rightPart.bind fun right => settle _ span
  | membership negated element container span =>
      exact (part (by simp [Expr.children])).bind fun element =>
        (part (by simp [Expr.children])).bind fun container => settle _ span
  | conditional test whenTrue otherwise span =>
      refine (part (by simp [Expr.children])).bind fun test => ?_
      split
      · exact part (by simp [Expr.children])
      · cases otherwise with
        | none => exact pure _
        | some otherwise => exact part (by simp [Expr.children])
  | call callee args span => exact absurd rfl (notCall callee args span)
  | filter value name args callSpan span =>
      exact (part List.mem_cons_self).bind fun value =>
        applyFilter closed value fun arg member => areAllowed arg (List.mem_cons_of_mem _ member)
  | test value negated name args span =>
      exact (holds closed (areAllowed value List.mem_cons_self) name (fun arg member =>
        areAllowed arg (List.mem_cons_of_mem _ member)) span).bind fun result => pure _
  | «attribute» value attr span =>
      exact (part (by simp [Expr.children])).bind fun base => partOr _ base _ span
  | item value index span =>
      exact (part (by simp [Expr.children])).bind fun base =>
        (part (by simp [Expr.children])).bind fun index => partOr _ base _ span
  | list items span => exact (valuesOf areAllowed).bind fun values => pure _
  | tuple items span => exact (valuesOf areAllowed).bind fun values => pure _
  | dict entries span =>
      refine (entriesAfter [] fun pair member => ?_).bind fun table => pure _
      exact ⟨areAllowed _ (List.mem_flatMap.mpr ⟨pair, member, by simp⟩),
        areAllowed _ (List.mem_flatMap.mpr ⟨pair, member, by simp⟩)⟩

end Closed

end Inquires

end Action

/-! ### Expressions without calls -/

/-- An expression without calls has a value in every state. Its evaluation adds reports and changes
nothing else, and what it adds does not depend on the reports before it. -/
theorem tells_callFree (environment : Environment) (state : State) {expr : Expr}
    (isFree : expr.CallFree) :
    ∃ value reports, ((unbounded environment).eval expr).Tells state value reports := by
  have closed {outer part : Expr} (isSmall : outer.CallFree ∧ sizeOf outer < sizeOf expr)
      (member : part ∈ outer.children) : part.CallFree ∧ sizeOf part < sizeOf expr :=
    ⟨isSmall.1.child member, Nat.lt_trans (Expr.sizeOf_child member) isSmall.2⟩
  have inquires : (Action.evaluate expr).Inquires fun part =>
      part.CallFree ∧ sizeOf part < sizeOf expr := by
    cases isFree with
    | mk notCall children =>
        exact .evaluate closed notCall fun part member =>
          ⟨children part member, Expr.sizeOf_child member⟩
  rw [unbounded_eval]
  exact inquires.tells fun part isSmall => tells_callFree environment state isSmall.1
termination_by sizeOf expr
decreasing_by exact isSmall.2

end Stencil.Render
