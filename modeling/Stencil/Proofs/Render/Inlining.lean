import Stencil.Proofs.Host.Tables
import Stencil.Proofs.Render.Grouping
import Stencil.Proofs.Render.InStep

/-!
Contract: calls of macros are the macros' bodies with the arguments assigned to the parameters.

Owns:
- calls, statements and expressions that follow those with calls replaced;
- calls that are on one side only: a body in the setting of a macro, and in a frame with assignments;
- whole renders.

Does not own: how statements with calls replaced are made up (`Stencil.Proofs.Syntax.Inlining`), and
what the two renders have in common (`Stencil.Proofs.Render.InStep`).
-/

set_option autoImplicit false

namespace Stencil.Table

variable {α : Type}

theorem nodup_names_putAll {table : Table α} (distinct : table.names.Nodup) (entries : Table α) :
    (table.putAll entries).names.Nodup :=
  List.foldlRecOn (motive := fun table : Table α => table.names.Nodup) entries _ distinct
    fun _ distinct _ _ => nodup_names_put distinct _ _

/-- In a table with distinct names the first entry of a name is the last one. -/
theorem getLast?_filter {table : Table α} (distinct : table.names.Nodup) (name : String) :
    (table.filter (·.1 = name)).getLast?.map (·.2) = table.lookup? name := by
  induction table with
  | nil => rfl
  | cons entry rest inductionHypothesis =>
      obtain ⟨isNew, distinct⟩ := List.nodup_cons.mp distinct
      by_cases same : entry.1 = name
      · subst same
        have none : rest.filter (·.1 = entry.1) = [] := by
          refine List.filter_eq_nil_iff.mpr fun other member same => isNew ?_
          exact List.mem_map.mpr ⟨other, member, by simpa using same⟩
        rw [List.filter_cons_of_pos (by simp), none, lookup?, if_pos rfl]
        rfl
      · rw [List.filter_cons_of_neg (by simpa using same), lookup?, if_neg same]
        exact inductionHypothesis distinct

end Stencil.Table

namespace Stencil.Render

open Stencil.Host (Arguments Environment Shelf)
open Stencil.Syntax
open Stencil.Text (Span)

variable {α : Type}

variable {environment : Environment} {definition : MacroDefinition}
  {home home' : Table MacroDefinition} {below below' : Below}

/-! ### Calls on both sides -/

/-- A name stands for the macro of the template by that name. -/
theorem Action.perform_findMacro? {state : State}
    (macros : ∀ name, state.macros.lookup? name = (home.lookup? name).map (Macro.mk · home))
    (homes : ∀ sisters ∈ state.place.homes, sisters = home) (name : String)
    (rest : Option Macro → Action α) :
    (findMacro? name >>= rest).perform environment below state =
      (rest ((home.lookup? name).map (Macro.mk · home))).perform environment below state := by
  cases areHomes : state.place.homes with
  | nil => simp only [findMacro?, bind, pure, view, andThen, perform, areHomes, List.head?_nil,
      Option.bind_none, macros]
  | cons sisters outer =>
      obtain rfl := homes sisters (areHomes ▸ List.mem_cons_self)
      simp only [findMacro?, bind, pure, view, andThen, perform, areHomes, List.head?_cons,
        Option.bind_some, macros]
      cases sisters.lookup? name <;> rfl

/-- A call by an unreserved name is one of a macro or of a function. -/
theorem Action.callName_of_unreserved {name : String} (isUnreserved : Unreserved name)
    (args : List Expr) (caller : Option Caller) (span : Span) :
    callName name args caller span = findMacro? name >>= fun
      | some callable => argumentsOf args >>= fun args => callMacro callable args caller span
      | none => argumentsOf args >>= fun args => callFunction name args span := by
  have notCaller : name ≠ "caller" := fun same =>
    isUnreserved (by simp [reservedNames, surplusNames, same])
  have notSuper : name ≠ "super" := fun same =>
    isUnreserved (by simp [reservedNames, surplusNames, same])
  rw [callName, callerFor?, if_neg notCaller]
  exact if_neg notSuper

/-- A call that gives its answer without a report of too many calls is not inside of too many. -/
theorem Action.perform_unlessTooDeep_of_calm {span : Span} {body : Action Value}
    {state after : State} {answer : Value}
    (performed : (unlessTooDeep span body).perform environment below state = some (answer, after))
    (isCalm : after.isCalm = true) : state.place.callDepth < callLimit ∧
      body.perform environment below state = some (answer, after) := by
  by_cases isShallow : state.place.callDepth < callLimit
  · rw [perform_unlessTooDeep span _ isShallow] at performed
    exact ⟨isShallow, performed⟩
  · simp only [unlessTooDeep, bind, pure, view, problem, andThen, perform, ge_iff_le,
      Nat.not_lt.mp isShallow, if_true] at performed
    cases performed
    cases (State.not_isCalm_report state span).symm.trans isCalm

/-! ### Arguments -/

/-- A frame with values put under parameters in order; where there are too few, nothing is put under
the others. -/
def assigned (frame : Table Value) : List Param → List Value → Table Value
  | [], _ => frame
  | param :: rest, values => assigned (frame.put param.name (values.headD .nil)) rest values.tail

/-- Without keywords and defaults, binding parameters asks for nothing. -/
theorem Action.bindAfter_positional (owner : String) (span : Span) (frame : Table Value)
    {params : List Param} (plain : ∀ param ∈ params, param.default = none) (values : List Value) :
    bindAfter owner span frame params ⟨values, []⟩ =
      pure (((assigned frame params values).put "varargs" (.seq (values.drop params.length))).put
        "kwargs" (.map [])) := by
  induction params generalizing frame values with
  | nil => rfl
  | cons param rest inductionHypothesis =>
      rw [List.forall_mem_cons] at plain
      cases values with
      | nil =>
          have isNil : valueOfParam [] param = pure .nil := by
            simp only [valueOfParam, Table.lookup?_nil, plain.1]
          rw [bindAfter, isNil]
          have others := inductionHypothesis (frame.put param.name .nil) plain.2 []
          rw [List.drop_nil] at others
          exact others
      | cons value values => exact inductionHypothesis (frame.put param.name value) plain.2 values

/-- Assigning values to names puts them into the innermost frame. -/
theorem Action.perform_assignAll_params (params : List Param) (values : List Value) (state : State) :
    (assignAll (params.map fun param => .name param.name param.span) values).perform environment below
      state = some ((), { state with
        scopes := { state.scopes with inner := assigned state.scopes.inner params values } }) := by
  induction params generalizing values state with
  | nil => rfl
  | cons param rest inductionHypothesis =>
      exact inductionHypothesis values.tail { state with
        scopes := state.scopes.bind param.name (values.headD .nil) }

/-- A body with assignments to names is rendered in the frame of them. -/
theorem Action.perform_assigned (params : List Param) (values : List Value) (body : List Node) :
    (inSetting (.frame []) (assignAll (params.map fun param => .name param.name param.span) values >>=
      fun _ => textOf body)).perform environment below =
        Run.inSetting (.frame (assigned [] params values)) (below.render body) := by
  rw [perform_inSetting]
  funext state
  unfold Run.inSetting
  change (((assignAll _ values).andThen fun _ => textOf body).perform environment below _).map _ = _
  rw [perform_andThen, perform_assignAll_params, Option.bind_some, perform_textOf]
  rfl

/-- Arguments without keywords are values in order. -/
theorem Action.argumentsOf_positional {args : List Expr}
    (positional : ∀ arg ∈ args, arg.isKeyword = false) :
    argumentsOf args = valuesOf args >>= fun values => pure ⟨values, []⟩ := by
  suffices after : ∀ before, argumentsAfter before [] args =
      valuesOf args >>= fun values => pure ⟨before ++ values, []⟩ from after []
  induction args with
  | nil => exact fun before => congrArg (fun values => pure (Arguments.mk values [])) (by simp)
  | cons arg rest inductionHypothesis =>
      rw [List.forall_mem_cons] at positional
      intro before
      have first : argumentsAfter before [] (arg :: rest) =
          valueOf arg >>= fun value => argumentsAfter (before ++ [value]) [] rest := by
        cases arg <;> first | rfl | cases positional.1
      simp only [first, inductionHypothesis positional.2, valuesOf, bind_assoc, List.append_assoc,
        List.singleton_append]
      rfl

section Calls

variable (replaced : Replaced definition home home')
  (leads : (Accord.inlining environment definition home home').Leads (State.InStep home home') below
    below')

include leads

theorem follows_render {nodes nodes' : List Node} (inlines : Inlines definition nodes nodes')
    (isBody : (Material.asking Unreserved).Body nodes) :
    Follows (State.InStep home home') (below.render nodes) (below'.render nodes') := by
  let bodies : Bool → List Node := fun side => bif side then nodes else nodes'
  have allowed : (Accord.inlining environment definition home home').bodies bodies := ⟨inlines, isBody⟩
  exact leads.render allowed

include replaced

/-- Macros with the same parameters, one of them with calls replaced in its body. -/
theorem follows_callMacro {callable callable' : MacroDefinition}
    (inlined : definition.Inlined callable callable')
    (isCallable : (Material.asking Unreserved).Callable callable) (args : Arguments)
    (caller caller' : Option Caller) (span : Span) :
    Follows (State.InStep home home')
      ((Action.callMacro ⟨callable, home⟩ args caller span).perform environment below)
      ((Action.callMacro ⟨callable', home'⟩ args caller' span).perform environment below') := by
  have plain : (Accord.inlining environment definition home home').Plain := plain_inlining replaced
  intro state state' inStep answer after performed isCalm
  obtain ⟨isShallow, performed⟩ := Action.perform_unlessTooDeep_of_calm performed isCalm
  rw [Action.callMacro,
    Action.perform_unlessTooDeep span _ (Nat.lt_of_le_of_lt inStep.calls isShallow)]
  refine Follows.andThen leads.advances ?_ (fun frame => ?_) inStep performed isCalm
  · rw [← inlined.name, ← inlined.params]
    exact .of_alike keeps_inlining leads (plain.bindAfter _ span [] args isCallable.params)
  · refine .andThen leads.advances ?_ fun text => .pure _
    simp only [Action.perform_inSetting, Action.perform_textOf]
    have level := leads.level.render callable.body
    have level' := leads.level'.render callable'.body
    have same : FrameAgrees frame frame := fun _ _ => rfl
    have inFrame := (follows_render leads inlined.body isCallable.body).inFrame level level' same
    exact inFrame.inCalls (level.inSetting upheld_balance _) (level'.inSetting upheld_balance _) _ _

theorem follows_callName {name : String} {args : List Expr} (isUnreserved : Unreserved name)
    (areArgs : ∀ arg ∈ args, arg.AsksOnly Unreserved) (caller caller' : Option Caller) (span : Span) :
    Follows (State.InStep home home')
      ((Action.callName name args caller span).perform environment below)
      ((Action.callName name args caller' span).perform environment below') := by
  have plain : (Accord.inlining environment definition home home').Plain := plain_inlining replaced
  have given : Follows (State.InStep home home')
      ((Action.argumentsOf args).perform environment below)
      ((Action.argumentsOf args).perform environment below') :=
    .of_alike keeps_inlining leads (plain.argumentsOf areArgs)
  intro state state' inStep
  simp only [Action.callName_of_unreserved isUnreserved,
    Action.perform_findMacro? inStep.macros inStep.homes,
    Action.perform_findMacro? inStep.macros' inStep.homes']
  have found := replaced.akin.lookup? name
  have isCallable {callable : MacroDefinition} (isFound : home.lookup? name = some callable) :=
    replaced.isHome _ (Table.mem_of_lookup? isFound)
  generalize home.lookup? name = callable? at found isCallable
  generalize home'.lookup? name = callable?' at found
  cases found with
  | none =>
      refine Follows.andThen leads.advances given (fun args => ?_) inStep
      exact .of_alike keeps_inlining leads (plain.callFunction args span isUnreserved)
  | some inlined =>
      refine Follows.andThen leads.advances given (fun args => ?_) inStep
      exact follows_callMacro replaced leads inlined (isCallable rfl) args caller caller' span

theorem follows_callExpr {callee : Expr} {args : List Expr} (isCallee : callee.AsksOnly Unreserved)
    (areArgs : ∀ arg ∈ args, arg.AsksOnly Unreserved) (caller caller' : Option Caller) (span : Span) :
    Follows (State.InStep home home')
      ((Action.callExpr callee args caller span).perform environment below)
      ((Action.callExpr callee args caller' span).perform environment below') := by
  have plain : (Accord.inlining environment definition home home').Plain := plain_inlining replaced
  cases callee with
  | name name nameSpan =>
      exact follows_callName replaced leads (isCallee.here _ _ rfl) areArgs caller caller' span
  | «attribute» base attr attrSpan =>
      have isBase : base.AsksOnly Unreserved := isCallee.child (List.mem_singleton.mpr rfl)
      have alike : (Accord.inlining environment definition home home').Alike fun side =>
          Action.callExpr (.attribute base attr attrSpan) args (bif side then caller else caller')
            span := by
        refine alike_namespaceOf? ?_
        exact (Accord.Alike.valueOf isBase).bind fun object =>
          (plain.argumentsOf areArgs).bind fun args => plain.callMethod object attr args span
      exact Follows.of_alike keeps_inlining leads alike
  | _ =>
      have alike : (Accord.inlining environment definition home home').Asks
          (Action.valueOf _ >>= fun value => Action.problem (.notCallable value.typeName) span >>=
            fun _ => pure Value.nil) :=
        (Accord.Alike.valueOf isCallee).bind fun value => (plain.problem span rfl).bind fun _ => .pure _
      exact Follows.of_alike keeps_inlining leads alike

/-! ### Calls on the first side only -/

/-- The body of the macro in the setting of a call, and in place of the call. -/
theorem follows_body {body' : List Node} (inlines : Inlines definition definition.body body')
    {frame frame' : Table Value} (agrees : FrameAgrees frame frame') :
    Follows (State.InStep home home')
      (Run.inSetting (.call none home) (Run.inSetting (.frame frame) (below.render definition.body)))
      (Run.inSetting (.frame frame') (below'.render body')) := by
  have isBody := (replaced.isHome _ (Table.mem_of_lookup? replaced.called)).body
  have level := leads.level.render definition.body
  have level' := leads.level'.render body'
  have inFrame := (follows_render leads inlines isBody).inFrame level level' agrees
  exact inFrame.inCall (level.inSetting upheld_balance _) (level'.inSetting upheld_balance _) none

/-- A call is followed by the macro's body with the arguments assigned to the macro's parameters. -/
theorem follows_inlined {args : List Expr} {body' : List Node}
    (isFull : args.length = definition.params.length)
    (positional : ∀ arg ∈ args, arg.isKeyword = false)
    (inlines : Inlines definition definition.body body') (isUnreserved : Unreserved definition.name)
    (areArgs : ∀ arg ∈ args, arg.AsksOnly Unreserved) (span : Span) :
    Follows (State.InStep home home')
      ((Action.callName definition.name args none span).perform environment below)
      ((Action.renderWith (bindingsOf definition.params args) body' >>= fun text =>
        pure (Value.text text)).perform environment below') := by
  intro state state' inStep
  rw [Action.callName_of_unreserved isUnreserved, Action.perform_findMacro? inStep.macros inStep.homes,
    replaced.called, Option.map_some]
  dsimp only
  rw [Action.argumentsOf_positional positional, Action.bind_assoc, Action.renderWith,
    bindingsOf_values isFull, bindingsOf_targets isFull, Action.bind_assoc]
  refine Follows.andThen leads.advances ?_ (fun values => ?_) inStep
  · exact .of_alike keeps_inlining leads (Accord.Plain.valuesOf areArgs)
  · intro state state' inStep answer after performed isCalm
    obtain ⟨_, performed⟩ := Action.perform_unlessTooDeep_of_calm performed isCalm
    simp only [Action.bindParams, Action.bindAfter_positional _ _ _ replaced.plain] at performed
    refine Follows.andThen leads.advances ?_ (fun text => .pure _) inStep performed isCalm
    rw [Action.perform_assigned, Action.perform_inSetting, Action.perform_inSetting,
      Action.perform_textOf]
    have same : FrameAgrees (assigned [] definition.params values)
        (assigned [] definition.params values) := fun _ _ => rfl
    exact follows_body replaced leads inlines
      ((same.put_left (by simp [reservedNames, surplusNames]) _).put_left
        (by simp [reservedNames, surplusNames]) _)

/-! ### Statements -/

theorem follows_callWithBody {call : Expr} {body body' : List Node} (params : List Param)
    (isCall : call.AsksOnly Unreserved) (inlines : Inlines definition body body')
    (isBody : (Material.asking Unreserved).Body body) :
    Follows (State.InStep home home')
      ((Action.callWithBody call params body).perform environment below)
      ((Action.callWithBody call params body').perform environment below') := by
  cases call with
  | call callee args span =>
      have isCallee : callee.AsksOnly Unreserved := isCall.child List.mem_cons_self
      have areArgs : ∀ arg ∈ args, arg.AsksOnly Unreserved := fun arg member =>
        isCall.child (List.mem_cons_of_mem _ member)
      cases params with
      | nil =>
          have shape (inner : List Node) : Action.callWithBody (.call callee args span) [] inner =
              Action.textOf inner >>= fun text =>
                Action.callExpr callee args (some (.rendered text)) span := rfl
          rw [shape, shape]
          refine .andThen leads.advances ?_ fun text => follows_callExpr replaced leads isCallee areArgs
            (some (.rendered text)) (some (.rendered text)) span
          rw [Action.perform_textOf, Action.perform_textOf]
          exact follows_render leads inlines isBody
      | cons param rest =>
          exact follows_callExpr replaced leads isCallee areArgs
            (some (.deferred (param :: rest) body)) (some (.deferred (param :: rest) body')) span
  | _ => exact .of_alike keeps_inlining leads (.valueOf isCall)

/-- Statements follow those with calls replaced, if printed calls do. -/
theorem follows_renderAll
    (printed : ∀ {args : List Expr} {body' : List Node} {name callSpan span : Span},
      args.length = definition.params.length → (∀ arg ∈ args, arg.isKeyword = false) →
        Inlines definition definition.body body' →
        (Expr.call (.name definition.name name) args callSpan).AsksOnly Unreserved →
          Follows (State.InStep home home')
            ((Action.carryOut (.output (.call (.name definition.name name) args callSpan) span)).perform
              environment below)
            ((Action.carryOut (.withBlock (bindingsOf definition.params args) body' span)).perform
              environment below'))
    {nodes nodes' : List Node} (inlines : Inlines definition nodes nodes')
    (isBody : (Material.asking Unreserved).Body nodes) :
    Follows (State.InStep home home') (renderAll environment below nodes)
      (renderAll environment below' nodes') := by
  have plain : (Accord.inlining environment definition home home').Plain := plain_inlining replaced
  have closed : (Material.asking Unreserved).Closed := Material.closed_asking
  induction inlines with
  | nil =>
      intro state state' inStep answer after performed _
      cases performed
      exact ⟨state', rfl, inStep⟩
  | @ordinary node rest rest' change change' isOrdinary inner _ _ othersHypothesis =>
      obtain ⟨asks, others⟩ := List.forall_mem_cons.mp isBody
      have sameSpan : (node.mapBodies change').span = (node.mapBodies change).span := by
        rw [node.span_mapBodies, node.span_mapBodies]
      refine Follows.statement ticks_inlining leads.advances sameSpan ?_ (othersHypothesis others)
      have alike : (Accord.inlining environment definition home home').Alike fun side =>
          Action.carryOut (node.mapBodies (bif side then change else change')) := by
        refine plain.carryOut isOrdinary (fun side => bif side then change else change') ?_ ?_
        · rw [← node.exprs_mapBodies]
          exact asks.exprs
        · intro body member
          refine ⟨inner body member, closed.body asks _ ?_⟩
          rw [Node.bodies_mapBodies isOrdinary]
          exact List.mem_map_of_mem member
      exact Follows.of_alike keeps_inlining leads alike
  | @block name body body' rest rest' span inner _ _ othersHypothesis =>
      obtain ⟨asks, others⟩ := List.forall_mem_cons.mp isBody
      refine Follows.statement ticks_inlining leads.advances rfl ?_ (othersHypothesis others)
      let bodies : Bool → List Node := fun side => bif side then body else body'
      have allowed : (Accord.inlining environment definition home home').bodies bodies :=
        ⟨inner, closed.body asks body List.mem_cons_self⟩
      exact Follows.of_alike keeps_inlining leads (alike_renderBlock name allowed)
  | define _ _ _ othersHypothesis =>
      obtain ⟨_, others⟩ := List.forall_mem_cons.mp isBody
      exact Follows.statement ticks_inlining leads.advances rfl (.pure _) (othersHypothesis others)
  | @callBlock call params body body' rest rest' span inner _ _ othersHypothesis =>
      obtain ⟨asks, others⟩ := List.forall_mem_cons.mp isBody
      refine Follows.statement ticks_inlining leads.advances rfl ?_ (othersHypothesis others)
      refine .andThen leads.advances ?_ fun value => .pure _
      exact follows_callWithBody replaced leads params (asks.exprs call List.mem_cons_self) inner
        (closed.body asks body List.mem_cons_self)
  | call isFull positional inner _ _ othersHypothesis =>
      obtain ⟨asks, others⟩ := List.forall_mem_cons.mp isBody
      refine Follows.statement ticks_inlining leads.advances rfl ?_ (othersHypothesis others)
      exact printed isFull positional inner (asks.exprs _ List.mem_cons_self)

theorem follows_evaluate {expr : Expr} (asks : expr.AsksOnly Unreserved) :
    Follows (State.InStep home home') ((Action.evaluate expr).perform environment below)
      ((Action.evaluate expr).perform environment below') := by
  have plain : (Accord.inlining environment definition home home').Plain := plain_inlining replaced
  by_cases isCall : ∃ callee args span, expr = .call callee args span
  · obtain ⟨callee, args, span, rfl⟩ := isCall
    exact follows_callExpr replaced leads (asks.child List.mem_cons_self)
      (fun arg member => asks.child (List.mem_cons_of_mem _ member)) none none span
  · have alike : (Accord.inlining environment definition home home').Asks (Action.evaluate expr) := by
      refine plain.evaluate (fun part member => asks.child member) ?_ ?_
      · rintro name span rfl
        exact asks.here name span rfl
      · exact fun callee args span same => absurd ⟨callee, args, span, same⟩ isCall
    exact Follows.of_alike keeps_inlining leads alike

end Calls

theorem Action.perform_andThen_pure (action : Action α) :
    (action >>= fun answer => pure answer).perform environment below =
      action.perform environment below := by
  funext state
  change (action.andThen .done).perform environment below state = _
  rw [perform_andThen]
  cases action.perform environment below state <;> rfl

/-- Printing an expression is printing its value. -/
theorem Action.perform_output (expr : Expr) (span : Span) (depth : Nat) :
    (carryOut (.output expr span)).perform environment (belowDepth environment (depth + 1)) =
      (evaluate expr >>= fun value => pure value.display).perform environment
        (belowDepth environment depth) := by
  funext state
  change ((valueOf expr).andThen fun value => pure value.display).perform environment
    (belowDepth environment (depth + 1)) state =
      ((evaluate expr).andThen fun value => pure value.display).perform environment
        (belowDepth environment depth) state
  rw [perform_andThen, perform_andThen, perform_valueOf]
  rfl

/-- What is rendered to some depth is followed by what is rendered with calls replaced. A printed call
goes one level deeper than what replaces it, so the depth two levels up is needed for it. -/
theorem leads_belowDepth (replaced : Replaced definition home home') (depth : Nat) :
    (Accord.inlining environment definition home home').Leads (State.InStep home home')
      (belowDepth environment depth) (unbounded environment) := by
  induction depth using Nat.strong_induction_on with
  | _ depth inductionHypothesis =>
      have level := Below.level environment depth
      have level' := Below.level_unbounded environment
      have advances := advances_belowDepth environment depth
      cases depth with
      | zero => exact ⟨fun _ _ _ _ _ _ => nofun, fun _ _ _ _ _ _ => nofun, nofun, advances, level, level'⟩
      | succ depth =>
          have leads := inductionHypothesis depth (Nat.lt_succ_self depth)
          refine ⟨fun asks => ?_, fun {bodies} allowed => ?_, nofun, advances, level, level'⟩
          · rw [unbounded_eval]
            exact follows_evaluate replaced leads asks
          · rw [unbounded_render]
            refine follows_renderAll replaced leads ?_ allowed.1 allowed.2
            intro args body' name callSpan span isFull positional inlines asks
            cases depth with
            | zero => exact fun _ _ _ _ _ => nofun
            | succ depth =>
                have deeper := inductionHypothesis depth (by omega)
                have areArgs : ∀ arg ∈ args, arg.AsksOnly Unreserved := fun arg member =>
                  asks.child (List.mem_cons_of_mem _ member)
                have isUnreserved : Unreserved definition.name :=
                  (asks.child List.mem_cons_self).here _ _ rfl
                have follows := Follows.andThen deeper.advances
                  (follows_inlined replaced deeper isFull positional inlines isUnreserved areArgs
                    callSpan) fun value => .pure value.display
                rw [Action.bind_assoc] at follows
                rw [Action.perform_output, Action.carryOut,
                  ← Action.perform_andThen_pure (Action.renderWith _ body')]
                exact follows

/-! ### Whole renders -/

/-- Macros of a template are made callable with all macros of it as their sisters. -/
theorem Action.perform_defineAll (home macros : Table MacroDefinition) (state : State) :
    (defineAll home macros).perform environment below state = some ((), { state with
      macros := state.macros.putAll (macros.map fun entry => (entry.1, ⟨entry.2, home⟩)) }) := by
  induction macros generalizing state with
  | nil => rfl
  | cons entry rest inductionHypothesis => exact inductionHypothesis _

/-- The start of a template that is built on no other one, with its macros callable. -/
def State.opened (context : Table Value) (shelf : Shelf) (name : String) (nodes : List Node) : State :=
  { State.initial context shelf with
    macros := Table.putAll [] ((Host.macroTable nodes).map fun entry =>
      (entry.1, ⟨entry.2, Host.macroTable nodes⟩))
    place := { Place.outside with loads := [name], templates := [name] } }

theorem State.lookup?_opened (context : Table Value) (shelf : Shelf) (name : String)
    (nodes : List Node) (wanted : String) :
    (State.opened context shelf name nodes).macros.lookup? wanted =
      ((Host.macroTable nodes).lookup? wanted).map (Macro.mk · (Host.macroTable nodes)) := by
  have isEmpty : (Table.names ([] : Table MacroDefinition)).Nodup := List.nodup_nil
  have distinct : (Host.macroTable nodes).names.Nodup := Table.nodup_names_putAll isEmpty _
  rw [State.opened, Table.lookup?_putAll, ← Table.getLast?_filter distinct, List.filter_map,
    List.getLast?_map, Option.map_map, Option.map_map, Table.lookup?_nil, Option.or_none]
  rfl

/-- A template that is built on no other one is rendered from there. -/
theorem renderTemplateWithin_of_opened {template : Template} (noParent : template.parent? = none)
    (depth : Nat) (context : Table Value) (shelf : Shelf) :
    renderTemplateWithin depth environment template context shelf =
      ((belowDepth environment depth).render template.body
        (.opened context shelf template.displayName template.body)).map fun answer =>
          .ofState answer.1 answer.2 := by
  unfold renderTemplateWithin Action.renderTemplate
  rw [Action.perform_inSetting]
  unfold Run.inSetting
  change Option.map _ (Option.map _ (((Action.defineAll _ _).andThen fun _ => _).perform _ _ _)) = _
  rw [Action.perform_andThen, Action.perform_defineAll, Option.bind_some]
  simp only [noParent, Action.perform_textOf, Option.map_map]
  rfl

/-- The two renders start in step. -/
theorem inStep_opened (context : Table Value) (shelf : Shelf) (name : String)
    (nodes nodes' : List Node) : State.InStep (Host.macroTable nodes) (Host.macroTable nodes')
      (.opened context shelf name nodes) (.opened context shelf name nodes') where
  scopes := .of_same _
  macros := State.lookup?_opened context shelf name nodes
  macros' := State.lookup?_opened context shelf name nodes'
  namespaces := rfl
  namespaces' := rfl
  homes := nofun
  homes' := nofun
  overrides := rfl
  overrides' := rfl
  templates := rfl
  loopDepth := rfl
  calls := Nat.le_refl _
  halted := rfl
  steps := rfl
  shelf := rfl
  problems := rfl

/-- A macro that is the only one of its name in a template is what its name stands for. -/
theorem lookup?_macroTable_of_only {nodes : List Node}
    (isOnly : (macrosOf nodes).filter (·.name = definition.name) = [definition]) :
    (Host.macroTable nodes).lookup? definition.name = some definition := by
  rw [Host.macroTable, Table.ofEntries, Table.lookup?_putAll, List.filter_map]
  change ((((macrosOf nodes).filter (·.name = definition.name)).map _).getLast?.map _).or _ = _
  rw [isOnly]
  rfl

/-- Templates that are the same apart from the places of their parts have the same text and, apart
from places, the same reports. -/
theorem renderTemplateWithin_of_anywhere {template other : Template} (name : other.name = template.name)
    (akin : Nodes.Akin .anywhere template.displayName template.body other.body)
    (context : Table Value) (shelf : Shelf) {depth : Nat} {outcome : Outcome}
    (rendered : renderTemplateWithin depth environment template context shelf = some outcome) :
    ∃ outcome', renderTemplateWithin depth environment other context shelf = some outcome' ∧
      outcome'.unplaced = outcome.unplaced := by
  let kin : Kinship := .placeless environment .anywhere
  have reflexive : kin.Reflexive := ⟨fun _ _ => trivial, fun _ _ => rfl, fun _ _ => rfl⟩
  have sound : kin.Sound := by
    refine Kinship.sound_placeless reflexive fun {_ renderer} _ {source tag tag'} akin => ?_
    obtain rfl : tag = tag' := akin.seen
    exact reflexive.script source (renderer tag)
  have here : kin.Here .outside .outside := ⟨sound, Kinship.placeAkin_outside _⟩
  have together := Kinship.together_placeless reflexive context shelf
  have alike : kin.Alike .outside .outside Eq
      (Action.renderTemplate template.displayName template)
      (Action.renderTemplate template.displayName other) :=
    Kinship.renderTemplate template.displayName akin
  have sameName : other.displayName = template.displayName :=
    congrArg (·.getD "<template>") name
  obtain ⟨⟨text, after⟩, isText, rfl⟩ := Option.map_eq_some_iff.mp rendered
  rcases here.abreast_belowDepth alike depth together with
    excused | ⟨answer, _, _, after', isAnswer, isText', rfl, same⟩
  · exact (excused text after isText).elim
  · obtain ⟨rfl, rfl⟩ := Prod.mk.inj (Option.some.inj (isAnswer.symm.trans isText))
    rw [renderTemplateWithin, sameName]
    exact ⟨_, Option.map_eq_some_iff.mpr ⟨_, isText', rfl⟩,
      (Outcome.unplaced_ofState answer same.ledgers).symm⟩

/-- Calls of a macro whose texts are printed can be replaced by the macro's body, with the arguments
assigned to its parameters. The macro is the only one of its name, its parameters have no defaults,
and no macro is defined in its body; the template asks for none of the names that calls bring in, and
there are no other templates and no tags of hosts in it. If the render of the template ends without a
report of too many calls, so does the one with calls replaced, with the same text and, apart from
their places, the same reports. -/
theorem calls_inlined {template other : Template}
    (isOnly : (macrosOf template.body).filter (·.name = definition.name) = [definition])
    (plain : ∀ param ∈ definition.params, param.default = none)
    (isClosed : macrosOf definition.body = [])
    (asks : ∀ node ∈ template.body, node.AsksOnly Unreserved) {nodes : List Node}
    (inlines : Inlines definition template.body nodes)
    (akin : Nodes.Akin .anywhere template.displayName nodes other.body)
    (name : other.name = template.name) (context : Table Value) (shelf : Shelf) {depth : Nat}
    {outcome : Outcome}
    (rendered : renderTemplateWithin depth environment template context shelf = some outcome)
    (isCalm : outcome.problems.any isLimitReport = false) :
    ∃ more outcome', renderTemplateWithin more environment other context shelf = some outcome' ∧
      outcome'.unplaced = outcome.unplaced := by
  let inlined : Template := ⟨template.name, nodes, template.span⟩
  have replaced : Replaced definition (Host.macroTable template.body) (Host.macroTable nodes) :=
    ⟨inlines.home isClosed, lookup?_macroTable_of_only isOnly,
      Material.home_macroTable Material.closed_asking asks, plain⟩
  obtain ⟨noParent, noParentInlined⟩ : template.parent? = none ∧ inlined.parent? = none :=
    Inlines.parent? inlines
  rw [renderTemplateWithin_of_opened noParent] at rendered
  obtain ⟨⟨text, after⟩, isText, rfl⟩ := Option.map_eq_some_iff.mp rendered
  have isCalmAfter : after.isCalm = true := by
    rw [State.isCalm]
    exact congrArg (!·) isCalm
  obtain ⟨after', isText', inStep⟩ := follows_render (leads_belowDepth replaced depth) inlines asks
    (inStep_opened context shelf template.displayName template.body nodes) isText isCalmAfter
  obtain ⟨more, isText'⟩ := ((rising_render environment nodes).limit_eq_some _ _).mp isText'
  have sameOutcome : Outcome.ofState text after' = Outcome.ofState text after := by
    simp only [Outcome.ofState, inStep.problems, inStep.shelf]
  have renderedInlined : renderTemplateWithin more environment inlined context shelf =
      some (.ofState text after) := by
    rw [renderTemplateWithin_of_opened noParentInlined, ← sameOutcome]
    exact Option.map_eq_some_iff.mpr ⟨_, isText', rfl⟩
  have sameName : other.name = inlined.name := name
  exact ⟨more, renderTemplateWithin_of_anywhere sameName akin context shelf renderedInlined⟩

/-- A call inside a loop, of a macro that prints its parameter and the variable of the loop. -/
theorem calls_inlined_loop :
    let name (text : String) : Expr := .name text default
    let one : Expr := .literal (.int 1) default
    let body : List Node := [.output (name "x") default, .output (name "y") default]
    let definition : MacroDefinition := ⟨"m", [⟨"x", none, default⟩], body, default⟩
    let call : Node := .output (.call (name "m") [one] default) default
    let replaced : Node := .withBlock [⟨.name "x" default, one⟩] body default
    let each (inner : Node) : Node := .each (.name "y" default)
      (.list [.literal (.text "a") default] default) none [inner] none default
    let template (inner : Node) : Template :=
      ⟨none, [.define "m" definition.params body default, each inner], default⟩
    (macrosOf (template call).body).filter (·.name = "m") = [definition] ∧
      (∀ param ∈ definition.params, param.default = none) ∧ macrosOf body = [] ∧
      (∀ node ∈ (template call).body, node.AsksOnly Unreserved) ∧
      Inlines definition (template call).body (template replaced).body ∧
      (renderTemplateWithin 9 .empty (template call) [] .empty).map
        (fun outcome => (outcome.text, outcome.problems)) = some ("1a", []) ∧
      ∃ more outcome, renderTemplateWithin more .empty (template replaced) [] .empty = some outcome ∧
        (outcome.text, outcome.problems) = ("1a", []) := by
  intro name one body definition call replaced each template
  have isOnly : (macrosOf (template call).body).filter (·.name = "m") = [definition] := rfl
  have plain : ∀ param ∈ definition.params, param.default = none := List.forall_mem_singleton.mpr rfl
  have isLiteral (value : Literal) : (Expr.literal value default).AsksOnly Unreserved :=
    .mk (fun _ _ isName => by cases isName) (List.forall_mem_nil _)
  have isName (text : String) (isUnreserved : Unreserved text) : (name text).AsksOnly Unreserved := by
    refine .mk ?_ (List.forall_mem_nil _)
    rintro _ _ ⟨⟩
    exact isUnreserved
  have isOutput {expr : Expr} (asks : expr.AsksOnly Unreserved) :
      (Node.output expr default).AsksOnly Unreserved :=
    .mk trivial (List.forall_mem_singleton.mpr asks) (List.forall_mem_nil _) (List.forall_mem_nil _)
  have isBody : ∀ node ∈ body, node.AsksOnly Unreserved := by
    refine List.forall_mem_cons.mpr ⟨isOutput (isName "x" ?_), List.forall_mem_singleton.mpr
      (isOutput (isName "y" ?_))⟩ <;> simp [Unreserved, reservedNames, surplusNames]
  have isCall : call.AsksOnly Unreserved := by
    refine isOutput (.mk (fun _ _ isName => by cases isName) (List.forall_mem_cons.mpr
      ⟨isName "m" ?_, List.forall_mem_singleton.mpr (isLiteral _)⟩))
    simp [Unreserved, reservedNames, surplusNames]
  have asks : ∀ node ∈ (template call).body, node.AsksOnly Unreserved := by
    refine List.forall_mem_cons.mpr ⟨.mk trivial (List.forall_mem_nil _) ?_ ?_,
      List.forall_mem_singleton.mpr (.mk trivial ?_ (List.forall_mem_nil _) ?_)⟩
    · exact List.forall_mem_singleton.mpr (fun _ isDefault => by cases isDefault)
    · exact List.forall_mem_singleton.mpr isBody
    · exact List.forall_mem_singleton.mpr (.mk (fun _ _ isName => by cases isName)
        (List.forall_mem_singleton.mpr (isLiteral _)))
    · exact List.forall_mem_singleton.mpr (List.forall_mem_singleton.mpr isCall)
  have printed (expr : Expr) {rest : List Node} (others : Inlines definition rest rest) :
      Inlines definition (.output expr default :: rest) (.output expr default :: rest) :=
    @Inlines.ordinary definition (.output expr default) rest rest id id rfl (List.forall_mem_nil _) others
  have same : Inlines definition body body := printed (name "x") (printed (name "y") .nil)
  have loop : Inlines definition [each call] [each replaced] := by
    refine @Inlines.ordinary definition (each call) [] [] id (fun _ => [replaced]) rfl ?_ .nil
    refine List.forall_mem_singleton.mpr (.call rfl ?_ same .nil)
    exact List.forall_mem_singleton.mpr rfl
  have inlines : Inlines definition (template call).body (template replaced).body := .define same loop
  have rendered : (renderTemplateWithin 9 .empty (template call) [] .empty).map
      (fun outcome => (outcome.text, outcome.problems)) = some ("1a", []) := by decide +kernel
  refine ⟨isOnly, plain, rfl, asks, inlines, rendered, ?_⟩
  obtain ⟨outcome, isOutcome, shown⟩ := Option.map_eq_some_iff.mp rendered
  obtain ⟨text, problems⟩ := Prod.mk.inj shown
  obtain ⟨more, outcome', isOutcome', unplaced⟩ := calls_inlined isOnly plain rfl asks inlines
    (akin_anywhere _ _) rfl [] .empty isOutcome (by rw [problems]; rfl)
  refine ⟨more, outcome', isOutcome', Prod.mk.injEq _ _ _ _ ▸ ⟨?_, ?_⟩⟩
  · exact (congrArg Outcome.text unplaced).trans text
  · have same := congrArg Outcome.problems unplaced
    rw [Outcome.unplaced, Outcome.unplaced, problems] at same
    exact List.map_eq_nil_iff.mp same

end Stencil.Render
