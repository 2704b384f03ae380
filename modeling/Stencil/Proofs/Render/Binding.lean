import Mathlib.Data.List.Basic
import Stencil.Proofs.Render.Standing
import Stencil.Render.Outcome

/-!
Contract: how arguments reach the parameters of a body.

Owns:
- the arguments that are given twice, and the defaults that are needed;
- the frame that a call makes of them, and what is bound in it under each name;
- that the bodies of macros and of call blocks are rendered in such a frame.

The surplus arguments are put into the frame last, under `varargs` and `kwargs`, so a parameter of
one of these names is not bound to its argument.

Does not own: what the arguments are worth (`Stencil.Render.Call`).
-/

set_option autoImplicit false

namespace Stencil

namespace Table

variable {α : Type}

theorem lookup?_without_other (table : Table α) {name other : String} (different : other ≠ name) :
    (table.without name).lookup? other = table.lookup? other := by
  induction table with
  | nil => rfl
  | cons entry rest inductionHypothesis =>
      obtain ⟨key, value⟩ := entry
      by_cases isGone : key = name
      · subst isGone
        rw [show without ((key, value) :: rest) key = without rest key from
          List.filter_cons_of_neg (by simp), inductionHypothesis, lookup?,
          if_neg (Ne.symm different)]
      · rw [show without ((key, value) :: rest) name = (key, value) :: without rest name from
          List.filter_cons_of_pos (by simpa using isGone), lookup?, lookup?, inductionHypothesis]

theorem has_without_other (table : Table α) {name other : String} (different : other ≠ name) :
    (table.without name).has other = table.has other := by
  rw [has, has, lookup?_without_other table different]

end Table

namespace Render

open Stencil.Host (Arguments Environment)
open Stencil.Report (Diagnostic)
open Stencil.Syntax (Expr MacroDefinition Node Param)
open Stencil.Text (Span)

/-! ### Who provides what -/

/-- The parameters that both a position and a keyword provide. -/
def doubled (params : List Param) (args : Arguments) : List Param :=
  (params.take args.positional.length).filter fun param => args.keywords.has param.name

/-- The defaults of the parameters that neither a position nor a keyword provides. -/
def lacking (params : List Param) (args : Arguments) : List Expr :=
  (params.drop args.positional.length).filterMap fun param =>
    if args.keywords.has param.name then none else param.default

def multipleValues (owner : String) (span : Span) (param : Param) : Diagnostic :=
  (Problem.callFailed owner ("got multiple values for argument '" ++ param.name ++ "'")).at_ span

/-- The state behind reports of all parameters that are provided twice. -/
def State.reportDoubled (owner : String) (span : Span) (params : List Param) (state : State) :
    State :=
  params.foldl (fun state param => state.report (multipleValues owner span param)) state

/-- The value of a parameter that no position provides, and the values of defaults behind it. -/
def suppliedHere (keywords : Table Value) (param : Param) (values : List Value) :
    Value × List Value :=
  match keywords.lookup? param.name, param.default with
  | some value, _ => (value, values)
  | none, some _ => (values.headD .nil, values.tail)
  | none, none => (.nil, values)

/-- The frame that arguments and the values of the defaults that are needed make of another one. -/
def frameAfter (frame : Table Value) : List Param → Arguments → List Value → Table Value
  | [], args, _ => (frame.put "varargs" (.seq args.positional)).put "kwargs" (.map args.keywords)
  | param :: rest, ⟨value :: positional, keywords⟩, values =>
      frameAfter (frame.put param.name value) rest ⟨positional, keywords.without param.name⟩ values
  | param :: rest, ⟨[], keywords⟩, values =>
      let supplied := suppliedHere keywords param values
      frameAfter (frame.put param.name supplied.1) rest ⟨[], keywords.without param.name⟩ supplied.2

/-- The frame in which arguments reach a body. -/
def argumentFrame (params : List Param) (args : Arguments) (values : List Value) : Table Value :=
  frameAfter [] params args values

/-- The value that a parameter at a place is bound to: the argument at this place, or else the
keyword's, or else its default, or else nothing. -/
def supplied? (params : List Param) (args : Arguments) (values : List Value) (place : Nat)
    (param : Param) : Option Value :=
  match args.positional[place]?, args.keywords.lookup? param.name, param.default with
  | some value, _, _ => some value
  | none, some value, _ => some value
  | none, none, some _ => values[(lacking (params.take place) args).length]?
  | none, none, none => some .nil

variable {param : Param} {params rest : List Param} {positional : List Value}
  {keywords : Table Value} {name : String}

/-! ### One parameter after another -/

theorem lacking_without (fresh : name ∉ params.map (·.name)) (positional : List Value)
    (keywords : Table Value) :
    lacking params ⟨positional, keywords.without name⟩ = lacking params ⟨positional, keywords⟩ := by
  refine List.filterMap_congr fun param member => ?_
  have different : param.name ≠ name := fun same =>
    fresh (same ▸ List.mem_map_of_mem (List.mem_of_mem_drop member))
  simp only [Table.has_without_other keywords different]

theorem doubled_without (fresh : name ∉ params.map (·.name)) (positional : List Value)
    (keywords : Table Value) :
    doubled params ⟨positional, keywords.without name⟩ = doubled params ⟨positional, keywords⟩ := by
  refine List.filter_congr fun param member => ?_
  have different : param.name ≠ name := fun same =>
    fresh (same ▸ List.mem_map_of_mem (List.mem_of_mem_take member))
  simp only [Table.has_without_other keywords different]

theorem lacking_cons_of_position (value : Value) (fresh : param.name ∉ rest.map (·.name)) :
    lacking (param :: rest) ⟨value :: positional, keywords⟩ =
      lacking rest ⟨positional, keywords.without param.name⟩ := by
  rw [lacking_without fresh]
  rfl

theorem doubled_cons_of_position (value : Value) (fresh : param.name ∉ rest.map (·.name)) :
    doubled (param :: rest) ⟨value :: positional, keywords⟩ =
      if keywords.has param.name then
        param :: doubled rest ⟨positional, keywords.without param.name⟩
      else doubled rest ⟨positional, keywords.without param.name⟩ := by
  rw [doubled_without fresh]
  exact List.filter_cons

theorem lacking_cons (fresh : param.name ∉ rest.map (·.name)) :
    lacking (param :: rest) ⟨[], keywords⟩ =
      (if keywords.has param.name then none else param.default).toList ++
        lacking rest ⟨[], keywords.without param.name⟩ := by
  rw [lacking_without fresh]
  simp only [lacking, List.length_nil, List.drop_zero, List.filterMap_cons]
  cases (if keywords.has param.name then none else param.default) <;> rfl

/-- The values of other defaults stay behind the one that a parameter needs. -/
theorem suppliedHere_append {needed : List Value} (values : List Value)
    (isLength : needed.length =
      (if keywords.has param.name then none else param.default).toList.length) :
    suppliedHere keywords param (needed ++ values) =
      ((suppliedHere keywords param needed).1, values) := by
  unfold suppliedHere
  unfold Table.has at isLength
  cases isKeyword : keywords.lookup? param.name with
  | some value =>
      rw [isKeyword] at isLength
      obtain rfl := List.eq_nil_of_length_eq_zero isLength
      rfl
  | none =>
      rw [isKeyword] at isLength
      cases isDefault : param.default with
      | none =>
          rw [isDefault] at isLength
          obtain rfl := List.eq_nil_of_length_eq_zero isLength
          rfl
      | some expr =>
          rw [isDefault] at isLength
          obtain ⟨value, rfl⟩ := List.length_eq_one_iff.mp isLength
          rfl

theorem doubled_of_no_position (params : List Param) (keywords : Table Value) :
    doubled params ⟨[], keywords⟩ = [] := rfl

namespace Action

variable {environment : Environment} {below : Below}

theorem perform_valuesOf_cons (expr : Expr) (exprs : List Expr) (state : State) :
    (valuesOf (expr :: exprs)).perform environment below state =
      (below.eval expr state).bind fun answer =>
        ((valuesOf exprs).perform environment below answer.2).map fun others =>
          (answer.1 :: others.1, others.2) := by
  change ((valueOf expr).andThen _).perform environment below state = _
  rw [perform_andThen, perform_valueOf]
  congr 1
  funext answer
  change ((valuesOf exprs).andThen _).perform environment below answer.2 = _
  rw [perform_andThen]
  cases (valuesOf exprs).perform environment below answer.2 <;> rfl

theorem length_valuesOf {exprs : List Expr} {state after : State} {values : List Value}
    (performed : (valuesOf exprs).perform environment below state = some (values, after)) :
    values.length = exprs.length := by
  induction exprs generalizing state values after with
  | nil =>
      cases performed
      rfl
  | cons expr exprs inductionHypothesis =>
      rw [perform_valuesOf_cons] at performed
      obtain ⟨first, _, performed⟩ := Option.bind_eq_some_iff.mp performed
      obtain ⟨others, areOthers, isAnswer⟩ := Option.map_eq_some_iff.mp performed
      cases isAnswer
      exact congrArg (· + 1) (inductionHypothesis areOthers)

theorem perform_bindAfter_position (owner : String) (span : Span) (frame : Table Value)
    (param : Param) (rest : List Param) (value : Value) (positional : List Value)
    (keywords : Table Value) (state : State) :
    (bindAfter owner span frame (param :: rest) ⟨value :: positional, keywords⟩).perform environment
        below state =
      (bindAfter owner span (frame.put param.name value) rest
        ⟨positional, keywords.without param.name⟩).perform environment below
          (if keywords.has param.name then state.report (multipleValues owner span param)
            else state) := by
  rw [bindAfter]
  by_cases isDouble : keywords.has param.name = true
  · rw [if_pos isDouble, if_pos isDouble]
    rfl
  · rw [if_neg isDouble, if_neg isDouble]

/-- A parameter that no position provides may need its default. -/
theorem perform_bindAfter_supply (owner : String) (span : Span) (frame : Table Value)
    (param : Param) (rest : List Param) (keywords : Table Value) (state : State) :
    (bindAfter owner span frame (param :: rest) ⟨[], keywords⟩).perform environment below state =
      ((valuesOf (if keywords.has param.name then none else param.default).toList).perform
        environment below state).bind fun answer =>
          (bindAfter owner span (frame.put param.name (suppliedHere keywords param answer.1).1) rest
            ⟨[], keywords.without param.name⟩).perform environment below answer.2 := by
  rw [bindAfter]
  change ((valueOfParam keywords param).andThen _).perform environment below state = _
  rw [perform_andThen]
  unfold valueOfParam suppliedHere Table.has
  cases keywords.lookup? param.name with
  | some value => rfl
  | none =>
      cases param.default with
      | none => rfl
      | some expr =>
          change ((valueOf expr).perform environment below state).bind _ =
            ((valuesOf [expr]).perform environment below state).bind _
          rw [perform_valueOf, perform_valuesOf_cons]
          cases below.eval expr state <;> rfl

/-- Expressions are evaluated from left to right. -/
theorem perform_valuesOf_append (exprs others : List Expr) (state : State) :
    (valuesOf (exprs ++ others)).perform environment below state =
      ((valuesOf exprs).perform environment below state).bind fun answer =>
        ((valuesOf others).perform environment below answer.2).map fun more =>
          (answer.1 ++ more.1, more.2) := by
  induction exprs generalizing state with
  | nil =>
      change _ = ((valuesOf others).perform environment below state).map _
      rw [List.nil_append]
      cases (valuesOf others).perform environment below state <;> rfl
  | cons expr exprs inductionHypothesis =>
      rw [List.cons_append, perform_valuesOf_cons, perform_valuesOf_cons]
      cases below.eval expr state with
      | none => rfl
      | some first =>
          simp only [Option.bind_some, inductionHypothesis]
          cases (valuesOf exprs).perform environment below first.2 with
          | none => rfl
          | some middle =>
              simp only [Option.bind_some, Option.map_some]
              cases (valuesOf others).perform environment below middle.2 <;> rfl

/-- Binding parameters reports what is given twice, then evaluates the defaults that are needed. -/
theorem perform_bindAfter {params : List Param} (distinct : (params.map (·.name)).Nodup)
    (owner : String) (span : Span) (frame : Table Value) (args : Arguments) (state : State) :
    (bindAfter owner span frame params args).perform environment below state =
      ((valuesOf (lacking params args)).perform environment below
        (state.reportDoubled owner span (doubled params args))).map fun answer =>
          (frameAfter frame params args answer.1, answer.2) := by
  induction params generalizing frame args state with
  | nil => simp [lacking, doubled, State.reportDoubled, bindAfter, valuesOf, frameAfter, perform, pure]
  | cons param rest inductionHypothesis =>
      rw [List.map_cons, List.nodup_cons] at distinct
      obtain ⟨fresh, distinct⟩ := distinct
      obtain ⟨positional, keywords⟩ := args
      cases positional with
      | cons value positional =>
          rw [perform_bindAfter_position, inductionHypothesis distinct,
            lacking_cons_of_position value fresh, doubled_cons_of_position value fresh]
          split <;> rfl
      | nil =>
          rw [perform_bindAfter_supply, lacking_cons fresh, perform_valuesOf_append,
            doubled_of_no_position]
          simp only [inductionHypothesis distinct, doubled_of_no_position, State.reportDoubled,
            List.foldl_nil, Option.map_bind, Function.comp_def, Option.map_map]
          cases given : (valuesOf (if keywords.has param.name then none
            else param.default).toList).perform environment below state with
          | none => rfl
          | some answer =>
              have isLength := length_valuesOf given
              simp only [Option.bind_some]
              congr 1
              funext others
              simp only [frameAfter, suppliedHere_append others.1 isLength]

end Action

/-! ### What is bound -/

/-- The names that surplus arguments are put under. -/
def surplusNames : List String := ["varargs", "kwargs"]

theorem lookup?_frameAfter_other {name : String} (fresh : name ∉ params.map (·.name))
    (isOrdinary : name ∉ surplusNames) (frame : Table Value) (args : Arguments)
    (values : List Value) : (frameAfter frame params args values).lookup? name = frame.lookup? name := by
  induction params generalizing frame args values with
  | nil =>
      have notKwargs : name ≠ "kwargs" := fun same => isOrdinary (by simp [surplusNames, same])
      have notVarargs : name ≠ "varargs" := fun same => isOrdinary (by simp [surplusNames, same])
      rw [frameAfter, Table.lookup?_put_other _ _ notKwargs, Table.lookup?_put_other _ _ notVarargs]
  | cons param rest inductionHypothesis =>
      rw [List.map_cons, List.mem_cons, not_or] at fresh
      obtain ⟨different, fresh⟩ := fresh
      obtain ⟨positional, keywords⟩ := args
      cases positional <;>
        rw [frameAfter, inductionHypothesis fresh, Table.lookup?_put_other _ _ different]

/-- A parameter at the front is bound by the first step, and not bound again. -/
theorem lookup?_frameAfter_first (fresh : param.name ∉ rest.map (·.name))
    (isOrdinary : param.name ∉ surplusNames) (frame : Table Value) (args : Arguments)
    {values : List Value} (isLength : values.length = (lacking (param :: rest) args).length) :
    ∃ value, supplied? (param :: rest) args values 0 param = some value ∧
      (frameAfter frame (param :: rest) args values).lookup? param.name = some value := by
  obtain ⟨positional, keywords⟩ := args
  cases positional with
  | cons value positional =>
      refine ⟨value, rfl, ?_⟩
      rw [frameAfter, lookup?_frameAfter_other fresh isOrdinary, Table.lookup?_put_self]
  | nil =>
      refine ⟨(suppliedHere keywords param values).1, ?_, ?_⟩
      rotate_left
      · rw [frameAfter, lookup?_frameAfter_other fresh isOrdinary, Table.lookup?_put_self]
      rw [lacking_cons fresh, List.length_append] at isLength
      unfold suppliedHere supplied?
      unfold Table.has at isLength
      cases isKeyword : keywords.lookup? param.name with
      | some value => rfl
      | none =>
          cases isDefault : param.default with
          | none => rfl
          | some expr =>
              simp only [isKeyword, isDefault] at isLength
              cases values with
              | nil =>
                  simp at isLength
                  omega
              | cons value values => rfl

/-- What is bound to the other parameters does not depend on the one at the front. -/
theorem supplied?_succ {other : Param} (fresh : param.name ∉ rest.map (·.name)) {place : Nat}
    (isOther : rest[place]? = some other) (args : Arguments) (values : List Value) :
    supplied? (param :: rest) args values (place + 1) other =
      match args with
      | ⟨_ :: positional, keywords⟩ =>
          supplied? rest ⟨positional, keywords.without param.name⟩ values place other
      | ⟨[], keywords⟩ =>
          supplied? rest ⟨[], keywords.without param.name⟩
            (suppliedHere keywords param values).2 place other := by
  have different : other.name ≠ param.name := fun same =>
    fresh (same ▸ List.mem_map_of_mem (List.mem_of_getElem? isOther))
  have freshFront : param.name ∉ (rest.take place).map (·.name) := fun member =>
    fresh ((List.take_sublist place rest).map _ |>.subset member)
  obtain ⟨positional, keywords⟩ := args
  cases positional with
  | cons value positional =>
      simp only [supplied?, List.getElem?_cons_succ, List.take_succ_cons,
        Table.lookup?_without_other keywords different, lacking_cons_of_position value freshFront]
  | nil =>
      simp only [supplied?, List.getElem?_nil, List.take_succ_cons,
        Table.lookup?_without_other keywords different, lacking_cons freshFront]
      unfold suppliedHere Table.has
      cases keywords.lookup? other.name with
      | some value => rfl
      | none =>
          cases other.default with
          | none => rfl
          | some expr =>
              cases keywords.lookup? param.name with
              | some value => rfl
              | none =>
                  cases param.default with
                  | none => rfl
                  | some first =>
                      cases values with
                      | nil => rfl
                      | cons value values =>
                          rw [List.length_append, Nat.add_comm]
                          exact List.getElem?_cons_succ

theorem lookup?_frameAfter {place : Nat} (distinct : (params.map (·.name)).Nodup)
    (isParam : params[place]? = some param) (isOrdinary : param.name ∉ surplusNames)
    (frame : Table Value) (args : Arguments) {values : List Value}
    (isLength : values.length = (lacking params args).length) :
    ∃ value, supplied? params args values place param = some value ∧
      (frameAfter frame params args values).lookup? param.name = some value := by
  induction params generalizing place frame args values with
  | nil => cases isParam
  | cons first rest inductionHypothesis =>
      rw [List.map_cons, List.nodup_cons] at distinct
      obtain ⟨fresh, distinct⟩ := distinct
      cases place with
      | zero =>
          cases isParam
          exact lookup?_frameAfter_first fresh isOrdinary frame args isLength
      | succ place =>
          rw [List.getElem?_cons_succ] at isParam
          rw [supplied?_succ fresh isParam]
          obtain ⟨positional, keywords⟩ := args
          cases positional with
          | cons value positional =>
              rw [lacking_cons_of_position value fresh] at isLength
              exact inductionHypothesis distinct isParam _ _ isLength
          | nil =>
              refine inductionHypothesis distinct isParam _ _ ?_
              rw [lacking_cons fresh, List.length_append] at isLength
              unfold suppliedHere
              unfold Table.has at isLength
              cases isKeyword : keywords.lookup? first.name with
              | some value => simpa [isKeyword] using isLength
              | none =>
                  cases isDefault : first.default with
                  | none => simpa [isKeyword, isDefault] using isLength
                  | some expr =>
                      simp [isKeyword, isDefault] at isLength
                      simp
                      omega

/-- The arguments behind those for all parameters go under one name, and the keywords that are no
parameter's under another one. -/
theorem lookup?_surplus (frame : Table Value) (params : List Param) (args : Arguments)
    (values : List Value) :
    (frameAfter frame params args values).lookup? "varargs" =
        some (.seq (args.positional.drop params.length)) ∧
      (frameAfter frame params args values).lookup? "kwargs" =
        some (.map (args.keywords.filter fun entry => entry.1 ∉ params.map (·.name))) := by
  induction params generalizing frame args values with
  | nil =>
      refine ⟨?_, ?_⟩
      · rw [frameAfter, Table.lookup?_put_other _ _ (by decide), Table.lookup?_put_self]
        rfl
      · rw [frameAfter, Table.lookup?_put_self]
        simp
  | cons param rest inductionHypothesis =>
      obtain ⟨positional, keywords⟩ := args
      have areLeft : (keywords.without param.name).filter (fun entry =>
          decide (entry.1 ∉ rest.map (·.name))) =
            keywords.filter fun entry => decide (entry.1 ∉ (param :: rest).map (·.name)) := by
        rw [Table.without, List.filter_filter]
        refine List.filter_congr fun entry _ => ?_
        simp only [List.map_cons, List.mem_cons, not_or, Bool.decide_and, Bool.and_comm]
      rw [← areLeft]
      cases positional with
      | cons value positional => exact inductionHypothesis _ _ _
      | nil =>
          have kept := inductionHypothesis
            (frame.put param.name (suppliedHere keywords param values).1)
            ⟨[], keywords.without param.name⟩ (suppliedHere keywords param values).2
          simp only [List.drop_nil] at kept ⊢
          exact kept

/-! ### Calls -/

theorem State.reportDoubled_eq (owner : String) (span : Span) (params : List Param) (state : State) :
    state.reportDoubled owner span params = { state with
      problems := state.problems ++ (params.map fun param =>
        State.ascribe state.place (multipleValues owner span param)).toArray } := by
  induction params generalizing state with
  | nil => simp [reportDoubled]
  | cons param rest inductionHypothesis =>
      rw [show state.reportDoubled owner span (param :: rest) =
        (state.report (multipleValues owner span param)).reportDoubled owner span rest from rfl,
        inductionHypothesis]
      simp [report]

namespace Action

variable {environment : Environment} {below : Below}

theorem perform_unlessTooDeep (span : Span) (body : Action Value) {state : State}
    (isShallow : state.place.callDepth < callLimit) :
    (unlessTooDeep span body).perform environment below state =
      body.perform environment below state := by
  change (if state.place.callDepth ≥ callLimit then _ else body).perform environment below state = _
  rw [if_neg (Nat.not_le.mpr isShallow)]

/-- A body is rendered in the frame of its arguments, in the setting of a macro or of a call block. -/
theorem perform_bound {params : List Param} (distinct : (params.map (·.name)).Nodup) (owner : String)
    (args : Arguments) (span : Span) (setting : Setting) (body : List Node) (state : State) :
    (bindParams owner params args span >>= fun frame =>
        (inSetting setting (inSetting (.frame frame) (textOf body))) >>= fun text =>
          pure (Value.text text)).perform environment below state =
      ((valuesOf (lacking params args)).perform environment below
        (state.reportDoubled owner span (doubled params args))).bind fun answer =>
          ((inSetting setting (inSetting (.frame (argumentFrame params args answer.1))
            (textOf body))).perform environment below answer.2).map fun last =>
              (.text last.1, last.2) := by
  change ((bindAfter owner span [] params args).andThen _).perform environment below state = _
  rw [perform_andThen, perform_bindAfter distinct]
  cases (valuesOf (lacking params args)).perform environment below
    (state.reportDoubled owner span (doubled params args)) with
  | none => rfl
  | some answer =>
      simp only [Option.map_some, Option.bind_some]
      change ((inSetting setting _).andThen _).perform environment below answer.2 = _
      rw [perform_andThen, argumentFrame]
      cases (inSetting setting (inSetting (.frame (frameAfter [] params args answer.1))
        (textOf body))).perform environment below answer.2 <;> rfl

end Action

/-- Calling a macro, and asking for the body with parameters of a call block, first reports each
parameter that is provided twice, then evaluates the defaults that are needed in the scopes of the
call, and then renders the body in a frame of its own. There each parameter is bound to the argument
at its place, or else to the keyword's, or else to its default, or else to nothing, the arguments
behind all parameters are under `varargs`, and the keywords that are no parameter's are under
`kwargs` in the order of the call. The only parameters that are not bound so are those of these two
names. -/
theorem arguments_bound {environment : Environment} {below : Below} {params : List Param}
    (distinct : (params.map (·.name)).Nodup) (args : Arguments) (body : List Node) (span : Span)
    {state : State} (isShallow : state.place.callDepth < callLimit) :
    let ready (owner : String) := (Action.valuesOf (lacking params args)).perform environment below
      { state with problems := state.problems ++ ((doubled params args).map fun param =>
          State.ascribe state.place ((Problem.callFailed owner
            ("got multiple values for argument '" ++ param.name ++ "'")).at_ span)).toArray }
    let textIn (setting : Setting) (answer : List Value × State) : Option (Value × State) :=
      ((Action.inSetting setting (Action.inSetting (.frame (argumentFrame params args answer.1))
        (Action.textOf body))).perform environment below answer.2).map fun last =>
          (.text last.1, last.2)
    (∀ owner origin home caller,
      (Action.callMacro ⟨⟨owner, params, body, origin⟩, home⟩ args caller span).perform environment
        below state = (ready owner).bind (textIn (.call caller home))) ∧
      (Action.callCaller (.deferred params body) args span).perform environment below state =
        (ready "caller").bind (textIn .callSite) ∧
      ∀ {owner values after}, ready owner = some (values, after) →
        let frame := argumentFrame params args values
        (∀ {place param}, params[place]? = some param → param.name ∉ surplusNames →
          ∃ value, supplied? params args values place param = some value ∧
            frame.lookup? param.name = some value) ∧
          frame.lookup? "varargs" = some (.seq (args.positional.drop params.length)) ∧
          frame.lookup? "kwargs" =
            some (.map (args.keywords.filter fun entry => entry.1 ∉ params.map (·.name))) := by
  intro ready textIn
  have isReady (owner : String) : ready owner =
      (Action.valuesOf (lacking params args)).perform environment below
        (state.reportDoubled owner span (doubled params args)) := by
    rw [State.reportDoubled_eq]
    rfl
  refine ⟨fun owner origin home caller => ?_, ?_, fun {owner values after} isAnswer => ?_⟩
  · rw [isReady, Action.callMacro, Action.perform_unlessTooDeep span _ isShallow]
    exact Action.perform_bound distinct owner args span (.call caller home) body state
  · rw [isReady, Action.callCaller, Action.perform_unlessTooDeep span _ isShallow]
    exact Action.perform_bound distinct "caller" args span .callSite body state
  · rw [isReady] at isAnswer
    have isLength := Action.length_valuesOf isAnswer
    exact ⟨fun isParam isOrdinary => lookup?_frameAfter distinct isParam isOrdinary [] args isLength,
      lookup?_surplus [] params args values⟩

/-- A parameter that is given twice, one with a default, and a keyword that is no parameter's. -/
theorem arguments_bound_default :
    let params : List Param :=
      [⟨"a", none, default⟩, ⟨"b", some (.literal (.text "d") default), default⟩]
    let args : Arguments := ⟨[.int 1], [("x", .int 3), ("a", .int 2)]⟩
    let frame := argumentFrame params args [.text "d"]
    (params.map (·.name)).Nodup ∧ (State.initial [] .empty).place.callDepth < callLimit ∧
      frame.lookup? "a" = some (.int 1) ∧ frame.lookup? "b" = some (.text "d") ∧
      frame.lookup? "varargs" = some (.seq []) ∧
      frame.lookup? "kwargs" = some (.map [("x", .int 3)]) := by
  intro params args frame
  have distinct : (params.map (·.name)).Nodup := by decide
  have isShallow : (State.initial [] .empty).place.callDepth < callLimit := by decide
  obtain ⟨_, _, bound⟩ :=
    @arguments_bound .empty (belowDepth .empty 1) params distinct args [] default _ isShallow
  obtain ⟨given, varargs, kwargs⟩ := @bound "m" _ _ rfl
  obtain ⟨_, isFirst, first⟩ := @given 0 _ rfl (by decide)
  obtain ⟨_, isSecond, second⟩ := @given 1 _ rfl (by decide)
  cases isFirst
  cases isSecond
  exact ⟨distinct, isShallow, first, second, varargs, kwargs⟩

/-- A parameter by the name of the surplus arguments is not bound to its argument. -/
theorem arguments_bound_surplus :
    let call : Expr := .call (.name "m" default) [.literal (.int 1) default] default
    let page : List Node :=
      [.define "m" [⟨"varargs", none, default⟩] [.output (.name "varargs" default) default] default,
        .output call default]
    (renderTemplateWithin 9 .empty ⟨"page", page, default⟩ [] .empty).map
      (fun outcome => (outcome.text, outcome.problems.map (·.code))) = some ("[]", []) := by
  decide +kernel

end Render

end Stencil
