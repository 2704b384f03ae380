import Stencil.Proofs.Host.Chain
import Stencil.Proofs.Render.Accord
import Stencil.Proofs.Render.Depth
import Stencil.Proofs.Syntax.Inner

/-!
Contract: expressions and statements whose course does not depend on where a render stands.

Owns:
- what renders must have in common for such a part to ask the same of all of them: the variables that
  it asks for, the names of their macros, how many loops they are inside of, and whether they have
  run out of steps;
- look-ups, operators, filters and tests, functions and methods of the host;
- assignments, loops, choices, and bodies with filters or assignments of their own;
- expressions without calls, which have the same value in all renders.

Does not own: calls, blocks and other templates (`Stencil.Proofs.Render.Uniform`).
-/

set_option autoImplicit false

namespace Stencil.Render

open Stencil.Host (Arguments Environment)
open Stencil.Report (Diagnostic)
open Stencil.Syntax (Branch Expr FilterCall Node Param Target)
open Stencil.Text (Span)

variable {ι α β : Type}

theorem Below.level_unbounded (environment : Environment) :
    (unbounded environment).Upholds Standing.Level :=
  upholds_unbounded upheld_balance environment

/-- The kind of look-up that has failed. -/
def Problem.lookup? : Problem → Option Lookup
  | .unknownVariable _ => some .variable_
  | .unknownAttribute _ _ => some .variable_
  | .unknownItem _ _ => some .variable_
  | .unknownFilter _ => some .filter
  | .unknownTest _ => some .test
  | .unknownFunction _ => some .function
  | _ => none

/-- Whether a part of a render reports a problem by itself, whatever the host wants. The end of the
steps is reported by the render, and failed look-ups only if the host wants it. -/
def Problem.isOutright : Problem → Bool
  | .budgetExceeded _ => false
  | problem => problem.lookup?.isNone

theorem Problem.lookup?_of_isOutright {problem : Problem} (isOutright : problem.isOutright = true) :
    problem.lookup? = none := by
  cases problem <;> first | rfl | cases isOutright

/-- The part of a view that statements without calls, blocks and other templates can see. -/
structure Scenery where
  scopes : Scopes
  macros : Table Macro
  namespaces : Table (Table Syntax.MacroDefinition)
  loopDepth : Nat
  halted : Bool

def View.scenery (view : View) : Scenery :=
  ⟨view.scopes, view.macros, view.namespaces, view.place.loopDepth, view.halted⟩

/-- What statements without calls, blocks and other templates can see of a view apart from variables. -/
structure Outlook where
  /-- Whether a name stands for a macro or for imported macros. -/
  callable : String → Bool
  loopDepth : Nat
  halted : Bool

def Scenery.outlook (scenery : Scenery) : Outlook :=
  ⟨fun name => scenery.macros.has name || scenery.namespaces.has name, scenery.loopDepth,
    scenery.halted⟩

def View.outlook (view : View) : Outlook := view.scenery.outlook

/-- Three actions in order are two of them and then the third, or one and then the others. -/
theorem Action.bind_assoc {γ : Type} (first : Action α) (second : α → Action β)
    (third : β → Action γ) :
    first >>= second >>= third = first >>= fun answer => second answer >>= third := by
  change (first.andThen second).andThen third = first.andThen fun answer =>
    (second answer).andThen third
  induction first with
  | done answer => rfl
  | eval _ _ inductionHypothesis | render _ _ inductionHypothesis
  | ascend _ _ _ inductionHypothesis | look _ inductionHypothesis | consult _ inductionHypothesis
  | survey _ inductionHypothesis | report _ _ inductionHypothesis
  | complain _ _ _ inductionHypothesis | bindName _ _ _ inductionHypothesis
  | store _ _ _ _ _ inductionHypothesis | define _ _ _ inductionHypothesis
  | mount _ _ _ inductionHypothesis | load _ _ inductionHypothesis
  | within _ _ _ _ inductionHypothesis => simp only [andThen, inductionHypothesis]

namespace Accord

variable {accord : Accord ι}

/-- Whether an action asks the same of all renders, and nothing but what they may be asked. -/
abbrev Asks (accord : Accord ι) (action : Action α) : Prop := accord.Alike fun _ => action

/-- What renders have in common if they see the same registrations, the same of each other and the
same under all names that may be asked for, and may be told and asked everything that statements
without calls, blocks and other templates ask. -/
structure Plain (accord : Accord ι) : Prop where
  outlook : ∀ {views}, accord.views views → ∃ outlook, ∀ i, (views i).outlook = outlook
  variable_ : ∀ {views name}, accord.views views → accord.names name →
    ∃ value, ∀ i, (views i).scopes.lookup? name = value
  name : ∀ {name span}, accord.expr (.name name span) → accord.names name
  lookups : ∃ lookups, ∀ i, (accord.hosts i).lookups = lookups
  child : ∀ {expr part}, accord.expr expr → part ∈ expr.children → accord.expr part
  told : ∀ {problem : Problem} (span : Span), problem.isOutright = true →
    accord.told (problem.at_ span)
  complaint : ∀ {lookup : Lookup} {problem : Problem} (span : Span), problem.lookup? = some lookup →
    accord.complaint lookup (problem.at_ span)
  frame : ∀ bindings, accord.setting (.frame bindings)
  loop : accord.setting .loop

/-! ### Requests -/

theorem Alike.bind {first : ι → Action α} {rest : ι → α → Action β} (alike : accord.Alike first)
    (alikeRest : ∀ answer, accord.Alike fun i => rest i answer) :
    accord.Alike fun i => first i >>= rest i :=
  alike.andThen alikeRest

theorem Alike.pure (answer : α) : accord.Asks (pure answer) := .done answer

theorem Alike.bind_view {rest : ι → View → Action α}
    (alike : ∀ views, accord.views views → accord.Alike fun i => rest i (views i)) :
    accord.Alike fun i => Action.view >>= rest i :=
  .look alike

theorem Alike.valueOf {expr : Expr} (allowed : accord.expr expr) :
    accord.Asks (Action.valueOf expr) :=
  .eval allowed .done

theorem Alike.textOf {bodies : ι → List Node} (allowed : accord.bodies bodies) :
    accord.Alike fun i => Action.textOf (bodies i) :=
  .render allowed .done

theorem Alike.bindTo (name : String) (value : Value) : accord.Asks (Action.bindTo name value) :=
  .bindName (.done ())

theorem Alike.inSetting {setting : Setting} {inner : ι → Action α}
    (allowed : accord.setting setting) (alike : accord.Alike inner) :
    accord.Alike fun i => Action.inSetting setting (inner i) :=
  .within allowed alike .done

namespace Plain

theorem problem (plain : accord.Plain) {cause : Problem} (span : Span)
    (isOutright : cause.isOutright = true) : accord.Asks (Action.problem cause span) :=
  .report (plain.told span isOutright) (.done ())

theorem failedLookup (plain : accord.Plain) {lookup : Lookup} {cause : Problem} (span : Span)
    (isLookup : cause.lookup? = some lookup) :
    accord.Asks (Action.failedLookup lookup cause span) :=
  .complain (plain.complaint span isLookup) (.done ())

/-- A look at what the hosts have registered shows the same under each name. -/
theorem bind_registry (plain : accord.Plain) {rest : ι → Host.Registry → Action α}
    (alike : ∀ (registries : ι → Host.Registry) (lookups : Host.Lookups),
      (∀ i, (registries i).lookups = lookups) → accord.Alike fun i => rest i (registries i)) :
    accord.Alike fun i => Action.registry >>= rest i := by
  obtain ⟨lookups, same⟩ := plain.lookups
  exact .consult (alike (fun i => (accord.hosts i).toRegistry) lookups same)

/-- A look at anything but variables shows all renders the same. -/
theorem bind_view (plain : accord.Plain) (rest : ι → Outlook → Action α)
    (alike : ∀ outlook, accord.Alike fun i => rest i outlook) :
    accord.Alike fun i => Action.view >>= fun view => rest i view.outlook := by
  refine Alike.bind_view fun views isShown => ?_
  obtain ⟨outlook, same⟩ := plain.outlook isShown
  simp only [same]
  exact alike outlook

theorem resolve (plain : accord.Plain) {name : String} (allowed : accord.names name) :
    accord.Asks (Action.resolve name) := by
  refine Alike.bind_view fun views isShown => ?_
  obtain ⟨value, same⟩ := plain.variable_ isShown allowed
  cases value with
  | some value =>
      simp only [same]
      exact .pure _
  | none =>
      simp only [same]
      refine plain.bind_registry fun registries lookups same => ?_
      have found : ∀ i, (registries i).global? name = lookups.global? name := fun i =>
        congrArg (·.global? name) (same i)
      simp only [found]
      exact .pure _

/-! ### Look-ups -/

theorem lookup (plain : accord.Plain) {name : String} (span : Span)
    (allowed : accord.names name) : accord.Asks (Action.lookup name span) := by
  refine (plain.resolve allowed).bind fun found => ?_
  cases found with
  | some value => exact .pure value
  | none => exact (plain.failedLookup span rfl).bind fun _ => .pure _

theorem partOr (plain : accord.Plain) (part : Option Value) (base : Value) {cause : Problem}
    (span : Span) (isLookup : cause.lookup? = some .variable_) :
    accord.Asks (Action.partOr part base cause span) := by
  cases part with
  | some value => exact .pure value
  | none =>
      unfold Action.partOr
      dsimp only
      split
      · exact (plain.failedLookup span isLookup).bind fun _ => .pure _
      · exact .pure _

theorem settle (plain : accord.Plain) (result : Except Value.Fault Value) (span : Span) :
    accord.Asks (Action.settle result span) := by
  cases result with
  | ok value => exact .pure value
  | error fault => exact (plain.problem span rfl).bind fun _ => .pure _

theorem accept (plain : accord.Plain) (name : String) (answer : Except String Value)
    (span : Span) : accord.Asks (Action.accept name answer span) := by
  cases answer with
  | ok value => exact .pure value
  | error reason => exact (plain.problem span rfl).bind fun _ => .pure _

/-! ### Several expressions -/

theorem valuesOf {exprs : List Expr} (allowed : ∀ expr ∈ exprs, accord.expr expr) :
    accord.Asks (Action.valuesOf exprs) := by
  induction exprs with
  | nil => exact .pure _
  | cons expr rest inductionHypothesis =>
      rw [List.forall_mem_cons] at allowed
      exact (Alike.valueOf allowed.1).bind fun value =>
        (inductionHypothesis allowed.2).bind fun values => .pure _

theorem entriesAfter (entries : Table Value) {pairs : List (Expr × Expr)}
    (allowed : ∀ pair ∈ pairs, accord.expr pair.1 ∧ accord.expr pair.2) :
    accord.Asks (Action.entriesAfter entries pairs) := by
  induction pairs generalizing entries with
  | nil => exact .pure _
  | cons pair rest inductionHypothesis =>
      rw [List.forall_mem_cons] at allowed
      exact (Alike.valueOf allowed.1.1).bind fun key =>
        (Alike.valueOf allowed.1.2).bind fun value => inductionHypothesis _ allowed.2

theorem argumentsAfter (plain : accord.Plain) (positional : List Value) (keywords : Table Value)
    {args : List Expr} (allowed : ∀ arg ∈ args, accord.expr arg) :
    accord.Asks (Action.argumentsAfter positional keywords args) := by
  induction args generalizing positional keywords with
  | nil => exact .pure _
  | cons arg rest inductionHypothesis =>
      rw [List.forall_mem_cons] at allowed
      unfold Action.argumentsAfter
      split
      · exact .pure _
      · rename_i isArgs
        cases isArgs
        exact (Alike.valueOf (plain.child allowed.1 (List.mem_singleton.mpr rfl))).bind fun value =>
          inductionHypothesis _ _ allowed.2
      · rename_i isArgs
        cases isArgs
        exact (Alike.valueOf allowed.1).bind fun value => inductionHypothesis _ _ allowed.2

theorem argumentsOf (plain : accord.Plain) {args : List Expr}
    (allowed : ∀ arg ∈ args, accord.expr arg) : accord.Asks (Action.argumentsOf args) :=
  plain.argumentsAfter [] [] allowed

/-! ### Filters and tests -/

theorem applyFilter (plain : accord.Plain) (value : Value) (call : FilterCall)
    (allowed : ∀ arg ∈ call.args, accord.expr arg) :
    accord.Asks (Action.applyFilter value call) := by
  refine (plain.argumentsOf allowed).bind fun args =>
    plain.bind_registry fun registries lookups same => ?_
  have found : ∀ i, (registries i).filter? call.name = lookups.filter? call.name := fun i =>
    congrArg (·.filter? call.name) (same i)
  simp only [found]
  split
  · exact plain.accept _ _ _
  · exact (plain.failedLookup _ rfl).bind fun _ => .pure _

theorem applyFilters (plain : accord.Plain) (value : Value) {calls : List FilterCall}
    (allowed : ∀ call ∈ calls, ∀ arg ∈ call.args, accord.expr arg) :
    accord.Asks (Action.applyFilters value calls) := by
  induction calls generalizing value with
  | nil => exact .pure _
  | cons call rest inductionHypothesis =>
      rw [List.forall_mem_cons] at allowed
      exact (plain.applyFilter value call allowed.1).bind fun value =>
        inductionHypothesis value allowed.2

theorem resolvePath? (plain : accord.Plain) {expr : Expr} (allowed : accord.expr expr) :
    accord.Asks (Action.resolvePath? expr) := by
  induction expr using Action.resolvePath?.induct with
  | case1 name span => exact plain.resolve (plain.name allowed)
  | case2 inner span inductionHypothesis =>
      exact inductionHypothesis (plain.child allowed (List.mem_singleton.mpr rfl))
  | case3 value attr span inductionHypothesis =>
      refine (inductionHypothesis (plain.child allowed (List.mem_singleton.mpr rfl))).bind
        fun base => ?_
      cases base <;> exact .pure _
  | case4 value index span inductionHypothesis =>
      refine (inductionHypothesis (plain.child allowed List.mem_cons_self)).bind fun base => ?_
      cases base with
      | none => exact .pure _
      | some base =>
          exact (Alike.valueOf (plain.child allowed
            (List.mem_cons_of_mem _ List.mem_cons_self))).bind fun index => .pure _
  | case5 other =>
      rw [Action.resolvePath?] <;> try assumption
      exact (Alike.valueOf allowed).bind fun value => .pure _

theorem isDefined (plain : accord.Plain) {expr : Expr} (allowed : accord.expr expr) :
    accord.Asks (Action.isDefined expr) := by
  unfold Action.isDefined
  split
  · refine (plain.resolve (plain.name allowed)).bind fun value => ?_
    simp only [Bool.or_assoc]
    exact plain.bind_view (fun _ outlook => pure (value.isSome || outlook.callable _)) fun _ => .pure _
  · exact (plain.resolvePath? allowed).bind fun value => .pure _

theorem passes (plain : accord.Plain) {value : Expr} (name : String) {args : List Expr}
    (span : Span) (allowed : accord.expr value) (areAllowed : ∀ arg ∈ args, accord.expr arg) :
    accord.Asks (Action.passes value name args span) := by
  refine (Alike.valueOf allowed).bind fun value => (plain.argumentsOf areAllowed).bind fun args =>
    plain.bind_registry fun registries lookups same => ?_
  have found : ∀ i, (registries i).test? name = lookups.test? name := fun i =>
    congrArg (·.test? name) (same i)
  simp only [found]
  split
  · split
    · exact .pure _
    · exact (plain.problem _ rfl).bind fun _ => .pure _
  · exact (plain.failedLookup _ rfl).bind fun _ => .pure _

theorem holds (plain : accord.Plain) {value : Expr} (name : String) {args : List Expr}
    (span : Span) (allowed : accord.expr value) (areAllowed : ∀ arg ∈ args, accord.expr arg) :
    accord.Asks (Action.holds value name args span) := by
  unfold Action.holds
  split
  · exact plain.isDefined allowed
  · split
    · exact (plain.isDefined allowed).bind fun result => .pure _
    · exact plain.passes name span allowed areAllowed

/-! ### Arguments and callees -/

/-- Binding parameters asks for defaults. -/
theorem bindAfter (plain : accord.Plain) (owner : String) (span : Span) (frame : Table Value)
    {params : List Param} (args : Arguments)
    (allowed : ∀ param ∈ params, ∀ expr ∈ param.default, accord.expr expr) :
    accord.Asks (Action.bindAfter owner span frame params args) := by
  induction params generalizing frame args with
  | nil => exact .pure _
  | cons param rest inductionHypothesis =>
      rw [List.forall_mem_cons] at allowed
      obtain ⟨positional, keywords⟩ := args
      cases positional with
      | cons value positional =>
          unfold Action.bindAfter
          dsimp only
          split
          · exact (plain.problem span rfl).bind fun _ => inductionHypothesis _ _ allowed.2
          · exact inductionHypothesis _ _ allowed.2
      | nil =>
          refine Alike.bind ?_ fun value => inductionHypothesis _ _ allowed.2
          unfold Action.valueOfParam
          split
          · exact .pure _
          · split
            · rename_i default isDefault
              exact .valueOf (allowed.1 default isDefault)
            · exact .pure _

theorem callFunction (plain : accord.Plain) {name : String} (args : Arguments)
    (span : Span) (allowed : accord.names name) :
    accord.Asks (Action.callFunction name args span) := by
  refine plain.bind_registry fun registries lookups same => ?_
  have found : ∀ i, (registries i).function? name = lookups.function? name := fun i =>
    congrArg (·.function? name) (same i)
  simp only [found]
  split
  · exact plain.accept _ _ _
  · refine (plain.resolve allowed).bind fun found => ?_
    cases found with
    | some value => exact (plain.problem span rfl).bind fun _ => .pure _
    | none => exact (plain.failedLookup span rfl).bind fun _ => .pure _

theorem callMethod (plain : accord.Plain) (object : Value) (name : String)
    (args : Arguments) (span : Span) : accord.Asks (Action.callMethod object name args span) := by
  refine plain.bind_registry fun registries lookups same => ?_
  have found : ∀ i, (registries i).method? object name = lookups.method? object name := fun i =>
    congrArg (·.method? object name) (same i)
  simp only [found]
  split
  · exact plain.accept _ _ _
  · split
    · exact (plain.problem span rfl).bind fun _ => .pure _
    · exact (plain.failedLookup span rfl).bind fun _ => .pure _

/-! ### Expressions -/

/-- What the value of an expression asks for are the values of the expressions inside it, and what
calls ask for. -/
theorem evaluate (plain : accord.Plain) {expr : Expr}
    (allowed : ∀ part ∈ expr.children, accord.expr part)
    (named : ∀ name span, expr = .name name span → accord.names name)
    (call : ∀ callee args span, expr = .call callee args span →
      accord.Asks (Action.callExpr callee args none span)) :
    accord.Asks (Action.evaluate expr) := by
  have part : ∀ {part}, part ∈ expr.children → accord.Asks (Action.valueOf part) :=
    fun member => .valueOf (allowed _ member)
  cases expr with
  | literal value span => exact .pure _
  | missing span => exact .pure _
  | name name span => exact plain.lookup span (named name span rfl)
  | group inner span => exact part (by simp [Expr.children])
  | keyword name value span => exact part (by simp [Expr.children])
  | unary op operand span =>
      exact (part (by simp [Expr.children])).bind fun value => plain.settle _ span
  | binary op left right span =>
      have leftPart : accord.Asks (Action.valueOf left) := part (by simp [Expr.children])
      have rightPart : accord.Asks (Action.valueOf right) := part (by simp [Expr.children])
      cases op
      case and | or =>
        refine leftPart.bind fun value => ?_
        split
        · first | exact rightPart | exact .pure _
        · first | exact rightPart | exact .pure _
      all_goals
        exact leftPart.bind fun left => rightPart.bind fun right => plain.settle _ span
  | membership negated element container span =>
      exact (part (by simp [Expr.children])).bind fun element =>
        (part (by simp [Expr.children])).bind fun container => plain.settle _ span
  | conditional test whenTrue otherwise span =>
      refine (part (by simp [Expr.children])).bind fun test => ?_
      split
      · exact part (by simp [Expr.children])
      · cases otherwise with
        | none => exact .pure _
        | some otherwise => exact part (by simp [Expr.children])
  | call callee args span => exact call callee args span rfl
  | filter value name args callSpan span =>
      exact (part (by simp [Expr.children])).bind fun value =>
        plain.applyFilter value ⟨name, args, callSpan⟩ fun arg member =>
          allowed arg (List.mem_cons_of_mem _ member)
  | test value negated name args span =>
      exact (plain.holds name span (allowed value List.mem_cons_self) fun arg member =>
        allowed arg (List.mem_cons_of_mem _ member)).bind fun result => .pure _
  | «attribute» value attr span =>
      exact (part (by simp [Expr.children])).bind fun base => plain.partOr _ base span rfl
  | item value index span =>
      exact (part (by simp [Expr.children])).bind fun base =>
        (part (by simp [Expr.children])).bind fun index => plain.partOr _ base span rfl
  | list items span => exact (valuesOf allowed).bind fun values => .pure _
  | tuple items span => exact (valuesOf allowed).bind fun values => .pure _
  | dict entries span =>
      refine (entriesAfter [] fun pair member => ?_).bind fun table => .pure _
      exact ⟨allowed _ (List.mem_flatMap.mpr ⟨pair, member, by simp⟩),
        allowed _ (List.mem_flatMap.mpr ⟨pair, member, by simp⟩)⟩

/-! ### Assignments -/

/-- The variable that a path begins with may be asked for. -/
theorem bind_pathOf? (plain : accord.Plain) {expr : Expr} (allowed : accord.expr expr)
    {rest : Option (String × List Value.Key) → Action α} (alikeNone : accord.Asks (rest none))
    (alike : ∀ root path, accord.names root → accord.Asks (rest (some (root, path)))) :
    accord.Asks (Action.pathOf? expr >>= rest) := by
  induction expr using Action.pathOf?.induct generalizing rest with
  | case1 root span => exact alike root [] (plain.name allowed)
  | case2 inner span inductionHypothesis =>
      exact inductionHypothesis (plain.child allowed (List.mem_singleton.mpr rfl)) alikeNone alike
  | case3 value attr span inductionHypothesis =>
      rw [Action.pathOf?, Action.bind_assoc]
      exact inductionHypothesis (plain.child allowed (List.mem_singleton.mpr rfl)) alikeNone
        fun root path isAllowed => alike root _ isAllowed
  | case4 value index span inductionHypothesis =>
      rw [Action.pathOf?, Action.bind_assoc]
      refine inductionHypothesis (plain.child allowed List.mem_cons_self) alikeNone
        fun root path isAllowed => ?_
      have isIndex := plain.child allowed (List.mem_cons_of_mem _ List.mem_cons_self)
      exact Alike.eval isIndex fun index => alike root _ isAllowed
  | case5 other =>
      rw [Action.pathOf?] <;> assumption

theorem storeAt (plain : accord.Plain) {base : Expr} (key : Value.Key) (value : Value)
    (span : Span) (allowed : accord.expr base) :
    accord.Asks (Action.storeAt base key value span) := by
  refine plain.bind_pathOf? allowed (plain.problem span rfl) fun root path isAllowed => ?_
  refine Alike.store isAllowed fun refusal => ?_
  cases refusal with
  | none => exact .pure _
  | some refusal => exact plain.problem span rfl

mutual

theorem assign (plain : accord.Plain) (target : Target) (value : Value)
    (allowed : ∀ expr ∈ target.exprs, accord.expr expr) :
    accord.Asks (Action.assign target value) := by
  match target with
  | .name name _ => exact .bindTo name value
  | .tuple [] _ => exact .pure _
  | .tuple (first :: rest) span =>
      unfold Action.assign
      cases value.iterate? with
      | none =>
          exact (plain.problem span rfl).bind fun _ => assignAll plain (first :: rest) [] allowed
      | some values =>
          dsimp only
          split
          · exact (plain.problem span rfl).bind fun _ =>
              assignAll plain (first :: rest) values allowed
          · exact assignAll plain (first :: rest) values allowed
  | .attribute base attr span => exact plain.storeAt _ value span (allowed _ List.mem_cons_self)
  | .item base index span =>
      exact (Alike.valueOf (allowed _ (List.mem_cons_of_mem _ List.mem_cons_self))).bind
        fun index => plain.storeAt _ value span (allowed _ List.mem_cons_self)

theorem assignAll (plain : accord.Plain) (targets : List Target) (values : List Value)
    (allowed : ∀ expr ∈ Target.exprsOfAll targets, accord.expr expr) :
    accord.Asks (Action.assignAll targets values) := by
  match targets with
  | [] => exact .pure _
  | target :: rest =>
      rw [Target.exprsOfAll, List.forall_mem_append] at allowed
      exact (assign plain target _ allowed.1).bind fun _ => assignAll plain rest _ allowed.2

end

/-! ### Loops and choices -/

theorem select (plain : accord.Plain) {target : Target} {condition : Option Expr}
    (items : List Value) (allowed : ∀ expr ∈ target.exprs, accord.expr expr)
    (isAllowed : ∀ expr ∈ condition, accord.expr expr) :
    accord.Asks (Action.select target condition items) := by
  cases condition with
  | none => exact .pure _
  | some condition =>
      change accord.Asks (Action.selectAfter target condition [] items)
      generalize ([] : List Value) = kept
      induction items generalizing kept with
      | nil => exact .pure _
      | cons item rest inductionHypothesis =>
          refine (Alike.inSetting (plain.frame []) ?_).bind fun keep => inductionHypothesis _
          exact (plain.assign target item allowed).bind fun _ =>
            (Alike.valueOf (isAllowed condition rfl)).bind fun value => .pure _

theorem visitAfter (plain : accord.Plain) {target : Target} {bodies : ι → List Node} (length : Nat)
    (text : String) (previous : Option Value) (index : Nat) (items : List Value)
    (allowed : ∀ expr ∈ target.exprs, accord.expr expr) (areAllowed : accord.bodies bodies) :
    accord.Alike fun i =>
      Action.visitAfter target (bodies i) length text previous index items := by
  induction items generalizing text previous index with
  | nil => exact .pure _
  | cons item rest inductionHypothesis =>
      refine plain.bind_view (fun i outlook => do
        let more ← Action.inSetting (.frame [("loop", .map (loopInfo previous rest.head? index length
          outlook.loopDepth))]) do
            Action.assign target item
            Action.textOf (bodies i)
        if (← Action.view).halted then return text ++ more
        else Action.visitAfter target (bodies i) length (text ++ more) (some item) (index + 1) rest)
        fun outlook => ?_
      refine Alike.bind (.inSetting (plain.frame _) ?_) fun more => ?_
      · exact (plain.assign target item allowed).bind fun _ => .textOf areAllowed
      · refine plain.bind_view (fun i outlook => if outlook.halted then pure (text ++ more)
          else Action.visitAfter target (bodies i) length (text ++ more) (some item) (index + 1) rest)
          fun outlook => ?_
        split
        · exact .pure _
        · exact inductionHypothesis _ _ _

theorem renderEach (plain : accord.Plain) {target : Target} {items : Expr} {condition : Option Expr}
    {bodies : ι → List Node} {otherwise : ι → Option (List Node)}
    (allowed : ∀ expr ∈ target.exprs, accord.expr expr) (areItems : accord.expr items)
    (isAllowed : ∀ expr ∈ condition, accord.expr expr) (areAllowed : accord.bodies bodies)
    (otherwiseAlike : accord.Alike fun i => Action.textOfBody (otherwise i)) :
    accord.Alike fun i =>
      Action.renderEach target items condition (bodies i) (otherwise i) := by
  refine (Alike.valueOf areItems).bind fun value => ?_
  cases value.iterate? with
  | none => exact (plain.problem _ rfl).bind fun _ => otherwiseAlike
  | some found =>
      refine (plain.select found allowed isAllowed).bind fun visited => ?_
      split
      · exact otherwiseAlike
      · exact .inSetting plain.loop (plain.visitAfter _ _ _ _ _ allowed areAllowed)

theorem textOfBody {body : Option (List Node)} (changes : ι → List Node → List Node)
    (allowed : ∀ nodes ∈ body, accord.bodies fun i => changes i nodes) :
    accord.Alike fun i => Action.textOfBody (body.map (changes i)) := by
  cases body with
  | none => exact .pure _
  | some nodes => exact .textOf (allowed nodes rfl)

theorem chooseBody {branches : List Branch} {otherwise : Option (List Node)}
    (changes : ι → List Node → List Node) (allowed : ∀ branch ∈ branches, accord.expr branch.test)
    (areAllowed : ∀ branch ∈ branches, accord.bodies fun i => changes i branch.body)
    (isAllowed : ∀ nodes ∈ otherwise, accord.bodies fun i => changes i nodes) :
    accord.Alike fun i => Action.chooseBody (otherwise.map (changes i))
      (branches.map fun branch => .mk branch.test (changes i branch.body) branch.span) >>=
        Action.textOfBody := by
  induction branches with
  | nil => exact textOfBody changes isAllowed
  | cons branch rest inductionHypothesis =>
      rw [List.forall_mem_cons] at allowed areAllowed
      apply Alike.eval allowed.1
      intro value
      show accord.Alike fun i => Action.andThen (if value.isTruthy = true
        then pure (some (changes i branch.body))
        else Action.chooseBody (otherwise.map (changes i)) (rest.map _)) Action.textOfBody
      by_cases isTrue : value.isTruthy = true
      · simp only [isTrue, if_true]
        exact .textOf areAllowed.1
      · simp only [isTrue]
        exact inductionHypothesis allowed.2 areAllowed.2

theorem renderWith (plain : accord.Plain) {bindings : List Syntax.Binding} {bodies : ι → List Node}
    (allowed : ∀ binding ∈ bindings, accord.expr binding.value ∧
      ∀ expr ∈ binding.target.exprs, accord.expr expr) (areAllowed : accord.bodies bodies) :
    accord.Alike fun i => Action.renderWith bindings (bodies i) := by
  have areValues : ∀ expr ∈ bindings.map (·.value), accord.expr expr := by
    intro expr member
    obtain ⟨binding, isBinding, rfl⟩ := List.mem_map.mp member
    exact (allowed binding isBinding).1
  have areTargets : ∀ expr ∈ Target.exprsOfAll (bindings.map (·.target)), accord.expr expr := by
    intro expr member
    obtain ⟨target, isTarget, member⟩ := Target.mem_exprsOfAll.mp member
    obtain ⟨binding, isBinding, rfl⟩ := List.mem_map.mp isTarget
    exact (allowed binding isBinding).2 expr member
  refine (valuesOf areValues).bind fun values => .inSetting (plain.frame []) ?_
  exact (plain.assignAll _ values areTargets).bind fun _ => .textOf areAllowed

theorem filterBody (plain : accord.Plain) {filters : List FilterCall} {bodies : ι → List Node}
    (allowed : ∀ call ∈ filters, ∀ arg ∈ call.args, accord.expr arg)
    (areAllowed : accord.bodies bodies) :
    accord.Alike fun i => Action.filterBody filters (bodies i) :=
  (Alike.textOf areAllowed).bind fun _ => plain.applyFilters _ allowed

/-- An ordinary statement asks for the values of its expressions and the texts of its bodies, whatever
bodies it has in each render. -/
theorem carryOut (plain : accord.Plain) {node : Node} (isOrdinary : node.isOrdinary = true)
    (changes : ι → List Node → List Node) (allowed : ∀ expr ∈ node.exprs, accord.expr expr)
    (areAllowed : ∀ body ∈ node.bodies, accord.bodies fun i => changes i body) :
    accord.Alike fun i => Action.carryOut (node.mapBodies (changes i)) := by
  cases node with
  | text | verbatim | comment => exact .pure _
  | output value span =>
      exact (Alike.valueOf (allowed value List.mem_cons_self)).bind fun _ => .pure _
  | choose branches otherwise span =>
      apply chooseBody changes
      · exact fun branch member => allowed _ (List.mem_map_of_mem member)
      · exact fun branch member => areAllowed _ (List.mem_append_left _ (List.mem_map_of_mem member))
      · exact fun nodes isOther =>
          areAllowed _ (List.mem_append_right _ (Option.mem_toList.mpr isOther))
  | each target items condition body otherwise span =>
      simp only [Node.exprs, List.forall_mem_append, List.forall_mem_cons, Option.mem_toList] at allowed
      apply plain.renderEach allowed.1 allowed.2.1 allowed.2.2 (areAllowed body List.mem_cons_self)
      exact textOfBody changes fun nodes isOther =>
        areAllowed _ (List.mem_cons_of_mem _ (Option.mem_toList.mpr isOther))
  | assign target value span =>
      simp only [Node.exprs, List.forall_mem_append, List.forall_mem_singleton] at allowed
      exact (Alike.valueOf allowed.2).bind fun value =>
        (plain.assign target value allowed.1).bind fun _ => .pure _
  | capture target filters body span =>
      simp only [Node.exprs, List.forall_mem_append, List.forall_mem_flatMap] at allowed
      exact (plain.filterBody allowed.2 (areAllowed body List.mem_cons_self)).bind fun value =>
        (plain.assign target value allowed.1).bind fun _ => .pure _
  | withBlock bindings body span =>
      simp only [Node.exprs, List.forall_mem_flatMap, List.forall_mem_append,
        List.forall_mem_singleton] at allowed
      exact plain.renderWith (fun binding member => (allowed binding member).symm)
        (areAllowed body List.mem_cons_self)
  | filterBlock filters body span =>
      simp only [Node.exprs, List.forall_mem_flatMap] at allowed
      exact (plain.filterBody allowed (areAllowed body List.mem_cons_self)).bind fun value => .pure _
  | _ => simp [Node.isOrdinary] at isOrdinary

/-! ### Expressions without calls -/

/-- Renders of which nothing but values is asked. -/
def asking (accord : Accord ι) (expr : Expr → Prop) : Accord ι :=
  { accord with expr := expr, bodies := fun _ => False, ascent := fun _ _ => False }

/-- Expressions without calls have the same value in all renders: each asks only for expressions
inside it. -/
theorem abreast_callFree (plain : accord.Plain) {lead : Option ι} {rel : (ι → State) → Prop}
    (keeps : accord.Keeps rel) (named : ∀ name, accord.names name) {expr : Expr}
    (isFree : expr.CallFree) : Abreast lead rel fun i => (unbounded (accord.hosts i)).eval expr := by
  suffices smaller : ∀ size (expr : Expr), sizeOf expr < size → expr.CallFree →
      Abreast lead rel fun i => (unbounded (accord.hosts i)).eval expr from
    smaller _ expr (Nat.lt_succ_self _) isFree
  intro size
  induction size with
  | zero => exact fun _ isSmall => absurd isSmall (Nat.not_lt_zero _)
  | succ size inductionHypothesis =>
      intro expr isSmall isFree
      let inner := asking accord fun part => sizeOf part < size ∧ part.CallFree
      have innerPlain : inner.Plain := { plain with
        name := fun _ => named _
        child := fun allowed member =>
          ⟨Nat.lt_trans (Expr.sizeOf_child member) allowed.1, allowed.2.child member⟩ }
      have innerKeeps : inner.Keeps rel := { keeps with }
      have carries : inner.Carries lead rel fun i => unbounded (accord.hosts i) :=
        ⟨fun allowed => inductionHypothesis _ allowed.1 allowed.2, fun allowed => allowed.elim,
          fun allowed => allowed.elim, fun i => Below.level_unbounded (accord.hosts i)⟩
      simp only [unbounded_eval]
      apply abreast_perform innerKeeps carries
      apply innerPlain.evaluate
      · intro part member
        have isLess := Expr.sizeOf_child member
        exact ⟨by omega, isFree.child member⟩
      · exact fun name _ _ => named name
      · intro callee args span isCall
        cases Expr.not_callFree_call callee args span (isCall ▸ isFree)

end Plain

end Accord

end Stencil.Render
