import Stencil.Proofs.Render.Material
import Stencil.Proofs.Render.Plain
import Stencil.Render.Outcome

/-!
Contract: everything that expressions, statements and templates ask of renders that see the same.

Owns:
- calls of macros, functions and methods, and the bodies handed to macros;
- blocks, templates built on one another, templates embedded in others, and imports;
- all statements, if the scripts of tags ask the same of all renders, too;
- scripts that overlook what their environments differ in, which do so.

Does not own: what the renders see and are asked (`Stencil.Proofs.Render.Accord`).
-/

set_option autoImplicit false

namespace Stencil.Host

/-- Whether a script goes on in the same way in environments that show facades which are alike, and
reports nothing but diagnostics of some kind. -/
inductive TagScript.Overlooks (alike : Facade → Facade → Prop) (told : Report.Diagnostic → Prop) :
    TagScript → Prop where
  | done (text : String) : Overlooks alike told (.done text)
  | evaluate {expr : Syntax.Expr} {next : Value → TagScript}
      (rest : ∀ value, Overlooks alike told (next value)) :
      Overlooks alike told (.evaluate expr next)
  | render {body : List Syntax.Node} {next : String → TagScript}
      (rest : ∀ text, Overlooks alike told (next text)) : Overlooks alike told (.render body next)
  | renderWith {bindings : Table Value} {body : List Syntax.Node} {next : String → TagScript}
      (rest : ∀ text, Overlooks alike told (next text)) :
      Overlooks alike told (.renderWith bindings body next)
  | lookup {name : String} {next : Option Value → TagScript}
      (rest : ∀ value, Overlooks alike told (next value)) : Overlooks alike told (.lookup name next)
  | report {diagnostic : Report.Diagnostic} {next : TagScript} (isTold : told diagnostic)
      (rest : Overlooks alike told next) : Overlooks alike told (.report diagnostic next)
  | depth {next : Nat → TagScript} (rest : ∀ depth, Overlooks alike told (next depth)) :
      Overlooks alike told (.depth next)
  | survey {next : Facade → TagScript}
      (same : ∀ facade facade', alike facade facade' → next facade' = next facade)
      (rest : ∀ facade, Overlooks alike told (next facade)) : Overlooks alike told (.survey next)

/-- Whether the scripts of all tags overlook what facades that are alike differ in. -/
def Environment.Overlooks (environment : Environment) (alike : Facade → Facade → Prop)
    (told : Report.Diagnostic → Prop) : Prop :=
  ∀ ⦃name : String⦄ ⦃renderer : TagRenderer⦄, environment.renderer? name = some renderer →
    ∀ tag, (renderer tag).Overlooks alike told

end Stencil.Host

namespace Stencil.Render

open Stencil.Host (Arguments Environment Loaded)
open Stencil.Report (Diagnostic)
open Stencil.Syntax (Branch Expr ImportName MacroDefinition Node Param Template)
open Stencil.Text (Span)

variable {ι α : Type}

/-- What is left to do for a template that others are built on once it is loaded. -/
def Action.onto (overrides : Overrides) (loaded : Loaded) : Action String := do
  defineMissing loaded.macros loaded.macros
  match loaded.template.parent? with
  | none =>
      inSetting (.chain (overrides.add loaded.name loaded.blocks)) <|
        inSetting (.template loaded.name) <| textOf loaded.template.body
  | some (next, _) =>
      inSetting (.template loaded.name) do
        prepare loaded.template.body
        .ascend (overrides.add loaded.name loaded.blocks) next .done

/-- A template that others are built on is loaded unless it is being rendered already. -/
theorem Action.perform_ascendTo {environment : Host.Environment} {below : Below}
    {overrides : Overrides} {parent : Expr} {name : String} {state named : State}
    (isNamed : (templateName? parent).perform environment below state = some (some name, named)) :
    (ascendTo overrides parent).perform environment below state =
      if name ∈ named.place.loads then
        (reportCycle name parent.span >>= fun _ => pure "").perform environment below named
      else
        match (named.load environment name).1 with
        | .error fault => some ("", (named.load environment name).2.report
            ((Problem.templateNotFound name fault.message).at_ parent.span))
        | .ok loaded => (onto overrides loaded).perform environment below
            (named.load environment name).2 := by
  change ((templateName? parent).andThen _).perform environment below state = _
  rw [perform_andThen, isNamed, Option.bind_some]
  by_cases isEntered : name ∈ named.place.loads
  · simp only [bind, view, andThen, perform, if_pos isEntered]
  · simp only [bind, view, andThen, perform, if_neg isEntered, loadOrReport, fetch]
    cases (named.load environment name).1 <;> rfl

/-- Whether a setting is one that a part of a template is carried out in, and not a template. -/
def Setting.isInner : Setting → Bool
  | .chain _ => false
  | .template _ => false
  | .embedded _ => false
  | _ => true

namespace Accord

variable {accord : Accord ι} {material : Material}

/-- What renders of templates of one material have in common if they see the same, and may be asked
everything that such templates ask apart from other templates. -/
structure Uniform (accord : Accord ι) (material : Material) : Prop extends accord.Plain where
  closed : material.Closed
  same : ∀ {views}, accord.views views → ∃ view,
    (∀ i, views i = { view with scopes := (views i).scopes }) ∧ material.Holds view
  default : ∀ {expr}, material.default expr → accord.expr expr
  called : ∀ {callee args span}, accord.expr (.call callee args span) →
    ∀ name ∈ callee.calledName?, material.called name
  body : ∀ {nodes}, material.Body nodes → accord.bodies fun _ => nodes
  callable : ∀ {macro_}, material.OfMacro macro_ → accord.callable macro_
  mounted : ∀ {home}, material.Home home → accord.mounted home
  loads : material.templates → accord.loads
  loaded : ∀ {loaded}, accord.loaded loaded → material.Body loaded.template.body
  setting : ∀ {setting}, setting.isInner = true → material.OfSetting setting →
    accord.setting setting

/-- What such renders have in common if they may be asked for other templates, too. -/
structure Whole (accord : Accord ι) (material : Material) : Prop extends
    accord.Uniform material where
  ascent : ∀ {overrides parent}, material.templates → material.Layers overrides →
    accord.expr parent → accord.ascent overrides parent
  parent : ∀ {template : Template} {parent span}, material.Body template.body →
    template.parent? = some (parent, span) → accord.expr parent
  anySetting : ∀ {setting}, material.OfSetting setting → accord.setting setting

namespace Uniform

/-- A look that is not at variables shows all renders the same. -/
theorem bind_view (uniform : accord.Uniform material) (rest : View → Action α)
    (alike : ∀ view, material.Holds view → accord.Asks (rest view))
    (blind : ∀ view scopes, rest { view with scopes := scopes } = rest view := by intros; rfl) :
    accord.Asks (Action.view >>= rest) := by
  refine Alike.bind_view fun views isShown => ?_
  obtain ⟨view, same, holds⟩ := uniform.same isShown
  have sameRest : ∀ i, rest (views i) = rest view := fun i => by rw [same i, blind]
  simp only [sameRest]
  exact alike view holds

theorem textOf (uniform : accord.Uniform material) {nodes : List Node}
    (isBody : material.Body nodes) : accord.Asks (Action.textOf nodes) :=
  .textOf (uniform.body isBody)

/-! ### Macros -/

theorem unlessTooDeep (uniform : accord.Uniform material) (span : Span) {body : Action Value}
    (alike : accord.Asks body) : accord.Asks (Action.unlessTooDeep span body) := by
  refine uniform.bind_view _ fun view _ => ?_
  split
  · exact (uniform.problem span rfl).bind fun _ => .pure _
  · exact alike

theorem callMacro (uniform : accord.Uniform material) {callable : Macro} (args : Arguments)
    {caller : Option Caller} (span : Span) (isMacro : material.OfMacro callable)
    (isCaller : ∀ handed ∈ caller, material.OfCaller handed) :
    accord.Asks (Action.callMacro callable args caller span) := by
  refine uniform.unlessTooDeep span ?_
  refine (uniform.bindAfter _ span [] args fun param member expr isDefault =>
    uniform.default (isMacro.definition.params param member expr isDefault)).bind fun frame => ?_
  refine Alike.bind ?_ fun text => .pure _
  refine .inSetting (uniform.setting rfl ⟨isCaller, isMacro.home⟩) ?_
  exact .inSetting (uniform.frame frame) (uniform.textOf isMacro.definition.body)

theorem callCaller (uniform : accord.Uniform material) {caller : Caller} (args : Arguments)
    (span : Span) (isCaller : material.OfCaller caller) :
    accord.Asks (Action.callCaller caller args span) := by
  cases caller with
  | rendered text => exact .pure _
  | deferred params body =>
      refine uniform.unlessTooDeep span ?_
      refine (uniform.bindAfter _ span [] args fun param member expr isDefault =>
        uniform.default (isCaller.1 param member expr isDefault)).bind fun frame => ?_
      refine Alike.bind ?_ fun text => .pure _
      refine .inSetting (uniform.setting rfl trivial) ?_
      exact .inSetting (uniform.frame frame) (uniform.textOf isCaller.2)

theorem bind_findMacro? (uniform : accord.Uniform material) {name : String}
    (isCalled : material.called name) {rest : Option Macro → Action α} (alikeNone : accord.Asks (rest none))
    (alike : ∀ callable, material.OfMacro callable → accord.Asks (rest (some callable))) :
    accord.Asks (Action.findMacro? name >>= rest) := by
  refine uniform.bind_view (fun view => _ >>= rest) fun view holds => ?_
  cases isSister : view.place.homes.head?.bind fun home =>
      (home.lookup? name).map fun definition => Macro.mk definition home with
  | some callable =>
      simp only [bind, Action.andThen, isSister]
      obtain ⟨home, isHome, isDefined⟩ := Option.bind_eq_some_iff.mp isSister
      obtain ⟨definition, isDefinition, rfl⟩ := Option.map_eq_some_iff.mp isDefined
      have isCallable := holds.homes home (List.mem_of_head? isHome)
      exact alike _ ⟨isCallable _ (Table.mem_of_lookup? isDefinition) isCalled, isCallable⟩
  | none =>
      simp only [bind, Action.andThen, isSister]
      show accord.Asks (rest (view.macros.lookup? name))
      cases isFound : view.macros.lookup? name with
      | none => exact alikeNone
      | some callable => exact alike _ (holds.macros _ (Table.mem_of_lookup? isFound) isCalled)

/-! ### Blocks -/

theorem renderLevel (uniform : accord.Uniform material) {name : String}
    (isBlock : material.block name) (level : Nat) : accord.Asks (Action.renderLevel name level) := by
  refine uniform.bind_view _ fun view holds => ?_
  split
  · exact .pure _
  · rename_i definition isLevel
    obtain ⟨chain, isChain, isDefinition⟩ := Option.bind_eq_some_iff.mp isLevel
    have isBody := holds.overrides _ (Table.mem_of_lookup? isChain) isBlock definition
      (List.mem_of_getElem? isDefinition)
    refine Alike.bind ?_ fun text => .pure _
    exact .inSetting (uniform.setting rfl trivial) (uniform.textOf isBody)

theorem renderBlock (uniform : accord.Uniform material) {name : String} {body : List Node}
    (isBlock : material.block name) (isBody : material.Body body) :
    accord.Asks (Action.renderBlock name body) := by
  refine (uniform.renderLevel isBlock 0).bind fun text => ?_
  cases text with
  | some text => exact .pure _
  | none => exact uniform.textOf isBody

theorem callSuper (uniform : accord.Uniform material) (isCalled : material.called "super")
    (span : Span) : accord.Asks (Action.callSuper span) := by
  refine uniform.bind_view _ fun view _ => ?_
  split
  · refine (uniform.renderLevel (uniform.closed.super isCalled _) _).bind fun text => ?_
    cases text with
    | some text => exact .pure _
    | none => exact (uniform.problem span rfl).bind fun _ => .pure _
  · exact (uniform.problem span rfl).bind fun _ => .pure _

/-! ### Calls -/

theorem bind_callerFor? (uniform : accord.Uniform material) {name : String}
    (isCalled : material.called name) {rest : Option Caller → Action α} (alikeNone : accord.Asks (rest none))
    (alike : ∀ caller, material.OfCaller caller → accord.Asks (rest (some caller))) :
    accord.Asks (Action.callerFor? name >>= rest) := by
  unfold Action.callerFor?
  split
  · rename_i isCaller
    refine uniform.bind_view (fun view => _ >>= rest) fun view holds => ?_
    cases areCallers : view.place.callers with
    | nil => simpa only [bind, pure, Action.andThen, areCallers] using alikeNone
    | cons caller? outer =>
        cases caller? with
        | none => simpa only [bind, pure, Action.andThen, areCallers] using alikeNone
        | some caller =>
            simpa only [bind, pure, Action.andThen, areCallers] using
              alike caller (holds.callers (isCaller ▸ isCalled) caller
                (areCallers ▸ List.mem_cons_self))
  · exact alikeNone

theorem callName (uniform : accord.Uniform material) {name : String} {args : List Expr}
    {caller : Option Caller} (span : Span) (allowed : accord.names name)
    (isCalled : material.called name) (areArgs : ∀ arg ∈ args, accord.expr arg) (isCaller : ∀ handed ∈ caller, material.OfCaller handed) :
    accord.Asks (Action.callName name args caller span) := by
  refine uniform.bind_callerFor? isCalled ?_ fun handed isHanded => ?_
  · dsimp only
    split
    · rename_i isSuper
      exact uniform.callSuper (isSuper ▸ isCalled) span
    · refine uniform.bind_findMacro? isCalled ?_ fun callable isMacro => ?_
      · exact (uniform.argumentsOf areArgs).bind fun args => uniform.callFunction args span allowed
      · exact (uniform.argumentsOf areArgs).bind fun args =>
          uniform.callMacro args span isMacro isCaller
  · exact (uniform.argumentsOf areArgs).bind fun args => uniform.callCaller args span isHanded

theorem bind_namespaceOf? (uniform : accord.Uniform material) {base : Expr}
    (allowed : accord.expr base) {rest : Option (String × Table MacroDefinition) → Action α} (alikeNone : accord.Asks (rest none))
    (alike : ∀ name macros, material.Sisters macros → accord.Asks (rest (some (name, macros)))) :
    accord.Asks (Action.namespaceOf? base >>= rest) := by
  unfold Action.namespaceOf?
  split
  · rename_i name span
    refine Alike.bind_view fun views isShown => ?_
    obtain ⟨value, sameValue⟩ := uniform.variable_ isShown (uniform.name allowed)
    obtain ⟨view, sameView, holds⟩ := uniform.same isShown
    have sameTable : ∀ i, (views i).namespaces = view.namespaces := fun i => by rw [sameView i]
    show accord.Alike fun i => Action.andThen (if (views i).scopes.has name then pure none
      else pure (((views i).namespaces.lookup? name).map fun macros => (name, macros))) rest
    simp only [Scopes.has, sameValue, sameTable]
    split
    · exact alikeNone
    · cases isFound : view.namespaces.lookup? name with
      | none => exact alikeNone
      | some macros => exact alike name macros (holds.namespaces _ (Table.mem_of_lookup? isFound))
  · exact alikeNone

theorem callExpr (uniform : accord.Uniform material) {callee : Expr} {args : List Expr}
    {caller : Option Caller} (span : Span) (isCallee : accord.expr callee)
    (called : ∀ name ∈ callee.calledName?, material.called name)
    (areArgs : ∀ arg ∈ args, accord.expr arg)
    (isCaller : ∀ handed ∈ caller, material.OfCaller handed) :
    accord.Asks (Action.callExpr callee args caller span) := by
  unfold Action.callExpr
  split
  · exact uniform.callName span (uniform.name isCallee) (called _ rfl) areArgs isCaller
  · rename_i base attr attrSpan
    have isBase := uniform.child isCallee (List.mem_singleton.mpr rfl)
    refine uniform.bind_namespaceOf? isBase ?_ fun name macros isHome => ?_
    · exact (Alike.valueOf isBase).bind fun object => (uniform.argumentsOf areArgs).bind fun args =>
        uniform.callMethod object attr args span
    · dsimp only
      split
      · rename_i definition isDefinition
        have isCallable := isHome _ (Table.mem_of_lookup? isDefinition) (called _ rfl)
        exact (uniform.argumentsOf areArgs).bind fun args =>
          uniform.callMacro args span ⟨isCallable, isHome⟩ isCaller
      · exact (uniform.problem attrSpan rfl).bind fun _ => .pure _
  · exact (Alike.valueOf isCallee).bind fun value =>
      (uniform.problem span rfl).bind fun _ => .pure _

/-- What the value of an expression asks for are the values of the expressions inside it, those of
the defaults of parameters, and the texts of bodies. -/
theorem evaluate (uniform : accord.Uniform material) {expr : Expr}
    (allowed : ∀ part ∈ expr.children, accord.expr part)
    (named : ∀ name span, expr = .name name span → accord.names name)
    (called : ∀ callee args span, expr = .call callee args span →
      ∀ name ∈ callee.calledName?, material.called name) :
    accord.Asks (Action.evaluate expr) := by
  refine uniform.toPlain.evaluate allowed named ?_
  rintro callee args span rfl
  exact uniform.callExpr span (allowed callee List.mem_cons_self) (called callee args span rfl)
    (fun arg member => allowed arg (List.mem_cons_of_mem _ member)) nofun

theorem evaluate_of_expr (uniform : accord.Uniform material) {expr : Expr}
    (allowed : accord.expr expr) : accord.Asks (Action.evaluate expr) := by
  refine uniform.evaluate (fun part member => uniform.child allowed member) ?_ ?_
  · rintro name span rfl
    exact uniform.name allowed
  · rintro callee args span rfl
    exact uniform.called allowed

/-! ### Templates by name -/

theorem templateName? (uniform : accord.Uniform material) {expr : Expr}
    (allowed : accord.expr expr) : accord.Asks (Action.templateName? expr) := by
  refine (Alike.valueOf allowed).bind fun value => ?_
  split
  · exact .pure _
  · exact (uniform.problem _ rfl).bind fun _ => .pure _

theorem bind_fetch (uniform : accord.Uniform material) (isLinked : material.templates)
    (name : String) (rest : Except Host.LoadFault Loaded → Action α)
    (alikeError : ∀ fault, accord.Asks (rest (.error fault)))
    (alike : ∀ loaded, material.Body loaded.template.body → accord.Asks (rest (.ok loaded))) :
    accord.Asks (Action.fetch name >>= rest) := by
  refine Alike.load (uniform.loads isLinked) fun answer isLoaded => ?_
  cases answer with
  | error fault => exact alikeError fault
  | ok loaded => exact alike loaded (uniform.loaded (isLoaded loaded rfl))

theorem bind_loadOrReport (uniform : accord.Uniform material) (isLinked : material.templates)
    (name : String) (span : Span) {rest : Option Loaded → Action α} (alikeNone : accord.Asks (rest none))
    (alike : ∀ loaded, material.Body loaded.template.body → accord.Asks (rest (some loaded))) :
    accord.Asks (Action.loadOrReport name span >>= rest) :=
  uniform.bind_fetch isLinked name (fun _ => Action.andThen _ rest)
    (fun _ => Alike.report (uniform.told span rfl) alikeNone) alike

theorem reportCycle (uniform : accord.Uniform material) (name : String) (span : Span) :
    accord.Asks (Action.reportCycle name span) :=
  uniform.bind_view _ fun _ _ => uniform.problem span rfl

theorem defineAll (uniform : accord.Uniform material) {home macros : Table MacroDefinition}
    (isHome : material.Sisters home) (areMacros : material.Home macros) :
    accord.Asks (Action.defineAll home macros) := by
  induction macros with
  | nil => exact .pure _
  | cons entry rest inductionHypothesis =>
      rw [Material.Home, List.forall_mem_cons] at areMacros
      exact .define (uniform.callable ⟨areMacros.1, isHome⟩) (inductionHypothesis areMacros.2)

theorem defineMissing (uniform : accord.Uniform material) {home macros : Table MacroDefinition}
    (isHome : material.Sisters home) (areMacros : material.Home macros) :
    accord.Asks (Action.defineMissing home macros) := by
  induction macros with
  | nil => exact .pure _
  | cons entry rest inductionHypothesis =>
      rw [Material.Home, List.forall_mem_cons] at areMacros
      refine uniform.bind_view _ fun view _ => ?_
      dsimp only
      split
      · exact .define (uniform.callable ⟨areMacros.1, isHome⟩) (inductionHypothesis areMacros.2)
      · exact inductionHypothesis areMacros.2

theorem prepare (uniform : accord.Uniform material) {nodes : List Node}
    (areNodes : material.Body nodes) : accord.Asks (Action.prepare nodes) := by
  induction nodes with
  | nil => exact .pure _
  | cons node rest inductionHypothesis =>
      rw [Material.Body, List.forall_mem_cons] at areNodes
      unfold Action.prepare
      dsimp only
      split
      · refine (uniform.textOf ?_).bind fun _ => inductionHypothesis areNodes.2
        exact fun other member => List.mem_singleton.mp member ▸ areNodes.1
      · exact inductionHypothesis areNodes.2

/-! ### Imports -/

theorem importAs (uniform : accord.Uniform material) (isLinked : material.templates)
    {template : Expr} (name : String) (allowed : accord.expr template) : accord.Asks (Action.importAs template name) := by
  refine (uniform.templateName? allowed).bind fun source => ?_
  cases source with
  | none => exact .pure _
  | some source =>
      refine uniform.bind_loadOrReport isLinked source _ (.pure _) fun loaded isBody => ?_
      exact .mount (uniform.mounted (material.home_macroTable uniform.closed isBody)) (.done ())

theorem importEach (uniform : accord.Uniform material) {loaded : Loaded}
    (isBody : material.Body loaded.template.body) (names : List ImportName) :
    accord.Asks (Action.importEach loaded names) := by
  have isHome := material.home_macroTable uniform.closed isBody
  induction names with
  | nil => exact .pure _
  | cons wanted rest inductionHypothesis =>
      unfold Action.importEach
      split
      · rename_i definition isDefinition
        have isCallable := isHome _ (Table.mem_of_lookup? isDefinition)
        exact .define (uniform.callable ⟨isCallable, isHome.sisters⟩) inductionHypothesis
      · exact (uniform.problem _ rfl).bind fun _ => inductionHypothesis

theorem importNames (uniform : accord.Uniform material) (isLinked : material.templates)
    {template : Expr} (names : List ImportName) (allowed : accord.expr template) : accord.Asks (Action.importNames template names) := by
  refine (uniform.templateName? allowed).bind fun source => ?_
  cases source with
  | none => exact .pure _
  | some source =>
      exact uniform.bind_loadOrReport isLinked source _ (.pure _) fun loaded isBody =>
        uniform.importEach isBody names

/-! ### Statements -/

theorem callWithBody (uniform : accord.Uniform material) {call : Expr} {params : List Param}
    {body : List Node} (allowed : accord.expr call) (areParams : material.Params params)
    (isBody : material.Body body) : accord.Asks (Action.callWithBody call params body) := by
  unfold Action.callWithBody
  split
  · rename_i callee args span
    have isCallee := uniform.child allowed List.mem_cons_self
    have called := uniform.called allowed
    have areArgs : ∀ arg ∈ args, accord.expr arg := fun arg member =>
      uniform.child allowed (List.mem_cons_of_mem _ member)
    split
    · refine (uniform.textOf isBody).bind fun text => ?_
      refine uniform.callExpr span isCallee called areArgs fun handed isHanded => ?_
      cases isHanded
      trivial
    · refine uniform.callExpr span isCallee called areArgs fun handed isHanded => ?_
      cases isHanded
      exact ⟨areParams, isBody⟩
  · exact .valueOf allowed

theorem textOfBody (uniform : accord.Uniform material) {body : Option (List Node)}
    (isBody : ∀ nodes ∈ body, material.Body nodes) : accord.Asks (Action.textOfBody body) := by
  cases body with
  | none => exact .pure _
  | some nodes => exact uniform.textOf (isBody nodes rfl)

/-- Whether the script of a tag asks for nothing but what the renders may be asked, and the same of
all of them. -/
inductive Permits (accord : Accord ι) (material : Material) : Host.TagScript → Prop where
  | done (text : String) : Permits accord material (.done text)
  | evaluate {expr : Expr} {next : Value → Host.TagScript} (allowed : accord.expr expr)
      (rest : ∀ value, Permits accord material (next value)) :
      Permits accord material (.evaluate expr next)
  | render {body : List Node} {next : String → Host.TagScript} (isBody : material.Body body)
      (rest : ∀ text, Permits accord material (next text)) :
      Permits accord material (.render body next)
  | renderWith {bindings : Table Value} {body : List Node} {next : String → Host.TagScript}
      (isBody : material.Body body) (rest : ∀ text, Permits accord material (next text)) :
      Permits accord material (.renderWith bindings body next)
  | lookup {name : String} {next : Option Value → Host.TagScript} (allowed : accord.names name)
      (rest : ∀ value, Permits accord material (next value)) :
      Permits accord material (.lookup name next)
  | report {diagnostic : Diagnostic} {next : Host.TagScript}
      (allowed : accord.told diagnostic) (rest : Permits accord material next) :
      Permits accord material (.report diagnostic next)
  | depth {next : Nat → Host.TagScript}
      (same : ∀ {views}, accord.views views → ∃ depth, ∀ i, (views i).scopes.depth = depth)
      (rest : ∀ depth, Permits accord material (next depth)) :
      Permits accord material (.depth next)
  | survey {next : Host.Facade → Host.TagScript} (script : Host.TagScript)
      (same : ∀ i, next (accord.hosts i).facade = script) (rest : Permits accord material script) :
      Permits accord material (.survey next)

/-- Renders that look the same to scripts and may be asked and told anything permit all scripts. -/
theorem Permits.any (allowed : ∀ expr, accord.expr expr) (told : ∀ diagnostic, accord.told diagnostic)
    {facade : Host.Facade} (same : ∀ i, (accord.hosts i).facade = facade)
    (bodies : ∀ body, material.Body body) (named : ∀ name, accord.names name)
    (deep : ∀ {views}, accord.views views → ∃ depth, ∀ i, (views i).scopes.depth = depth)
    (script : Host.TagScript) :
    Permits accord material script := by
  induction script with
  | done text => exact .done text
  | evaluate expr next inductionHypothesis => exact .evaluate (allowed expr) inductionHypothesis
  | render body next inductionHypothesis => exact .render (bodies body) inductionHypothesis
  | renderWith bindings body next inductionHypothesis =>
      exact .renderWith (bodies body) inductionHypothesis
  | lookup name next inductionHypothesis => exact .lookup (named name) inductionHypothesis
  | report diagnostic next inductionHypothesis =>
      exact .report (told diagnostic) inductionHypothesis
  | depth next inductionHypothesis => exact .depth deep inductionHypothesis
  | survey next inductionHypothesis =>
      exact .survey (next facade) (fun i => congrArg next (same i)) (inductionHypothesis facade)

theorem ofScript (uniform : accord.Uniform material) {script : Host.TagScript}
    (permits : Permits accord material script) : accord.Asks (Action.ofScript script) := by
  induction permits with
  | done text => exact .pure _
  | evaluate allowed _ inductionHypothesis => exact .eval allowed inductionHypothesis
  | render isBody _ inductionHypothesis => exact .render (uniform.body isBody) inductionHypothesis
  | renderWith isBody _ inductionHypothesis =>
      exact .within (uniform.frame _) (uniform.textOf isBody) inductionHypothesis
  | lookup allowed _ inductionHypothesis =>
      exact (uniform.resolve allowed).bind inductionHypothesis
  | report allowed _ inductionHypothesis => exact .report allowed inductionHypothesis
  | depth same _ inductionHypothesis =>
      refine Alike.bind_view fun views isShown => ?_
      obtain ⟨depth, sameDepth⟩ := same isShown
      simp only [sameDepth]
      exact inductionHypothesis depth
  | @survey next script same _ inductionHypothesis =>
      refine Alike.survey ?_
      simp only [same]
      exact inductionHypothesis

theorem renderCustom (uniform : accord.Uniform material) {tag : Host.Tag}
    (permits : ∀ {lookups : Host.Lookups}, (∀ i, (accord.hosts i).lookups = lookups) →
      ∀ renderer ∈ lookups.renderer? tag.name, Permits accord material (renderer tag))
    (isBody : ∀ body ∈ tag.body, material.Body body) : accord.Asks (Action.renderCustom tag) := by
  obtain ⟨lookups, same⟩ := uniform.lookups
  have found : ∀ i, (accord.hosts i).renderer? tag.name = lookups.renderer? tag.name := fun i =>
    congrArg (·.renderer? tag.name) (same i)
  refine Alike.consult ?_
  simp only [found, Action.andThen]
  cases isRenderer : lookups.renderer? tag.name with
  | some renderer => exact uniform.ofScript (permits same renderer isRenderer)
  | none => exact (uniform.problem tag.span rfl).bind fun _ => uniform.textOfBody isBody

/-- What a statement asks for are the values of its expressions, the texts of its bodies, and what
calls and other templates ask for. Templates in place of tags and the scripts of tags have to ask the
same of all renders. -/
theorem carryOut (uniform : accord.Uniform material)
    {node : Node} (embed : ∀ {template : Expr} {withContext ignoreMissing : Bool} {span : Span},
      node = .embed template withContext ignoreMissing span → accord.expr template →
        accord.Asks (Action.embed template withContext ignoreMissing))
    (script : ∀ {tag : Host.Tag}, material.node tag.node → (∀ body ∈ tag.body, material.Body body) →
      (∀ arg ∈ tag.args, accord.expr arg) → accord.Asks (Action.renderCustom tag))
    (allowed : ∀ expr ∈ node.exprs, accord.expr expr) (isNode : material.node node) :
    accord.Asks (Action.carryOut node) := by
  have body := uniform.closed.body isNode
  have params := uniform.closed.params isNode
  by_cases isOrdinary : node.isOrdinary = true
  · have alike := uniform.toPlain.carryOut isOrdinary (fun _ => id) allowed fun inner member =>
      uniform.body (body inner member)
    simpa only [Node.mapBodies_id] using alike
  · cases node with
    | inherit | define => exact .pure _
    | block name inner span =>
        exact uniform.renderBlock (uniform.closed.block isNode) (body inner List.mem_cons_self)
    | embed template withContext ignoreMissing span =>
        exact embed rfl (allowed template List.mem_cons_self)
    | importAs template boundAs withContext span =>
        exact (uniform.importAs (uniform.closed.templates isNode rfl) boundAs
          (allowed template List.mem_cons_self)).bind fun _ => .pure _
    | importNames template names withContext span =>
        exact (uniform.importNames (uniform.closed.templates isNode rfl) names
          (allowed template List.mem_cons_self)).bind fun _ => .pure _
    | callBlock call given inner span =>
        exact (uniform.callWithBody (allowed call List.mem_cons_self) params
          (body inner List.mem_cons_self)).bind fun _ => .pure _
    | custom name args inner span =>
        exact script isNode (fun nodes isInner => body _ (Option.mem_toList.mpr isInner)) allowed
    | _ => exact absurd rfl isOrdinary

end Uniform

namespace Whole

/-! ### Templates built on one another -/

/-- Templates are built on others only where others may be loaded. -/
theorem linked (whole : accord.Whole material) {template : Template} {parent : Expr} {span : Span}
    (isBody : material.Body template.body) (isParent : template.parent? = some (parent, span)) :
    material.templates := by
  obtain ⟨node, member, isInherit⟩ := List.exists_of_findSome?_eq_some isParent
  apply whole.closed.templates (isBody node member)
  cases node with
  | inherit => rfl
  | _ => cases isInherit

theorem onto (whole : accord.Whole material) {overrides : Overrides} {loaded : Loaded}
    (areLayers : material.Layers overrides) (isBody : material.Body loaded.template.body) :
    accord.Asks (Action.onto overrides loaded) := by
  have isHome : material.Home loaded.macros := material.home_macroTable whole.closed isBody
  refine (whole.defineMissing isHome.sisters isHome).bind fun _ => ?_
  have added := Material.layers_add areLayers loaded.name
    (Material.body_blockTable whole.closed isBody)
  split
  · exact .inSetting (whole.anySetting added) <|
      .inSetting (whole.anySetting trivial) (whole.textOf isBody)
  · rename_i next span isParent
    refine .inSetting (whole.anySetting trivial) ?_
    exact (whole.prepare isBody).bind fun _ =>
      .ascend (whole.ascent (whole.linked isBody isParent) added (whole.parent isBody isParent))
        .done

theorem ascendTo (whole : accord.Whole material) (isLinked : material.templates)
    {overrides : Overrides} {parent : Expr} (areLayers : material.Layers overrides) (allowed : accord.expr parent) :
    accord.Asks (Action.ascendTo overrides parent) := by
  refine (whole.templateName? allowed).bind fun name => ?_
  cases name with
  | none => exact .pure _
  | some name =>
      refine whole.bind_view _ fun view _ => ?_
      split
      · exact (whole.reportCycle name _).bind fun _ => .pure _
      · exact whole.bind_loadOrReport isLinked name _ (.pure _) fun loaded isBody =>
          whole.onto areLayers isBody

theorem renderTemplate (whole : accord.Whole material) (name : String) {template : Template}
    (isBody : material.Body template.body) : accord.Asks (Action.renderTemplate name template) := by
  refine .inSetting (whole.anySetting trivial) ?_
  have isHome := Material.home_macroTable whole.closed isBody
  refine (whole.defineAll isHome.sisters isHome).bind fun _ => ?_
  split
  · exact whole.textOf isBody
  · rename_i next span isParent
    have added := Material.layers_add (material.layers_nil) name
      (Material.body_blockTable whole.closed isBody)
    exact (whole.prepare isBody).bind fun _ =>
      .ascend (whole.ascent (whole.linked isBody isParent) added (whole.parent isBody isParent))
        .done

theorem renderNamed (whole : accord.Whole material) (isLinked : material.templates)
    (name : String) : accord.Asks (Action.renderNamed name) := by
  refine whole.bind_loadOrReport isLinked name Inhabited.default (.pure _) fun loaded isBody => ?_
  exact whole.renderTemplate loaded.name isBody

/-! ### Templates in place of tags, and all statements -/

theorem embedFirst? (whole : accord.Whole material) (isLinked : material.templates)
    (withContext : Bool) (span : Span) (names : List String) : accord.Asks (Action.embedFirst? withContext span names) := by
  induction names with
  | nil => exact .pure _
  | cons name rest inductionHypothesis =>
      refine whole.bind_view _ fun view _ => ?_
      split
      · exact (whole.reportCycle name span).bind fun _ => .pure _
      · refine whole.bind_fetch isLinked name _ (fun fault => ?_) fun loaded isBody => ?_
        · dsimp only
          split
          · exact inductionHypothesis
          · exact (whole.problem span rfl).bind fun _ => .pure _
        · refine Alike.bind ?_ fun text => .pure _
          exact .inSetting (whole.anySetting trivial) (whole.renderTemplate loaded.name isBody)

theorem embed (whole : accord.Whole material) (isLinked : material.templates) {template : Expr}
    (withContext ignoreMissing : Bool) (allowed : accord.expr template) :
    accord.Asks (Action.embed template withContext ignoreMissing) := by
  refine (Alike.valueOf allowed).bind fun value => ?_
  split
  · exact (whole.problem _ rfl).bind fun _ => .pure _
  · refine (whole.embedFirst? isLinked withContext _ _).bind fun text => ?_
    cases text with
    | some text => exact .pure _
    | none =>
        dsimp only
        split
        · exact (whole.problem _ rfl).bind fun _ => .pure _
        · exact .pure _

/-- A statement asks for nothing else than what it asks for by itself and what templates in place of
tags ask for. -/
theorem carryOut (whole : accord.Whole material)
    (script : ∀ {tag : Host.Tag}, material.node tag.node → (∀ body ∈ tag.body, material.Body body) →
      (∀ arg ∈ tag.args, accord.expr arg) → accord.Asks (Action.renderCustom tag))
    {node : Node} (allowed : ∀ expr ∈ node.exprs, accord.expr expr)
    (isNode : material.node node) : accord.Asks (Action.carryOut node) := by
  refine whole.toUniform.carryOut (fun isEmbed isTemplate => ?_) script allowed isNode
  exact whole.embed (whole.closed.templates isNode (isEmbed ▸ rfl)) _ _ isTemplate

end Whole

end Accord

/-! ### Renders that may be asked anything -/

/-- Templates of any statements and any defaults of parameters. -/
def Material.any : Material where
  node _ := True
  default _ := True

theorem Material.any_closed : Material.any.Closed where
  body _ _ _ _ _ := trivial
  params _ _ _ _ _ := trivial
  block _ := trivial
  super _ _ := trivial
  templates _ _ := trivial

theorem Material.any_callable (definition : MacroDefinition) : Material.any.Callable definition :=
  ⟨fun _ _ _ _ => trivial, fun _ _ => trivial⟩

theorem Material.any_holds (view : View) : Material.any.Holds view where
  macros _ _ _ := ⟨any_callable _, fun _ _ _ => any_callable _⟩
  namespaces _ _ _ _ _ := any_callable _
  homes _ _ _ _ _ := any_callable _
  callers _ caller _ := by
    cases caller with
    | rendered text => trivial
    | deferred params body => exact ⟨fun _ _ _ _ => trivial, fun _ _ => trivial⟩
  overrides _ _ _ _ _ _ _ := trivial

namespace Accord

variable {hosts : ι → Environment} {told : Diagnostic → Prop}
  {complaint : Lookup → Diagnostic → Prop}

/-- Renders of any templates that see the same. -/
def permissive (hosts : ι → Environment) (told : Diagnostic → Prop)
    (complaint : Lookup → Diagnostic → Prop) : Accord ι where
  hosts := hosts
  views views := ∃ view, ∀ i, views i = view
  expr _ := True
  bodies bodies := ∃ nodes, ∀ i, bodies i = nodes
  ascent _ _ := True
  told := told
  complaint := complaint
  callable _ := True
  mounted _ := True
  loads := True
  loaded _ := True
  setting _ := True

theorem depth_of_permissive {views : ι → View}
    (isShown : (permissive hosts told complaint).views views) :
    ∃ depth, ∀ i, (views i).scopes.depth = depth := by
  obtain ⟨view, same⟩ := isShown
  exact ⟨view.scopes.depth, fun i => congrArg (·.scopes.depth) (same i)⟩

theorem whole_permissive {lookups : Host.Lookups} (same : ∀ i, (hosts i).lookups = lookups)
    (isTold : ∀ {problem : Problem} (span : Span), problem.isOutright = true →
      told (problem.at_ span))
    (isComplaint : ∀ {lookup : Lookup} {problem : Problem} (span : Span),
      problem.lookup? = some lookup → complaint lookup (problem.at_ span)) :
    (permissive hosts told complaint).Whole .any where
  outlook := by
    rintro views ⟨view, same⟩
    exact ⟨view.outlook, fun i => congrArg View.outlook (same i)⟩
  variable_ := by
    rintro views name ⟨view, same⟩ _
    exact ⟨view.scopes.lookup? name, fun i => congrArg (·.scopes.lookup? name) (same i)⟩
  name _ := trivial
  lookups := ⟨lookups, same⟩
  child _ _ := trivial
  told := isTold
  complaint := isComplaint
  frame _ := trivial
  loop := trivial
  closed := Material.any_closed
  same := by
    rintro views ⟨view, same⟩
    exact ⟨view, fun i => by rw [same i], Material.any_holds view⟩
  default _ := trivial
  called _ _ _ := trivial
  body {nodes} _ := ⟨nodes, fun _ => rfl⟩
  ascent _ _ _ := trivial
  parent _ _ := trivial
  callable _ := trivial
  mounted _ := trivial
  loads _ := trivial
  loaded _ _ _ := trivial
  setting _ _ := trivial
  anySetting _ := trivial

/-- A script that overlooks what the environments differ in asks the same of such renders. -/
theorem permits_of_overlooks {alike : Host.Facade → Host.Facade → Prop}
    {script : Host.TagScript} {heard : Diagnostic → Prop} (overlooks : script.Overlooks alike heard)
    (isTold : ∀ diagnostic, heard diagnostic → told diagnostic) (facade : Host.Facade)
    (areAlike : ∀ i, alike facade (hosts i).facade) :
    Uniform.Permits (permissive hosts told complaint) .any script := by
  induction overlooks with
  | done text => exact .done text
  | evaluate _ inductionHypothesis => exact .evaluate trivial inductionHypothesis
  | render _ inductionHypothesis => exact .render (fun _ _ => trivial) inductionHypothesis
  | renderWith _ inductionHypothesis => exact .renderWith (fun _ _ => trivial) inductionHypothesis
  | lookup _ inductionHypothesis => exact .lookup trivial inductionHypothesis
  | report isHeard _ inductionHypothesis => exact .report (isTold _ isHeard) inductionHypothesis
  | depth _ inductionHypothesis => exact .depth depth_of_permissive inductionHypothesis
  | survey same _ inductionHypothesis =>
      exact .survey _ (fun i => same facade (hosts i).facade (areAlike i))
        (inductionHypothesis facade)

/-- All statements ask the same of such renders if the scripts of tags do. -/
theorem asks_carryOut (whole : (permissive hosts told complaint).Whole .any)
    (permits : ∀ {lookups : Host.Lookups}, (∀ i, (hosts i).lookups = lookups) →
      ∀ {name : String} {renderer : Host.TagRenderer}, lookups.renderer? name = some renderer →
        ∀ tag, Uniform.Permits (permissive hosts told complaint) .any (renderer tag))
    (node : Node) : (permissive hosts told complaint).Asks (Action.carryOut node) :=
  whole.carryOut
    (fun {tag} _ _ _ => whole.renderCustom
      (fun same _ isRenderer => permits same isRenderer tag) fun _ _ _ _ => trivial)
    (fun _ _ => trivial) trivial

/-- Such renders go abreast at any depth if the scripts of tags ask the same of them. -/
theorem carries_permissive {rel : (ι → State) → Prop}
    (whole : (permissive hosts told complaint).Whole .any)
    (keeps : (permissive hosts told complaint).Keeps rel)
    (ticks : (permissive hosts told complaint).Ticks rel rel) (leader : ι)
    (permits : ∀ {name : String} {renderer : Host.TagRenderer},
      (hosts leader).renderer? name = some renderer →
        ∀ tag, Uniform.Permits (permissive hosts told complaint) .any (renderer tag)) (depth : Nat) :
    (permissive hosts told complaint).Carries (some leader) rel fun i => belowDepth (hosts i) depth := by
  refine carries_belowDepth keeps ticks leader ?_ ?_ ?_ depth
  · exact fun allowed => whole.evaluate_of_expr allowed
  · rintro bodies ⟨nodes, areNodes⟩
    refine ⟨nodes, areNodes, fun node _ => asks_carryOut whole ?_ node⟩
    intro lookups same name renderer isRenderer tag
    exact permits (same leader ▸ isRenderer) tag
  · exact fun _ => whole.ascendTo trivial (fun _ _ _ _ _ _ _ => trivial) trivial

end Accord

end Stencil.Render
