import Stencil.Proofs.Render.AkinExpr

/-!
Contract: statements and templates that are akin ask the same of two renders.

Owns:
- assignments, loops, choices, and bodies with filters, assignments or a call of their own;
- the tags of a host;
- templates built on one another, rendered in place of a tag, and imported from.

Does not own: renders of any depth (`Stencil.Proofs.Render.Kindred`).
-/

set_option autoImplicit false

namespace Stencil.Render

open Stencil.Host (Loaded)
open Stencil.Syntax
open Stencil.Text (Span)

namespace Action

/-- What is done inside of a template that is rendered. -/
def renderOwn (name : String) (template : Template) : Action String := do
  defineAll (Host.macroTable template.body) (Host.macroTable template.body)
  match template.parent? with
  | none => textOf template.body
  | some (parent, _) =>
      prepare template.body
      .ascend (Overrides.add [] name (Host.blockTable template.body)) parent .done

theorem renderTemplate_eq (name : String) (template : Template) :
    renderTemplate name template = inSetting (.template name) (renderOwn name template) := rfl

end Action

namespace Kinship

variable {kin : Kinship} {place place' : Place} {span span' : Span}

/-! ### Assignments -/

/-- The variable and the path that an expression stands for do not depend on parentheses. -/
theorem pathOf? {expr expr' : Expr} (akin : expr.Akin (kin.places place.source) expr') :
    kin.Alike place place' Eq (Action.pathOf? expr) (Action.pathOf? expr') := by
  induction expr using Action.pathOf?.induct generalizing expr' with
  | case1 root span =>
      cases akin
      exact .same _
  | case2 inner span inductionHypothesis =>
      cases akin with
      | @group _ inner' _ span' akin at_ =>
          have looksThrough : Action.pathOf? (.group inner' span') = Action.pathOf? inner' := rfl
          rw [looksThrough]
          exact inductionHypothesis akin
      | bare akin at_ => exact inductionHypothesis akin
  | case3 value attr span inductionHypothesis =>
      cases akin with
      | «attribute» attr akin at_ =>
          refine (inductionHypothesis akin).next fun found => ?_
          cases found <;> exact .same _
  | case4 value index span inductionHypothesis =>
      cases akin with
      | item first second at_ =>
          refine (inductionHypothesis first).next fun found => ?_
          cases found with
          | none => exact .same _
          | some found => exact (Alike.valueOf second).next fun index => .same _
  | case5 other notName notGroup notAttribute notItem =>
      cases akin with
      | name | group | bare | «attribute» | item => simp at *
      | _ => exact .same none

namespace Here

theorem storeAt (here : kin.Here place place') {base base' : Expr}
    (akin : base.Akin (kin.places place.source) base') (key : Value.Key) (value : Value)
    (at_ : kin.places place.source span span') :
    kin.Alike place place' Eq (Action.storeAt base key value span)
      (Action.storeAt base' key value span') := by
  refine (pathOf? akin).next fun found => ?_
  cases found with
  | none => exact here.problem _ at_
  | some found =>
      refine .store fun refusal => ?_
      cases refusal with
      | none => exact .same _
      | some refused => exact here.problem _ at_

mutual

theorem assign (here : kin.Here place place') {target target' : Target}
    (akin : target.Akin (kin.places place.source) target') (value : Value) :
    kin.Alike place place' Eq (Action.assign target value) (Action.assign target' value) := by
  match target, akin with
  | _, .name bound => exact .bindTo bound value
  | .tuple [] _, .tuple .nil _ => exact .same _
  | .tuple (first :: rest) _, .tuple (.cons firstAkin others) at_ =>
      have each := List.Forall₂.cons firstAkin others
      unfold Action.assign
      cases value.iterate? with
      | none => exact (here.problem _ at_).next fun _ => here.assignAll each []
      | some values =>
          dsimp only
          rw [← each.length_eq]
          split
          · exact (here.problem _ at_).next fun _ => here.assignAll each values
          · exact here.assignAll each values
  | .attribute _ _ _, .attribute attr akin at_ => exact here.storeAt akin _ value at_
  | .item _ _ _, .item first second at_ =>
      exact (Alike.valueOf second).next fun index => here.storeAt first _ value at_

theorem assignAll (here : kin.Here place place') {targets targets' : List Target}
    (each : List.Forall₂ (Target.Akin (kin.places place.source)) targets targets')
    (values : List Value) :
    kin.Alike place place' Eq (Action.assignAll targets values)
      (Action.assignAll targets' values) := by
  match targets, each with
  | [], .nil => exact .same _
  | target :: rest, .cons akin others =>
      exact (here.assign akin _).next fun _ => here.assignAll others _

end

/-! ### Loops -/

theorem selectAfter (here : kin.Here place place') {target target' : Target}
    {condition condition' : Expr} (assigned : target.Akin (kin.places place.source) target')
    (restricted : condition.Akin (kin.places place.source) condition') (kept items : List Value) :
    kin.Alike place place' Eq (Action.selectAfter target condition kept items)
      (Action.selectAfter target' condition' kept items) := by
  induction items generalizing kept with
  | nil => exact .same _
  | cons item rest inductionHypothesis =>
      refine Alike.next ?_ fun keep => inductionHypothesis _
      refine .inSetting (.frame []) ?_
      exact ((here.enter (.frame [])).assign assigned item).next fun _ =>
        (Alike.valueOf restricted).next fun value => .same _

theorem select (here : kin.Here place place') {target target' : Target}
    {condition condition' : Option Expr} (assigned : target.Akin (kin.places place.source) target')
    (restricted : Option.Rel (Expr.Akin (kin.places place.source)) condition condition')
    (items : List Value) :
    kin.Alike place place' Eq (Action.select target condition items)
      (Action.select target' condition' items) := by
  cases restricted with
  | none => exact .same _
  | some akin => exact here.selectAfter assigned akin [] items

theorem visitAfter (here : kin.Here place place') {target target' : Target}
    {body body' : List Node} (assigned : target.Akin (kin.places place.source) target')
    (inner : Nodes.Akin kin.trees place.source body body') (length : Nat) (text : String)
    (previous : Option Value) (index : Nat) (items : List Value) :
    kin.Alike place place' Eq (Action.visitAfter target body length text previous index items)
      (Action.visitAfter target' body' length text previous index items) := by
  induction items generalizing text previous index with
  | nil => exact .same _
  | cons item rest inductionHypothesis =>
      refine .bind_view fun view view' isHere isThere _ => ?_
      rw [isHere, isThere, ← here.akin.loopDepth]
      refine Alike.next (.inSetting (.frame _) ?_) fun more => ?_
      · exact ((here.enter (.frame _)).assign assigned item).next fun _ => .textOf inner
      · refine .bind_view fun view view' _ _ sights => ?_
        rw [sights.halted]
        split
        · exact .same _
        · exact inductionHypothesis _ _ _

end Here

theorem textOfBody {body body' : Option (List Node)}
    (inner : Syntax.Otherwise.Akin kin.trees place.source body body') :
    kin.Alike place place' Eq (Action.textOfBody body) (Action.textOfBody body') := by
  cases inner with
  | none => exact .same _
  | some inner => exact .textOf inner

theorem chooseBody {branches branches' : List Branch} {otherwise otherwise' : Option (List Node)}
    (each : Branches.Akin kin.trees place.source branches branches')
    (other : Syntax.Otherwise.Akin kin.trees place.source otherwise otherwise') :
    kin.Alike place place' (Syntax.Otherwise.Akin kin.trees place.source)
      (Action.chooseBody otherwise branches) (Action.chooseBody otherwise' branches') := by
  induction branches generalizing branches' with
  | nil =>
      cases each
      exact .pure other
  | cons branch rest inductionHypothesis =>
      cases each with
      | cons tested inner others =>
          refine (Alike.valueOf tested).next fun value => ?_
          split
          · exact .pure (.some inner)
          · exact inductionHypothesis others

theorem ofScript {script script' : Host.TagScript}
    (akin : kin.ScriptAkin place.source script script') :
    kin.Alike place place' Eq (Action.ofScript script) (Action.ofScript script') := by
  induction akin with
  | done text => exact .same _
  | evaluate akin _ inductionHypothesis => exact .eval akin inductionHypothesis
  | render akin _ inductionHypothesis => exact .render akin inductionHypothesis
  | renderWith akin _ inductionHypothesis =>
      exact .within (.frame _) (.textOf akin) fun text _ same => same ▸ inductionHypothesis text
  | lookup _ inductionHypothesis => exact (resolve _).next inductionHypothesis
  | report told _ inductionHypothesis => exact .report told inductionHypothesis
  | depth _ inductionHypothesis =>
      refine .look fun view view' _ _ sights => ?_
      rw [sights.scopes]
      exact inductionHypothesis _
  | survey _ inductionHypothesis => exact .survey inductionHypothesis

namespace Here

theorem renderEach (here : kin.Here place place') {target target' : Target} {items items' : Expr}
    {condition condition' : Option Expr} {body body' : List Node}
    {otherwise otherwise' : Option (List Node)}
    (assigned : target.Akin (kin.places place.source) target')
    (visited : items.Akin (kin.places place.source) items')
    (restricted : Option.Rel (Expr.Akin (kin.places place.source)) condition condition')
    (inner : Nodes.Akin kin.trees place.source body body')
    (other : Syntax.Otherwise.Akin kin.trees place.source otherwise otherwise') :
    kin.Alike place place' Eq (Action.renderEach target items condition body otherwise)
      (Action.renderEach target' items' condition' body' otherwise') := by
  refine (Alike.valueOf visited).next fun value => ?_
  cases value.iterate? with
  | none => exact (here.problem _ visited.span).next fun _ => textOfBody other
  | some found =>
      refine (here.select assigned restricted found).next fun chosen => ?_
      split
      · exact textOfBody other
      · exact .inSetting .loop ((here.enter .loop).visitAfter assigned inner _ _ _ _ _)

/-! ### Bodies with more -/

theorem renderWith (here : kin.Here place place') {bindings bindings' : List Binding}
    {body body' : List Node}
    (each : List.Forall₂ (Binding.Akin (kin.places place.source)) bindings bindings')
    (inner : Nodes.Akin kin.trees place.source body body') :
    kin.Alike place place' Eq (Action.renderWith bindings body)
      (Action.renderWith bindings' body') := by
  have values := List.rel_map (fun _ _ akin => akin.value) each
  have targets := List.rel_map (fun _ _ akin => akin.target) each
  refine (valuesOf values).next fun values => .inSetting (.frame []) ?_
  exact ((here.enter (.frame [])).assignAll targets values).next fun _ => .textOf inner

theorem filterBody (here : kin.Here place place') {filters filters' : List FilterCall}
    {body body' : List Node}
    (calls : List.Forall₂ (FilterCall.Akin (kin.places place.source)) filters filters')
    (inner : Nodes.Akin kin.trees place.source body body') :
    kin.Alike place place' Eq (Action.filterBody filters body)
      (Action.filterBody filters' body') :=
  (Alike.textOf inner).next fun _ => here.applyFilters _ calls

/-- A call block whose call is none evaluates it. -/
theorem callWithBody_of_isCall {call : Expr} (isOther : call.isCall = false)
    (params : List Param) (body : List Node) :
    Action.callWithBody call params body = Action.valueOf call := by
  cases call <;> first | rfl | cases isOther

theorem callWithBody (here : kin.Here place place') {call call' : Expr}
    {params params' : List Param} {body body' : List Node}
    (akin : call.Akin (kin.places place.source) call') (form : call.isCall = call'.isCall)
    (given : ∀ source, List.Forall₂ (Param.Akin (kin.places source)) params params')
    (inner : Nodes.Akin kin.trees place.source body body')
    (lent : params ≠ [] → ∀ source, Nodes.Akin kin.trees source body body') :
    kin.Alike place place' Eq (Action.callWithBody call params body)
      (Action.callWithBody call' params' body') := by
  cases isCall : call.isCall with
  | false =>
      rw [callWithBody_of_isCall isCall, callWithBody_of_isCall (form.symm.trans isCall)]
      exact .valueOf akin
  | true =>
      cases akin with
      | call called calleeForm args keywords at_ =>
          have handing {caller caller' : Caller} (akin : caller.Akin kin.trees caller') :=
            here.callExpr called calleeForm ⟨args, keywords⟩ (.some akin) at_
          cases params with
          | nil =>
              cases given place.source
              exact (Alike.textOf inner).next fun text => handing (.rendered text)
          | cons param params =>
              have deferred := handing (.deferred given (lent (List.cons_ne_nil _ _)))
              cases given place.source
              exact deferred
      | _ => cases isCall

/-! ### Tags of a host -/

theorem renderCustom (here : kin.Here place place') {tag tag' : Host.Tag}
    (akin : kin.TagAkin place.source tag tag') :
    kin.Alike place place' Eq (Action.renderCustom tag) (Action.renderCustom tag') := by
  refine .bind_registry ?_
  rw [← akin.name]
  cases isRenderer : kin.environment.renderer? tag.name with
  | none => exact (here.problem _ akin.at_).next fun _ => textOfBody akin.body
  | some renderer => exact ofScript (here.sound.script isRenderer akin)

/-! ### Templates by name -/

theorem templateName? (here : kin.Here place place') {expr expr' : Expr}
    (akin : expr.Akin (kin.places place.source) expr') :
    kin.Alike place place' Eq (Action.templateName? expr) (Action.templateName? expr') := by
  refine (Alike.valueOf akin).next fun value => ?_
  split
  · exact .same _
  · exact (here.problem _ akin.span).next fun _ => .same _

theorem loadOrReport (here : kin.Here place place') (name : String)
    (at_ : kin.places place.source span span') :
    kin.Alike place place' (Option.Rel (Loaded.Akin kin.trees)) (Action.loadOrReport name span)
      (Action.loadOrReport name span') := by
  refine .bind_fetch name fun {answer answer'} akin => ?_
  cases akin with
  | error fault => exact (here.problem _ at_).next fun _ => .pure .none
  | ok akin => exact .pure (.some akin)

/-- What is done about a template that may be being rendered already. -/
theorem unlessLoading {α : Type} (here : kin.Here place place') (name : String)
    (at_ : kin.places place.source span span') (default : α) {body body' : Action α}
    (alike : kin.Alike place place' Eq body body') :
    kin.Alike place place' Eq
      (do
        if name ∈ (← Action.view).place.loads then
          Action.reportCycle name span
          return default
        else body)
      (do
        if name ∈ (← Action.view).place.loads then
          Action.reportCycle name span'
          return default
        else body') := by
  refine .bind_view fun view view' isHere isThere _ => ?_
  rw [isHere, isThere]
  by_cases isLoading : name ∈ place.loads
  · rw [if_pos isLoading]
    rcases here.akin.exact with isLenient | ⟨sameLoads, -⟩
    · exact .lost isLenient (.look fun _ => .report rfl)
    · rw [if_pos (sameLoads ▸ isLoading)]
      refine Alike.next ?_ fun _ => .same _
      refine .bind_view fun view view' isHere isThere _ => ?_
      rw [isHere, isThere, sameLoads]
      exact here.problem _ at_
  · rw [if_neg isLoading, if_neg fun isLoading' => isLoading (here.akin.loads name isLoading')]
    exact alike

/-! ### Macros -/

end Here

theorem defineAll {home home' macros macros' : Table MacroDefinition}
    (sisters : HomeAkin kin.trees home home') (akin : HomeAkin kin.trees macros macros') :
    kin.Alike place place' Eq (Action.defineAll home macros) (Action.defineAll home' macros') := by
  induction akin with
  | nil => exact .same _
  | @cons entry entry' _ _ akin _ inductionHypothesis =>
      obtain ⟨name, definition⟩ := entry
      obtain ⟨_, definition'⟩ := entry'
      obtain ⟨rfl, akin⟩ := akin
      exact .define ⟨akin, sisters⟩ inductionHypothesis

theorem defineMissing {home home' macros macros' : Table MacroDefinition}
    (sisters : HomeAkin kin.trees home home') (akin : HomeAkin kin.trees macros macros') :
    kin.Alike place place' Eq (Action.defineMissing home macros)
      (Action.defineMissing home' macros') := by
  induction akin with
  | nil => exact .same _
  | @cons entry entry' _ _ akin _ inductionHypothesis =>
      obtain ⟨name, definition⟩ := entry
      obtain ⟨_, definition'⟩ := entry'
      obtain ⟨rfl, akin⟩ := akin
      refine .bind_view fun view view' _ _ sights => ?_
      rw [sights.macros.has]
      split
      · exact .define ⟨akin, sisters⟩ inductionHypothesis
      · exact inductionHypothesis

namespace Here

theorem importAs (here : kin.Here place place') {template template' : Expr} (name : String)
    (akin : template.Akin (kin.places place.source) template') :
    kin.Alike place place' Eq (Action.importAs template name)
      (Action.importAs template' name) := by
  refine (here.templateName? akin).next fun found => ?_
  cases found with
  | none => exact .same _
  | some source =>
      refine (here.loadOrReport source akin.span).bind fun {loaded loaded'} akin => ?_
      cases akin with
      | none => exact .same _
      | some akin => exact .mount akin.body.macroTable (.same _)

theorem importEach (here : kin.Here place place') {loaded loaded' : Loaded}
    (akin : Loaded.Akin kin.trees loaded loaded') {names names' : List ImportName}
    (each : List.Forall₂ (ImportName.Akin (kin.places place.source)) names names') :
    kin.Alike place place' Eq (Action.importEach loaded names)
      (Action.importEach loaded' names') := by
  induction each with
  | nil => exact .same _
  | @cons wanted wanted' _ _ wantedAkin _ inductionHypothesis =>
      have definition := akin.body.macroTable.lookup? wanted.name
      unfold Action.importEach
      unfold Loaded.macros
      rw [← wantedAkin.name, ← wantedAkin.localName, ← akin.name]
      generalize (Host.macroTable loaded.template.body).lookup? wanted.name = found at definition ⊢
      generalize (Host.macroTable loaded'.template.body).lookup? wanted.name = found'
        at definition ⊢
      cases definition with
      | none => exact (here.problem _ wantedAkin.at_).next fun _ => inductionHypothesis
      | some definition => exact .define ⟨definition, akin.body.macroTable⟩ inductionHypothesis

theorem importNames (here : kin.Here place place') {template template' : Expr}
    {names names' : List ImportName} (akin : template.Akin (kin.places place.source) template')
    (each : List.Forall₂ (ImportName.Akin (kin.places place.source)) names names') :
    kin.Alike place place' Eq (Action.importNames template names)
      (Action.importNames template' names') := by
  refine (here.templateName? akin).next fun found => ?_
  cases found with
  | none => exact .same _
  | some source =>
      refine (here.loadOrReport source akin.span).bind fun {loaded loaded'} akin => ?_
      cases akin with
      | none => exact .same _
      | some akin => exact here.importEach akin each

end Here

/-! ### Templates built on one another -/

theorem isPreparation {source : String} {node node' : Node}
    (akin : node.Akin kin.trees source node') :
    Action.isPreparation node = Action.isPreparation node' := by
  cases akin <;> rfl

theorem prepare {nodes nodes' : List Node}
    (akin : Nodes.Akin kin.trees place.source nodes nodes') :
    kin.Alike place place' Eq (Action.prepare nodes) (Action.prepare nodes') := by
  induction nodes generalizing nodes' with
  | nil =>
      cases akin
      exact .same _
  | cons node rest inductionHypothesis =>
      cases akin with
      | cons first others =>
          unfold Action.prepare
          rw [← isPreparation first]
          split
          · exact (Alike.textOf (.cons first .nil)).next fun _ => inductionHypothesis others
          · exact inductionHypothesis others

/-- The blocks of templates that are akin are added behind others that are. -/
theorem layers_add {overrides overrides' : Overrides}
    (layers : overrides.Akin kin.trees overrides') (template : String)
    {blocks blocks' : Table BlockDefinition}
    (akin : Table.Akin (BlockDefinition.Akin kin.trees template) blocks blocks') :
    Overrides.Akin kin.trees (overrides.add template blocks) (overrides'.add template blocks') := by
  unfold Overrides.add
  induction akin generalizing overrides overrides' with
  | nil => exact layers
  | @cons block block' _ _ akin _ inductionHypothesis =>
      rw [List.foldl_cons, List.foldl_cons, ← akin.1]
      have replaced := optionRel_getD (layers.lookup? block.1) .nil
      exact inductionHypothesis
        (layers.put _ (List.rel_append replaced (.cons ⟨rfl, akin.2.body⟩ .nil)))

theorem renderOwn {name : String} (isHere : place.source = name) {template template' : Template}
    (akin : Nodes.Akin kin.trees name template.body template'.body) :
    kin.Alike place place' Eq (Action.renderOwn name template)
      (Action.renderOwn name template') := by
  subst isHere
  refine (defineAll akin.macroTable akin.macroTable).next fun _ => ?_
  have added := layers_add .nil _ akin.blockTable
  have onward := akin.parent?
  generalize template.parent? = next at onward ⊢
  generalize template'.parent? = next' at onward ⊢
  cases onward with
  | none => exact .textOf akin
  | some onward => exact (prepare akin).next fun _ => .ascend added onward fun _ => .same _

theorem renderTemplate (name : String) {template template' : Template}
    (akin : Nodes.Akin kin.trees name template.body template'.body) :
    kin.Alike place place' Eq (Action.renderTemplate name template)
      (Action.renderTemplate name template') := by
  rw [Action.renderTemplate_eq, Action.renderTemplate_eq]
  exact .inSetting (.template name) (renderOwn rfl akin)

namespace Here

theorem ascendTo (here : kin.Here place place') {overrides overrides' : Overrides}
    {parent parent' : Expr} (layers : overrides.Akin kin.trees overrides')
    (akin : parent.Akin (kin.places place.source) parent') :
    kin.Alike place place' Eq (Action.ascendTo overrides parent)
      (Action.ascendTo overrides' parent') := by
  refine (here.templateName? akin).next fun found => ?_
  cases found with
  | none => exact .same _
  | some name =>
      refine here.unlessLoading name akin.span "" ?_
      refine (here.loadOrReport name akin.span).bind fun {loaded loaded'} akin => ?_
      cases akin with
      | none => exact .same _
      | @some loaded loaded' akin =>
          refine (defineMissing akin.body.macroTable akin.body.macroTable).next fun _ => ?_
          have added := layers_add layers loaded.name akin.body.blockTable
          have onward := akin.body.parent?
          have inside : Setting.Akin kin.trees (.template loaded.name) (.template loaded.name) :=
            .template loaded.name
          unfold Loaded.blocks
          rw [← akin.name]
          generalize loaded.template.parent? = next at onward ⊢
          generalize loaded'.template.parent? = next' at onward ⊢
          cases onward with
          | none => exact .inSetting (.chain added) (.inSetting inside (.textOf akin.body))
          | some onward =>
              refine .inSetting inside ((prepare akin.body).next fun _ => ?_)
              exact .ascend added onward fun _ => .same _

/-! ### Templates inside a template -/

theorem embedFirst? (here : kin.Here place place') (withContext : Bool) (names : List String)
    (at_ : kin.places place.source span span') :
    kin.Alike place place' Eq (Action.embedFirst? withContext span names)
      (Action.embedFirst? withContext span' names) := by
  induction names with
  | nil => exact .same _
  | cons name rest inductionHypothesis =>
      refine here.unlessLoading name at_ (some "") ?_
      refine .bind_fetch name fun {answer answer'} akin => ?_
      cases akin with
      | error fault =>
          dsimp only
          split
          · exact inductionHypothesis
          · exact (here.problem _ at_).next fun _ => .same _
      | @ok loaded loaded' akin =>
          refine Alike.next (.inSetting (.embedded withContext) ?_) fun text => .same _
          rw [← akin.name]
          exact renderTemplate loaded.name akin.body

theorem embed (here : kin.Here place place') {template template' : Expr}
    (withContext ignoreMissing : Bool) (akin : template.Akin (kin.places place.source) template') :
    kin.Alike place place' Eq (Action.embed template withContext ignoreMissing)
      (Action.embed template' withContext ignoreMissing) := by
  refine (Alike.valueOf akin).next fun value => ?_
  split
  · exact (here.problem _ akin.span).next fun _ => .same _
  · refine (here.embedFirst? withContext _ akin.span).next fun found => ?_
    cases found with
    | some text => exact .same _
    | none =>
        dsimp only
        split
        · exact (here.problem _ akin.span).next fun _ => .same _
        · exact .same _

/-! ### Statements -/

/-- Statements that are akin ask the same of both renders. -/
theorem carryOut (here : kin.Here place place') {node node' : Node}
    (akin : node.Akin kin.trees place.source node') :
    kin.Alike place place' Eq (Action.carryOut node) (Action.carryOut node') := by
  cases akin with
  | text content | verbatim content => exact .same _
  | comment | inherit | define => exact .same _
  | output akin => exact (Alike.valueOf akin).next fun value => .same _
  | choose each other => exact (chooseBody each other).bind textOfBody
  | each assigned visited restricted inner other =>
      exact here.renderEach assigned visited restricted inner other
  | assign assigned akin =>
      exact (Alike.valueOf akin).next fun value => (here.assign assigned value).next fun _ =>
        .same _
  | capture assigned calls inner =>
      exact (here.filterBody calls inner).next fun value => (here.assign assigned value).next
        fun _ => .same _
  | block name inner => exact here.renderBlock name inner
  | embed withContext ignoreMissing akin => exact here.embed withContext ignoreMissing akin
  | importAs name withContext akin => exact (here.importAs name akin).next fun _ => .same _
  | importNames withContext akin each => exact (here.importNames akin each).next fun _ => .same _
  | callBlock akin form inner =>
      exact (here.callWithBody akin form (fun _ => .nil) inner fun some => absurd rfl some).next
        fun value => .same _
  | callBlockWith akin form given inner =>
      exact (here.callWithBody akin form given (inner _) fun _ => inner).next fun value => .same _
  | withBlock each inner => exact here.renderWith each inner
  | filterBlock calls inner => exact (here.filterBody calls inner).next fun value => .same _
  | custom name given inner seen at_ =>
      exact here.renderCustom ⟨seen, rfl, given, inner, at_⟩

end Here

end Kinship

end Stencil.Render
