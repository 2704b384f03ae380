import Stencil.Proofs.Host.Tables
import Stencil.Proofs.Render.Flattening

/-!
Contract: a render of a template that is built on others, against one of the single template that
stands for all of them.

Owns:
- the tables that a render fills on its way up a lineage: they hold the bodies of blocks in order;
- loading templates without mistakes, and their assignments outside all bodies;
- the way up, and whole renders.

Does not own: what happens in the root once the tables are filled (`Stencil.Proofs.Render.Flattening`).
-/

set_option autoImplicit false

namespace Stencil.Host

open Stencil.Syntax (BlockDefinition Node)

theorem nodup_addBlocks (table : Table BlockDefinition) (blocks : List BlockDefinition)
    (distinct : table.names.Nodup) : (addBlocks table blocks).names.Nodup := by
  induction blocks generalizing table with
  | nil => exact distinct
  | cons block rest inductionHypothesis =>
      show (addBlocks (if _ then _ else _) rest).names.Nodup
      apply inductionHypothesis
      by_cases isKnown : table.has block.name = true
      · rwa [if_pos isKnown]
      · rw [if_neg isKnown]
        exact Table.nodup_names_put distinct _ _

namespace Loaded

theorem map_lookup?_blocks (loaded : Loaded) (name : String) :
    (loaded.blocks.lookup? name).map (·.body) = loaded.body? name := by
  have found := lookup?_addBlocks [] (Syntax.blocksOf loaded.template.body) name
  exact congrArg (Option.map (·.body)) found

theorem nodup_blocks (loaded : Loaded) : loaded.blocks.names.Nodup :=
  nodup_addBlocks [] _ List.nodup_nil

/-- What counts outside all blocks of a template that is built on another one are its
assignments. -/
theorem BuiltOn.isPreparation_eq {loaded : Loaded} {parent : String} {higher : String → Prop}
    (isBuilt : loaded.BuiltOn parent higher) {node : Node} (member : node ∈ loaded.template.body) :
    Render.Action.isPreparation node = node.isAssignment := by
  rcases isBuilt.fits member with ⟨_, _, rfl⟩ | fits
  · rfl
  · cases node with
    | importAs | importNames =>
        cases fits with
        | ordinary isOrdinary => simp [Node.isOrdinary] at isOrdinary
    | _ => rfl

end Loaded

end Stencil.Host

namespace Stencil.Render

open Stencil.Host (Define Environment Flattened Lineage Loaded Shelf bodiesOf)
open Stencil.Report (Diagnostic)
open Stencil.Syntax (BlockDefinition Expr Flattens Node Template)
open Stencil.Text (Span)

variable {α β : Type} {environment : Environment}

namespace Overrides

/-- The bodies that a table has for a block, the one that replaces all others first. -/
def bodies (overrides : Overrides) (name : String) : List (List Node) :=
  ((overrides.lookup? name).getD []).map Level.body

theorem map_lookup?_level (overrides : Overrides) (name : String) (level : Nat) :
    ((overrides.lookup? name).bind (·[level]?)).map Level.body = (overrides.bodies name)[level]? := by
  unfold bodies
  cases overrides.lookup? name <;> simp

/-- The blocks of a template come behind all that replace them. -/
theorem bodies_add (overrides : Overrides) (template : String) {blocks : Table BlockDefinition}
    (distinct : blocks.names.Nodup) (name : String) :
    (overrides.add template blocks).bodies name =
      overrides.bodies name ++ ((blocks.lookup? name).map (·.body)).toList := by
  induction blocks generalizing overrides with
  | nil => simp [add]
  | cons entry rest inductionHypothesis =>
      obtain ⟨key, block⟩ := entry
      obtain ⟨isNew, distinct⟩ := List.nodup_cons.mp distinct
      show (add (Table.put overrides key _) template rest).bodies name = _
      rw [inductionHypothesis _ distinct]
      by_cases same : key = name
      · subst same
        have isNone : Table.lookup? rest key = none := by
          apply Option.eq_none_iff_forall_ne_some.mpr
          intro other isFound
          exact isNew (List.mem_map.mpr ⟨_, Table.mem_of_lookup? isFound, rfl⟩)
        simp [bodies, Table.lookup?_put_self, Table.lookup?, isNone]
      · simp [bodies, Table.lookup?_put_other _ _ (Ne.symm same), Table.lookup?, same]

/-- Adds the blocks of templates, each of which is built on the next one. -/
def climb (overrides : Overrides) (templates : List Loaded) : Overrides :=
  templates.foldl (fun overrides loaded => overrides.add loaded.name loaded.blocks) overrides

theorem bodies_climb (overrides : Overrides) (templates : List Loaded) (name : String) :
    (overrides.climb templates).bodies name =
      overrides.bodies name ++ templates.filterMap (·.body? name) := by
  induction templates generalizing overrides with
  | nil => simp [climb]
  | cons loaded rest inductionHypothesis =>
      show ((overrides.add loaded.name loaded.blocks).climb rest).bodies name = _
      rw [inductionHypothesis, bodies_add _ _ loaded.nodup_blocks, loaded.map_lookup?_blocks]
      cases isBody : loaded.body? name <;> simp [isBody]

theorem gives_climb (templates : List Loaded) : Gives (climb [] templates) (bodiesOf templates) := by
  intro name level
  rw [map_lookup?_level, bodies_climb]
  rfl

end Overrides

/-! ### Templates without mistakes -/

/-- A template without mistakes is loaded, and nothing is reported. -/
theorem Together.load {place : Place} {state flat : State}
    (together : Together environment place state flat) {loaded : Loaded}
    (gives : environment.Gives loaded.name loaded.source)
    (isParsed : loaded.IsParsed environment) :
    (state.load environment loaded.name).1 = .ok loaded ∧
      Together environment place (state.load environment loaded.name).2 flat := by
  have isFetched := together.coherent.fetch_of_gives gives
  rw [isParsed.parsed] at isFetched
  refine ⟨(State.load_answer _ _ _).trans isFetched, ?_⟩
  rw [State.load_of_ok isFetched]
  have coherent := together.coherent.fetch loaded.name
  unfold State.reportLoaded
  split
  · exact ⟨together.scenery, together.running, together.place, coherent, together.problems⟩
  · refine ⟨together.scenery, together.running, together.place, coherent, ?_⟩
    simpa [isParsed.right] using together.problems

/-- An assignment prints nothing. -/
theorem text_of_assignment {below : Below} {node : Node} (isAssignment : node.isAssignment = true)
    {state after : State} {text : String}
    (carried : (Action.carryOut node).perform environment below state = some (text, after)) :
    text = "" := by
  cases node with
  | assign target value span =>
      change ((Action.valueOf value).andThen _).perform environment below state = _ at carried
      rw [Action.perform_andThen] at carried
      obtain ⟨first, _, carried⟩ := Option.bind_eq_some_iff.mp carried
      change ((Action.assign target first.1).andThen _).perform environment below first.2 = _
        at carried
      rw [Action.perform_andThen] at carried
      obtain ⟨second, _, carried⟩ := Option.bind_eq_some_iff.mp carried
      cases carried
      rfl
  | capture target filters body span =>
      change ((Action.filterBody filters body).andThen _).perform environment below state = _
        at carried
      rw [Action.perform_andThen] at carried
      obtain ⟨first, _, carried⟩ := Option.bind_eq_some_iff.mp carried
      change ((Action.assign target first.1).andThen _).perform environment below first.2 = _
        at carried
      rw [Action.perform_andThen] at carried
      obtain ⟨second, _, carried⟩ := Option.bind_eq_some_iff.mp carried
      cases carried
      rfl
  | _ => cases isAssignment

/-- Flat statements keep the two renders together. -/
theorem Alongside.flat (unlimited : environment.maxSteps = none) (place : Place) {node : Node}
    (isFlat : node.Flat) :
    Alongside environment place ((unbounded environment).render [node])
      ((unbounded environment).render [node]) := by
  let bodies (rank : String × Nat) :=
    ((place.overrides.lookup? rank.1).bind (·[rank.2]?)).map Level.body
  have flattens : Flattens bodies none [node] [node] := isFlat.flattens
  exact alongside_of_flattens unlimited flattens place (fun _ isRank => by cases isRank) fun _ _ => rfl

/-- The statements of a template that count outside all blocks are rendered like the same statements
in front of others, if they are flat assignments. -/
theorem Alongside.prepared (unlimited : environment.maxSteps = none) {place : Place}
    {body flat : List Node} {rest : Action String}
    (imports : ∀ node ∈ body, Action.isPreparation node = node.isAssignment)
    (isFlat : ∀ node ∈ body, node.isAssignment = true → node.Flat)
    (behind : Alongside environment place (rest.perform environment (unbounded environment))
      ((unbounded environment).render flat)) :
    Alongside environment place
      (((Action.prepare body).andThen fun _ => rest).perform environment (unbounded environment))
      ((unbounded environment).render (body.filter Node.isAssignment ++ flat)) := by
  induction body with
  | nil => exact behind
  | cons node others inductionHypothesis =>
      rw [List.forall_mem_cons] at imports isFlat
      have inner := inductionHypothesis imports.2 isFlat.2
      by_cases isAssignment : node.isAssignment = true
      · intro state flatState together
        obtain ⟨text, middle, flatMiddle, isText, isFlatText, stays⟩ :=
          Alongside.flat unlimited place (isFlat.1 isAssignment) together
        have isEmpty : text = "" := by
          rw [render_single unlimited node together.running] at isText
          exact text_of_assignment isAssignment isText
        subst isEmpty
        obtain ⟨more, after, flatAfter, isMore, isFlatMore, stays⟩ := inner stays
        refine ⟨more, after, flatAfter, ?_, ?_, stays⟩
        · rw [Action.perform_andThen] at isMore
          rw [Action.prepare, imports.1, if_pos isAssignment]
          show (((Action.textOf [node]).andThen fun _ => Action.prepare others).andThen
            fun _ => rest).perform environment (unbounded environment) state = some (more, after)
          rw [Action.perform_andThen, Action.perform_andThen, Action.perform_textOf, isText,
            Option.bind_some, isMore]
        · rw [List.filter_cons_of_pos isAssignment, List.cons_append, ← List.singleton_append,
            unbounded_render, renderAll_append, ← unbounded_render, isFlatText, Option.bind_some,
            ← unbounded_render, isFlatMore]
          simp
      · rw [List.filter_cons_of_neg isAssignment, Action.prepare, imports.1, if_neg isAssignment]
        exact inner

/-! ### The way up -/

theorem perform_templateName? (name : String) (span : Span) (state : State) :
    (Action.templateName? (.literal (.text name) span)).perform environment (unbounded environment)
      state = some (some name, state) := by
  show ((Action.valueOf _).andThen _).perform environment (unbounded environment) state = _
  rw [Action.perform_andThen, Action.perform_valueOf, unbounded_eval]
  rfl

theorem perform_ascend_done {below : Below} (overrides : Overrides) (parent : Expr) :
    (Action.ascend overrides parent .done).perform environment below =
      below.ascend overrides parent := by
  funext state
  rw [Action.perform_ascend]
  cases below.ascend overrides parent state <;> rfl

/-- A template that is named by its literal name is loaded, and then what is left to do for it is
done. -/
theorem Alongside.of_onto {place : Place} {overrides : Overrides} {loaded : Loaded}
    {flat : List Node} (span : Span)
    (gives : environment.Gives loaded.name loaded.source)
    (isParsed : loaded.IsParsed environment) (isNew : loaded.name ∉ place.loads)
    (onto : Alongside environment place
      ((Action.onto overrides loaded).perform environment (unbounded environment))
      ((unbounded environment).render flat)) :
    Alongside environment place
      ((unbounded environment).ascend overrides (.literal (.text loaded.name) span))
      ((unbounded environment).render flat) := by
  intro state flatState together
  obtain ⟨isLoaded, loadedTogether⟩ := together.load gives isParsed
  have outside : loaded.name ∉ state.place.loads := by
    rw [together.place]
    exact isNew
  rw [unbounded_ascend, Action.perform_ascendTo (perform_templateName? loaded.name span state),
    if_neg outside, isLoaded]
  exact onto loadedTogether

/-- The assignments of a template that is built on another one come first, and then the way goes on
from there. -/
theorem Alongside.heir (unlimited : environment.maxSteps = none) {place : Place} {heir : Loaded}
    {parent : String} {higher : String → Prop} (isBuilt : heir.BuiltOn parent higher)
    {overrides : Overrides} {flat : List Node}
    (further : ∀ span, Alongside environment ((Setting.template heir.name).place place)
      ((unbounded environment).ascend overrides (.literal (.text parent) span))
      ((unbounded environment).render flat)) (span : Span) :
    Alongside environment place
      ((Action.inSetting (.template heir.name) ((Action.prepare heir.template.body).andThen fun _ =>
        .ascend overrides (.literal (.text parent) span) .done)).perform environment
          (unbounded environment))
      ((unbounded environment).render (heir.template.body.filter Node.isAssignment ++ flat)) := by
  rw [Action.perform_inSetting]
  apply Alongside.within (.template heir.name)
  apply Alongside.prepared unlimited
  · exact fun node => isBuilt.isPreparation_eq
  · exact fun node => isBuilt.flat
  · rw [perform_ascend_done]
    exact further span

/-- On the way up a lineage the assignments of its templates are made in order, and then the root is
rendered with its blocks replaced. -/
theorem alongside_ascend (unlimited : environment.maxSteps = none) {heirs : List Loaded}
    {root : Loaded} (lineage : Lineage heirs root)
    (texts : ∀ loaded ∈ heirs ++ [root], environment.Gives loaded.name loaded.source)
    (parsed : ∀ loaded ∈ heirs ++ [root], loaded.IsParsed environment)
    (distinct : ((heirs ++ [root]).map Loaded.name).Nodup)
    {bodies : String × Nat → Option (List Node)} {flat : List Node}
    (flattens : Flattens bodies none root.template.body flat) {place : Place} {overrides : Overrides}
    (outside : ∀ loaded ∈ heirs ++ [root], loaded.name ∉ place.loads)
    (gives : Gives (overrides.climb (heirs ++ [root])) bodies) (span : Span) :
    Alongside environment place
      ((unbounded environment).ascend overrides (.literal (.text (heirs.headD root).name) span))
      ((unbounded environment).render
        (heirs.flatMap (·.template.body.filter Node.isAssignment) ++ flat)) := by
  induction lineage generalizing place overrides span with
  | @root root fits =>
      have noMacros := (Lineage.root fits).macros_eq_nil (List.mem_singleton_self root)
      have noParent : root.template.parent? = none := Host.parent?_eq_none fits
      apply Alongside.of_onto span (texts root (List.mem_singleton_self root))
        (parsed root (List.mem_singleton_self root)) (outside root (List.mem_singleton_self root))
      simp only [Action.onto, noMacros, Action.defineMissing, noParent, pure, bind, Action.andThen,
        Action.perform_inSetting, Action.perform_textOf]
      apply Alongside.within (.chain _)
      apply Alongside.within (.template _)
      exact alongside_of_flattens unlimited flattens _ (fun _ isRank => by cases isRank) gives
  | @heir heir root heirs isBuilt others inductionHypothesis =>
      have noMacros := (Lineage.heir isBuilt others).macros_eq_nil List.mem_cons_self
      obtain ⟨inner, parentSpan, isParent⟩ := isBuilt.parent?
      rw [List.cons_append, List.forall_mem_cons] at texts parsed outside
      obtain ⟨isNew, distinct⟩ := List.nodup_cons.mp distinct
      have outsideThen : ∀ loaded ∈ heirs ++ [root],
          loaded.name ∉ ((Setting.template heir.name).place place).loads := by
        intro loaded member isLoaded
        rcases List.mem_cons.mp isLoaded with isHeir | isLoaded
        · exact isNew (List.mem_map.mpr ⟨loaded, member, isHeir⟩)
        · exact outside.2 loaded member isLoaded
      have further := inductionHypothesis texts.2 parsed.2 distinct flattens outsideThen gives
      have climbs := Alongside.heir unlimited isBuilt further inner
      apply Alongside.of_onto span texts.1 parsed.1 outside.1
      simp only [Action.onto, noMacros, Action.defineMissing, isParent, pure, bind, Action.andThen]
      rw [List.flatMap_cons, List.append_assoc]
      exact climbs

/-! ### Whole renders -/

/-- A template that is built on others renders like the assignments on the way up and the root with
its blocks replaced. -/
theorem alongside_renderTemplate (unlimited : environment.maxSteps = none) {first root : Loaded}
    {heirs : List Loaded} (lineage : Lineage (first :: heirs) root)
    (texts : ∀ loaded ∈ heirs ++ [root], environment.Gives loaded.name loaded.source)
    (parsed : ∀ loaded ∈ heirs ++ [root], loaded.IsParsed environment)
    (distinct : ((first :: heirs ++ [root]).map Loaded.name).Nodup) {body : List Node}
    (flattened : Flattened (first :: heirs) root body) {place : Place} (outside : place.loads = []) :
    Alongside environment place
      ((Action.renderTemplate first.name first.template).perform environment (unbounded environment))
      ((unbounded environment).render body) := by
  have noMacros : Host.macroTable first.template.body = [] :=
    lineage.macros_eq_nil List.mem_cons_self
  obtain ⟨flat, flattens, rfl⟩ := flattened
  cases lineage with
  | heir isBuilt others =>
      obtain ⟨inner, parentSpan, isParent⟩ := isBuilt.parent?
      obtain ⟨isNew, distinct⟩ := List.nodup_cons.mp distinct
      have outsideThen : ∀ loaded ∈ heirs ++ [root],
          loaded.name ∉ ((Setting.template first.name).place place).loads := by
        intro loaded member isLoaded
        have isFirst : loaded.name ∈ [first.name] := outside ▸ isLoaded
        rw [List.mem_singleton] at isFirst
        exact isNew (List.mem_map.mpr ⟨loaded, member, isFirst⟩)
      have gives : Gives ((Overrides.add [] first.name first.blocks).climb (heirs ++ [root]))
          (bodiesOf (first :: heirs ++ [root])) :=
        Overrides.gives_climb (first :: heirs ++ [root])
      have further := alongside_ascend unlimited others texts parsed distinct flattens outsideThen
        gives
      have climbs := Alongside.heir unlimited isBuilt further inner
      simp only [Action.renderTemplate, noMacros, Action.defineAll, isParent, pure, bind,
        Action.andThen]
      rw [List.flatMap_cons, List.append_assoc]
      exact climbs

/-- A flat template is its statements. -/
theorem perform_renderTemplate_of_flat {below : Below} {template : Template}
    (isFlat : ∀ node ∈ template.body, node.Flat) (name : String) :
    (Action.renderTemplate name template).perform environment below =
      Run.inSetting (.template name) (below.render template.body) := by
  have fits : ∀ node ∈ template.body, node.Fits (fun _ => False) none := by
    intro node member
    exact (isFlat node member).fits _ _
  have noMacros : Host.macroTable template.body = [] := by
    have areBlocks : ∀ definition ∈ Syntax.definitionsOfNodes template.body,
        ∃ block, definition = .block block := by
      intro definition isDefinition
      obtain ⟨node, member, isDefinition⟩ := Syntax.mem_definitionsOfNodes.mp isDefinition
      exact (fits node member).definitions_block definition isDefinition
    rw [Host.macroTable, Syntax.macrosOf_eq_nil areBlocks]
    rfl
  simp only [Action.renderTemplate, noMacros, Host.parent?_eq_none fits, Action.defineAll, pure,
    bind, Action.andThen, Action.perform_inSetting, Action.perform_textOf]

/-- A setting of the lineage on the other side changes nothing, either. -/
theorem Alongside.flatWithin {place : Place} {run flatRun : Run α} {setting : Setting}
    (isStage : setting.IsStage) (inner : Alongside environment place run flatRun) :
    Alongside environment place run (flatRun.inSetting setting) := by
  intro state flat together
  have entered : Together environment place state
      { flat with toView := setting.enter flat.toView } := by
    refine ⟨?_, together.running, together.place, together.coherent, together.problems⟩
    cases isStage <;> exact together.scenery
  obtain ⟨answer, after, flatAfter, isAnswer, isFlat, stays⟩ := inner entered
  have left : Together environment place after
      { flatAfter with toView := setting.leave flat.toView flatAfter.toView } := by
    refine ⟨?_, stays.running, stays.place, stays.coherent, stays.problems⟩
    cases isStage <;> exact stays.scenery
  exact ⟨answer, after, _, isAnswer, by rw [Run.inSetting, isFlat, Option.map_some], left⟩

/-- What can be seen of a render from outside, apart from the shelf and the names of templates. -/
def Outcome.unnamed (outcome : Outcome) : String × List Diagnostic :=
  (outcome.text, outcome.problems.map Diagnostic.unnamed)

/-- Actions that keep two renders together give the same at every depth that is enough for both. -/
theorem Alongside.eventually {place : Place} {action flatAction : Action String}
    (alongside : Alongside environment place (action.perform environment (unbounded environment))
      (flatAction.perform environment (unbounded environment))) {state flat : State}
    (together : Together environment place state flat) :
    ∃ shown depth, ∀ more, depth ≤ more →
      (outcomeOf environment more action state).map Outcome.unnamed = some shown ∧
        (outcomeOf environment more flatAction flat).map Outcome.unnamed = some shown := by
  obtain ⟨text, after, flatAfter, isAnswer, isFlat, stays⟩ := alongside together
  obtain ⟨depth, isAnswer⟩ := (Action.perform_unbounded _ _ _).mp isAnswer
  obtain ⟨flatDepth, isFlat⟩ := (Action.perform_unbounded _ _ _).mp isFlat
  refine ⟨(text, flatAfter.problems.toList.map Diagnostic.unnamed), max depth flatDepth,
    fun more isLe => ⟨?_, ?_⟩⟩
  · have deeper : action.perform environment (belowDepth environment more) state =
        some (text, after) :=
      rising_perform environment action (Nat.le_trans (Nat.le_max_left _ _) isLe) isAnswer
    have same := congrArg Array.toList stays.problems
    simp only [Array.toList_map] at same
    rw [outcomeOf, deeper, Option.map_some, Option.map_some, Outcome.unnamed, Outcome.ofState, same]
  · have deeper : flatAction.perform environment (belowDepth environment more) flat =
        some (text, flatAfter) :=
      rising_perform environment flatAction (Nat.le_trans (Nat.le_max_right _ _) isLe) isFlat
    rw [outcomeOf, deeper]
    rfl

/-- A render of a text without mistakes is one of the template that it forms. -/
theorem renderTextWithin_of_parsed {loaded : Loaded} (isParsed : loaded.IsParsed environment)
    (depth : Nat) (context : Table Value) (shelf : Shelf) :
    renderTextWithin depth environment loaded.name loaded.source context shelf =
      outcomeOf environment depth (Action.renderTemplate loaded.name loaded.template)
        (.initial context shelf) := by
  have isTemplate : (environment.parse loaded.name loaded.source).template = loaded.template :=
    congrArg Loaded.template isParsed.parsed
  have isRight : (environment.parse loaded.name loaded.source).problems = [] :=
    (congrArg Loaded.problems isParsed.parsed).trans isParsed.right
  have isName : loaded.template.displayName = loaded.name := by
    rw [← isTemplate]
    rfl
  simp only [renderTextWithin, renderTemplateWithin, isTemplate, isRight, isName, List.nil_append,
    Option.map_id']
  rfl

/-- Inheritance is flattening. There is exactly one template without blocks that stands for a lineage
of templates. If the number of steps is not limited, then a render of the first template, from its
text or by its name, and one of the template that stands for the lineage both have an answer, and they
have the same text and the same reports, up to the names of templates. -/
theorem inheritance_flattens (environment : Environment) (unlimited : environment.maxSteps = none)
    {first root : Loaded} {heirs : List Loaded} (lineage : Lineage (first :: heirs) root)
    (parsed : ∀ loaded ∈ first :: heirs ++ [root], loaded.IsParsed environment)
    (texts : ∀ loaded ∈ heirs ++ [root], environment.Gives loaded.name loaded.source)
    (distinct : ((first :: heirs ++ [root]).map Loaded.name).Nodup)
    (acyclic : ∀ name, ¬Relation.TransGen
      (Syntax.LeadsTo (bodiesOf (first :: heirs ++ [root]))) (name, 0) (name, 0))
    (context : Table Value) (shelf : Shelf) (coherent : shelf.Coherent environment) :
    (∃! body, Flattened (first :: heirs) root body) ∧
      ∀ template : Template, Flattened (first :: heirs) root template.body → ∀ other : Shelf,
        ∃ shown depth, ∀ more, depth ≤ more →
          (renderTemplateWithin more environment template context other).map Outcome.unnamed =
              some shown ∧
            (renderTextWithin more environment first.name first.source context shelf).map
                Outcome.unnamed = some shown ∧
            (environment.Gives first.name first.source →
              (renderNamedWithin more environment first.name context shelf).map Outcome.unnamed =
                some shown) := by
  refine ⟨lineage.exists_flattened acyclic, fun template flattened other => ?_⟩
  obtain ⟨isParsed, parsedThen⟩ := List.forall_mem_cons.mp parsed
  have alongside : Alongside environment .outside
      ((Action.renderTemplate first.name first.template).perform environment (unbounded environment))
      ((Action.renderTemplate template.displayName template).perform environment
        (unbounded environment)) := by
    rw [perform_renderTemplate_of_flat (lineage.flat flattened)]
    apply Alongside.flatWithin (.template template.displayName)
    exact alongside_renderTemplate unlimited lineage texts parsedThen distinct flattened rfl
  have together : Together environment .outside (.initial context shelf) (.initial context other) :=
    ⟨rfl, rfl, rfl, coherent, rfl⟩
  obtain ⟨shown, depth, agree⟩ := alongside.eventually together
  by_cases gives : environment.Gives first.name first.source
  · obtain ⟨isLoaded, togetherThen⟩ := together.load gives isParsed
    rw [State.load_answer] at isLoaded
    obtain ⟨other, depthThen, agreeThen⟩ := alongside.eventually togetherThen
    refine ⟨shown, max depth depthThen, fun more isLe => ?_⟩
    obtain ⟨isShown, isFlat⟩ := agree more (Nat.le_trans (Nat.le_max_left _ _) isLe)
    obtain ⟨isOther, isOtherFlat⟩ := agreeThen more (Nat.le_trans (Nat.le_max_right _ _) isLe)
    have same : other = shown := Option.some.inj (isOtherFlat.symm.trans isFlat)
    refine ⟨isFlat, renderTextWithin_of_parsed isParsed more context shelf ▸ isShown, fun _ => ?_⟩
    have named : renderNamedWithin more environment first.name context shelf = _ :=
      outcomeOf_renderNamed more first.name (.initial context shelf) isLoaded
    rw [named, isOther, same]
  · refine ⟨shown, depth, fun more isLe => ?_⟩
    obtain ⟨isShown, isFlat⟩ := agree more isLe
    exact ⟨isFlat, renderTextWithin_of_parsed isParsed more context shelf ▸ isShown,
      fun isGiven => absurd isGiven gives⟩

/-- A page that is built on a frame. It makes an assignment, and puts the variable behind what the
frame has for its block. -/
def framed : Environment :=
  Environment.empty.withLoader (.ofTable
    [("page", "\x7b% extends 'frame' %\x7d\x7b% set x = 1 %\x7d" ++
      "\x7b% block b %\x7d\x7b\x7b super() \x7d\x7d\x7b\x7b x \x7d\x7d\x7b% endblock %\x7d"),
    ("frame", "a\x7b% block b %\x7db\x7b% endblock %\x7dc")])

/-- Whether statements are those of the page. -/
def isPage : List Node → Bool
  | [.inherit (.literal (.text "frame") _) _, .assign (.name "x" _) (.literal _ _) _,
      .block "b" [.output (.call (.name "super" _) [] _) _, .output (.name "x" _) _] _] => true
  | _ => false

/-- Whether statements are those of the frame. -/
def isFrame : List Node → Bool
  | [.text "a" _, .block "b" [.text "b" _] _, .text "c" _] => true
  | _ => false

theorem builtOn_of_isPage {page : Loaded} {higher : String → Prop}
    (shape : isPage page.template.body = true) (isHigher : higher "b") :
    page.BuiltOn "frame" higher := by
  unfold isPage at shape
  split at shape
  · rename_i body inner inheritSpan xSpan literal literalSpan assignSpan callee call superSpan nameSpan
      outputSpan blockSpan isBody
    have assign : (Node.assign (.name "x" xSpan) (.literal literal literalSpan) assignSpan).Fits higher
        none := by
      apply Node.Fits.ordinary rfl
      · simp [Node.exprs, Syntax.Target.exprs, Expr.callFree_literal]
      · simp [Node.bodies]
    have output : (Node.output (.name "x" nameSpan) outputSpan).Fits higher (some "b") := by
      apply Node.Fits.ordinary rfl
      · simp [Node.exprs, Expr.callFree_name]
      · simp [Node.bodies]
    constructor
    · refine ⟨[], _, inner, inheritSpan, isBody, ?_⟩
      refine List.forall_mem_cons.mpr ⟨assign, List.forall_mem_singleton.mpr (.block ?_)⟩
      exact List.forall_mem_cons.mpr ⟨.super isHigher, List.forall_mem_singleton.mpr output⟩
    · rw [isBody]
      simp [Node.isAssignment, Syntax.blocksOf, Syntax.definitionsOfNodes, Node.definitions]
  · cases shape

theorem fits_of_isFrame {body : List Node} {higher : String → Prop} (shape : isFrame body = true) :
    ∀ node ∈ body, node.Fits higher none := by
  unfold isFrame at shape
  split at shape
  · have text : ∀ (content : String) (span : Span) (inside : Option String),
        (Node.text content span).Fits higher inside := by
      intro content span inside
      apply Node.Fits.ordinary rfl
      · simp [Node.exprs]
      · simp [Node.bodies]
    simp only [List.forall_mem_cons]
    refine ⟨text _ _ _, .block ?_, text _ _ _, fun _ member => absurd member List.not_mem_nil⟩
    exact List.forall_mem_singleton.mpr (text _ _ _)
  · cases shape

/-- The template that a text of the environment forms. -/
def framedTemplate (name : String) : Loaded :=
  Shelf.loaded framed name ((framed.text? [] name).getD "")

/-- The page against the template that stands for it and its frame. -/
theorem inheritance_flattens_framed :
    let page := framedTemplate "page"
    let frame := framedTemplate "frame"
    framed.maxSteps = none ∧ Lineage [page] frame ∧
      (∀ loaded ∈ [page, frame], loaded.IsParsed framed) ∧
      (∀ loaded ∈ [frame], framed.Gives loaded.name loaded.source) ∧
      ([page, frame].map Loaded.name).Nodup ∧
      (∀ name, ¬Relation.TransGen (Syntax.LeadsTo (bodiesOf [page, frame])) (name, 0) (name, 0)) ∧
      Shelf.Coherent framed .empty ∧
      (renderNamedWithin 9 framed "page" [] .empty).map Outcome.unnamed = some ("ab1c", []) ∧
      ∃ template : Template, Flattened [page] frame template.body ∧
        ∃ shown depth, ∀ more, depth ≤ more →
          (renderTemplateWithin more framed template [] .empty).map Outcome.unnamed = some shown ∧
            (renderNamedWithin more framed "page" [] .empty).map Outcome.unnamed = some shown := by
  intro page frame
  have hasBlock : Define ([] ++ [frame]) "b" :=
    ⟨frame, List.mem_singleton_self frame, by decide +kernel⟩
  have isBuilt : page.BuiltOn "frame" (Define ([] ++ [frame])) :=
    builtOn_of_isPage (by decide +kernel) hasBlock
  have lineage : Lineage [page] frame :=
    .heir isBuilt (.root (fits_of_isFrame (by decide +kernel)))
  have parsed : ∀ loaded ∈ [page, frame], loaded.IsParsed framed := by
    refine List.forall_mem_cons.mpr ⟨⟨rfl, by decide +kernel⟩, ?_⟩
    exact List.forall_mem_singleton.mpr ⟨rfl, by decide +kernel⟩
  have steady : framed.Steady := Environment.empty.steady_withLoader _
  have texts : ∀ loaded ∈ [frame], framed.Gives loaded.name loaded.source :=
    List.forall_mem_singleton.mpr (steady.gives ⟨[], by decide⟩)
  have distinct : ([page, frame].map Loaded.name).Nodup := by decide
  have unnested : ([page, frame].all fun loaded => (Syntax.blocksOf loaded.template.body).all
      fun block => (Syntax.definitionsOfNodes block.body).isEmpty) = true := by decide +kernel
  have acyclic := Host.acyclic_of_unnested fun loaded isLoaded block isBlock =>
    List.isEmpty_iff.mp (List.all_eq_true.mp (List.all_eq_true.mp unnested loaded isLoaded) block
      isBlock)
  have coherent := Shelf.coherent_empty framed
  obtain ⟨⟨body, flattened, _⟩, agree⟩ :=
    inheritance_flattens framed rfl lineage parsed texts distinct acyclic [] .empty coherent
  obtain ⟨shown, depth, agree⟩ := agree ⟨none, body, default⟩ flattened .empty
  refine ⟨rfl, lineage, parsed, texts, distinct, acyclic, coherent, by decide +kernel,
    ⟨none, body, default⟩, flattened, shown, depth, fun more isLe => ?_⟩
  obtain ⟨isFlat, _, isNamed⟩ := agree more isLe
  exact ⟨isFlat, isNamed (steady.gives ⟨[], by decide⟩)⟩

end Stencil.Render
