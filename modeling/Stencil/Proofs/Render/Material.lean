import Stencil.Proofs.Syntax.Inner
import Stencil.Render.Perform

/-!
Contract: what the templates of a render are made of.

Owns:
- properties of statements and of the defaults of parameters that pass on to what is inside them;
- the macros, blocks and bodies of calls that a render can come across, and that they have the
  property if the templates have it;
- that entering and leaving settings brings in nothing else.

Does not own: what renders do with it (`Stencil.Proofs.Render.Uniform`).
-/

set_option autoImplicit false

namespace Stencil

namespace Table

variable {α : Type}

theorem mem_of_lookup? {table : Table α} {name : String} {value : α}
    (found : table.lookup? name = some value) : (name, value) ∈ table := by
  induction table with
  | nil => cases found
  | cons entry rest inductionHypothesis =>
      obtain ⟨key, old⟩ := entry
      unfold lookup? at found
      split at found
      · rename_i same
        cases found
        exact same ▸ List.mem_cons_self
      · exact List.mem_cons_of_mem _ (inductionHypothesis found)

/-- Putting an entry brings in nothing else. -/
theorem mem_put {table : Table α} {name : String} {value : α} {entry : String × α}
    (member : entry ∈ table.put name value) : entry ∈ table ∨ entry = (name, value) := by
  induction table with
  | nil => exact .inr (List.mem_singleton.mp member)
  | cons first rest inductionHypothesis =>
      obtain ⟨key, old⟩ := first
      unfold put at member
      split at member
      · rename_i same
        rcases List.mem_cons.mp member with rfl | inRest
        · exact .inr (same ▸ rfl)
        · exact .inl (List.mem_cons_of_mem _ inRest)
      · rcases List.mem_cons.mp member with rfl | inRest
        · exact .inl List.mem_cons_self
        · exact (inductionHypothesis inRest).imp_left (List.mem_cons_of_mem _)

theorem nodup_names_put {table : Table α} (distinct : table.names.Nodup) (name : String)
    (value : α) : (table.put name value).names.Nodup := by
  rw [names_put]
  split
  · exact distinct
  · rename_i isNew
    refine List.nodup_append.mpr ⟨distinct, by simp, ?_⟩
    rintro old isOld other member rfl
    exact isNew (List.mem_singleton.mp member ▸ isOld)

end Table

namespace Render

open Stencil.Syntax (BlockDefinition Branch Definition Expr MacroDefinition Node Param)

/-- Which statements and which defaults of parameters there may be, and what these may need of what
is there already. Of a macro or a block that they do not need nothing has to be known. -/
structure Material where
  node : Node → Prop
  default : Expr → Prop
  /-- The names by which macros and bodies of calls may be called. -/
  called : String → Prop := fun _ => True
  /-- The blocks that may be rendered. -/
  block : String → Prop := fun _ => True
  /-- Whether other templates may be loaded. -/
  templates : Prop := True

namespace Material

variable {material : Material}

def Body (material : Material) (nodes : List Node) : Prop := ∀ node ∈ nodes, material.node node

def Params (material : Material) (params : List Param) : Prop :=
  ∀ param ∈ params, ∀ expr ∈ param.default, material.default expr

/-- Whether the property of a statement passes on to its bodies and its parameters, and allows for
what it needs. -/
structure Closed (material : Material) : Prop where
  body : ∀ {node}, material.node node → ∀ body ∈ node.bodies, material.Body body
  params : ∀ {node}, material.node node → material.Params node.params
  block : ∀ {name body span}, material.node (.block name body span) → material.block name
  super : material.called "super" → ∀ name, material.block name
  templates : ∀ {node}, material.node node → node.isLinked = true → material.templates

structure Callable (material : Material) (definition : MacroDefinition) : Prop where
  params : material.Params definition.params
  body : material.Body definition.body

def Home (material : Material) (home : Table MacroDefinition) : Prop :=
  ∀ entry ∈ home, material.Callable entry.2

/-- Whether the macros of a table that may be called are of a material. -/
def Sisters (material : Material) (home : Table MacroDefinition) : Prop :=
  ∀ entry ∈ home, material.called entry.1 → material.Callable entry.2

structure OfMacro (material : Material) (callable : Macro) : Prop where
  definition : material.Callable callable.definition
  home : material.Sisters callable.home

def OfCaller (material : Material) : Caller → Prop
  | .rendered _ => True
  | .deferred params body => material.Params params ∧ material.Body body

def Layers (material : Material) (overrides : Overrides) : Prop :=
  ∀ entry ∈ overrides, material.block entry.1 → ∀ level ∈ entry.2, material.Body level.body

/-- Whether everything that a render can come across is of a material. -/
structure Holds (material : Material) (view : View) : Prop where
  macros : ∀ entry ∈ view.macros, material.called entry.1 → material.OfMacro entry.2
  namespaces : ∀ entry ∈ view.namespaces, material.Sisters entry.2
  homes : ∀ home ∈ view.place.homes, material.Sisters home
  callers : material.called "caller" →
    ∀ caller, some caller ∈ view.place.callers → material.OfCaller caller
  overrides : material.Layers view.place.overrides

theorem Home.sisters {home : Table MacroDefinition} (isHome : material.Home home) :
    material.Sisters home :=
  fun entry member _ => isHome entry member

def OfSetting (material : Material) : Setting → Prop
  | .call caller home => (∀ handed ∈ caller, material.OfCaller handed) ∧ material.Sisters home
  | .chain overrides => material.Layers overrides
  | _ => True

/-! ### Definitions in templates -/

def OfDefinition (material : Material) : Definition → Prop
  | .block block => material.Body block.body
  | .macro_ definition => material.Callable definition

mutual

theorem of_definitions (closed : material.Closed) (node : Node) (isNode : material.node node) :
    ∀ definition ∈ node.definitions, material.OfDefinition definition := by
  have body := closed.body isNode
  have params := closed.params isNode
  match node with
  | .text _ _ | .verbatim _ _ | .comment _ _ | .output _ _ | .assign _ _ _ | .inherit _ _
  | .embed _ _ _ _ | .importAs _ _ _ _ | .importNames _ _ _ _ => exact List.forall_mem_nil _
  | .choose branches none _ =>
      refine List.forall_mem_append.mpr
        ⟨of_definitionsOfBranches closed branches ?_, List.forall_mem_nil _⟩
      exact fun branch member => body branch.body (List.mem_append_left _ (List.mem_map_of_mem member))
  | .choose branches (some other) _ =>
      refine List.forall_mem_append.mpr ⟨of_definitionsOfBranches closed branches ?_,
        of_definitionsOfNodes closed other (body other (List.mem_append_right _ List.mem_cons_self))⟩
      exact fun branch member => body branch.body (List.mem_append_left _ (List.mem_map_of_mem member))
  | .each _ _ _ inner none _ =>
      exact List.forall_mem_append.mpr
        ⟨of_definitionsOfNodes closed inner (body inner List.mem_cons_self), List.forall_mem_nil _⟩
  | .each _ _ _ inner (some other) _ =>
      exact List.forall_mem_append.mpr
        ⟨of_definitionsOfNodes closed inner (body inner List.mem_cons_self),
          of_definitionsOfNodes closed other
            (body other (List.mem_cons_of_mem _ List.mem_cons_self))⟩
  | .block name inner span =>
      have isBody := body inner List.mem_cons_self
      exact List.forall_mem_cons.mpr ⟨isBody, of_definitionsOfNodes closed inner isBody⟩
  | .define name given inner span =>
      exact List.forall_mem_cons.mpr ⟨⟨params, body inner List.mem_cons_self⟩, List.forall_mem_nil _⟩
  | .capture _ _ inner _ => exact of_definitionsOfNodes closed inner (body inner List.mem_cons_self)
  | .callBlock _ _ inner _ =>
      exact of_definitionsOfNodes closed inner (body inner List.mem_cons_self)
  | .withBlock _ inner _ =>
      exact of_definitionsOfNodes closed inner (body inner List.mem_cons_self)
  | .filterBlock _ inner _ =>
      exact of_definitionsOfNodes closed inner (body inner List.mem_cons_self)
  | .custom _ _ none _ => exact List.forall_mem_nil _
  | .custom _ _ (some inner) _ =>
      exact of_definitionsOfNodes closed inner (body inner List.mem_cons_self)

theorem of_definitionsOfNodes (closed : material.Closed) (nodes : List Node)
    (areNodes : material.Body nodes) :
    ∀ definition ∈ Syntax.definitionsOfNodes nodes, material.OfDefinition definition := by
  match nodes with
  | [] => exact List.forall_mem_nil _
  | node :: rest =>
      exact List.forall_mem_append.mpr ⟨of_definitions closed node (areNodes node List.mem_cons_self),
        of_definitionsOfNodes closed rest fun other member =>
          areNodes other (List.mem_cons_of_mem _ member)⟩

theorem of_definitionsOfBranches (closed : material.Closed) (branches : List Branch)
    (areBranches : ∀ branch ∈ branches, material.Body branch.body) :
    ∀ definition ∈ Syntax.definitionsOfBranches branches, material.OfDefinition definition := by
  match branches with
  | [] => exact List.forall_mem_nil _
  | .mk test body span :: rest =>
      exact List.forall_mem_append.mpr
        ⟨of_definitionsOfNodes closed body (areBranches (.mk test body span) List.mem_cons_self),
        of_definitionsOfBranches closed rest fun other member =>
          areBranches other (List.mem_cons_of_mem _ member)⟩

end

theorem Home.put {home : Table MacroDefinition} (isHome : material.Home home) {name : String}
    {definition : MacroDefinition} (isCallable : material.Callable definition) :
    material.Home (home.put name definition) := by
  intro entry member
  rcases Table.mem_put member with isOld | rfl
  · exact isHome entry isOld
  · exact isCallable

theorem home_macroTable (closed : material.Closed) {nodes : List Node}
    (areNodes : material.Body nodes) : material.Home (Host.macroTable nodes) := by
  have areDefinitions := of_definitionsOfNodes closed nodes areNodes
  have areMacros : ∀ definition ∈ Syntax.macrosOf nodes, material.Callable definition := by
    intro definition member
    obtain ⟨other, isOther, isMacro⟩ := List.mem_filterMap.mp member
    cases other with
    | block block => cases isMacro
    | macro_ found =>
        cases isMacro
        exact areDefinitions _ isOther
  suffices kept : ∀ (entries : List (String × MacroDefinition)) (table : Table MacroDefinition),
      (∀ entry ∈ entries, material.Callable entry.2) → material.Home table →
        material.Home (table.putAll entries) by
    refine kept _ [] (fun entry member => ?_) (List.forall_mem_nil _)
    obtain ⟨definition, isDefinition, rfl⟩ := List.mem_map.mp member
    exact areMacros definition isDefinition
  intro entries
  induction entries with
  | nil => exact fun table _ isHome => isHome
  | cons entry rest inductionHypothesis =>
      intro table areEntries isHome
      rw [List.forall_mem_cons] at areEntries
      exact inductionHypothesis _ areEntries.2 (isHome.put areEntries.1)

theorem body_blockTable (closed : material.Closed) {nodes : List Node}
    (areNodes : material.Body nodes) :
    ∀ entry ∈ Host.blockTable nodes, material.Body entry.2.body := by
  have areDefinitions := of_definitionsOfNodes closed nodes areNodes
  have areBlocks : ∀ block ∈ Syntax.blocksOf nodes, material.Body block.body := by
    intro block member
    obtain ⟨other, isOther, isBlock⟩ := List.mem_filterMap.mp member
    cases other with
    | macro_ definition => cases isBlock
    | block found =>
        cases isBlock
        exact areDefinitions _ isOther
  unfold Host.blockTable
  refine List.foldlRecOn (motive := fun table : Table BlockDefinition =>
    ∀ entry ∈ table, material.Body entry.2.body) _ _ (List.forall_mem_nil _)
    fun table areEntries block member => ?_
  split
  · exact areEntries
  · intro entry isEntry
    rcases Table.mem_put isEntry with isOld | rfl
    · exact areEntries entry isOld
    · exact areBlocks block member

theorem layers_nil (material : Material) : material.Layers [] := List.forall_mem_nil _

theorem layers_add {overrides : Overrides} (areLayers : material.Layers overrides)
    (template : String) {blocks : Table BlockDefinition}
    (areBlocks : ∀ entry ∈ blocks, material.Body entry.2.body) :
    material.Layers (overrides.add template blocks) := by
  unfold Overrides.add
  refine List.foldlRecOn (motive := material.Layers) _ _ areLayers
    fun table areLayers block member => ?_
  intro entry isEntry
  rcases Table.mem_put isEntry with isOld | rfl
  · exact areLayers entry isOld
  · intro isBlock level isLevel
    rcases List.mem_append.mp isLevel with isOld | isAdded
    · cases isFound : table.lookup? block.1 with
      | none => rw [isFound] at isOld; cases isOld
      | some levels =>
          rw [isFound] at isOld
          exact areLayers _ (Table.mem_of_lookup? isFound) isBlock level isOld
    · obtain rfl := List.mem_singleton.mp isAdded
      exact areBlocks block member

/-! ### Views -/

theorem holds_outside (material : Material) (scopes : Scopes) (halted : Bool) :
    material.Holds ⟨scopes, [], [], .outside, halted⟩ :=
  ⟨nofun, nofun, nofun, fun _ => nofun, nofun⟩

namespace Holds

variable {view before after : View} {setting : Setting}

theorem enter (holds : material.Holds view) (isSetting : material.OfSetting setting) :
    material.Holds (setting.enter view) := by
  obtain ⟨macros, namespaces, homes, callers, overrides⟩ := holds
  cases setting with
  | frame | loop | block | template => exact ⟨macros, namespaces, homes, callers, overrides⟩
  | call caller home =>
      refine ⟨macros, namespaces, List.forall_mem_cons.mpr ⟨isSetting.2, homes⟩, ?_, overrides⟩
      intro isCalled handed member
      rcases List.mem_cons.mp member with isCaller | inCallers
      · exact isSetting.1 handed isCaller.symm
      · exact callers isCalled handed inCallers
  | callSite =>
      exact ⟨macros, namespaces, fun home member => homes home (List.mem_of_mem_tail member),
        fun isCalled handed member => callers isCalled handed (List.mem_of_mem_tail member),
        overrides⟩
  | chain => exact ⟨macros, namespaces, homes, callers, isSetting⟩
  | embedded => exact ⟨macros, namespaces, nofun, fun _ => nofun, nofun⟩

/-- Leaving a setting brings back nothing that was not there. -/
theorem leave (holds : material.Holds before) (holdsAfter : material.Holds after)
    (setting : Setting) : material.Holds (setting.leave before after) := by
  obtain ⟨macros, namespaces, homes, callers, overrides⟩ := holdsAfter
  cases setting with
  | frame | loop | block | template => exact ⟨macros, namespaces, homes, callers, overrides⟩
  | call =>
      exact ⟨macros, namespaces, fun home member => homes home (List.mem_of_mem_tail member),
        fun isCalled handed member => callers isCalled handed (List.mem_of_mem_tail member),
        overrides⟩
  | callSite =>
      refine ⟨macros, namespaces, fun home member => ?_, fun isCalled handed member => ?_, overrides⟩
      · rcases List.mem_append.mp member with isFirst | inRest
        · exact holds.homes home (List.mem_of_head? (Option.mem_toList.mp isFirst))
        · exact homes home inRest
      · rcases List.mem_append.mp member with isFirst | inRest
        · exact holds.callers isCalled handed (List.mem_of_head? (Option.mem_toList.mp isFirst))
        · exact callers isCalled handed inRest
  | chain => exact ⟨macros, namespaces, homes, callers, holds.overrides⟩
  | embedded =>
      exact ⟨holds.macros, holds.namespaces, holds.homes, holds.callers, holds.overrides⟩

theorem define (holds : material.Holds view) (name : String) {callable : Macro}
    (isCallable : material.OfMacro callable) :
    material.Holds { view with macros := view.macros.put name callable } := by
  refine { holds with macros := fun entry member isCalled => ?_ }
  rcases Table.mem_put member with isOld | rfl
  · exact holds.macros entry isOld isCalled
  · exact isCallable

theorem mount (holds : material.Holds view) (name : String) {macros : Table MacroDefinition}
    (isHome : material.Home macros) :
    material.Holds { view with namespaces := view.namespaces.put name macros } := by
  refine { holds with namespaces := fun entry member => ?_ }
  rcases Table.mem_put member with isOld | rfl
  · exact holds.namespaces entry isOld
  · exact isHome.sisters

end Holds

end Material

end Render

end Stencil
