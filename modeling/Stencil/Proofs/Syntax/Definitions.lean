import Mathlib.Data.List.Basic
import Mathlib.Data.Prod.Basic
import Stencil.Proofs.Syntax.Visits

/-!
Contract: where the blocks and macros stand that a tree defines.

Owns:
- the statements that define something, and the addresses that lead through a macro;
- the definitions of a body are those at the addresses that lead through no macro, each of them once
  and in the order of the addresses;
- a statement that is no macro makes all definitions that its bodies make.

Does not own: the tables of definitions by name (`Stencil.Proofs.Host.Tables`).
-/

set_option autoImplicit false

namespace Stencil.Syntax

/-! ### The definitions of a body -/

theorem mem_definitionsOfNodes {definition : Definition} {nodes : List Node} :
    definition ∈ definitionsOfNodes nodes ↔ ∃ node ∈ nodes, definition ∈ node.definitions := by
  induction nodes with
  | nil => simp [definitionsOfNodes]
  | cons node rest inductionHypothesis => simp [definitionsOfNodes, inductionHypothesis]

theorem mem_blocksOf {block : BlockDefinition} {nodes : List Node} :
    block ∈ blocksOf nodes ↔ Definition.block block ∈ definitionsOfNodes nodes := by
  unfold blocksOf
  rw [List.mem_filterMap]
  constructor
  · rintro ⟨definition, member, isBlock⟩
    cases definition with
    | block other => exact Option.some.inj isBlock ▸ member
    | macro_ => cases isBlock
  · exact fun member => ⟨_, member, rfl⟩

/-! ### Statements that define something -/

/-- The statement that makes a definition. -/
def Definition.node : Definition → Node
  | .block made => .block made.name made.body made.span
  | .macro_ made => .define made.name made.params made.body made.span

theorem Definition.node_injective : Function.Injective Definition.node := by
  rintro (⟨name, body, span⟩ | ⟨name, params, body, span⟩)
    (⟨name', body', span'⟩ | ⟨name', params', body', span'⟩) same
  · obtain ⟨rfl, rfl, rfl⟩ := Node.block.inj same
    rfl
  · cases same
  · cases same
  · obtain ⟨rfl, rfl, rfl, rfl⟩ := Node.define.inj same
    rfl

namespace Part

/-- Whether a part is a macro, whose inside is closed. -/
def isMacro : Part → Bool
  | .node (.define _ _ _ _) => true
  | _ => false

/-- What a part itself defines. -/
def defines? : Part → Option Definition
  | .node (.block name body span) => some (.block ⟨name, body, span⟩)
  | .node (.define name params body span) => some (.macro_ ⟨name, params, body, span⟩)
  | _ => none

/-- The definitions that a part makes. -/
def definitions : Part → List Definition
  | .node whole => whole.definitions
  | _ => []

/-- The parts immediately inside a part that are open to other parts of the tree. -/
def opened (part : Part) : List Part := if part.isMacro then [] else part.inner

/-- Whether an address inside a part leads through a macro. -/
def leadsThroughMacro : Part → List Nat → Bool
  | _, [] => false
  | part, index :: rest =>
      part.isMacro || part.inner[index]?.any fun inner => inner.leadsThroughMacro rest

/-- A part defines something if it is the statement that makes the definition. -/
theorem defines?_eq_some_iff {part : Part} {definition : Definition} :
    part.defines? = some definition ↔ part = .node definition.node := by
  constructor
  · intro defines
    unfold defines? at defines
    split at defines
    · obtain rfl := Option.some.inj defines
      rfl
    · obtain rfl := Option.some.inj defines
      rfl
    · cases defines
  · rintro rfl
    cases definition <;> rfl

/-! ### Parts that define nothing -/

theorem definitions_exprs (exprs : List Expr) : (exprs.map Part.expr).flatMap definitions = [] := by
  rw [List.flatMap_map, List.flatMap_eq_nil_iff]
  exact fun _ _ => rfl

theorem definitions_targets (targets : List Target) :
    (targets.map Part.target).flatMap definitions = [] := by
  rw [List.flatMap_map, List.flatMap_eq_nil_iff]
  exact fun _ _ => rfl

theorem definitions_bindings (bindings : List Binding) :
    (bindings.flatMap fun binding => [Part.target binding.target, .expr binding.value]).flatMap
      definitions = [] := by
  rw [List.flatMap_assoc, List.flatMap_eq_nil_iff]
  exact fun _ _ => rfl

theorem definitions_nodes (nodes : List Node) :
    (nodes.map Part.node).flatMap definitions = definitionsOfNodes nodes := by
  induction nodes with
  | nil => rfl
  | cons node rest inductionHypothesis =>
      rw [definitionsOfNodes, ← inductionHypothesis, List.map_cons, List.flatMap_cons, definitions]

theorem definitions_branches (branches : List Branch) :
    (branches.flatMap fun branch => .expr branch.test :: branch.body.map .node).flatMap
      definitions = definitionsOfBranches branches := by
  induction branches with
  | nil => rfl
  | cons branch rest inductionHypothesis =>
      obtain ⟨test, body, span⟩ := branch
      rw [definitionsOfBranches, ← inductionHypothesis, ← definitions_nodes]
      simp [definitions, Branch.test, Branch.body]

/-- A part makes first its own definition, and then those of the parts inside it, unless it is a
macro. -/
theorem definitions_eq (part : Part) :
    part.definitions = part.defines?.toList ++ part.opened.flatMap definitions := by
  cases part with
  | expr expr => exact (definitions_exprs expr.operands).symm
  | target target =>
      cases target <;> simp [definitions, defines?, opened, isMacro, inner, definitions_targets]
  | node node =>
      cases node with
      | choose branches otherwise span =>
          cases otherwise <;>
            simp [definitions, Node.definitions, defines?, opened, isMacro, inner,
              Node.innerParts, definitions_branches, definitions_nodes]
      | each target items condition body otherwise span =>
          cases condition <;> cases otherwise <;>
            simp [definitions, Node.definitions, defines?, opened, isMacro, inner,
              Node.innerParts, definitions_nodes]
      | custom name args body span =>
          cases body <;>
            simp [definitions, Node.definitions, defines?, opened, isMacro, inner,
              Node.innerParts, definitions_exprs, definitions_nodes]
      | _ =>
          simp [definitions, Node.definitions, defines?, opened, isMacro, inner,
              Node.innerParts, definitions_exprs, definitions_nodes, definitions_bindings]

/-! ### The definitions and their addresses -/

/-- The statements that make the definitions of a part. -/
def defining (part : Part) : List Part :=
  part.definitions.map fun definition => .node definition.node

/-- Whether a statement at an address inside a part makes a definition and is in no macro. -/
def Makes (part : Part) (address : List Nat) (found : Part) : Prop :=
  part.at? address = some found ∧ found.defines?.isSome ∧ part.leadsThroughMacro address = false

/-- The parts immediately inside a part that the walk leaves out are expressions. -/
theorem visited_or_expr {part inside : Part} (member : inside ∈ part.inner) :
    inside ∈ part.visited ∨ ∃ expr, inside = .expr expr := by
  rw [← List.take_append_drop part.overlooked part.inner, List.mem_append] at member
  refine member.symm.imp_right fun isOverlooked => ?_
  unfold overlooked at isOverlooked
  split at isOverlooked
  · rw [inner, Node.innerParts, List.take_left' (List.length_map _)] at isOverlooked
    obtain ⟨expr, -, rfl⟩ := List.mem_map.mp isOverlooked
    exact ⟨expr, rfl⟩
  · cases isOverlooked

/-- Inside an expression there are only expressions. -/
theorem at?_expr {expr : Expr} {address : List Nat} {found : Part}
    (isFound : (Part.expr expr).at? address = some found) : ∃ inside, found = .expr inside := by
  induction address generalizing expr with
  | nil => exact ⟨expr, (Option.some.inj isFound).symm⟩
  | cons index rest inductionHypothesis =>
      rw [at?] at isFound
      obtain ⟨inside, isInside, isFound⟩ := Option.bind_eq_some_iff.mp isFound
      obtain ⟨operand, -, rfl⟩ := List.mem_map.mp (List.mem_of_getElem? isInside)
      exact inductionHypothesis isFound

theorem not_makes_expr (expr : Expr) (address : List Nat) (found : Part) :
    ¬(Part.expr expr).Makes address found := by
  rintro ⟨isFound, defines, -⟩
  obtain ⟨inside, rfl⟩ := at?_expr isFound
  cases defines

theorem makes_nil {part found : Part} :
    part.Makes [] found ↔
      (part.defines?.map fun definition => Part.node definition.node) = some found := by
  constructor
  · rintro ⟨isHere, defines, -⟩
    obtain rfl := Option.some.inj isHere
    obtain ⟨definition, isMade⟩ := Option.isSome_iff_exists.mp defines
    rw [isMade, Option.map_some, defines?_eq_some_iff.mp isMade]
  · intro isMade
    obtain ⟨definition, defines, rfl⟩ := Option.map_eq_some_iff.mp isMade
    obtain rfl := defines?_eq_some_iff.mp defines
    exact ⟨rfl, Option.isSome_of_eq_some defines, rfl⟩

theorem makes_cons {part : Part} {index : Nat} {rest : List Nat} {found : Part} :
    part.Makes (index :: rest) found ↔ FoundIn Makes part.opened 0 (index :: rest) found := by
  constructor
  · rintro ⟨isFound, defines, noMacro⟩
    rw [leadsThroughMacro, Bool.or_eq_false_iff] at noMacro
    obtain ⟨isOpen, noMacro⟩ := noMacro
    rw [at?] at isFound
    obtain ⟨inside, isInside, isFound⟩ := Option.bind_eq_some_iff.mp isFound
    rw [isInside, Option.any_some] at noMacro
    refine ⟨index, rest, inside, by rw [Nat.zero_add], ?_, isFound, defines, noMacro⟩
    rw [opened, isOpen]
    exact isInside
  · rintro ⟨other, rest, inside, ⟨rfl, rfl⟩, isInside, isFound, defines, noMacro⟩
    rw [Nat.zero_add]
    cases isOpen : part.isMacro with
    | true =>
        rw [opened, isOpen] at isInside
        cases isInside
    | false =>
        rw [opened, isOpen] at isInside
        replace isInside : part.inner[other]? = some inside := isInside
        refine ⟨?_, defines, ?_⟩
        · rw [at?, isInside]
          exact isFound
        · rw [leadsThroughMacro, isOpen, isInside]
          exact noMacro

/-- The definitions of a part are listed once each, in the order of their addresses. -/
theorem exists_defining (part : Part) :
    ∃ listed, listed.map Prod.snd = part.defining ∧ Visits listed part.Makes := by
  induction part using Part.induction_on_visited with
  | step part inductionHypothesis =>
      have walks : part.defining = (part.defines?.map fun definition =>
          Part.node definition.node).toList ++ part.opened.flatMap defining := by
        rw [defining, definitions_eq, List.map_append, List.map_flatMap, Option.toList_map]
        rfl
      refine exists_visits_whole walks (fun _ => makes_nil) (fun _ _ _ => makes_cons) ?_
      intro inside isOpen
      have isInner : inside ∈ part.inner := by
        unfold opened at isOpen
        split at isOpen
        · cases isOpen
        · exact isOpen
      -- the induction leaves out what the walk leaves out, where there are no definitions
      rcases visited_or_expr isInner with isVisited | ⟨expr, rfl⟩
      · exact inductionHypothesis inside isVisited
      · refine ⟨[], rfl, .nil, fun address found => ?_⟩
        exact iff_of_false List.not_mem_nil (not_makes_expr expr address found)

end Part

/-! ### Bodies -/

/-- Whether an address inside a body leads through a macro. -/
def leadsThroughMacro (nodes : List Node) : List Nat → Bool
  | [] => false
  | index :: rest => nodes[index]?.any fun node => (Part.node node).leadsThroughMacro rest

/-- Whether the statement at an address inside a body makes a definition and is in no macro. -/
def DefinedAt (nodes : List Node) (address : List Nat) (definition : Definition) : Prop :=
  partAt? nodes address = some (.node definition.node) ∧ leadsThroughMacro nodes address = false

/-- At an address there is one definition at most. -/
theorem DefinedAt.unique {nodes : List Node} {address : List Nat} {definition other : Definition}
    (isDefined : DefinedAt nodes address definition) (isOther : DefinedAt nodes address other) :
    definition = other := by
  have same := Option.some.inj (isDefined.1.symm.trans isOther.1)
  exact Definition.node_injective (Part.node.inj same)

/-- What is found inside a row of statements makes a definition outside all macros. -/
theorem foundIn_makes {nodes : List Node} {address : List Nat} {definition : Definition} :
    Part.FoundIn Part.Makes (nodes.map .node) 0 address (.node definition.node) ↔
      DefinedAt nodes address definition := by
  rw [Part.foundIn_map_node]
  constructor
  · rintro ⟨index, rest, node, rfl, isNode, isFound, -, noMacro⟩
    rw [DefinedAt, partAt?, leadsThroughMacro, isNode]
    exact ⟨isFound, noMacro⟩
  · rintro ⟨isFound, noMacro⟩
    cases address with
    | nil => cases isFound
    | cons index rest =>
        obtain ⟨node, isNode, isFound⟩ := Option.bind_eq_some_iff.mp isFound
        rw [leadsThroughMacro, isNode] at noMacro
        have defines := Part.defines?_eq_some_iff.mpr (Eq.refl (Part.node definition.node))
        exact ⟨index, rest, node, rfl, isNode, isFound, Option.isSome_of_eq_some defines, noMacro⟩

/-- The definitions of a body are listed once each, in the order of their addresses. -/
theorem exists_definedAt (nodes : List Node) :
    ∃ listed : List (List Nat × Definition), listed.map Prod.snd = definitionsOfNodes nodes ∧
      (listed.map Prod.fst).Pairwise (· < ·) ∧
      ∀ address definition,
        (address, definition) ∈ listed ↔ DefinedAt nodes address definition := by
  obtain ⟨parts, areParts, ordered, complete⟩ : ∃ listed,
      listed.map Prod.snd = (nodes.map Part.node).flatMap Part.defining ∧
        Visits listed (Part.FoundIn Part.Makes (nodes.map .node) 0) :=
    Part.exists_visits_row (fun part _ => part.exists_defining) 0
  let toPart (definition : Definition) : Part := .node definition.node
  have isInjective : Function.Injective toPart := fun _ _ same =>
    Definition.node_injective (Part.node.inj same)
  have areDefinitions : parts.map Prod.snd = (definitionsOfNodes nodes).map toPart := by
    rw [areParts, ← Part.definitions_nodes, List.map_flatMap]
    rfl
  have sameLength : (parts.map Prod.fst).length = (definitionsOfNodes nodes).length := by
    rw [List.length_map, ← List.length_map Prod.snd, areDefinitions, List.length_map]
  let listed := (parts.map Prod.fst).zip (definitionsOfNodes nodes)
  have isListed : listed.map (Prod.map id toPart) = parts := by
    rw [← List.zip_map, List.map_id, ← areDefinitions, List.zip_map']
    exact List.map_id _
  refine ⟨listed, List.map_snd_zip (Nat.le_of_eq sameLength.symm), ?_, fun address definition => ?_⟩
  · rw [List.map_fst_zip (Nat.le_of_eq sameLength)]
    exact ordered
  · rw [← foundIn_makes, ← complete, ← isListed]
    exact (List.mem_map_of_injective (Function.injective_id.prodMap isInjective)).symm

/-- There is a definition at some address just if the definition is one of the body's. -/
theorem mem_definitions_iff_definedAt {nodes : List Node} {definition : Definition} :
    definition ∈ definitionsOfNodes nodes ↔ ∃ address, DefinedAt nodes address definition := by
  obtain ⟨listed, areDefinitions, -, complete⟩ := exists_definedAt nodes
  simp only [← areDefinitions, ← complete, List.mem_map, Prod.exists, exists_eq_right]

/-! ### The definitions that bodies make -/

namespace Node

/-- A statement that is no macro makes the definitions that its bodies make. -/
theorem definitions_of_body {node : Node} (isOpen : (Part.node node).isMacro = false)
    {body : List Node} (isBody : body ∈ node.bodies) :
    definitionsOfNodes body ⊆ node.definitions := by
  cases isOrdinary : node.isOrdinary with
  | true =>
      rw [definitions_of_isOrdinary isOrdinary]
      exact fun _ member => List.mem_flatMap.mpr ⟨body, isBody, member⟩
  | false =>
      cases node with
      | block name inner span =>
          obtain rfl := List.mem_singleton.mp isBody
          exact List.subset_cons_self _ _
      | callBlock call params inner span =>
          obtain rfl := List.mem_singleton.mp isBody
          exact List.Subset.refl _
      | custom name args inner span =>
          obtain rfl := Option.mem_toList.mp isBody
          exact List.Subset.refl _
      | define => cases isOpen
      | inherit | embed | importAs | importNames => cases isBody
      | _ => cases isOrdinary

end Node

/-- Whatever is inside a part, but in none of its macros, makes definitions of the part. -/
theorem Part.definitions_of_at? {part found : Part} {address : List Nat}
    (isFound : part.at? address = some found) (noMacro : part.leadsThroughMacro address = false) :
    found.definitions ⊆ part.definitions := by
  induction address generalizing part with
  | nil =>
      obtain rfl := Option.some.inj isFound
      exact List.Subset.refl _
  | cons index rest inductionHypothesis =>
      rw [leadsThroughMacro, Bool.or_eq_false_iff] at noMacro
      obtain ⟨isOpen, noMacro⟩ := noMacro
      rw [at?] at isFound
      obtain ⟨inside, isInside, isFound⟩ := Option.bind_eq_some_iff.mp isFound
      rw [isInside, Option.any_some] at noMacro
      intro definition member
      rw [definitions_eq, List.mem_append, opened, isOpen]
      refine .inr (List.mem_flatMap.mpr ⟨inside, List.mem_of_getElem? isInside, ?_⟩)
      exact inductionHypothesis isFound noMacro member

/-- The definitions that a body makes inside another one belong to the other one, unless there is a
macro around it. -/
theorem definitions_of_body_at {nodes body : List Node} {address : List Nat} {node : Node}
    (isFound : partAt? nodes address = some (.node node))
    (noMacro : leadsThroughMacro nodes address = false)
    (isOpen : (Part.node node).isMacro = false) (isBody : body ∈ node.bodies) :
    definitionsOfNodes body ⊆ definitionsOfNodes nodes := by
  cases address with
  | nil => cases isFound
  | cons index rest =>
      obtain ⟨outer, isOuter, isFound⟩ := Option.bind_eq_some_iff.mp isFound
      rw [leadsThroughMacro, isOuter] at noMacro
      have inOuter : node.definitions ⊆ outer.definitions := Part.definitions_of_at? isFound noMacro
      intro definition member
      rw [← Part.definitions_nodes, List.flatMap_map]
      refine List.mem_flatMap.mpr ⟨outer, List.mem_of_getElem? isOuter, ?_⟩
      exact inOuter (node.definitions_of_body isOpen isBody member)

end Stencil.Syntax
