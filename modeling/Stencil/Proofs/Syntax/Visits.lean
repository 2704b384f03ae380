import Mathlib.Data.List.Flatten
import Stencil.Proofs.Syntax.Inner
import Stencil.Syntax.Walk

/-!
Contract: which parts of a tree the walk comes by, and how often.

Owns:
- the parts immediately inside a part as they are written, and the part at an address;
- the walk through a part belongs to every walk that comes by it;
- the walk comes by each part of a tree once, apart from what the defaults of a call block's
  parameters are made of.

An address says at each step how many parts of the same whole are written before the one that is
meant. In the order of addresses a whole comes before what is inside it, and what is written first
comes first.

Does not own: where the parts of a template that has been read stand (`Stencil.Grammar`).
-/

set_option autoImplicit false

namespace Stencil.Syntax

open scoped List

/-! ### Parts of parts -/

/-- The expressions immediately inside an expression in the order in which they are written. -/
def Expr.operands : Expr → List Expr
  | .conditional condition whenTrue otherwise _ => whenTrue :: condition :: otherwise.toList
  | expr => expr.children

namespace Node

/-- The defaults of parameters. -/
def defaultsOf (params : List Param) : List Expr := params.filterMap Param.default

/-- The parts immediately inside a statement in the order in which they are written. -/
def innerParts : Node → List Part
  | .text _ _ => []
  | .verbatim _ _ => []
  | .comment _ _ => []
  | .output value _ => [.expr value]
  | .choose branches otherwise _ =>
      (branches.flatMap fun branch => .expr branch.test :: branch.body.map .node) ++
        (otherwise.getD []).map .node
  | .each target items condition body otherwise _ =>
      .target target :: .expr items :: (condition.toList.map .expr ++ body.map .node ++
        (otherwise.getD []).map .node)
  | .assign target value _ => [.target target, .expr value]
  | .capture target filters body _ =>
      .target target :: ((filters.flatMap FilterCall.args).map .expr ++ body.map .node)
  | .block _ body _ => body.map .node
  | .inherit template _ => [.expr template]
  | .embed template _ _ _ => [.expr template]
  | .importAs template _ _ _ => [.expr template]
  | .importNames template _ _ _ => [.expr template]
  | .define _ params body _ => (defaultsOf params).map .expr ++ body.map .node
  | .callBlock call params body _ => (defaultsOf params).map .expr ++ .expr call :: body.map .node
  | .withBlock bindings body _ =>
      (bindings.flatMap fun binding => [.target binding.target, .expr binding.value]) ++
        body.map .node
  | .filterBlock filters body _ =>
      (filters.flatMap FilterCall.args).map .expr ++ body.map .node
  | .custom _ args body _ => args.map .expr ++ (body.getD []).map .node

end Node

namespace Part

/-- Where a part of a tree begins. -/
def start : Part → Nat
  | .node whole => whole.span.start.offset
  | .expr whole => whole.span.start.offset
  | .target whole => whole.span.start.offset

/-- The parts immediately inside a part in the order in which they are written. -/
def inner : Part → List Part
  | .node whole => whole.innerParts
  | .expr whole => whole.operands.map .expr
  | .target (.name _ _) => []
  | .target (.tuple items _) => items.map .target
  | .target (.attribute value _ _) => [.expr value]
  | .target (.item value index _) => [.expr value, .expr index]

/-- How many of the parts immediately inside a part the walk leaves out, which are the first
ones. -/
def overlooked : Part → Nat
  | .node (.callBlock _ params _ _) => (Node.defaultsOf params).length
  | _ => 0

/-- The parts immediately inside a part that the walk comes by. -/
def visited (part : Part) : List Part := part.inner.drop part.overlooked

/-- A part and all parts that the walk comes by inside it. -/
def parts : Part → List Part
  | .node whole => whole.parts
  | .expr whole => whole.parts
  | .target whole => whole.parts

/-- The part at an address inside a part. -/
def at? : Part → List Nat → Option Part
  | part, [] => some part
  | part, index :: rest => part.inner[index]?.bind fun inner => inner.at? rest

/-- Whether an address inside a part leads through a default of a call block's parameter. -/
def leadsThroughDefault : Part → List Nat → Bool
  | _, [] => false
  | part, index :: rest =>
      decide (index < part.overlooked) ||
        part.inner[index]?.any fun inner => inner.leadsThroughDefault rest

end Part

/-! ### The walk, whole by whole -/

theorem partsOfExprs_eq_flatMap (exprs : List Expr) :
    partsOfExprs exprs = (exprs.map Part.expr).flatMap Part.parts := by
  induction exprs with
  | nil => rfl
  | cons expr rest inductionHypothesis =>
      rw [partsOfExprs, inductionHypothesis, List.map_cons, List.flatMap_cons, Part.parts]

theorem partsOfTargets_eq_flatMap (targets : List Target) :
    partsOfTargets targets = (targets.map Part.target).flatMap Part.parts := by
  induction targets with
  | nil => rfl
  | cons target rest inductionHypothesis =>
      rw [partsOfTargets, inductionHypothesis, List.map_cons, List.flatMap_cons, Part.parts]

theorem partsOfNodes_eq_flatMap (nodes : List Node) :
    partsOfNodes nodes = (nodes.map Part.node).flatMap Part.parts := by
  induction nodes with
  | nil => rfl
  | cons node rest inductionHypothesis =>
      rw [partsOfNodes, inductionHypothesis, List.map_cons, List.flatMap_cons, Part.parts]

theorem partsOfEntries_eq_flatMap (entries : List (Expr × Expr)) :
    partsOfEntries entries =
      ((entries.flatMap fun entry => [entry.1, entry.2]).map Part.expr).flatMap Part.parts := by
  induction entries with
  | nil => rfl
  | cons entry rest inductionHypothesis =>
      obtain ⟨key, value⟩ := entry
      simp [partsOfEntries, inductionHypothesis, Part.parts]

theorem partsOfBranches_eq_flatMap (branches : List Branch) :
    partsOfBranches branches =
      (branches.flatMap fun branch => .expr branch.test :: branch.body.map .node).flatMap
        Part.parts := by
  induction branches with
  | nil => rfl
  | cons branch rest inductionHypothesis =>
      obtain ⟨test, body, span⟩ := branch
      simp [partsOfBranches, inductionHypothesis, partsOfNodes_eq_flatMap, Part.parts, Branch.test,
        Branch.body]

theorem partsOfFilters_eq_flatMap (filters : List FilterCall) :
    partsOfFilters filters =
      ((filters.flatMap FilterCall.args).map Part.expr).flatMap Part.parts := by
  simp only [partsOfFilters, partsOfExprs_eq_flatMap, List.map_flatMap, List.flatMap_assoc]

theorem partsOfDefaults_eq_flatMap (params : List Param) :
    (params.flatMap fun param => partsOfOptional param.default) =
      ((Node.defaultsOf params).map Part.expr).flatMap Part.parts := by
  induction params with
  | nil => rfl
  | cons param rest inductionHypothesis =>
      rw [List.flatMap_cons, inductionHypothesis]
      cases isDefault : param.default <;>
        simp [partsOfOptional, Node.defaultsOf, isDefault, Part.parts]

/-- The walk comes by a whole, and then goes through each of the parts inside it that it does not
leave out. -/
theorem Part.parts_eq (part : Part) : part.parts = part :: part.visited.flatMap Part.parts := by
  cases part with
  | expr expr =>
      cases expr with
      | conditional test whenTrue otherwise span =>
          cases otherwise <;>
            simp [Part.parts, Expr.parts, visited, overlooked, inner, Expr.operands]
      | _ =>
          simp [Part.parts, Expr.parts, visited, overlooked, inner, Expr.operands, Expr.children,
            partsOfExprs_eq_flatMap, partsOfEntries_eq_flatMap]
  | target target =>
      cases target <;>
        simp [Part.parts, Target.parts, visited, overlooked, inner, partsOfTargets_eq_flatMap]
  | node node =>
      cases node with
      | choose branches otherwise span =>
          cases otherwise <;>
            simp [Part.parts, Node.parts, visited, overlooked, inner, Node.innerParts,
              partsOfBranches_eq_flatMap, partsOfNodes_eq_flatMap]
      | each target items condition body otherwise span =>
          cases condition <;> cases otherwise <;>
            simp [Part.parts, Node.parts, visited, overlooked, inner, Node.innerParts,
              partsOfOptional, partsOfNodes_eq_flatMap]
      | custom name args body span =>
          cases body <;>
            simp [Part.parts, Node.parts, visited, overlooked, inner, Node.innerParts,
              partsOfExprs_eq_flatMap, partsOfNodes_eq_flatMap]
      | withBlock bindings body span =>
          simp [Part.parts, Node.parts, visited, overlooked, inner, Node.innerParts,
            partsOfNodes_eq_flatMap, List.flatMap_assoc]
      | _ =>
          simp [Part.parts, Node.parts, visited, overlooked, inner, Node.innerParts,
            partsOfDefaults_eq_flatMap, partsOfFilters_eq_flatMap, partsOfNodes_eq_flatMap]

/-- The walk through one of several parts belongs to the walk through all of them. -/
theorem Part.parts_sublist_flatMap {part : Part} {row : List Part} (member : part ∈ row) :
    part.parts.Sublist (row.flatMap Part.parts) := by
  have alone := (List.singleton_sublist.mpr member).flatMap Part.parts
  rwa [List.flatMap_singleton] at alone

/-- What holds of a part if it holds of the parts inside it that the walk comes by holds of all
parts. -/
theorem Part.induction_on_visited {property : Part → Prop}
    (step : ∀ part : Part, (∀ inside ∈ part.visited, property inside) → property part)
    (part : Part) : property part := by
  refine step part fun inside member => Part.induction_on_visited step inside
termination_by part.parts.length
decreasing_by
  rw [part.parts_eq, List.length_cons, Nat.lt_succ_iff]
  exact (Part.parts_sublist_flatMap member).length_le

/-- The walk through a part that the walk through another one comes by belongs to it. -/
theorem Part.parts_sublist {part inside : Part} (member : inside ∈ part.parts) :
    inside.parts.Sublist part.parts := by
  induction part using Part.induction_on_visited with
  | step part inductionHypothesis =>
      rw [part.parts_eq] at member
      rcases List.mem_cons.mp member with rfl | isInner
      · exact .refl _
      · obtain ⟨first, isVisited, isInFirst⟩ := List.mem_flatMap.mp isInner
        rw [part.parts_eq]
        have inFirst := inductionHypothesis first isVisited isInFirst
        exact (inFirst.trans (Part.parts_sublist_flatMap isVisited)).cons part

/-- The parts immediately inside a part that a walk comes by follow one another in this walk. -/
theorem visited_sublist_partsOfNodes {nodes : List Node} {part : Part}
    (member : part ∈ partsOfNodes nodes) : part.visited.Sublist (partsOfNodes nodes) := by
  rw [partsOfNodes_eq_flatMap] at member ⊢
  obtain ⟨outermost, isNode, isInside⟩ := List.mem_flatMap.mp member
  have begins (inside : Part) (_ : inside ∈ part.visited) : [inside].Sublist inside.parts := by
    rw [inside.parts_eq]
    exact List.sublist_append_left [inside] _
  calc part.visited
    _ = part.visited.flatMap ([·]) := (List.flatMap_singleton' _).symm
    _ <+ part.visited.flatMap Part.parts := List.Sublist.flatMap_right _ begins
    _ <+ part.parts := by
      rw [part.parts_eq]
      exact List.sublist_cons_self part _
    _ <+ outermost.parts := Part.parts_sublist isInside
    _ <+ (nodes.map Part.node).flatMap Part.parts := Part.parts_sublist_flatMap isNode

/-! ### Each part once -/

/-- Addresses and the parts at them, in the order of the addresses: all addresses that a test
admits, and each of them once. -/
structure Visits (listed : List (List Nat × Part)) (admits : List Nat → Part → Prop) : Prop where
  ordered : (listed.map Prod.fst).Pairwise (· < ·)
  complete : ∀ address part, (address, part) ∈ listed ↔ admits address part

namespace Part

/-- Whether a part stands at an address to which the walk comes. -/
def Reaches (part : Part) (address : List Nat) (found : Part) : Prop :=
  part.at? address = some found ∧ part.leadsThroughDefault address = false

/-- Whether a part is found at an address inside one of several parts, the first of which has a
given index, if it is known what is found inside each of them. -/
def FoundIn (finds : Part → List Nat → Part → Prop) (row : List Part) (first : Nat)
    (address : List Nat) (found : Part) : Prop :=
  ∃ index rest part, address = (first + index) :: rest ∧ row[index]? = some part ∧
    finds part rest found

theorem foundIn_cons {finds : Part → List Nat → Part → Prop} {part : Part} {row : List Part}
    {first : Nat} {address : List Nat} {found : Part} :
    FoundIn finds (part :: row) first address found ↔
      (∃ rest, address = first :: rest ∧ finds part rest found) ∨
        FoundIn finds row (first + 1) address found := by
  constructor
  · rintro ⟨index, rest, other, rfl, isOther, isFound⟩
    cases index with
    | zero =>
        obtain rfl := Option.some.inj isOther
        exact .inl ⟨rest, rfl, isFound⟩
    | succ index =>
        refine .inr ⟨index, rest, other, ?_, isOther, isFound⟩
        rw [Nat.add_right_comm, Nat.add_assoc]
  · rintro (⟨rest, rfl, isFound⟩ | ⟨index, rest, other, rfl, isOther, isFound⟩)
    · exact ⟨0, rest, part, rfl, rfl, isFound⟩
    · refine ⟨index + 1, rest, other, ?_, isOther, isFound⟩
      rw [Nat.add_right_comm, Nat.add_assoc]

/-- Inside a part the walk comes to the addresses behind those that it leaves out. -/
theorem reaches_cons {part : Part} {index : Nat} {rest : List Nat} {found : Part} :
    part.Reaches (index :: rest) found ↔
      FoundIn Reaches part.visited part.overlooked (index :: rest) found := by
  constructor
  · rintro ⟨isFound, noDefault⟩
    rw [leadsThroughDefault, Bool.or_eq_false_iff, decide_eq_false_iff_not, Nat.not_lt] at noDefault
    obtain ⟨isVisited, noDefault⟩ := noDefault
    rw [at?] at isFound
    obtain ⟨inside, isInside, isFound⟩ := Option.bind_eq_some_iff.mp isFound
    rw [isInside, Option.any_some] at noDefault
    refine ⟨index - part.overlooked, rest, inside, ?_, ?_, isFound, noDefault⟩
    · rw [Nat.add_sub_cancel' isVisited]
    · rw [visited, List.getElem?_drop, Nat.add_sub_cancel' isVisited]
      exact isInside
  · rintro ⟨behind, rest, inside, ⟨rfl, rfl⟩, isInside, isFound, noDefault⟩
    rw [visited, List.getElem?_drop] at isInside
    refine ⟨?_, ?_⟩
    · rw [at?, isInside]
      exact isFound
    · rw [leadsThroughDefault, isInside, Option.any_some, noDefault, Bool.or_false,
        decide_eq_false_iff_not, Nat.not_lt]
      exact Nat.le_add_right _ _

/-- Addresses that are one step longer. -/
theorem mem_map_cons {listed : List (List Nat × Part)} {first : Nat} {address : List Nat}
    {found : Part} :
    (address, found) ∈ listed.map (fun entry => (first :: entry.1, entry.2)) ↔
      ∃ rest, address = first :: rest ∧ (rest, found) ∈ listed := by
  simp only [List.mem_map, Prod.mk.injEq, Prod.exists]
  constructor
  · rintro ⟨rest, part, member, rfl, rfl⟩
    exact ⟨rest, rfl, member⟩
  · rintro ⟨rest, rfl, member⟩
    exact ⟨rest, found, member, rfl, rfl⟩

/-- What is found inside several parts, one after another. -/
theorem exists_visits_row {finds : Part → List Nat → Part → Prop} {walk : Part → List Part}
    {row : List Part} (each : ∀ part ∈ row, ∃ listed, listed.map Prod.snd = walk part ∧
      Visits listed (finds part)) (first : Nat) :
    ∃ listed, listed.map Prod.snd = row.flatMap walk ∧ Visits listed (FoundIn finds row first) := by
  induction row generalizing first with
  | nil =>
      refine ⟨[], rfl, .nil, fun address found => ⟨nofun, ?_⟩⟩
      rintro ⟨index, rest, part, -, isPart, -⟩
      cases isPart
  | cons part row inductionHypothesis =>
      obtain ⟨here, areHere, orderedHere, completeHere⟩ := each part List.mem_cons_self
      obtain ⟨behind, areBehind, orderedBehind, completeBehind⟩ :=
        inductionHypothesis (fun other member => each other (List.mem_cons_of_mem _ member))
          (first + 1)
      refine ⟨here.map (fun entry => (first :: entry.1, entry.2)) ++ behind, ?_, ?_, ?_⟩
      · rw [List.map_append, List.map_map, List.flatMap_cons, areBehind, ← areHere]
        rfl
      · rw [List.map_append, List.map_map, List.pairwise_append]
        refine ⟨?_, orderedBehind, ?_⟩
        · rw [List.pairwise_map] at orderedHere ⊢
          exact orderedHere.imp fun before => List.cons_lt_cons_iff.mpr (.inr ⟨rfl, before⟩)
        · intro address isHere other isBehind
          obtain ⟨entry, -, rfl⟩ := List.mem_map.mp isHere
          obtain ⟨⟨later, found⟩, member, rfl⟩ := List.mem_map.mp isBehind
          obtain ⟨index, rest, _, rfl, -⟩ := (completeBehind later found).mp member
          refine List.cons_lt_cons_iff.mpr (.inl ?_)
          omega
      · intro address found
        rw [List.mem_append, mem_map_cons, completeBehind, foundIn_cons]
        simp only [completeHere]

/-- What is found in a whole, if it is known what is found inside it: first perhaps the whole
itself. -/
theorem exists_visits_whole {finds : Part → List Nat → Part → Prop} {walk : Part → List Part}
    {part : Part} {here : Option Part} {row : List Part} {first : Nat}
    (walks : walk part = here.toList ++ row.flatMap walk)
    (whole : ∀ found, finds part [] found ↔ here = some found)
    (inside : ∀ index rest found, finds part (index :: rest) found ↔
      FoundIn finds row first (index :: rest) found)
    (each : ∀ inner ∈ row, ∃ listed, listed.map Prod.snd = walk inner ∧
      Visits listed (finds inner)) :
    ∃ listed, listed.map Prod.snd = walk part ∧ Visits listed (finds part) := by
  obtain ⟨behind, areBehind, orderedBehind, completeBehind⟩ := exists_visits_row each first
  refine ⟨here.toList.map (Prod.mk []) ++ behind, ?_, ?_, ?_⟩
  · rw [List.map_append, List.map_map, areBehind, walks]
    exact congrArg (· ++ _) (List.map_id _)
  · rw [List.map_append, List.map_map, List.pairwise_append]
    refine ⟨by cases here <;> simp, orderedBehind, fun address isHere other isBehind => ?_⟩
    obtain ⟨_, -, rfl⟩ := List.mem_map.mp isHere
    obtain ⟨⟨later, found⟩, member, rfl⟩ := List.mem_map.mp isBehind
    obtain ⟨index, rest, _, rfl, -⟩ := (completeBehind later found).mp member
    exact List.nil_lt_cons _ _
  · intro address found
    rw [List.mem_append, completeBehind]
    cases address with
    | nil =>
        rw [whole]
        refine (or_iff_left ?_).trans ?_
        · rintro ⟨_, _, _, isEmpty, -⟩
          cases isEmpty
        · simp
    | cons index rest =>
        rw [inside]
        exact or_iff_right (by simp)

/-- The walk comes once to each address inside a part that does not lead through a default of a call
block's parameter, in the order of the addresses. -/
theorem exists_visits (part : Part) :
    ∃ listed, listed.map Prod.snd = part.parts ∧ Visits listed part.Reaches := by
  induction part using Part.induction_on_visited with
  | step part inductionHypothesis =>
      have walks : part.parts = (some part).toList ++ part.visited.flatMap parts := part.parts_eq
      refine exists_visits_whole walks (fun found => ?_) (fun _ _ _ => reaches_cons)
        inductionHypothesis
      exact and_iff_left rfl

/-- What is found inside a row of statements is found in one of them. -/
theorem foundIn_map_node {finds : Part → List Nat → Part → Prop} {nodes : List Node}
    {address : List Nat} {found : Part} :
    FoundIn finds (nodes.map .node) 0 address found ↔
      ∃ index rest node, address = index :: rest ∧ nodes[index]? = some node ∧
        finds (.node node) rest found := by
  constructor
  · rintro ⟨index, rest, part, rfl, isPart, isFound⟩
    rw [List.getElem?_map] at isPart
    obtain ⟨node, isNode, rfl⟩ := Option.map_eq_some_iff.mp isPart
    exact ⟨index, rest, node, by rw [Nat.zero_add], isNode, isFound⟩
  · rintro ⟨index, rest, node, rfl, isNode, isFound⟩
    refine ⟨index, rest, .node node, by rw [Nat.zero_add], ?_, isFound⟩
    rw [List.getElem?_map, isNode, Option.map_some]

end Part

/-! ### Bodies -/

/-- The part at an address inside a body. -/
def partAt? (nodes : List Node) : List Nat → Option Part
  | [] => none
  | index :: rest => nodes[index]?.bind fun node => (Part.node node).at? rest

/-- Whether an address inside a body leads through a default of a call block's parameter. -/
def leadsThroughDefault (nodes : List Node) : List Nat → Bool
  | [] => false
  | index :: rest => nodes[index]?.any fun node => (Part.node node).leadsThroughDefault rest

/-- The walk through a body comes once to each part of it, whole before inside and first before
last, apart from the parts to which the way leads through a default of a call block's parameter. -/
theorem exists_visits_body (nodes : List Node) :
    ∃ listed, listed.map Prod.snd = partsOfNodes nodes ∧
      Visits listed fun address part =>
        partAt? nodes address = some part ∧ leadsThroughDefault nodes address = false := by
  obtain ⟨listed, areParts, ordered, complete⟩ : ∃ listed,
      listed.map Prod.snd = (nodes.map Part.node).flatMap Part.parts ∧
        Visits listed (Part.FoundIn Part.Reaches (nodes.map .node) 0) :=
    Part.exists_visits_row (fun part _ => part.exists_visits) 0
  refine ⟨listed, ?_, ordered, fun address found => (complete address found).trans ?_⟩
  · rw [areParts, partsOfNodes_eq_flatMap]
  · rw [Part.foundIn_map_node]
    constructor
    · rintro ⟨index, rest, node, rfl, isNode, isFound, noDefault⟩
      rw [partAt?, leadsThroughDefault, isNode]
      exact ⟨isFound, noDefault⟩
    · rintro ⟨isFound, noDefault⟩
      cases address with
      | nil => cases isFound
      | cons index rest =>
          obtain ⟨node, isNode, isFound⟩ := Option.bind_eq_some_iff.mp isFound
          rw [leadsThroughDefault, isNode] at noDefault
          exact ⟨index, rest, node, rfl, isNode, isFound, noDefault⟩

end Stencil.Syntax
