import Mathlib
import Stencil.Proofs.Render.Cache
import Stencil.Proofs.Syntax.Definitions

/-!
Contract: templates built on one another, and the single template without blocks that stands for all
of them.

Owns:
- statements with their blocks, and their calls of `super`, replaced by the bodies that count;
- what the templates of a lineage may contain, and which bodies of blocks they have;
- the template that stands for a lineage: there is exactly one if no block reaches itself.

Does not own: that it renders to the same text (`Stencil.Proofs.Render.Flattening`).
-/

set_option autoImplicit false

namespace Stencil.Syntax

open Stencil.Text (Span)

/-- The expression by which a definition of a block asks for the one that it replaces. -/
def superCall (inner span : Span) : Expr := .call (.name "super" inner) [] span

theorem not_callFree_superCall (inner span : Span) : ¬(superCall inner span).CallFree :=
  Expr.not_callFree_call _ _ _

variable {bodies : String × Nat → Option (List Node)}

/-- Whether statements are others with every block replaced by its first body, and every call of
`super` by the body behind the one that it stands in. A body is known by the name of its block and by
how many bodies come before it. -/
inductive Flattens (bodies : String × Nat → Option (List Node)) :
    Option (String × Nat) → List Node → List Node → Prop where
  | nil {inside : Option (String × Nat)} : Flattens bodies inside [] []
  | ordinary {inside : Option (String × Nat)} {node : Node} {rest flatRest : List Node}
      (change : List Node → List Node) (isOrdinary : node.isOrdinary = true)
      (free : ∀ expr ∈ node.exprs, expr.CallFree)
      (inner : ∀ body ∈ node.bodies, Flattens bodies inside body (change body))
      (others : Flattens bodies inside rest flatRest) :
      Flattens bodies inside (node :: rest) (node.mapBodies change :: flatRest)
  | block {inside : Option (String × Nat)} {name : String} {own body flat rest flatRest : List Node}
      {span : Span} (isBody : bodies (name, 0) = some body)
      (inner : Flattens bodies (some (name, 0)) body flat)
      (others : Flattens bodies inside rest flatRest) :
      Flattens bodies inside (.block name own span :: rest) (flat ++ flatRest)
  | super {name : String} {level : Nat} {body flat rest flatRest : List Node}
      {callee call span : Span} (isBody : bodies (name, level + 1) = some body)
      (inner : Flattens bodies (some (name, level + 1)) body flat)
      (others : Flattens bodies (some (name, level)) rest flatRest) :
      Flattens bodies (some (name, level)) (.output (superCall callee call) span :: rest)
        (flat ++ flatRest)

namespace Flattens

variable {inside : Option (String × Nat)} {nodes flat others flatOthers : List Node}

theorem append (first : Flattens bodies inside nodes flat)
    (second : Flattens bodies inside others flatOthers) :
    Flattens bodies inside (nodes ++ others) (flat ++ flatOthers) := by
  induction first with
  | nil => exact second
  | ordinary change isOrdinary free inner _ _ inductionHypothesis =>
      exact .ordinary change isOrdinary free inner (inductionHypothesis second)
  | block isBody inner _ _ inductionHypothesis =>
      rw [List.append_assoc]
      exact .block isBody inner (inductionHypothesis second)
  | super isBody inner _ _ inductionHypothesis =>
      rw [List.append_assoc]
      exact .super isBody inner (inductionHypothesis second)

/-- There is only one way to replace the blocks of statements. -/
theorem unique {other : List Node} (first : Flattens bodies inside nodes flat)
    (second : Flattens bodies inside nodes other) : flat = other := by
  induction first generalizing other with
  | nil =>
      cases second
      rfl
  | ordinary change isOrdinary free _ _ innerHypothesis othersHypothesis =>
      cases second with
      | ordinary otherChange _ _ inner others =>
          rw [othersHypothesis others, Node.mapBodies_congr fun body member =>
            innerHypothesis body member (inner body member)]
      | block => simp [Node.isOrdinary] at isOrdinary
      | super => exact absurd (free _ List.mem_cons_self) (not_callFree_superCall _ _)
  | block isBody _ _ innerHypothesis othersHypothesis =>
      cases second with
      | ordinary _ isOrdinary => simp [Node.isOrdinary] at isOrdinary
      | block isOther inner others =>
          rw [isBody] at isOther
          cases isOther
          rw [innerHypothesis inner, othersHypothesis others]
  | super isBody _ _ innerHypothesis othersHypothesis =>
      cases second with
      | ordinary _ _ free => exact absurd (free _ List.mem_cons_self) (not_callFree_superCall _ _)
      | super isOther inner others =>
          rw [isBody] at isOther
          cases isOther
          rw [innerHypothesis inner, othersHypothesis others]

end Flattens

namespace Node

/-- Whether there are no blocks and no calls in a statement and in all of its bodies, and nothing that
is not ordinary. -/
inductive Flat : Node → Prop where
  | mk {node : Node} (isOrdinary : node.isOrdinary = true)
      (free : ∀ expr ∈ node.exprs, expr.CallFree)
      (bodies : ∀ body ∈ node.bodies, ∀ inner ∈ body, Flat inner) : Flat node

/-- Whether a statement stands in another one, outside all blocks in that one. -/
inductive StandsIn (found : Node) : Node → Prop where
  | self : StandsIn found found
  | inner {node inner : Node} {body : List Node} (isOrdinary : node.isOrdinary = true)
      (isBody : body ∈ node.bodies) (isInner : inner ∈ body) (stands : StandsIn found inner) :
      StandsIn found node

/-- Whether a statement is ordinary up to its blocks, and calls nothing but `super`, which it does in
the definitions of blocks that templates further up define too. The second argument is the name of
the block that the statement stands in. -/
inductive Fits (higher : String → Prop) : Option String → Node → Prop where
  | ordinary {inside : Option String} {node : Node} (isOrdinary : node.isOrdinary = true)
      (free : ∀ expr ∈ node.exprs, expr.CallFree)
      (bodies : ∀ body ∈ node.bodies, ∀ inner ∈ body, Fits higher inside inner) :
      Fits higher inside node
  | super {name : String} {callee call span : Span} (isHigher : higher name) :
      Fits higher (some name) (.output (superCall callee call) span)
  | block {inside : Option String} {name : String} {body : List Node} {span : Span}
      (fits : ∀ inner ∈ body, Fits higher (some name) inner) :
      Fits higher inside (.block name body span)

end Node

/-! ### Definitions -/

theorem macrosOf_eq_nil {nodes : List Node}
    (areBlocks : ∀ definition ∈ definitionsOfNodes nodes, ∃ block, definition = .block block) :
    macrosOf nodes = [] := by
  apply List.filterMap_eq_nil_iff.mpr
  intro definition member
  obtain ⟨block, rfl⟩ := areBlocks definition member
  rfl

namespace Node.Fits

variable {higher : String → Prop} {inside : Option String} {node : Node}

theorem definitions_block (fits : node.Fits higher inside) :
    ∀ definition ∈ node.definitions, ∃ block, definition = .block block := by
  induction fits with
  | ordinary isOrdinary _ _ inductionHypothesis =>
      intro definition member
      rw [definitions_of_isOrdinary isOrdinary] at member
      obtain ⟨body, isBody, member⟩ := List.mem_flatMap.mp member
      obtain ⟨inner, isInner, member⟩ := mem_definitionsOfNodes.mp member
      exact inductionHypothesis body isBody inner isInner definition member
  | super => intro _ member; cases member
  | block _ inductionHypothesis =>
      intro definition member
      rcases List.mem_cons.mp member with rfl | member
      · exact ⟨_, rfl⟩
      · obtain ⟨inner, isInner, member⟩ := mem_definitionsOfNodes.mp member
        exact inductionHypothesis inner isInner definition member

/-- The body of a block fits, and what it defines belongs to the tree around it. -/
theorem body_of_block (fits : node.Fits higher inside) {block : BlockDefinition}
    (member : Definition.block block ∈ node.definitions) :
    (∀ inner ∈ block.body, inner.Fits higher (some block.name)) ∧
      ∀ definition ∈ definitionsOfNodes block.body, definition ∈ node.definitions := by
  induction fits with
  | @ordinary _ node isOrdinary _ _ inductionHypothesis =>
      rw [definitions_of_isOrdinary isOrdinary] at member ⊢
      obtain ⟨body, isBody, member⟩ := List.mem_flatMap.mp member
      obtain ⟨inner, isInner, member⟩ := mem_definitionsOfNodes.mp member
      obtain ⟨fits, defines⟩ := inductionHypothesis body isBody inner isInner member
      refine ⟨fits, fun definition isDefinition => List.mem_flatMap.mpr ⟨body, isBody, ?_⟩⟩
      exact mem_definitionsOfNodes.mpr ⟨inner, isInner, defines definition isDefinition⟩
  | super => cases member
  | block fits inductionHypothesis =>
      rcases List.mem_cons.mp member with isSelf | member
      · cases isSelf
        exact ⟨fits, fun definition => List.mem_cons_of_mem _⟩
      · obtain ⟨inner, isInner, member⟩ := mem_definitionsOfNodes.mp member
        obtain ⟨fits, defines⟩ := inductionHypothesis inner isInner member
        exact ⟨fits, fun definition isDefinition => List.mem_cons_of_mem _
          (mem_definitionsOfNodes.mpr ⟨inner, isInner, defines definition isDefinition⟩)⟩

end Node.Fits

namespace Node

variable {node : Node}

/-- A block that stands in a statement is one of its definitions. -/
theorem StandsIn.mem_definitions {name : String} {own : List Node} {span : Span}
    (stands : StandsIn (.block name own span) node) :
    Definition.block ⟨name, own, span⟩ ∈ node.definitions := by
  induction stands with
  | self => exact List.mem_cons_self
  | inner isOrdinary isBody isInner _ inductionHypothesis =>
      rw [definitions_of_isOrdinary isOrdinary]
      exact List.mem_flatMap.mpr ⟨_, isBody, mem_definitionsOfNodes.mpr ⟨_, isInner,
        inductionHypothesis⟩⟩

/-- What defines no blocks and stands outside all blocks is flat. -/
theorem Fits.flat {higher : String → Prop} (fits : node.Fits higher none)
    (noBlocks : ∀ block, Definition.block block ∉ node.definitions) : node.Flat := by
  generalize isOutside : (none : Option String) = inside at fits
  induction fits with
  | ordinary isOrdinary free _ inductionHypothesis =>
      refine .mk isOrdinary free fun body isBody inner isInner => ?_
      refine inductionHypothesis body isBody inner isInner (fun block member => ?_) isOutside
      rw [definitions_of_isOrdinary isOrdinary] at noBlocks
      exact noBlocks block (List.mem_flatMap.mpr ⟨body, isBody, mem_definitionsOfNodes.mpr
        ⟨inner, isInner, member⟩⟩)
  | super => cases isOutside
  | block => exact absurd List.mem_cons_self (noBlocks _)

end Node

/-! ### Replacing blocks -/

theorem exists_flattens_of_each {inside : Option (String × Nat)} {nodes : List Node}
    (each : ∀ node ∈ nodes, ∃ flat, Flattens bodies inside [node] flat) :
    ∃ flat, Flattens bodies inside nodes flat := by
  induction nodes with
  | nil => exact ⟨[], .nil⟩
  | cons node rest inductionHypothesis =>
      rw [List.forall_mem_cons] at each
      obtain ⟨first, flattens⟩ := each.1
      obtain ⟨others, flattensOthers⟩ := inductionHypothesis each.2
      exact ⟨first ++ others, flattens.append flattensOthers⟩

theorem flattens_self {inside : Option (String × Nat)} {nodes : List Node}
    (each : ∀ node ∈ nodes, Flattens bodies inside [node] [node]) :
    Flattens bodies inside nodes nodes := by
  induction nodes with
  | nil => exact .nil
  | cons node rest inductionHypothesis =>
      rw [List.forall_mem_cons] at each
      exact each.1.append (inductionHypothesis each.2)

/-- What stands for other statements is flat. -/
theorem Flattens.flat {inside : Option (String × Nat)} {nodes flat : List Node}
    (flattens : Flattens bodies inside nodes flat) : ∀ node ∈ flat, node.Flat := by
  induction flattens with
  | nil => exact fun _ member => absurd member List.not_mem_nil
  | @ordinary _ node _ _ change isOrdinary free _ _ innerHypothesis othersHypothesis =>
      refine List.forall_mem_cons.mpr ⟨⟨?_, ?_, ?_⟩, othersHypothesis⟩
      · rw [Node.isOrdinary_mapBodies]
        exact isOrdinary
      · rw [Node.exprs_mapBodies]
        exact free
      · rw [Node.bodies_mapBodies isOrdinary]
        intro body isChanged
        obtain ⟨own, isOwn, rfl⟩ := List.mem_map.mp isChanged
        exact innerHypothesis own isOwn
  | block _ _ _ innerHypothesis othersHypothesis =>
      exact List.forall_mem_append.mpr ⟨innerHypothesis, othersHypothesis⟩
  | super _ _ _ innerHypothesis othersHypothesis =>
      exact List.forall_mem_append.mpr ⟨innerHypothesis, othersHypothesis⟩

/-- Flat statements fit everywhere. -/
theorem Node.Flat.fits {node : Node} (isFlat : node.Flat) (higher : String → Prop)
    (inside : Option String) : node.Fits higher inside := by
  induction isFlat with
  | mk isOrdinary free _ inductionHypothesis => exact .ordinary isOrdinary free inductionHypothesis

/-- Flat statements stay as they are. -/
theorem Node.Flat.flattens {inside : Option (String × Nat)} {node : Node} (isFlat : node.Flat) :
    Flattens bodies inside [node] [node] := by
  induction isFlat with
  | @mk node isOrdinary free _ inductionHypothesis =>
      have inner : ∀ body ∈ node.bodies, Flattens bodies inside body (id body) := by
        intro body isBody
        exact flattens_self (inductionHypothesis body isBody)
      have flattens : Flattens bodies inside [node] [node.mapBodies id] :=
        .ordinary id isOrdinary free inner .nil
      rwa [Node.mapBodies_id] at flattens

/-- Whether the bodies of blocks that a statement asks for can be flattened. -/
structure Node.Resolved (bodies : String × Nat → Option (List Node)) (inside : Option (String × Nat))
    (node : Node) : Prop where
  block : ∀ {name own span}, StandsIn (.block name own span) node →
    ∃ body flat, bodies (name, 0) = some body ∧ Flattens bodies (some (name, 0)) body flat
  super : ∀ {name level callee call span}, inside = some (name, level) →
    StandsIn (.output (superCall callee call) span) node →
      ∃ body flat, bodies (name, level + 1) = some body ∧
        Flattens bodies (some (name, level + 1)) body flat

/-- What fits can be flattened if the bodies that it asks for can. -/
theorem Node.Fits.exists_flattens {higher : String → Prop} {inside : Option (String × Nat)}
    {node : Node} (fits : node.Fits higher (inside.map Prod.fst))
    (resolved : node.Resolved bodies inside) : ∃ flat, Flattens bodies inside [node] flat := by
  generalize isPlace : inside.map Prod.fst = place at fits
  induction fits with
  | @ordinary _ node isOrdinary free _ inductionHypothesis =>
      have each : ∀ body ∈ node.bodies, ∀ inner ∈ body, ∃ flat, Flattens bodies inside [inner] flat := by
        intro body isBody inner isInner
        apply inductionHypothesis body isBody inner isInner _ isPlace
        exact ⟨fun stands => resolved.block (.inner isOrdinary isBody isInner stands),
          fun isInside stands => resolved.super isInside (.inner isOrdinary isBody isInner stands)⟩
      have whole : ∀ body, ∃ flat, body ∈ node.bodies → Flattens bodies inside body flat := by
        intro body
        by_cases isBody : body ∈ node.bodies
        · obtain ⟨flat, flattens⟩ := exists_flattens_of_each (each body isBody)
          exact ⟨flat, fun _ => flattens⟩
        · exact ⟨[], fun member => absurd member isBody⟩
      choose change inner using whole
      exact ⟨_, .ordinary change isOrdinary free inner .nil⟩
  | super isHigher =>
      obtain ⟨⟨name, level⟩, rfl, rfl⟩ := Option.map_eq_some_iff.mp isPlace
      obtain ⟨body, flat, isBody, flattens⟩ := resolved.super rfl .self
      exact ⟨_, .super isBody flattens .nil⟩
  | block fits =>
      obtain ⟨body, flat, isBody, flattens⟩ := resolved.block .self
      exact ⟨_, .block isBody flattens .nil⟩

/-! ### Blocks that lead to one another -/

/-- Whether a body of a block asks for the first body of another one, or for the next of its own. -/
inductive LeadsTo (bodies : String × Nat → Option (List Node)) :
    String × Nat → String × Nat → Prop where
  | block {rank : String × Nat} {body own : List Node} {node : Node} {name : String} {span : Span}
      (isBody : bodies rank = some body) (member : node ∈ body)
      (stands : Node.StandsIn (.block name own span) node) : LeadsTo bodies rank (name, 0)
  | super {name : String} {level : Nat} {body : List Node} {node : Node} {callee call span : Span}
      (isBody : bodies (name, level) = some body) (member : node ∈ body)
      (stands : Node.StandsIn (.output (superCall callee call) span) node) :
      LeadsTo bodies (name, level) (name, level + 1)

/-- What leads to something goes on to later bodies of one block, or comes to the first of one. -/
theorem later_or_first {rank target : String × Nat}
    (leads : Relation.TransGen (LeadsTo bodies) rank target) :
    rank.2 < target.2 ∨ ∃ name, Relation.TransGen (LeadsTo bodies) rank (name, 0) ∧
      Relation.ReflTransGen (LeadsTo bodies) (name, 0) target := by
  induction leads with
  | single step =>
      cases step with
      | block isBody member stands =>
          exact .inr ⟨_, .single (.block isBody member stands), .refl⟩
      | super => exact .inl (Nat.lt_succ_self _)
  | tail leads step inductionHypothesis =>
      cases step with
      | block isBody member stands =>
          exact .inr ⟨_, leads.tail (.block isBody member stands), .refl⟩
      | super isBody member stands =>
          rcases inductionHypothesis with isLater | ⟨name, toFirst, fromFirst⟩
          · exact .inl (Nat.lt_succ_of_lt isLater)
          · exact .inr ⟨name, toFirst, fromFirst.tail (.super isBody member stands)⟩

/-- Where no first body leads to itself, no body does. -/
theorem not_leadsTo_self
    (acyclic : ∀ name, ¬Relation.TransGen (LeadsTo bodies) (name, 0) (name, 0))
    (rank : String × Nat) : ¬Relation.TransGen (LeadsTo bodies) rank rank := by
  intro leads
  rcases later_or_first leads with isLater | ⟨name, toFirst, fromFirst⟩
  · exact absurd isLater (Nat.lt_irrefl _)
  · exact acyclic name (.trans_right fromFirst toFirst)

theorem wellFounded_leadsTo (finite : {rank | (bodies rank).isSome}.Finite)
    (acyclic : ∀ name, ¬Relation.TransGen (LeadsTo bodies) (name, 0) (name, 0)) :
    WellFounded fun next rank : {rank // (bodies rank).isSome} => LeadsTo bodies rank.1 next.1 := by
  let leads := fun next rank : {rank // (bodies rank).isSome} => LeadsTo bodies rank.1 next.1
  have : Finite {rank // (bodies rank).isSome} := finite.to_subtype
  have irreflexive : Std.Irrefl (Relation.TransGen leads) := by
    constructor
    intro rank cycle
    apply not_leadsTo_self acyclic rank.1
    apply Relation.transGen_swap.mp
    exact Relation.TransGen.lift Subtype.val (fun _ _ step => step) _ _ cycle
  have wellFounded := Finite.wellFounded_of_trans_of_irrefl (Relation.TransGen leads)
  have isPart : Subrelation leads (Relation.TransGen leads) := Relation.TransGen.single
  exact isPart.wf wellFounded

/-- Whether everything that a body of a block asks for is there, and the body is ordinary but for
that. -/
structure Sound (bodies : String × Nat → Option (List Node)) (rank : String × Nat)
    (body : List Node) : Prop where
  fits : ∃ higher : String → Prop, (∀ node ∈ body, node.Fits higher (some rank.1)) ∧
    (higher rank.1 → (bodies (rank.1, rank.2 + 1)).isSome)
  defined : ∀ {block}, Definition.block block ∈ definitionsOfNodes body →
    (bodies (block.name, 0)).isSome

/-- A call of `super` in a block fits only if a template further up defines the block. -/
theorem Node.StandsIn.higher {higher : String → Prop} {name : String} {node : Node}
    {callee call span : Span} (stands : StandsIn (.output (superCall callee call) span) node)
    (fits : node.Fits higher (some name)) : higher name := by
  induction stands with
  | self =>
      cases fits with
      | ordinary _ free => exact absurd (free _ List.mem_cons_self) (not_callFree_superCall _ _)
      | super isHigher => exact isHigher
  | inner isOrdinary isBody isInner _ inductionHypothesis =>
      cases fits with
      | ordinary _ _ bodies => exact inductionHypothesis (bodies _ isBody _ isInner)
      | super => cases isBody
      | block => simp [Node.isOrdinary] at isOrdinary

/-- The bodies of blocks can be flattened if they are sound and none of them leads to itself. -/
theorem exists_flattens_of_body (finite : {rank | (bodies rank).isSome}.Finite)
    (acyclic : ∀ name, ¬Relation.TransGen (LeadsTo bodies) (name, 0) (name, 0))
    (sound : ∀ {rank body}, bodies rank = some body → Sound bodies rank body)
    {rank : String × Nat} {body : List Node} (isBody : bodies rank = some body) :
    ∃ flat, Flattens bodies (some rank) body flat := by
  have isSome : (bodies rank).isSome := by rw [isBody]; rfl
  suffices flattened : ∀ (rank : {rank // (bodies rank).isSome}) (body : List Node),
      bodies rank.1 = some body → ∃ flat, Flattens bodies (some rank.1) body flat from
    flattened ⟨rank, isSome⟩ body isBody
  intro rank
  induction rank using (wellFounded_leadsTo finite acyclic).induction with
  | _ rank inductionHypothesis =>
      intro body isBody
      obtain ⟨⟨higher, fits, isDefined⟩, defined⟩ := sound isBody
      apply exists_flattens_of_each
      intro node member
      apply Node.Fits.exists_flattens (fits node member)
      constructor
      · intro name own span stands
        have isSome := defined (mem_definitionsOfNodes.mpr ⟨node, member, stands.mem_definitions⟩)
        obtain ⟨inner, isInner⟩ := Option.isSome_iff_exists.mp isSome
        obtain ⟨flat, flattens⟩ :=
          inductionHypothesis ⟨(name, 0), isSome⟩ (.block isBody member stands) inner isInner
        exact ⟨inner, flat, isInner, flattens⟩
      · intro name level callee call span isInside stands
        obtain ⟨⟨_, _⟩, _⟩ := rank
        cases isInside
        have isSome := isDefined (stands.higher (fits node member))
        obtain ⟨inner, isInner⟩ := Option.isSome_iff_exists.mp isSome
        obtain ⟨flat, flattens⟩ :=
          inductionHypothesis ⟨(name, level + 1), isSome⟩ (.super isBody member stands) inner isInner
        exact ⟨inner, flat, isInner, flattens⟩

end Stencil.Syntax

namespace Stencil.Host

open Stencil.Syntax (BlockDefinition Definition Flattens LeadsTo Node Sound)
open Stencil.Text (Span)

/-! ### Lineages -/

/-- The body of the block of a name in a template. -/
def Loaded.body? (loaded : Loaded) (name : String) : Option (List Node) :=
  ((Syntax.blocksOf loaded.template.body).find? (·.name = name)).map (·.body)

/-- The bodies of blocks in templates that are built on one another: what a template defines comes
before what the templates that it is built on define. -/
def bodiesOf (templates : List Loaded) (rank : String × Nat) : Option (List Node) :=
  (templates.filterMap (·.body? rank.1))[rank.2]?

/-- Whether a template is what its text forms, without a mistake. -/
structure Loaded.IsParsed (environment : Environment) (loaded : Loaded) : Prop where
  parsed : Shelf.loaded environment loaded.name loaded.source = loaded
  right : loaded.problems = []

/-- Whether a template says once, by a literal name, that it is built on another one, and fits but for
that. Blocks that the templates further up define too are given. -/
structure Loaded.BuiltOn (loaded : Loaded) (parent : String) (higher : String → Prop) : Prop where
  body : ∃ before after inner span,
    loaded.template.body = before ++ .inherit (.literal (.text parent) inner) span :: after ∧
      ∀ node ∈ before ++ after, node.Fits higher none
  assignments : ∀ node ∈ loaded.template.body, node.isAssignment = true →
    Syntax.blocksOf [node] = []

/-- Whether some of the templates define a block. -/
def Define (templates : List Loaded) (name : String) : Prop :=
  ∃ loaded ∈ templates, (loaded.body? name).isSome

/-- Templates each of which is built on the next one, and the last of them on the root. -/
inductive Lineage : List Loaded → Loaded → Prop where
  | root {root : Loaded} (fits : ∀ node ∈ root.template.body, node.Fits (Define []) none) :
      Lineage [] root
  | heir {heir root : Loaded} {heirs : List Loaded}
      (isBuilt : heir.BuiltOn (heirs.headD root).name (Define (heirs ++ [root])))
      (others : Lineage heirs root) : Lineage (heir :: heirs) root

/-- Whether statements stand for all templates of a lineage: the assignments outside all bodies, and
then the root with its blocks replaced. -/
def Flattened (heirs : List Loaded) (root : Loaded) (body : List Node) : Prop :=
  ∃ flat, Flattens (bodiesOf (heirs ++ [root])) none root.template.body flat ∧
    body = heirs.flatMap (·.template.body.filter Node.isAssignment) ++ flat

theorem Loaded.exists_block {loaded : Loaded} {name : String} {body : List Node}
    (isBody : loaded.body? name = some body) :
    ∃ block : BlockDefinition, Definition.block block ∈
      Syntax.definitionsOfNodes loaded.template.body ∧ block.name = name ∧ block.body = body := by
  obtain ⟨block, isFound, rfl⟩ := Option.map_eq_some_iff.mp isBody
  have isNamed : block.name = name := by simpa using List.find?_some isFound
  exact ⟨block, Syntax.mem_blocksOf.mp (List.mem_of_find?_eq_some isFound), isNamed, rfl⟩

theorem Loaded.isSome_body? {loaded : Loaded} {block : BlockDefinition}
    (member : Definition.block block ∈ Syntax.definitionsOfNodes loaded.template.body) :
    (loaded.body? block.name).isSome := by
  rw [body?, Option.isSome_map, List.find?_isSome]
  exact ⟨block, Syntax.mem_blocksOf.mpr member, by simp⟩

section BodiesOf

variable {first : Loaded} {rest : List Loaded} {name : String}

theorem bodiesOf_cons_of_none (isNone : first.body? name = none) (level : Nat) :
    bodiesOf (first :: rest) (name, level) = bodiesOf rest (name, level) := by
  simp [bodiesOf, isNone]

theorem bodiesOf_cons_zero {body : List Node} (isOwn : first.body? name = some body) :
    bodiesOf (first :: rest) (name, 0) = some body := by
  simp [bodiesOf, isOwn]

theorem bodiesOf_cons_succ {body : List Node} (isOwn : first.body? name = some body) (level : Nat) :
    bodiesOf (first :: rest) (name, level + 1) = bodiesOf rest (name, level) := by
  simp [bodiesOf, isOwn]

end BodiesOf

theorem isSome_bodiesOf {templates : List Loaded} {name : String} (defined : Define templates name) :
    (bodiesOf templates (name, 0)).isSome := by
  obtain ⟨loaded, member, isSome⟩ := defined
  induction templates with
  | nil => cases member
  | cons first rest inductionHypothesis =>
      cases isFirst : first.body? name with
      | some body =>
          rw [bodiesOf_cons_zero isFirst]
          rfl
      | none =>
          rw [bodiesOf_cons_of_none isFirst]
          rcases List.mem_cons.mp member with rfl | inRest
          · rw [isFirst] at isSome
            cases isSome
          · exact inductionHypothesis inRest

/-- A body of a block comes from one of the templates, and the body behind it from those that follow
this one. -/
theorem exists_template_of_body {templates : List Loaded} {name : String} {level : Nat}
    {body : List Node} (isBody : bodiesOf templates (name, level) = some body) :
    ∃ before loaded after, templates = before ++ loaded :: after ∧ loaded.body? name = some body ∧
      bodiesOf templates (name, level + 1) = bodiesOf after (name, 0) := by
  induction templates generalizing level with
  | nil => simp [bodiesOf] at isBody
  | cons first rest inductionHypothesis =>
      cases isFirst : first.body? name with
      | none =>
          rw [bodiesOf_cons_of_none isFirst] at isBody
          obtain ⟨before, loaded, after, rfl, isOwn, isNext⟩ := inductionHypothesis isBody
          refine ⟨first :: before, loaded, after, rfl, isOwn, ?_⟩
          rw [bodiesOf_cons_of_none isFirst, isNext]
      | some own =>
          rw [bodiesOf_cons_succ isFirst]
          cases level with
          | zero =>
              rw [bodiesOf_cons_zero isFirst] at isBody
              exact ⟨[], first, rest, rfl, isFirst.trans isBody, rfl⟩
          | succ level =>
              rw [bodiesOf_cons_succ isFirst] at isBody
              obtain ⟨before, loaded, after, rfl, isOwn, isNext⟩ := inductionHypothesis isBody
              exact ⟨first :: before, loaded, after, rfl, isOwn, isNext⟩

theorem Lineage.root_fits {heirs : List Loaded} {root : Loaded}
    (lineage : Lineage heirs root) :
    ∀ node ∈ root.template.body, node.Fits (Define []) none := by
  induction lineage with
  | root fits => exact fits
  | heir _ _ inductionHypothesis => exact inductionHypothesis

/-- The statements of a template that is built on another one fit, apart from the one that says so. -/
theorem Loaded.BuiltOn.fits {loaded : Loaded} {parent : String} {higher : String → Prop}
    (isBuilt : loaded.BuiltOn parent higher) {node : Node} (member : node ∈ loaded.template.body) :
    (∃ parent span, node = .inherit parent span) ∨ node.Fits higher none := by
  obtain ⟨before, after, inner, span, isBody, fits⟩ := isBuilt.body
  rw [isBody] at member
  rcases List.mem_append.mp member with inFront | member
  · exact .inr (fits node (List.mem_append_left _ inFront))
  · rcases List.mem_cons.mp member with rfl | behind
    · exact .inl ⟨_, _, rfl⟩
    · exact .inr (fits node (List.mem_append_right _ behind))

/-- The statements of a template of a lineage fit, apart from those that define nothing. -/
theorem Lineage.fits {heirs before after : List Loaded} {root loaded : Loaded}
    (lineage : Lineage heirs root)
    (isMember : heirs ++ [root] = before ++ loaded :: after) :
    ∀ node ∈ loaded.template.body, node.definitions = [] ∨ node.Fits (Define after) none := by
  induction lineage generalizing before with
  | root fits =>
      cases before with
      | nil =>
          cases isMember
          exact fun node member => .inr (fits node member)
      | cons first rest => simp at isMember
  | heir isBuilt _ inductionHypothesis =>
      cases before with
      | nil =>
          cases isMember
          intro node member
          rcases isBuilt.fits member with ⟨_, _, rfl⟩ | fits
          · exact .inl rfl
          · exact .inr fits
      | cons first rest => exact inductionHypothesis (List.cons.inj isMember).2

/-- Everything that bodies of blocks ask for is there. -/
theorem Lineage.sound {heirs : List Loaded} {root : Loaded} (lineage : Lineage heirs root)
    {rank : String × Nat} {body : List Node}
    (isBody : bodiesOf (heirs ++ [root]) rank = some body) :
    Sound (bodiesOf (heirs ++ [root])) rank body := by
  obtain ⟨name, level⟩ := rank
  obtain ⟨before, loaded, after, isMember, isOwn, isNext⟩ := exists_template_of_body isBody
  obtain ⟨block, isBlock, rfl, rfl⟩ := loaded.exists_block isOwn
  obtain ⟨node, member, isDefinition⟩ := Syntax.mem_definitionsOfNodes.mp isBlock
  have fits : node.Fits (Define after) none := by
    apply (lineage.fits isMember node member).resolve_left
    intro noDefinitions
    rw [noDefinitions] at isDefinition
    cases isDefinition
  obtain ⟨bodyFits, defines⟩ := fits.body_of_block isDefinition
  constructor
  · refine ⟨Define after, bodyFits, fun isHigher => ?_⟩
    rw [isNext]
    exact isSome_bodiesOf isHigher
  · intro inner isInner
    have isOwn := Syntax.mem_definitionsOfNodes.mpr ⟨node, member, defines _ isInner⟩
    exact isSome_bodiesOf ⟨loaded, by simp [isMember], loaded.isSome_body? isOwn⟩

theorem finite_bodiesOf (templates : List Loaded) :
    {rank | (bodiesOf templates rank).isSome}.Finite := by
  let names := templates.flatMap fun loaded =>
    (Syntax.blocksOf loaded.template.body).map BlockDefinition.name
  apply Set.Finite.subset (names.toFinset ×ˢ Finset.range templates.length).finite_toSet
  rintro ⟨name, level⟩ isSome
  obtain ⟨body, isBody⟩ := Option.isSome_iff_exists.mp isSome
  obtain ⟨before, loaded, after, isMember, isOwn, _⟩ := exists_template_of_body isBody
  obtain ⟨block, isBlock, rfl, rfl⟩ := loaded.exists_block isOwn
  have isName : block.name ∈ names :=
    List.mem_flatMap.mpr ⟨loaded, by simp [isMember],
      List.mem_map_of_mem (Syntax.mem_blocksOf.mpr isBlock)⟩
  have isLess : level < templates.length := by
    have isLess := (List.getElem?_eq_some_iff.mp isBody).1
    exact Nat.lt_of_lt_of_le isLess (List.length_filterMap_le _ _)
  simp [isName, isLess]

/-- Where no block stands in another one, no block reaches itself. -/
theorem acyclic_of_unnested {templates : List Loaded}
    (unnested : ∀ loaded ∈ templates, ∀ block ∈ Syntax.blocksOf loaded.template.body,
      Syntax.definitionsOfNodes block.body = []) (name : String) :
    ¬Relation.TransGen (LeadsTo (bodiesOf templates)) (name, 0) (name, 0) := by
  have isLater : ∀ {rank target : String × Nat}, LeadsTo (bodiesOf templates) rank target →
      rank.2 < target.2 := by
    intro rank target leads
    cases leads with
    | super => exact Nat.lt_succ_self _
    | @block rank body own node name span isBody member stands =>
        obtain ⟨before, loaded, after, isMember, isOwn, _⟩ := exists_template_of_body isBody
        obtain ⟨block, isBlock, _, rfl⟩ := loaded.exists_block isOwn
        have noBlocks := unnested loaded (by simp [isMember]) block (Syntax.mem_blocksOf.mpr isBlock)
        have isDefinition := Syntax.mem_definitionsOfNodes.mpr ⟨node, member, stands.mem_definitions⟩
        rw [noBlocks] at isDefinition
        cases isDefinition
  intro cycle
  have isLess : ∀ {target : String × Nat},
      Relation.TransGen (LeadsTo (bodiesOf templates)) (name, 0) target → 0 < target.2 := by
    intro target leads
    induction leads with
    | single step => exact isLater step
    | tail _ step inductionHypothesis => exact Nat.lt_trans inductionHypothesis (isLater step)
  exact absurd (isLess cycle) (Nat.lt_irrefl 0)

/-- The templates of a lineage define no macros. -/
theorem Lineage.macros_eq_nil {heirs : List Loaded} {root loaded : Loaded}
    (lineage : Lineage heirs root) (isMember : loaded ∈ heirs ++ [root]) :
    loaded.macros = [] := by
  obtain ⟨before, after, isPart⟩ := List.append_of_mem isMember
  have noMacros : Syntax.macrosOf loaded.template.body = [] := by
    apply Syntax.macrosOf_eq_nil
    intro definition isDefinition
    obtain ⟨node, member, isDefinition⟩ := Syntax.mem_definitionsOfNodes.mp isDefinition
    rcases lineage.fits isPart node member with noDefinitions | fits
    · rw [noDefinitions] at isDefinition
      cases isDefinition
    · exact fits.definitions_block definition isDefinition
  rw [Loaded.macros, macroTable, noMacros]
  rfl

/-- Statements that fit say nothing about what a template is built on. -/
theorem parent?_eq_none {template : Syntax.Template} {higher : String → Prop}
    (fits : ∀ node ∈ template.body, node.Fits higher none) : template.parent? = none := by
  apply List.findSome?_eq_none_iff.mpr
  intro node member
  have fit := fits node member
  cases node with
  | inherit parent span =>
      cases fit with
      | ordinary isOrdinary => simp [Node.isOrdinary] at isOrdinary
  | _ => rfl

/-- A template that is built on another one says so. -/
theorem Loaded.BuiltOn.parent? {loaded : Loaded} {parent : String} {higher : String → Prop}
    (isBuilt : loaded.BuiltOn parent higher) :
    ∃ inner span, loaded.template.parent? = some (.literal (.text parent) inner, span) := by
  obtain ⟨before, after, inner, span, isBody, fits⟩ := isBuilt.body
  have noParent : (⟨none, before, default⟩ : Syntax.Template).parent? = none :=
    parent?_eq_none fun node member => fits node (List.mem_append_left _ member)
  refine ⟨inner, span, ?_⟩
  rw [Syntax.Template.parent?, isBody, List.findSome?_append]
  exact congrArg (Option.or · _) noParent

/-- The assignments outside all bodies of a template that is built on another one have no blocks in
them. -/
theorem Loaded.BuiltOn.flat {loaded : Loaded} {parent : String} {higher : String → Prop}
    (isBuilt : loaded.BuiltOn parent higher) {node : Node} (member : node ∈ loaded.template.body)
    (isAssignment : node.isAssignment = true) : node.Flat := by
  rcases isBuilt.fits member with ⟨_, _, rfl⟩ | fits
  · cases isAssignment
  · apply fits.flat
    intro block isBlock
    have inNode : block ∈ Syntax.blocksOf [node] :=
      Syntax.mem_blocksOf.mpr (Syntax.mem_definitionsOfNodes.mpr ⟨node, List.mem_cons_self, isBlock⟩)
    rw [isBuilt.assignments node member isAssignment] at inNode
    cases inNode

/-- What stands for a lineage has no blocks in it. -/
theorem Lineage.flat {heirs : List Loaded} {root : Loaded} (lineage : Lineage heirs root)
    {body : List Node} (flattened : Flattened heirs root body) : ∀ node ∈ body, node.Flat := by
  obtain ⟨flat, flattens, rfl⟩ := flattened
  refine List.forall_mem_append.mpr ⟨?_, flattens.flat⟩
  clear flattens
  induction lineage with
  | root => exact fun _ member => absurd member List.not_mem_nil
  | heir isBuilt _ inductionHypothesis =>
      refine List.forall_mem_append.mpr ⟨?_, inductionHypothesis⟩
      intro node member
      obtain ⟨member, isAssignment⟩ := List.mem_filter.mp member
      exact isBuilt.flat member isAssignment

/-- There is exactly one template that stands for a lineage if no block reaches itself. -/
theorem Lineage.exists_flattened {heirs : List Loaded} {root : Loaded}
    (lineage : Lineage heirs root)
    (acyclic : ∀ name, ¬Relation.TransGen (LeadsTo (bodiesOf (heirs ++ [root]))) (name, 0) (name, 0)) :
    ∃! body, Flattened heirs root body := by
  have flattens : ∃ flat, Flattens (bodiesOf (heirs ++ [root])) none root.template.body flat := by
    apply Syntax.exists_flattens_of_each
    intro node member
    apply (lineage.root_fits node member).exists_flattens
    constructor
    · intro name own span stands
      have isOwn := Syntax.mem_definitionsOfNodes.mpr ⟨node, member, stands.mem_definitions⟩
      have defined : Define (heirs ++ [root]) name := ⟨root, by simp, root.isSome_body? isOwn⟩
      obtain ⟨body, isBody⟩ := Option.isSome_iff_exists.mp (isSome_bodiesOf defined)
      obtain ⟨flat, flattens⟩ := Syntax.exists_flattens_of_body (finite_bodiesOf _) acyclic
        lineage.sound isBody
      exact ⟨body, flat, isBody, flattens⟩
    · exact fun isInside => by cases isInside
  obtain ⟨flat, isFlat⟩ := flattens
  refine ⟨_, ⟨flat, isFlat, rfl⟩, ?_⟩
  rintro body ⟨other, isOther, rfl⟩
  rw [isFlat.unique isOther]

end Stencil.Host
