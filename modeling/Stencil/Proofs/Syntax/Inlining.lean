import Mathlib.Data.List.Forall2
import Stencil.Proofs.Syntax.Akin
import Stencil.Proofs.Syntax.Inner

/-!
Contract: statements with the body of a macro in place of its calls.

Owns:
- the statement that stands for the text of a call: the macro's body, with the arguments assigned to
  the macro's parameters;
- statements with some of the calls replaced so, wherever they stand, in the bodies of macros too;
- the macros that such statements define.

There are no other templates and no tags of hosts in such statements.

Does not own: that they render to the same text (`Stencil.Proofs.Render.Inlining`).
-/

set_option autoImplicit false

namespace Stencil.Syntax

open Stencil.Text (Span)

/-! ### Macros one after another -/

theorem macrosOf_cons (node : Node) (rest : List Node) :
    macrosOf (node :: rest) = macrosOf [node] ++ macrosOf rest := by
  simp [macrosOf, definitionsOfNodes]

/-- An ordinary statement defines the macros of its bodies. -/
theorem macrosOf_ordinary {node : Node} (isOrdinary : node.isOrdinary = true) :
    macrosOf [node] = node.bodies.flatMap macrosOf := by
  simp only [macrosOf, definitionsOfNodes, Node.definitions_of_isOrdinary isOrdinary,
    List.append_nil, List.filterMap_flatMap]
  rfl

theorem Node.span_mapBodies (node : Node) (change : List Node → List Node) :
    (node.mapBodies change).span = node.span := by
  cases node <;> rfl

/-! ### Calls replaced -/

/-- The assignments of arguments to parameters. -/
def bindingsOf (params : List Param) (args : List Expr) : List Binding :=
  List.zipWith (fun param arg => ⟨.name param.name param.span, arg⟩) params args

theorem bindingsOf_targets {params : List Param} {args : List Expr}
    (isFull : args.length = params.length) :
    (bindingsOf params args).map (·.target) = params.map fun param => .name param.name param.span := by
  induction params generalizing args with
  | nil => rfl
  | cons param rest inductionHypothesis =>
      cases args with
      | nil => cases isFull
      | cons arg args =>
          exact congrArg (Target.name param.name param.span :: ·)
            (inductionHypothesis (Nat.succ.inj isFull))

theorem bindingsOf_values {params : List Param} {args : List Expr}
    (isFull : args.length = params.length) : (bindingsOf params args).map (·.value) = args := by
  induction params generalizing args with
  | nil => exact (List.eq_nil_of_length_eq_zero isFull).symm
  | cons param rest inductionHypothesis =>
      cases args with
      | nil => cases isFull
      | cons arg args => exact congrArg (arg :: ·) (inductionHypothesis (Nat.succ.inj isFull))

/-- Whether statements are others in which some of the calls of a macro whose texts are printed are
replaced by the macro's body, with the arguments assigned to its parameters. The body may have calls
replaced in it in turn. -/
inductive Inlines (definition : MacroDefinition) : List Node → List Node → Prop where
  | nil : Inlines definition [] []
  /-- A statement with different bodies on both sides. -/
  | ordinary {node : Node} {rest rest' : List Node} (change change' : List Node → List Node)
      (isOrdinary : node.isOrdinary = true)
      (inner : ∀ body ∈ node.bodies, Inlines definition (change body) (change' body))
      (others : Inlines definition rest rest') :
      Inlines definition (node.mapBodies change :: rest) (node.mapBodies change' :: rest')
  | block {name : String} {body body' rest rest' : List Node} {span : Span}
      (inner : Inlines definition body body') (others : Inlines definition rest rest') :
      Inlines definition (.block name body span :: rest) (.block name body' span :: rest')
  | define {name : String} {params : List Param} {body body' rest rest' : List Node} {span : Span}
      (inner : Inlines definition body body') (others : Inlines definition rest rest') :
      Inlines definition (.define name params body span :: rest)
        (.define name params body' span :: rest')
  | callBlock {call : Expr} {params : List Param} {body body' rest rest' : List Node} {span : Span}
      (inner : Inlines definition body body') (others : Inlines definition rest rest') :
      Inlines definition (.callBlock call params body span :: rest)
        (.callBlock call params body' span :: rest')
  | call {args : List Expr} {body' rest rest' : List Node} {name callSpan span : Span}
      (isFull : args.length = definition.params.length)
      (positional : ∀ arg ∈ args, arg.isKeyword = false)
      (inner : Inlines definition definition.body body') (others : Inlines definition rest rest') :
      Inlines definition (.output (.call (.name definition.name name) args callSpan) span :: rest)
        (.withBlock (bindingsOf definition.params args) body' span :: rest')

/-- Whether a macro is another one with calls replaced in its body. -/
structure MacroDefinition.Inlined (definition one other : MacroDefinition) : Prop where
  name : one.name = other.name
  params : one.params = other.params
  body : Inlines definition one.body other.body

namespace Inlines

variable {definition : MacroDefinition} {nodes nodes' : List Node}

/-- A macro in whose body no macro is defined is not defined by what replaces its calls. -/
theorem macrosOf (inlines : Inlines definition nodes nodes')
    (isClosed : Syntax.macrosOf definition.body = []) :
    List.Forall₂ (MacroDefinition.Inlined definition) (Syntax.macrosOf nodes)
      (Syntax.macrosOf nodes') := by
  induction inlines with
  | nil => exact .nil
  | @ordinary node rest rest' change change' isOrdinary _ _ innerHypothesis othersHypothesis =>
      rw [macrosOf_cons, macrosOf_cons _ rest']
      refine List.rel_append ?_ othersHypothesis
      rw [macrosOf_ordinary ((node.isOrdinary_mapBodies).trans isOrdinary),
        macrosOf_ordinary ((node.isOrdinary_mapBodies).trans isOrdinary),
        Node.bodies_mapBodies isOrdinary, Node.bodies_mapBodies isOrdinary]
      refine List.rel_flatMap (R := fun body body' => List.Forall₂ _ (Syntax.macrosOf body)
        (Syntax.macrosOf body')) ?_ fun _ _ related => related
      rw [List.forall₂_map_left_iff, List.forall₂_map_right_iff]
      exact List.forall₂_same.mpr innerHypothesis
  | @block name body body' rest rest' span _ _ innerHypothesis othersHypothesis
  | @callBlock call params body body' rest rest' span _ _ innerHypothesis othersHypothesis =>
      rw [macrosOf_cons, macrosOf_cons _ rest']
      refine List.rel_append ?_ othersHypothesis
      simpa [Syntax.macrosOf, definitionsOfNodes, Node.definitions] using innerHypothesis
  | @define name params body body' rest rest' span inner _ _ othersHypothesis =>
      rw [macrosOf_cons, macrosOf_cons _ rest']
      exact List.rel_append (.cons ⟨rfl, rfl, inner⟩ .nil) othersHypothesis
  | @call args body' rest rest' name callSpan span _ _ _ _ innerHypothesis othersHypothesis =>
      rw [macrosOf_cons, macrosOf_cons _ rest']
      refine List.rel_append ?_ othersHypothesis
      rw [isClosed] at innerHypothesis
      simpa [Syntax.macrosOf, definitionsOfNodes, Node.definitions] using innerHypothesis

theorem home (inlines : Inlines definition nodes nodes')
    (isClosed : Syntax.macrosOf definition.body = []) :
    Table.Akin (MacroDefinition.Inlined definition) (Host.macroTable nodes)
      (Host.macroTable nodes') := by
  refine Table.Akin.ofEntries (List.rel_map (fun one other inlined => ?_) (inlines.macrosOf isClosed))
  exact ⟨inlined.name, inlined⟩

/-- Such statements are built on no other template. -/
theorem parent? {template template' : Template}
    (inlines : Inlines definition template.body template'.body) :
    template.parent? = none ∧ template'.parent? = none := by
  unfold Template.parent?
  generalize template.body = nodes at inlines
  generalize template'.body = nodes' at inlines
  induction inlines with
  | nil => exact ⟨rfl, rfl⟩
  | @ordinary node rest rest' change change' isOrdinary _ _ _ inductionHypothesis =>
      cases node <;> first | exact inductionHypothesis | cases isOrdinary
  | block _ _ _ inductionHypothesis | define _ _ _ inductionHypothesis
  | callBlock _ _ _ inductionHypothesis | call _ _ _ _ _ inductionHypothesis =>
      exact inductionHypothesis

end Inlines

/-! ### Places -/

/-- Trees that are the same apart from the places of their parts, and tags that are the same. -/
def Likeness.anywhere : Likeness := ⟨fun _ _ _ => True, fun _ tag tag' => tag = tag'⟩

theorem akin_anywhere (source : String) (nodes : List Node) :
    Nodes.Akin .anywhere source nodes nodes :=
  .refl (fun _ => rfl) nodes fun _ _ => ⟨fun _ _ => trivial, fun _ _ _ => trivial⟩

end Stencil.Syntax
