import Stencil.Syntax.Definitions

/-!
Contract: the expressions and statements immediately inside others.

Owns:
- the operands of an expression, which are smaller than it;
- expressions without calls, and expressions and statements with a property throughout;
- the bodies and the parameters of a statement, and the statement with other bodies;
- ordinary statements, which define nothing but what their bodies define.

Does not own: all parts of a tree in order (`Stencil.Syntax.Walk`).
-/

set_option autoImplicit false

namespace Stencil.Syntax

open Stencil.Text (Span)

namespace Expr

/-- The expressions immediately inside an expression. -/
def children : Expr → List Expr
  | .literal _ _ => []
  | .name _ _ => []
  | .group inner _ => [inner]
  | .unary _ operand _ => [operand]
  | .binary _ left right _ => [left, right]
  | .membership _ element container _ => [element, container]
  | .conditional condition whenTrue otherwise _ => condition :: whenTrue :: otherwise.toList
  | .call callee args _ => callee :: args
  | .filter value _ args _ _ => value :: args
  | .test value _ _ args _ => value :: args
  | .attribute value _ _ => [value]
  | .item value index _ => [value, index]
  | .list items _ => items
  | .tuple items _ => items
  | .dict entries _ => entries.flatMap fun entry => [entry.1, entry.2]
  | .keyword _ value _ => [value]
  | .missing _ => []

/-- An expression or one of the arguments behind it is smaller than all of them together. -/
theorem sizeOf_lt_of_mem_cons {part first : Expr} {args : List Expr} (member : part ∈ first :: args) :
    sizeOf part < 1 + sizeOf first + sizeOf args := by
  rcases List.mem_cons.mp member with rfl | inArgs
  · omega
  · have isLess := List.sizeOf_lt_of_mem inArgs
    omega

theorem sizeOf_child {expr part : Expr} (member : part ∈ expr.children) :
    sizeOf part < sizeOf expr := by
  cases expr <;> rw [children] at member
  case literal => cases member
  case name => cases member
  case missing => cases member
  case group | unary | «attribute» | keyword =>
    obtain rfl := List.mem_singleton.mp member
    simp
    omega
  case binary | membership | item =>
    simp only [List.mem_cons, List.not_mem_nil, or_false] at member
    rcases member with rfl | rfl <;> simp <;> omega
  case conditional condition whenTrue otherwise span =>
    rcases List.mem_cons.mp member with rfl | member
    · simp
      omega
    · rcases List.mem_cons.mp member with rfl | member
      · simp
        omega
      · obtain rfl := Option.mem_toList.mp member
        simp
        omega
  case call | filter | test =>
    have isLess := sizeOf_lt_of_mem_cons member
    simp
    omega
  case list | tuple =>
    have isLess := List.sizeOf_lt_of_mem member
    simp
    omega
  case dict entries span =>
    obtain ⟨⟨key, value⟩, isEntry, member⟩ := List.mem_flatMap.mp member
    have isLess := List.sizeOf_lt_of_mem isEntry
    simp only [List.mem_cons, List.not_mem_nil, or_false] at member
    rcases member with rfl | rfl <;> simp at isLess ⊢ <;> omega

/-- Whether there is no call in an expression. -/
inductive CallFree : Expr → Prop where
  | mk {expr : Expr} (notCall : ∀ callee args span, expr ≠ .call callee args span)
      (children : ∀ part ∈ expr.children, CallFree part) : CallFree expr

theorem CallFree.child {expr part : Expr} (isFree : expr.CallFree) (member : part ∈ expr.children) :
    part.CallFree := by
  cases isFree with
  | mk _ children => exact children part member

theorem callFree_literal (literal : Literal) (span : Span) : (Expr.literal literal span).CallFree := by
  constructor
  · exact fun _ _ _ isCall => by cases isCall
  · exact fun _ member => by cases member

theorem callFree_name (name : String) (span : Span) : (Expr.name name span).CallFree := by
  constructor
  · exact fun _ _ _ isCall => by cases isCall
  · exact fun _ member => by cases member

theorem not_callFree_call (callee : Expr) (args : List Expr) (span : Span) :
    ¬(Expr.call callee args span).CallFree := by
  rintro ⟨notCall, _⟩
  exact notCall callee args span rfl

/-- Whether an expression and all expressions inside it have a property. -/
inductive Throughout (property : Expr → Prop) : Expr → Prop where
  | mk {expr : Expr} (here : property expr)
      (children : ∀ part ∈ expr.children, Throughout property part) : Throughout property expr

variable {property : Expr → Prop}

theorem Throughout.here {expr : Expr} (throughout : expr.Throughout property) : property expr := by
  cases throughout with
  | mk here _ => exact here

theorem Throughout.child {expr part : Expr} (throughout : expr.Throughout property)
    (member : part ∈ expr.children) : part.Throughout property := by
  cases throughout with
  | mk _ children => exact children part member

/-- The name of the macro that a callee may stand for. -/
def calledName? : Expr → Option String
  | .name called _ => some called
  | .attribute _ attr _ => some attr
  | _ => none

/-- Whether an expression asks for no variables but some. -/
def AsksOnly (names : String → Prop) (expr : Expr) : Prop :=
  expr.Throughout fun part => ∀ name span, part = .name name span → names name

end Expr

namespace Target

mutual

/-- The expressions immediately inside a target. -/
def exprs : Target → List Expr
  | .name _ _ => []
  | .tuple items _ => exprsOfAll items
  | .attribute value _ _ => [value]
  | .item value index _ => [value, index]

def exprsOfAll : List Target → List Expr
  | [] => []
  | target :: rest => target.exprs ++ exprsOfAll rest

end

theorem mem_exprsOfAll {expr : Expr} {targets : List Target} :
    expr ∈ exprsOfAll targets ↔ ∃ target ∈ targets, expr ∈ target.exprs := by
  induction targets with
  | nil => simp [exprsOfAll]
  | cons target rest inductionHypothesis => simp [exprsOfAll, inductionHypothesis]

end Target

namespace Node

/-- The expressions that a statement is made of, apart from those inside its bodies and the defaults
of parameters. -/
def exprs : Node → List Expr
  | .text _ _ => []
  | .verbatim _ _ => []
  | .output value _ => [value]
  | .choose branches _ _ => branches.map Branch.test
  | .each target items condition _ _ _ => target.exprs ++ items :: condition.toList
  | .assign target value _ => target.exprs ++ [value]
  | .capture target filters _ _ => target.exprs ++ filters.flatMap FilterCall.args
  | .block _ _ _ => []
  | .inherit template _ => [template]
  | .embed template _ _ _ => [template]
  | .importAs template _ _ _ => [template]
  | .importNames template _ _ _ => [template]
  | .define _ _ _ _ => []
  | .callBlock call _ _ _ => [call]
  | .withBlock bindings _ _ => bindings.flatMap fun binding => binding.target.exprs ++ [binding.value]
  | .filterBlock filters _ _ => filters.flatMap FilterCall.args
  | .comment _ _ => []
  | .custom _ args _ _ => args

/-- The bodies of a statement. -/
def bodies : Node → List (List Node)
  | .choose branches otherwise _ => branches.map Branch.body ++ otherwise.toList
  | .each _ _ _ body otherwise _ => body :: otherwise.toList
  | .capture _ _ body _ => [body]
  | .block _ body _ => [body]
  | .define _ _ body _ => [body]
  | .callBlock _ _ body _ => [body]
  | .withBlock _ body _ => [body]
  | .filterBlock _ body _ => [body]
  | .custom _ _ body _ => body.toList
  | _ => []

/-- The parameters that a statement declares. -/
def params : Node → List Param
  | .define _ params _ _ => params
  | .callBlock _ params _ _ => params
  | _ => []

/-- Whether no default of a parameter has a call in it, in a statement and in all of its bodies. -/
inductive PlainDefaults : Node → Prop where
  | mk {node : Node} (params : ∀ param ∈ node.params, ∀ expr ∈ param.default, expr.CallFree)
      (bodies : ∀ body ∈ node.bodies, ∀ inner ∈ body, PlainDefaults inner) : PlainDefaults node

/-- There are no defaults in a statement without parameters and bodies. -/
theorem PlainDefaults.of_flat {node : Node}
    (isFlat : (node.params.isEmpty && node.bodies.isEmpty) = true) : node.PlainDefaults := by
  rw [Bool.and_eq_true, List.isEmpty_iff, List.isEmpty_iff] at isFlat
  refine .mk (fun param isParam => ?_) fun body isInner => ?_
  · rw [isFlat.1] at isParam
    cases isParam
  · rw [isFlat.2] at isInner
    cases isInner

/-- Whether a statement and all statements in its bodies have a property, and so have all of their
expressions and all defaults of their parameters. -/
inductive Throughout (property : Node → Prop) (ofExpr : Expr → Prop) : Node → Prop where
  | mk {node : Node} (here : property node)
      (exprs : ∀ expr ∈ node.exprs, expr.Throughout ofExpr)
      (params : ∀ param ∈ node.params, ∀ expr ∈ param.default, expr.Throughout ofExpr)
      (bodies : ∀ body ∈ node.bodies, ∀ inner ∈ body, Throughout property ofExpr inner) :
      Throughout property ofExpr node

namespace Throughout

variable {property : Node → Prop} {ofExpr : Expr → Prop} {node : Node}

theorem here (throughout : node.Throughout property ofExpr) : property node := by
  cases throughout with
  | mk here _ _ _ => exact here

theorem exprs (throughout : node.Throughout property ofExpr) :
    ∀ expr ∈ node.exprs, expr.Throughout ofExpr := by
  cases throughout with
  | mk _ exprs _ _ => exact exprs

theorem params (throughout : node.Throughout property ofExpr) :
    ∀ param ∈ node.params, ∀ expr ∈ param.default, expr.Throughout ofExpr := by
  cases throughout with
  | mk _ _ params _ => exact params

theorem bodies (throughout : node.Throughout property ofExpr) :
    ∀ body ∈ node.bodies, ∀ inner ∈ body, inner.Throughout property ofExpr := by
  cases throughout with
  | mk _ _ _ bodies => exact bodies

end Throughout

/-- Whether a statement asks for no variables but some. -/
def AsksOnly (names : String → Prop) (node : Node) : Prop :=
  node.Throughout (fun _ => True) fun part => ∀ name span, part = .name name span → names name

/-! ### Other bodies -/

/-- Whether a statement is made of its expressions and its bodies only. It asks for no block, no macro
and no other template, and no host has added it. -/
def isOrdinary : Node → Bool
  | .text _ _ => true
  | .verbatim _ _ => true
  | .output _ _ => true
  | .choose _ _ _ => true
  | .each _ _ _ _ _ _ => true
  | .assign _ _ _ => true
  | .capture _ _ _ _ => true
  | .withBlock _ _ _ => true
  | .filterBlock _ _ _ => true
  | .comment _ _ => true
  | _ => false

/-- Whether a statement needs another template. -/
def isLinked : Node → Bool
  | .inherit _ _ => true
  | .embed _ _ _ _ => true
  | .importAs _ _ _ _ => true
  | .importNames _ _ _ _ => true
  | _ => false

/-- Whether a statement is an assignment. -/
def isAssignment : Node → Bool
  | .assign _ _ _ => true
  | .capture _ _ _ _ => true
  | _ => false

/-- An ordinary statement with other bodies. -/
def mapBodies (change : List Node → List Node) : Node → Node
  | .choose branches otherwise span =>
      .choose (branches.map fun branch => .mk branch.test (change branch.body) branch.span)
        (otherwise.map change) span
  | .each target items condition body otherwise span =>
      .each target items condition (change body) (otherwise.map change) span
  | .capture target filters body span => .capture target filters (change body) span
  | .withBlock bindings body span => .withBlock bindings (change body) span
  | .filterBlock filters body span => .filterBlock filters (change body) span
  | node => node

variable {change : List Node → List Node}

theorem mapBodies_id (node : Node) : node.mapBodies id = node := by
  cases node with
  | choose branches otherwise span =>
      have same : (branches.map fun branch => Branch.mk branch.test branch.body branch.span) =
          branches := by
        apply List.map_id''
        rintro ⟨test, body, span⟩
        rfl
      simp only [mapBodies, id_eq, same, Option.map_id]
  | each => simp [mapBodies]
  | _ => rfl

theorem mapBodies_congr {node : Node} {other : List Node → List Node}
    (same : ∀ body ∈ node.bodies, change body = other body) :
    node.mapBodies change = node.mapBodies other := by
  cases node with
  | choose branches otherwise span =>
      have sameBranches : (branches.map fun branch =>
          Branch.mk branch.test (change branch.body) branch.span) =
            branches.map fun branch => Branch.mk branch.test (other branch.body) branch.span := by
        apply List.map_congr_left
        intro branch member
        rw [same _ (List.mem_append_left _ (List.mem_map_of_mem member))]
      have sameOther : otherwise.map change = otherwise.map other := by
        apply Option.map_congr
        intro body isBody
        exact same _ (List.mem_append_right _ (Option.mem_toList.mpr isBody))
      rw [mapBodies, mapBodies, sameBranches, sameOther]
  | each target items condition body otherwise span =>
      have sameOther : otherwise.map change = otherwise.map other := by
        apply Option.map_congr
        intro body isBody
        exact same _ (List.mem_cons_of_mem _ (Option.mem_toList.mpr isBody))
      rw [mapBodies, mapBodies, same body List.mem_cons_self, sameOther]
  | capture | withBlock | filterBlock =>
      rw [mapBodies, mapBodies, same _ List.mem_cons_self]
  | _ => rfl

theorem isOrdinary_mapBodies (node : Node) :
    (node.mapBodies change).isOrdinary = node.isOrdinary := by
  cases node <;> rfl

theorem bodies_mapBodies {node : Node} (isOrdinary : node.isOrdinary = true) :
    (node.mapBodies change).bodies = node.bodies.map change := by
  cases node with
  | choose branches otherwise span => cases otherwise <;> simp [mapBodies, bodies, Branch.body]
  | each _ _ _ _ otherwise _ => cases otherwise <;> simp [mapBodies, bodies]
  | block | define | callBlock | custom => simp [Node.isOrdinary] at isOrdinary
  | _ => rfl

theorem exprs_mapBodies (node : Node) : (node.mapBodies change).exprs = node.exprs := by
  cases node with
  | choose branches otherwise span => simp [mapBodies, exprs, Function.comp_def, Branch.test]
  | _ => rfl

theorem definitionsOfBranches_eq (branches : List Branch) :
    definitionsOfBranches branches = (branches.map Branch.body).flatMap definitionsOfNodes := by
  induction branches with
  | nil => rfl
  | cons branch rest inductionHypothesis =>
      obtain ⟨test, body, span⟩ := branch
      simp [definitionsOfBranches, inductionHypothesis, Branch.body]

/-- An ordinary statement defines what its bodies define. -/
theorem definitions_of_isOrdinary {node : Node} (isOrdinary : node.isOrdinary = true) :
    node.definitions = node.bodies.flatMap definitionsOfNodes := by
  cases node with
  | choose branches otherwise span =>
      cases otherwise <;> simp [definitions, bodies, definitionsOfBranches_eq]
  | each target items condition body otherwise span =>
      cases otherwise <;> simp [definitions, bodies]
  | capture | withBlock | filterBlock => simp [definitions, bodies]
  | text | verbatim | output | assign | comment => simp [definitions, bodies]
  | _ => simp [Node.isOrdinary] at isOrdinary

end Node

end Stencil.Syntax
