import Stencil.Proofs.Syntax.Marks

/-!
Contract: trees whose spans are exact, nested and in order.

Owns:
- windows, between whose ends spans of exact points lie, and the parts of a tree that lie in them;
- everything that a statement holds apart from its bodies lies in the statement's span;
- bodies in order: each statement ends before the next one begins.

Does not own: which trees the grammar builds (`Stencil.Proofs.Grammar.Placement`).
-/

set_option autoImplicit false

namespace Stencil.Text

/-- Whether both ends of a span are exact, and its end does not come before its start. -/
structure Span.IsExact (exact : Position → Prop) (span : Span) : Prop where
  start : exact span.start
  stop : exact span.stop
  ordered : span.start.offset ≤ span.stop.offset

/-- The exact spans between two offsets. -/
structure Window where
  exact : Position → Prop
  low : Nat
  high : Nat

/-- Whether a span lies in a window. -/
structure Window.Holds (window : Window) (span : Span) : Prop where
  isExact : span.IsExact window.exact
  low : window.low ≤ span.start.offset
  high : span.stop.offset ≤ window.high

/-- A span that covers two exact spans is exact. -/
theorem Span.IsExact.cover {exact : Position → Prop} {span other : Span}
    (first : span.IsExact exact) (second : other.IsExact exact) : (span.cover other).IsExact exact := by
  obtain ⟨start, stop, ordered⟩ := first
  obtain ⟨otherStart, otherStop, otherOrdered⟩ := second
  unfold Span.cover
  refine ⟨?_, ?_, ?_⟩
  · dsimp only
    split <;> assumption
  · dsimp only
    split <;> assumption
  · dsimp only
    split <;> split <;> omega

namespace Window

variable {window : Window} {span other : Span}

theorem holds_cover (first : window.Holds span) (second : window.Holds other) :
    window.Holds (span.cover other) := by
  obtain ⟨isExact, low, high⟩ := first
  obtain ⟨otherExact, otherLow, otherHigh⟩ := second
  refine ⟨isExact.cover otherExact, ?_, ?_⟩
  · unfold Span.cover
    dsimp only
    split <;> omega
  · unfold Span.cover
    dsimp only
    split <;> omega

theorem holds_point (holds : window.Holds span) : window.Holds (.point span.start) := by
  obtain ⟨⟨start, stop, ordered⟩, low, high⟩ := holds
  refine ⟨⟨start, start, Nat.le_refl _⟩, low, ?_⟩
  show span.start.offset ≤ window.high
  omega

theorem Holds.widen {wider : Window} (holds : window.Holds span) (same : wider.exact = window.exact)
    (isLow : wider.low ≤ window.low) (isHigh : window.high ≤ wider.high) : wider.Holds span := by
  refine ⟨same ▸ holds.isExact, ?_, ?_⟩
  · exact Nat.le_trans isLow holds.low
  · exact Nat.le_trans holds.high isHigh

end Window

end Stencil.Text

namespace Stencil.Syntax

open Stencil.Text (Position Span Window)

variable {window : Window}

/-! ### Parts of statements -/

/-- Whether an expression lies in a window with everything inside it. -/
def Expr.LiesIn (window : Window) (expr : Expr) : Prop :=
  ∀ span, expr.Marks span → window.Holds span

def Target.LiesIn (window : Window) (target : Target) : Prop :=
  ∀ span, target.Marks span → window.Holds span

structure FilterCall.LiesIn (window : Window) (call : FilterCall) : Prop where
  own : window.Holds call.span
  args : ∀ arg ∈ call.args, arg.LiesIn window

structure Param.LiesIn (window : Window) (param : Param) : Prop where
  own : window.Holds param.span
  default : ∀ expr ∈ param.default, expr.LiesIn window

structure Binding.LiesIn (window : Window) (binding : Binding) : Prop where
  target : binding.target.LiesIn window
  value : binding.value.LiesIn window

namespace Expr

theorem LiesIn.own {expr : Expr} (lies : expr.LiesIn window) : window.Holds expr.span :=
  lies _ (.own expr)

theorem LiesIn.child {expr part : Expr} (lies : expr.LiesIn window)
    (member : part ∈ expr.children) : part.LiesIn window :=
  fun span marks => lies span (.inside member marks)

/-- An expression lies in a window if its own spans do and the expressions inside it do. -/
theorem liesIn_of_children {expr : Expr} (own : window.Holds expr.span)
    (called : ∀ value name args callSpan span, expr = .filter value name args callSpan span →
      window.Holds callSpan)
    (children : ∀ part ∈ expr.children, part.LiesIn window) : expr.LiesIn window := by
  intro span marks
  cases marks with
  | own => exact own
  | filter value name args callSpan whole => exact called _ _ _ _ _ rfl
  | inside member marks => exact children _ member span marks

/-- Expressions that lie in a window, and what is made of them. -/
theorem liesIn_of_parts {expr : Expr} (own : window.Holds expr.span)
    (notFilter : ∀ value name args callSpan span, expr ≠ .filter value name args callSpan span)
    (children : ∀ part ∈ expr.children, part.LiesIn window) : expr.LiesIn window :=
  liesIn_of_children own (fun _ _ _ _ _ isFilter => absurd isFilter (notFilter _ _ _ _ _)) children

theorem liesIn_literal {span : Span} (holds : window.Holds span) (value : Literal) :
    (Expr.literal value span).LiesIn window :=
  liesIn_of_parts holds nofun nofun

theorem liesIn_name {span : Span} (holds : window.Holds span) (name : String) :
    (Expr.name name span).LiesIn window :=
  liesIn_of_parts holds nofun nofun

theorem liesIn_missing {span : Span} (holds : window.Holds span) :
    (Expr.missing span).LiesIn window :=
  liesIn_of_parts holds nofun nofun

theorem liesIn_one {expr part : Expr} (holds : window.Holds expr.span)
    (notFilter : ∀ value name args callSpan span, expr ≠ .filter value name args callSpan span)
    (areChildren : expr.children = [part]) (atPart : part.LiesIn window) : expr.LiesIn window := by
  apply liesIn_of_parts holds notFilter
  rw [areChildren]
  exact List.forall_mem_singleton.mpr atPart

theorem liesIn_two {expr first second : Expr} (holds : window.Holds expr.span)
    (notFilter : ∀ value name args callSpan span, expr ≠ .filter value name args callSpan span)
    (areChildren : expr.children = [first, second]) (atFirst : first.LiesIn window)
    (atSecond : second.LiesIn window) : expr.LiesIn window := by
  apply liesIn_of_parts holds notFilter
  rw [areChildren]
  exact List.forall_mem_cons.mpr ⟨atFirst, List.forall_mem_singleton.mpr atSecond⟩

end Expr

/-- A filter that is applied lies where its value and its call do. -/
theorem FilterCall.liesIn_on {call : FilterCall} {value : Expr} (atCall : call.LiesIn window)
    (atValue : value.LiesIn window) : (call.on value).LiesIn window := by
  apply Expr.liesIn_of_children (Window.holds_cover atValue.own atCall.own)
  · rintro _ _ _ _ _ ⟨⟩
    exact atCall.own
  · exact List.forall_mem_cons.mpr ⟨atValue, atCall.args⟩

/-! ### Expressions as targets -/

/-- Whether what becomes of an expression as a target, or is in the way of it, stands where a part
of the expression does. -/
def Target.StandsIn (marks : Span → Prop) : Except Span Target → Prop
  | .ok target => ∀ span, target.Marks span → marks span
  | .error bad => marks bad

mutual

/-- An expression and the target that it is read as stand at the same places. -/
theorem Target.standsIn_ofExpr (expr : Expr) : Target.StandsIn expr.Marks (Target.ofExpr expr) := by
  cases expr with
  | name name whole =>
      intro span marks
      cases marks with
      | own => exact .own (.name name whole)
      | expr member _ => cases member
  | tuple items whole =>
      have each := Target.standsIn_ofExprs items
      rw [Target.ofExpr]
      cases areTargets : Target.ofExprs items with
      | error bad =>
          rw [areTargets] at each
          obtain ⟨item, member, marks⟩ := each
          exact .inside member marks
      | ok targets =>
          rw [areTargets] at each
          intro span marks
          cases marks with
          | own => exact .own (.tuple items whole)
          | expr member marks =>
              obtain ⟨target, isTarget, member⟩ := mem_exprsOfAll.mp member
              obtain ⟨item, isItem, marks⟩ := each target isTarget span (.expr member marks)
              exact .inside isItem marks
          | inside isTarget marks =>
              obtain ⟨item, isItem, marks⟩ := each _ isTarget span marks
              exact .inside isItem marks
  | group inner whole =>
      have same := Target.standsIn_ofExpr inner
      rw [Target.ofExpr]
      cases isTarget : Target.ofExpr inner with
      | error bad =>
          rw [isTarget] at same
          exact .inside List.mem_cons_self same
      | ok target =>
          rw [isTarget] at same
          exact fun span marks => .inside List.mem_cons_self (same span marks)
  | «attribute» value attr whole =>
      intro span marks
      cases marks with
      | own => exact .own (.attribute value attr whole)
      | expr member marks => exact .inside member marks
  | item value index whole =>
      intro span marks
      cases marks with
      | own => exact .own (.item value index whole)
      | expr member marks => exact .inside member marks
  | _ => exact .own _

theorem Target.standsIn_ofExprs (items : List Expr) :
    match Target.ofExprs items with
    | .ok targets => ∀ target ∈ targets, ∀ span, target.Marks span →
        ∃ item ∈ items, item.Marks span
    | .error bad => ∃ item ∈ items, item.Marks bad := by
  cases items with
  | nil => exact fun _ member => nomatch member
  | cons first rest =>
      have atFirst := Target.standsIn_ofExpr first
      have atRest := Target.standsIn_ofExprs rest
      rw [Target.ofExprs]
      cases isTarget : Target.ofExpr first with
      | error bad =>
          rw [isTarget] at atFirst
          exact ⟨first, List.mem_cons_self, atFirst⟩
      | ok target =>
          rw [isTarget] at atFirst
          cases areTargets : Target.ofExprs rest with
          | error bad =>
              rw [areTargets] at atRest
              obtain ⟨item, member, marks⟩ := atRest
              exact ⟨item, List.mem_cons_of_mem _ member, marks⟩
          | ok targets =>
              rw [areTargets] at atRest
              intro other isOther span marks
              rcases List.mem_cons.mp isOther with rfl | isOther
              · exact ⟨first, List.mem_cons_self, atFirst span marks⟩
              · obtain ⟨item, member, marks⟩ := atRest other isOther span marks
                exact ⟨item, List.mem_cons_of_mem _ member, marks⟩

end

/-! ### Statements -/

/-- The branches of a choice. -/
def Node.branches : Node → List Branch
  | .choose branches _ _ => branches
  | _ => []

/-- Whether all that a statement holds apart from its bodies lies in a window. -/
structure Node.HoldsIn (window : Window) (node : Node) : Prop where
  exprs : ∀ expr ∈ node.exprs, expr.LiesIn window
  targets : ∀ target ∈ node.targets, target.LiesIn window
  filters : ∀ call ∈ node.filters, call.LiesIn window
  params : ∀ param ∈ node.params, param.LiesIn window
  imports : ∀ wanted ∈ node.imports, window.Holds wanted.span
  branches : ∀ branch ∈ node.branches, window.Holds branch.span

/-- A statement that holds expressions only. -/
theorem Node.HoldsIn.of_exprs {node : Node} (exprs : ∀ expr ∈ node.exprs, expr.LiesIn window)
    (noTargets : node.targets = []) (noFilters : node.filters = []) (noParams : node.params = [])
    (noImports : node.imports = []) (noBranches : node.branches = []) : node.HoldsIn window where
  exprs := exprs
  targets _ member := by rw [noTargets] at member; cases member
  filters _ member := by rw [noFilters] at member; cases member
  params _ member := by rw [noParams] at member; cases member
  imports _ member := by rw [noImports] at member; cases member
  branches _ member := by rw [noBranches] at member; cases member

/-- Whether statements lie between two offsets, and each ends before the next one begins. -/
structure Stacked (low high : Nat) (nodes : List Node) : Prop where
  within : ∀ node ∈ nodes, low ≤ node.span.start.offset ∧ node.span.stop.offset ≤ high
  ordered : nodes.Pairwise fun first second => first.span.stop.offset ≤ second.span.start.offset

/-- The window between the ends of a span. -/
def windowOf (exact : Position → Prop) (span : Span) : Window :=
  ⟨exact, span.start.offset, span.stop.offset⟩

/-- Whether all spans of a statement and of the statements in its bodies are exact; what a statement
holds lies in its own span, and so does each of its bodies, the statements of which are in order. -/
inductive Node.Nests (exact : Position → Prop) : Node → Prop where
  | mk {node : Node} (own : node.span.IsExact exact)
      (held : node.HoldsIn (windowOf exact node.span))
      (stacked : ∀ body ∈ node.bodies, Stacked node.span.start.offset node.span.stop.offset body)
      (inner : ∀ body ∈ node.bodies, ∀ inner ∈ body, Nests exact inner) : Nests exact node

theorem Node.Nests.own {exact : Position → Prop} {node : Node} (nests : node.Nests exact) :
    node.span.IsExact exact := by
  cases nests with
  | mk own => exact own

theorem Stacked.nil (low high : Nat) : Stacked low high [] :=
  ⟨(fun _ member => nomatch member), .nil⟩

theorem Stacked.widen {low high lower higher : Nat} {nodes : List Node}
    (stacked : Stacked low high nodes) (isLow : lower ≤ low) (isHigh : high ≤ higher) :
    Stacked lower higher nodes := by
  refine ⟨fun node member => ?_, stacked.ordered⟩
  obtain ⟨atLow, atHigh⟩ := stacked.within node member
  omega

/-- A statement behind the others. -/
theorem Stacked.concat {low high higher : Nat} {nodes : List Node} {node : Node}
    (stacked : Stacked low high nodes) (isLow : low ≤ high) (begins : high ≤ node.span.start.offset)
    (ordered : node.span.start.offset ≤ node.span.stop.offset)
    (ends : node.span.stop.offset ≤ higher) : Stacked low higher (nodes ++ [node]) := by
  refine ⟨fun other member => ?_, ?_⟩
  · rcases List.mem_append.mp member with member | member
    · obtain ⟨atLow, atHigh⟩ := stacked.within other member
      omega
    · obtain rfl := List.mem_singleton.mp member
      omega
  · apply List.pairwise_append.mpr
    refine ⟨stacked.ordered, List.pairwise_singleton _ _, fun first isFirst second isSecond => ?_⟩
    obtain rfl := List.mem_singleton.mp isSecond
    have atHigh := (stacked.within first isFirst).2
    omega

section Widen

variable {wider : Window} (same : wider.exact = window.exact) (isLow : wider.low ≤ window.low)
  (isHigh : window.high ≤ wider.high)
include same isLow isHigh

theorem Expr.LiesIn.widen {expr : Expr} (lies : expr.LiesIn window) : expr.LiesIn wider :=
  fun span marks => (lies span marks).widen same isLow isHigh

theorem Node.HoldsIn.widen {node : Node} (holds : node.HoldsIn window) : node.HoldsIn wider where
  exprs expr member := (holds.exprs expr member).widen same isLow isHigh
  targets target member span marks :=
    (holds.targets target member span marks).widen same isLow isHigh
  filters call member := by
    obtain ⟨own, args⟩ := holds.filters call member
    exact ⟨own.widen same isLow isHigh, fun arg isArg => (args arg isArg).widen same isLow isHigh⟩
  params param member := by
    obtain ⟨own, default⟩ := holds.params param member
    exact ⟨own.widen same isLow isHigh,
      fun expr isDefault => (default expr isDefault).widen same isLow isHigh⟩
  imports wanted member := (holds.imports wanted member).widen same isLow isHigh
  branches branch member := (holds.branches branch member).widen same isLow isHigh

end Widen

theorem Expr.LiesIn.extend {exact : Position → Prop} {low high lower higher : Nat} {expr : Expr}
    (lies : expr.LiesIn ⟨exact, low, high⟩) (isLow : lower ≤ low) (isHigh : high ≤ higher) :
    expr.LiesIn ⟨exact, lower, higher⟩ := by
  refine Expr.LiesIn.widen ?_ ?_ ?_ lies
  · rfl
  · exact isLow
  · exact isHigh

theorem Node.HoldsIn.extend {exact : Position → Prop} {low high higher : Nat} {node : Node}
    (holds : node.HoldsIn ⟨exact, low, high⟩) (isHigh : high ≤ higher) :
    node.HoldsIn ⟨exact, low, higher⟩ := by
  refine Node.HoldsIn.widen ?_ ?_ ?_ holds
  · rfl
  · exact Nat.le_refl low
  · exact isHigh

end Stencil.Syntax
