import Stencil.Proofs.Syntax.Level
import Stencil.Report.Diagnostic
import Stencil.Syntax.Node

/-!
Contract: statements and problems without their places.

Owns:
- targets, clauses and statements with every place left out;
- one equation for each form of statement;
- problems without the place where they were met.

Does not own: expressions without their places (`Stencil.Proofs.Syntax.Level`).
-/

set_option autoImplicit false

namespace Stencil

/-- A problem without its place. -/
def Report.Diagnostic.unplaced (diagnostic : Report.Diagnostic) : Report.Diagnostic :=
  { diagnostic with span := default }

end Stencil

namespace Stencil.Syntax

open Stencil.Text (Span)

namespace Target

mutual

def unplaced : Target → Target
  | .name bound _ => .name bound default
  | .tuple items _ => .tuple (unplacedAll items) default
  | .attribute value attr _ => .attribute value.unplaced attr default
  | .item value index _ => .item value.unplaced index.unplaced default

def unplacedAll : List Target → List Target
  | [] => []
  | target :: rest => unplaced target :: unplacedAll rest

end

theorem unplacedAll_eq_map (targets : List Target) :
    unplacedAll targets = targets.map unplaced := by
  induction targets with
  | nil => rfl
  | cons target rest inductionHypothesis => rw [unplacedAll, inductionHypothesis, List.map_cons]

theorem unplaced_tuple (items : List Target) (span : Span) :
    (Target.tuple items span).unplaced = .tuple (items.map unplaced) default := by
  rw [unplaced, unplacedAll_eq_map]

end Target

namespace Target

theorem toOption_ofExprs (expr : Expr) (rest : List Expr) :
    (ofExprs (expr :: rest)).toOption =
      (ofExpr expr).toOption.bind fun target => (ofExprs rest).toOption.map (target :: ·) := by
  rw [ofExprs]
  cases ofExpr expr <;> cases ofExprs rest <;> rfl

mutual

/-- Whether an expression can be assigned to, and as what, does not depend on its places. -/
theorem ofExpr_unplaced (expr : Expr) :
    (ofExpr expr.unplaced).toOption = (ofExpr expr).toOption.map unplaced := by
  match expr with
  | .tuple items span =>
      have same := ofExprs_unplaced items
      rw [Expr.unplaced_tuple, ofExpr, ofExpr]
      revert same
      cases ofExprs (items.map Expr.unplaced) <;> cases ofExprs items <;> intro same
      · rfl
      · cases same
      · cases same
      · rw [Option.some.inj same]
        exact congrArg some (unplaced_tuple _ _).symm
  | .group inner span => exact ofExpr_unplaced inner
  | .name _ _ => rfl
  | .attribute _ _ _ => rfl
  | .item _ _ _ => rfl
  | .literal _ _ => rfl
  | .unary _ _ _ => rfl
  | .binary _ _ _ _ => rfl
  | .membership _ _ _ _ => rfl
  | .conditional _ _ _ _ => rfl
  | .call _ _ _ => rfl
  | .filter _ _ _ _ _ => rfl
  | .test _ _ _ _ _ => rfl
  | .list _ _ => rfl
  | .dict _ _ => rfl
  | .keyword _ _ _ => rfl
  | .missing _ => rfl

theorem ofExprs_unplaced (exprs : List Expr) :
    (ofExprs (exprs.map Expr.unplaced)).toOption =
      (ofExprs exprs).toOption.map (List.map unplaced) := by
  match exprs with
  | [] => rfl
  | expr :: rest =>
      rw [List.map_cons, toOption_ofExprs, toOption_ofExprs, ofExpr_unplaced expr,
        ofExprs_unplaced rest]
      cases (ofExpr expr).toOption <;> cases (ofExprs rest).toOption <;> rfl

end

end Target

/-- A filter's name and arguments without their places. -/
def FilterCall.unplaced (call : FilterCall) : FilterCall :=
  ⟨call.name, call.args.map Expr.unplaced, default⟩

def ImportName.unplaced (imported : ImportName) : ImportName :=
  ⟨imported.name, imported.boundAs, default⟩

def Param.unplaced (param : Param) : Param :=
  ⟨param.name, param.default.map Expr.unplaced, Inhabited.default⟩

def Binding.unplaced (binding : Binding) : Binding :=
  ⟨binding.target.unplaced, binding.value.unplaced⟩

mutual

def Node.unplaced : Node → Node
  | .text content _ => .text content default
  | .verbatim content _ => .verbatim content default
  | .output value _ => .output value.unplaced default
  | .choose branches otherwise _ =>
      .choose (unplacedBranches branches) (unplacedBody? otherwise) default
  | .each target items condition body otherwise _ =>
      .each target.unplaced items.unplaced (condition.map Expr.unplaced) (unplacedBody body)
        (unplacedBody? otherwise) default
  | .assign target value _ => .assign target.unplaced value.unplaced default
  | .capture target filters body _ =>
      .capture target.unplaced (filters.map FilterCall.unplaced) (unplacedBody body) default
  | .block word body _ => .block word (unplacedBody body) default
  | .inherit template _ => .inherit template.unplaced default
  | .embed template withContext ignoreMissing _ =>
      .embed template.unplaced withContext ignoreMissing default
  | .importAs template boundAs withContext _ =>
      .importAs template.unplaced boundAs withContext default
  | .importNames template names withContext _ =>
      .importNames template.unplaced (names.map ImportName.unplaced) withContext default
  | .define word params body _ =>
      .define word (params.map Param.unplaced) (unplacedBody body) default
  | .callBlock call params body _ =>
      .callBlock call.unplaced (params.map Param.unplaced) (unplacedBody body) default
  | .withBlock bindings body _ =>
      .withBlock (bindings.map Binding.unplaced) (unplacedBody body) default
  | .filterBlock filters body _ =>
      .filterBlock (filters.map FilterCall.unplaced) (unplacedBody body) default
  | .comment content _ => .comment content default
  | .custom word args body _ =>
      .custom word (args.map Expr.unplaced) (unplacedBody? body) default

def unplacedBody : List Node → List Node
  | [] => []
  | node :: rest => node.unplaced :: unplacedBody rest

/-- The statements of a body that may be absent, without their places. -/
def unplacedBody? : Option (List Node) → Option (List Node)
  | none => none
  | some body => some (unplacedBody body)

def Branch.unplaced : Branch → Branch
  | .mk test body _ => .mk test.unplaced (unplacedBody body) default

def unplacedBranches : List Branch → List Branch
  | [] => []
  | branch :: rest => branch.unplaced :: unplacedBranches rest

end

theorem unplacedBody_eq_map (body : List Node) : unplacedBody body = body.map Node.unplaced := by
  induction body with
  | nil => rfl
  | cons node rest inductionHypothesis => rw [unplacedBody, inductionHypothesis, List.map_cons]

theorem unplacedBranches_eq_map (branches : List Branch) :
    unplacedBranches branches = branches.map Branch.unplaced := by
  induction branches with
  | nil => rfl
  | cons branch rest inductionHypothesis =>
      rw [unplacedBranches, inductionHypothesis, List.map_cons]

end Stencil.Syntax
