import Stencil.Proofs.Syntax.Inner

/-!
Contract: statements with other expressions.

Owns:
- targets, clauses and statements in which every expression is exchanged, and nothing else;
- that nothing happens to them if every expression is exchanged for itself.

Does not own: statements with other bodies (`Stencil.Proofs.Syntax.Inner`).
-/

set_option autoImplicit false

namespace Stencil.Syntax

variable (change : Expr → Expr)

namespace Target

mutual

def mapExprs : Target → Target
  | .name bound span => .name bound span
  | .tuple items span => .tuple (mapExprsAll items) span
  | .attribute value attr span => .attribute (change value) attr span
  | .item value index span => .item (change value) (change index) span

def mapExprsAll : List Target → List Target
  | [] => []
  | target :: rest => mapExprs target :: mapExprsAll rest

end

end Target

def FilterCall.mapExprs (call : FilterCall) : FilterCall :=
  { call with args := call.args.map change }

def Param.mapExprs (param : Param) : Param := { param with default := param.default.map change }

def Binding.mapExprs (binding : Binding) : Binding :=
  ⟨binding.target.mapExprs change, change binding.value⟩

mutual

def Node.mapExprs : Node → Node
  | .text content span => .text content span
  | .verbatim content span => .verbatim content span
  | .output value span => .output (change value) span
  | .choose branches otherwise span =>
      .choose (mapExprsOfBranches branches) (mapExprsOfBody? otherwise) span
  | .each target items condition body otherwise span =>
      .each (target.mapExprs change) (change items) (condition.map change) (mapExprsOfNodes body)
        (mapExprsOfBody? otherwise) span
  | .assign target value span => .assign (target.mapExprs change) (change value) span
  | .capture target filters body span =>
      .capture (target.mapExprs change) (filters.map (FilterCall.mapExprs change))
        (mapExprsOfNodes body) span
  | .block name body span => .block name (mapExprsOfNodes body) span
  | .inherit template span => .inherit (change template) span
  | .embed template withContext ignoreMissing span =>
      .embed (change template) withContext ignoreMissing span
  | .importAs template boundAs withContext span =>
      .importAs (change template) boundAs withContext span
  | .importNames template names withContext span =>
      .importNames (change template) names withContext span
  | .define name params body span =>
      .define name (params.map (Param.mapExprs change)) (mapExprsOfNodes body) span
  | .callBlock call params body span =>
      .callBlock (change call) (params.map (Param.mapExprs change)) (mapExprsOfNodes body) span
  | .withBlock bindings body span =>
      .withBlock (bindings.map (Binding.mapExprs change)) (mapExprsOfNodes body) span
  | .filterBlock filters body span =>
      .filterBlock (filters.map (FilterCall.mapExprs change)) (mapExprsOfNodes body) span
  | .comment content span => .comment content span
  | .custom name args body span => .custom name (args.map change) (mapExprsOfBody? body) span

def mapExprsOfNodes : List Node → List Node
  | [] => []
  | node :: rest => node.mapExprs :: mapExprsOfNodes rest

/-- The statements of a body that may be absent, with other expressions. -/
def mapExprsOfBody? : Option (List Node) → Option (List Node)
  | none => none
  | some body => some (mapExprsOfNodes body)

def mapExprsOfBranches : List Branch → List Branch
  | [] => []
  | .mk test body span :: rest =>
      .mk (change test) (mapExprsOfNodes body) span :: mapExprsOfBranches rest

end

def Template.mapExprs (template : Template) : Template :=
  { template with body := mapExprsOfNodes change template.body }

variable {change}

/-! ### Expressions exchanged for themselves -/

namespace Target

mutual

theorem mapExprs_id (target : Target) : target.mapExprs id = target := by
  match target with
  | .name _ _ | .attribute _ _ _ | .item _ _ _ => rfl
  | .tuple items _ => rw [mapExprs, mapExprsAll_id items]

theorem mapExprsAll_id (targets : List Target) : mapExprsAll id targets = targets := by
  match targets with
  | [] => rfl
  | target :: rest => rw [mapExprsAll, mapExprs_id target, mapExprsAll_id rest]

end

end Target

theorem FilterCall.mapExprs_id (call : FilterCall) : call.mapExprs id = call := by
  rw [mapExprs, List.map_id]

theorem Param.mapExprs_id (param : Param) : param.mapExprs id = param := by
  rw [mapExprs, Option.map_id, id]

theorem Binding.mapExprs_id (binding : Binding) : binding.mapExprs id = binding := by
  rw [mapExprs, Target.mapExprs_id, id]

mutual

theorem Node.mapExprs_id (node : Node) : node.mapExprs id = node := by
  match node with
  | .text _ _ | .verbatim _ _ | .comment _ _ | .output _ _ | .inherit _ _ | .embed _ _ _ _
  | .importAs _ _ _ _ | .importNames _ _ _ _ => rfl
  | .assign target value span => rw [Node.mapExprs, Target.mapExprs_id, id]
  | .choose branches otherwise span =>
      rw [Node.mapExprs, mapExprsOfBranches_id branches, mapExprsOfBody?_id otherwise]
  | .each target items condition body otherwise span =>
      rw [Node.mapExprs, Target.mapExprs_id, Option.map_id, mapExprsOfNodes_id body,
        mapExprsOfBody?_id otherwise, id, id]
  | .capture target filters body span =>
      rw [Node.mapExprs, Target.mapExprs_id, List.map_id'' FilterCall.mapExprs_id,
        mapExprsOfNodes_id body]
  | .block name body span => rw [Node.mapExprs, mapExprsOfNodes_id body]
  | .define name params body span =>
      rw [Node.mapExprs, List.map_id'' Param.mapExprs_id, mapExprsOfNodes_id body]
  | .callBlock call params body span =>
      rw [Node.mapExprs, List.map_id'' Param.mapExprs_id, mapExprsOfNodes_id body, id]
  | .withBlock bindings body span =>
      rw [Node.mapExprs, List.map_id'' Binding.mapExprs_id, mapExprsOfNodes_id body]
  | .filterBlock filters body span =>
      rw [Node.mapExprs, List.map_id'' FilterCall.mapExprs_id, mapExprsOfNodes_id body]
  | .custom name args body span => rw [Node.mapExprs, List.map_id, mapExprsOfBody?_id body]

theorem mapExprsOfNodes_id (nodes : List Node) : mapExprsOfNodes id nodes = nodes := by
  match nodes with
  | [] => rfl
  | node :: rest => rw [mapExprsOfNodes, node.mapExprs_id, mapExprsOfNodes_id rest]

theorem mapExprsOfBody?_id (body : Option (List Node)) : mapExprsOfBody? id body = body := by
  match body with
  | none => rfl
  | some nodes => rw [mapExprsOfBody?, mapExprsOfNodes_id nodes]

theorem mapExprsOfBranches_id (branches : List Branch) :
    mapExprsOfBranches id branches = branches := by
  match branches with
  | [] => rfl
  | .mk test body span :: rest =>
      rw [mapExprsOfBranches, mapExprsOfNodes_id body, mapExprsOfBranches_id rest, id]

end

end Stencil.Syntax
