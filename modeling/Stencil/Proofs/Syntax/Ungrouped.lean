import Stencil.Proofs.Syntax.Akin
import Stencil.Proofs.Syntax.Level

/-!
Contract: trees without parentheses.

Owns:
- statements without the parentheses of their expressions;
- trees in which no parentheses stand where a callee, an argument by keyword, the call of a call
  block, or a name in question is looked for, and that such trees are akin to those without
  parentheses.

Does not own: expressions without parentheses (`Stencil.Proofs.Syntax.Level`).
-/

set_option autoImplicit false

namespace Stencil

namespace Syntax

open Stencil.Text (Span)

/-! ### Parentheses that show -/

namespace Expr

/-- Whether arguments by keyword are so without parentheses, too, and others are not. -/
def KeepsKeywords (args : List Expr) : Prop :=
  args.map isKeyword = (args.map ungrouped).map isKeyword

/-- Whether an expression looks for nothing that parentheses around its operands hide. -/
def HidesNothing : Expr → Prop
  | .call callee args _ => callee.calleeForm = callee.ungrouped.calleeForm ∧ KeepsKeywords args
  | .filter _ _ args _ _ => KeepsKeywords args
  | .test value _ word args _ =>
      (isAboutNames word = true → value.isName = value.ungrouped.isName) ∧ KeepsKeywords args
  | _ => True

/-- Whether neither an expression nor one inside of it looks for something that parentheses hide. -/
inductive Seamless : Expr → Prop where
  | mk {expr : Expr} (own : expr.HidesNothing) (children : ∀ part ∈ expr.children, Seamless part) :
      Seamless expr

theorem Seamless.child {expr part : Expr} (seamless : expr.Seamless)
    (member : part ∈ expr.children) : part.Seamless := by
  cases seamless with
  | mk _ children => exact children part member

variable {spans : Span → Span → Prop}

/-- An expression is akin to what is left of it without parentheses. -/
theorem Seamless.akin (any : ∀ span span', spans span span') {expr : Expr}
    (seamless : expr.Seamless) : Akin spans expr expr.ungrouped := by
  have part : ∀ part ∈ expr.children, Akin spans part part.ungrouped := fun part member =>
    (seamless.child member).akin any
  have each : ∀ {parts : List Expr}, (∀ part ∈ parts, part ∈ expr.children) →
      List.Forall₂ (Akin spans) parts (parts.map ungrouped) := fun isPart =>
    List.forall₂_map_right_iff.mpr
      (List.forall₂_same.mpr fun inner member => part inner (isPart inner member))
  obtain ⟨own, -⟩ := seamless
  cases expr with
  | literal value span => exact .literal value (any _ _)
  | name name span => exact .name name (any _ _)
  | missing span => exact .missing (any _ _)
  | group inner span => exact .bare (part _ (by simp [children])) (any _ _)
  | unary op operand span => exact .unary op (part _ (by simp [children])) (any _ _)
  | keyword name value span => exact .keyword name (part _ (by simp [children])) (any _ _)
  | «attribute» value attr span => exact .attribute attr (part _ (by simp [children])) (any _ _)
  | binary op left right span =>
      exact .binary op (part _ (by simp [children])) (part _ (by simp [children])) (any _ _)
  | membership negated element container span =>
      exact .membership negated (part _ (by simp [children])) (part _ (by simp [children]))
        (any _ _)
  | item value index span =>
      exact .item (part _ (by simp [children])) (part _ (by simp [children])) (any _ _)
  | conditional test whenTrue otherwise span =>
      refine .conditional (part _ (by simp [children])) (part _ (by simp [children])) ?_ (any _ _)
      cases otherwise with
      | none => exact .none
      | some otherwise => exact .some (part _ (by simp [children]))
  | call callee args span =>
      rw [ungrouped, rebuild, rebuildAll_eq_map]
      exact .call (part _ List.mem_cons_self) own.1
        (each fun _ member => List.mem_cons_of_mem _ member) own.2 (any _ _)
  | filter value name args callSpan span =>
      rw [ungrouped, rebuild, rebuildAll_eq_map]
      have keywords : KeepsKeywords args := own
      exact .filter name (part _ List.mem_cons_self)
        (each fun _ member => List.mem_cons_of_mem _ member) keywords (any _ _) (any _ _)
  | test value negated name args span =>
      rw [ungrouped, rebuild, rebuildAll_eq_map]
      exact .test negated name (part _ List.mem_cons_self) own.1
        (each fun _ member => List.mem_cons_of_mem _ member) own.2 (any _ _)
  | list items span =>
      rw [ungrouped, rebuild, rebuildAll_eq_map]
      exact .list (each fun _ => id) (any _ _)
  | tuple items span =>
      rw [ungrouped, rebuild, rebuildAll_eq_map]
      exact .tuple (each fun _ => id) (any _ _)
  | dict entries span =>
      rw [ungrouped, rebuild, rebuildEntries_eq_map]
      have isEntry {entry : Expr × Expr} (member : entry ∈ entries) :
          entry.1 ∈ (dict entries span).children ∧ entry.2 ∈ (dict entries span).children :=
        ⟨List.mem_flatMap.mpr ⟨entry, member, by simp⟩, List.mem_flatMap.mpr ⟨entry, member, by simp⟩⟩
      have keys : List.Forall₂ (Akin spans) (entries.map Prod.fst)
          ((entries.map Prod.fst).map ungrouped) :=
        each (List.forall_mem_map.mpr fun _ member => (isEntry member).1)
      have values : List.Forall₂ (Akin spans) (entries.map Prod.snd)
          ((entries.map Prod.snd).map ungrouped) :=
        each (List.forall_mem_map.mpr fun _ member => (isEntry member).2)
      rw [List.map_map] at keys values
      refine .dict ?_ ?_ (any _ _) <;> rw [List.map_map]
      · exact keys
      · exact values
termination_by sizeOf expr
decreasing_by exact sizeOf_child member

end Expr

/-! ### Targets -/

namespace Target

variable {spans : Span → Span → Prop}

mutual

theorem akin_ungrouped (any : ∀ span span', spans span span') (target : Target)
    (seamless : ∀ expr ∈ target.exprs, expr.Seamless) :
    target.Akin spans (target.mapExprs Expr.ungrouped) := by
  match target with
  | .name bound span => exact .name bound
  | .tuple items span => exact .tuple (akin_ungroupedAll any items seamless) (any _ _)
  | .attribute value attr span =>
      exact .attribute attr ((seamless value List.mem_cons_self).akin any) (any _ _)
  | .item value index span =>
      exact .item ((seamless value List.mem_cons_self).akin any)
        ((seamless index (List.mem_cons_of_mem _ List.mem_cons_self)).akin any) (any _ _)

theorem akin_ungroupedAll (any : ∀ span span', spans span span') (targets : List Target)
    (seamless : ∀ expr ∈ exprsOfAll targets, expr.Seamless) :
    List.Forall₂ (Target.Akin spans) targets (mapExprsAll Expr.ungrouped targets) := by
  match targets with
  | [] => exact .nil
  | target :: rest =>
      obtain ⟨first, others⟩ := List.forall_mem_append.mp seamless
      exact .cons (akin_ungrouped any target first) (akin_ungroupedAll any rest others)

end

end Target

/-! ### Statements -/

abbrev Node.ungrouped : Node → Node := Node.mapExprs Expr.ungrouped

abbrev Template.ungrouped : Template → Template := Template.mapExprs Expr.ungrouped

namespace Node

/-- Whether a statement looks for nothing that parentheses around its expressions hide. -/
def HidesNothing : Node → Prop
  | .callBlock call _ _ _ => call.isCall = call.ungrouped.isCall
  | .custom _ args _ _ => Expr.KeepsKeywords args
  | node => ∀ call ∈ node.filters, Expr.KeepsKeywords call.args

/-- Whether neither a statement nor a part of it looks for something that parentheses hide. -/
inductive Seamless : Node → Prop where
  | mk {node : Node} (own : node.HidesNothing) (exprs : ∀ expr ∈ node.exprs, expr.Seamless)
      (defaults : ∀ param ∈ node.params, ∀ expr ∈ param.default, expr.Seamless)
      (bodies : ∀ body ∈ node.bodies, ∀ inner ∈ body, Seamless inner) : Seamless node

variable {node : Node}

theorem Seamless.own (seamless : node.Seamless) : node.HidesNothing := by
  cases seamless with
  | mk own _ _ _ => exact own

theorem Seamless.filter (seamless : node.Seamless) {call : FilterCall}
    (member : call ∈ node.filters) : Expr.KeepsKeywords call.args := by
  have own := seamless.own
  cases node with
  | capture | filterBlock => exact own call member
  | _ => cases member

theorem Seamless.expr (seamless : node.Seamless) {expr : Expr} (member : expr ∈ node.exprs) :
    expr.Seamless := by
  cases seamless with
  | mk _ exprs _ _ => exact exprs expr member

theorem Seamless.default (seamless : node.Seamless) {param : Param} (member : param ∈ node.params)
    {expr : Expr} (isDefault : expr ∈ param.default) : expr.Seamless := by
  cases seamless with
  | mk _ _ defaults _ => exact defaults param member expr isDefault

theorem Seamless.inside (seamless : node.Seamless) {body : List Node} {inner : Node}
    (isBody : body ∈ node.bodies) (member : inner ∈ body) : inner.Seamless := by
  cases seamless with
  | mk _ _ _ bodies => exact bodies body isBody inner member

end Node

end Syntax

/-- A host's tag without the parentheses of its arguments and of its body. -/
def Host.Tag.ungrouped (tag : Host.Tag) : Host.Tag :=
  { tag with
    args := tag.args.map Syntax.Expr.ungrouped
    body := Syntax.mapExprsOfBody? Syntax.Expr.ungrouped tag.body }

/-- Whether neither a host's tag nor a part of it looks for something that parentheses hide. -/
def Host.Tag.Seamless (tag : Host.Tag) : Prop :=
  (Syntax.Node.custom tag.name tag.args tag.body tag.span).Seamless

namespace Syntax

/-- Trees against what is left of them without parentheses, and trees against themselves. -/
def Likeness.ungrouped : Likeness where
  places _ _ _ := True
  tags _ tag tag' := tag' = tag ∨ tag.Seamless ∧ tag' = tag.ungrouped

theorem adapts_ungrouped :
    Adapts .ungrouped Expr.ungrouped fun _ node => node.Seamless where
  span _ := trivial
  expr seamless expr member := (seamless.expr member).akin fun _ _ => trivial
  target seamless target member :=
    target.akin_ungrouped (fun _ _ => trivial) fun expr inside =>
      seamless.expr (Node.mem_exprs_of_targets member inside)
  filter seamless call member := by
    have each : ∀ arg ∈ call.args, arg.Akin _ arg.ungrouped := fun arg isArg =>
      (seamless.expr (Node.mem_exprs_of_filters member isArg)).akin fun _ _ => trivial
    exact ⟨rfl, ⟨List.forall₂_map_right_iff.mpr (List.forall₂_same.mpr each),
      seamless.filter member⟩, trivial⟩
  wanted _ _ _ := trivial
  param seamless other param member := by
    have defaults : ∀ expr ∈ param.default, expr.Seamless := fun _ => seamless.default member
    obtain ⟨name, default, span⟩ := param
    cases default with
    | none => exact ⟨rfl, .none⟩
    | some expr => exact ⟨rfl, .some ((defaults expr rfl).akin fun _ _ => trivial)⟩
  call seamless := seamless.own
  args seamless := seamless.own
  seen seamless := .inr ⟨seamless, rfl⟩
  inside seamless _ _ isBody member := seamless.inside isBody member
  lent seamless _ _ _ isBody member _ := seamless.inside isBody member

end Syntax

end Stencil
