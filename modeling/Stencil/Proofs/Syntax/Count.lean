import Stencil.Syntax.Node

/-!
Contract: how many statements a tree has.

Owns:
- the number of statements of a tree, counted through all bodies.

Does not own: the sequence of all parts of a tree (`Stencil.Syntax.Walk`).
-/

set_option autoImplicit false

namespace Stencil.Syntax

mutual

/-- A statement and all statements in its bodies. -/
def Node.count : Node → Nat
  | .text _ _ => 1
  | .verbatim _ _ => 1
  | .comment _ _ => 1
  | .output _ _ => 1
  | .choose branches otherwise _ =>
      1 + countOfBranches branches + match otherwise with
        | some body => countOf body
        | none => 0
  | .each _ _ _ body otherwise _ =>
      1 + countOf body + match otherwise with
        | some body => countOf body
        | none => 0
  | .assign _ _ _ => 1
  | .capture _ _ body _ => 1 + countOf body
  | .block _ body _ => 1 + countOf body
  | .inherit _ _ => 1
  | .embed _ _ _ _ => 1
  | .importAs _ _ _ _ => 1
  | .importNames _ _ _ _ => 1
  | .define _ _ body _ => 1 + countOf body
  | .callBlock _ _ body _ => 1 + countOf body
  | .withBlock _ body _ => 1 + countOf body
  | .filterBlock _ body _ => 1 + countOf body
  | .custom _ _ body _ =>
      1 + match body with
        | some body => countOf body
        | none => 0

/-- The statements of a body. -/
def countOf : List Node → Nat
  | [] => 0
  | node :: rest => node.count + countOf rest

def countOfBranches : List Branch → Nat
  | [] => 0
  | .mk _ body _ :: rest => countOf body + countOfBranches rest

end

@[simp] theorem countOf_nil : countOf [] = 0 := rfl

theorem countOf_append (first second : List Node) :
    countOf (first ++ second) = countOf first + countOf second := by
  induction first with
  | nil => simp
  | cons node rest inductionHypothesis =>
      rw [List.cons_append, countOf, countOf, inductionHypothesis, Nat.add_assoc]

theorem countOf_singleton (node : Node) : countOf [node] = node.count := rfl

theorem countOfBranches_append (first second : List Branch) :
    countOfBranches (first ++ second) = countOfBranches first + countOfBranches second := by
  induction first with
  | nil => simp [countOfBranches]
  | cons branch rest inductionHypothesis =>
      obtain ⟨test, body, span⟩ := branch
      rw [List.cons_append, countOfBranches, countOfBranches, inductionHypothesis, Nat.add_assoc]

/-- A body that is not there has no statements. -/
theorem count_choose (branches : List Branch) (otherwise : Option (List Node)) (span : Text.Span) :
    (Node.choose branches otherwise span).count =
      1 + (countOfBranches branches + countOf (otherwise.getD [])) := by
  cases otherwise <;> exact Nat.add_assoc _ _ _

theorem count_each (target : Target) (items : Expr) (condition : Option Expr) (body : List Node)
    (otherwise : Option (List Node)) (span : Text.Span) :
    (Node.each target items condition body otherwise span).count =
      1 + (countOf body + countOf (otherwise.getD [])) := by
  cases otherwise <;> exact Nat.add_assoc _ _ _

theorem count_custom (name : String) (args : List Expr) (body : Option (List Node))
    (span : Text.Span) :
    (Node.custom name args body span).count = 1 + countOf (body.getD []) := by
  cases body <;> rfl

end Stencil.Syntax
