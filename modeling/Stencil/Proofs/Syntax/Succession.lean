import Stencil.Proofs.Syntax.Visits

/-!
Contract: parts of trees that begin one after another in the text.

Owns:
- rows of parts: the offsets at which their parts, and the parts inside these, begin never fall as
  the walk goes on, and lie between two bounds;
- wholes, which begin no later than what is inside them, and targets that are made of expressions.

Does not own: which parts the grammar reads (`Stencil.Grammar`).
-/

set_option autoImplicit false

namespace Stencil.Syntax

variable {low middle high : Nat} {row others : List Part} {part first : Part}

/-- Where a part and the parts that the walk comes by inside it begin. -/
def Part.starts (part : Part) : List Nat := part.parts.map Part.start

/-- Whether the walk through several parts, one after another, goes from offsets to later ones only,
between two bounds. -/
structure InRow (low high : Nat) (row : List Part) : Prop where
  forward : low ≤ high
  ordered : (row.flatMap Part.starts).Pairwise (· ≤ ·)
  low : ∀ start ∈ row.flatMap Part.starts, low ≤ start
  high : ∀ start ∈ row.flatMap Part.starts, start ≤ high

theorem Part.starts_eq (part : Part) :
    part.starts = part.start :: part.visited.flatMap Part.starts := by
  rw [Part.starts, part.parts_eq, List.map_cons, List.map_flatMap]
  rfl

theorem Part.start_mem_starts (part : Part) : part.start ∈ part.starts := by
  rw [part.starts_eq]
  exact List.mem_cons_self

namespace InRow

theorem nil (forward : low ≤ high) : InRow low high [] :=
  ⟨forward, .nil, List.forall_mem_nil _, List.forall_mem_nil _⟩

theorem append (before : InRow low middle row) (behind : InRow middle high others) :
    InRow low high (row ++ others) := by
  refine ⟨Nat.le_trans before.forward behind.forward, ?_, ?_, ?_⟩ <;>
    rw [List.flatMap_append]
  · apply List.pairwise_append.mpr
    refine ⟨before.ordered, behind.ordered, fun start isBefore other isBehind => ?_⟩
    exact Nat.le_trans (before.high start isBefore) (behind.low other isBehind)
  · intro start member
    rcases List.mem_append.mp member with isBefore | isBehind
    · exact before.low start isBefore
    · exact Nat.le_trans before.forward (behind.low start isBehind)
  · intro start member
    rcases List.mem_append.mp member with isBefore | isBehind
    · exact Nat.le_trans (before.high start isBefore) behind.forward
    · exact behind.high start isBehind

theorem widen {lower higher : Nat} (inRow : InRow low high row) (isLow : lower ≤ low)
    (isHigh : high ≤ higher) : InRow lower higher row := by
  refine ⟨?_, inRow.ordered, fun start member => ?_, fun start member => ?_⟩
  · have forward := inRow.forward
    omega
  · exact Nat.le_trans isLow (inRow.low start member)
  · exact Nat.le_trans (inRow.high start member) isHigh

/-- Parts that begin at some of the places where those of a row do. -/
theorem sublist (inRow : InRow low high row)
    (fewer : (others.flatMap Part.starts).Sublist (row.flatMap Part.starts)) :
    InRow low high others := by
  refine ⟨inRow.forward, inRow.ordered.sublist fewer, fun start member => ?_,
    fun start member => ?_⟩
  · exact inRow.low start (fewer.subset member)
  · exact inRow.high start (fewer.subset member)

/-- The first parts of a row. -/
theorem left (inRow : InRow low high (row ++ others)) : InRow low high row := by
  apply inRow.sublist
  rw [List.flatMap_append]
  exact List.sublist_append_left _ _

/-- The last parts of a row. -/
theorem right (inRow : InRow low high (row ++ others)) : InRow low high others := by
  apply inRow.sublist
  rw [List.flatMap_append]
  exact List.sublist_append_right _ _

/-- A whole that begins no later than the row of the parts inside it. -/
theorem whole (begins : low ≤ part.start) (inside : InRow part.start high part.visited) :
    InRow low high [part] := by
  have areStarts : [part].flatMap Part.starts = part.start :: part.visited.flatMap Part.starts := by
    rw [List.flatMap_cons, List.flatMap_nil, List.append_nil, part.starts_eq]
  refine ⟨Nat.le_trans begins inside.forward, ?_, ?_, ?_⟩ <;> rw [areStarts]
  · exact List.pairwise_cons.mpr ⟨inside.low, inside.ordered⟩
  · refine List.forall_mem_cons.mpr ⟨begins, fun start member => ?_⟩
    exact Nat.le_trans begins (inside.low start member)
  · exact List.forall_mem_cons.mpr ⟨inside.forward, inside.high⟩

theorem begins (inRow : InRow low high (first :: others)) :
    low ≤ first.start ∧ first.start ≤ high := by
  have member : first.start ∈ (first :: others).flatMap Part.starts := by
    rw [List.flatMap_cons]
    exact List.mem_append_left _ first.start_mem_starts
  exact ⟨inRow.low _ member, inRow.high _ member⟩

/-- The parts of a row do not begin before the first one. -/
theorem fromFirst (inRow : InRow low high (first :: others)) :
    InRow first.start high (first :: others) := by
  refine ⟨inRow.begins.2, inRow.ordered, fun start member => ?_, inRow.high⟩
  have ordered := inRow.ordered
  rw [List.flatMap_cons, first.starts_eq, List.cons_append] at ordered member
  rcases List.mem_cons.mp member with rfl | member
  · exact Nat.le_refl _
  · exact (List.pairwise_cons.mp ordered).1 start member

/-- A whole that begins where the first part inside it does. -/
theorem headed (inside : InRow low high (first :: others))
    (areInside : part.visited = first :: others) (begins : part.start = first.start) :
    InRow low high [part] := by
  apply whole
  · rw [begins]
    exact inside.begins.1
  · rw [begins, areInside]
    exact inside.fromFirst

/-- A part with nothing inside it. -/
theorem alone (isLow : low ≤ part.start) (isHigh : part.start ≤ high)
    (isAlone : part.visited = []) : InRow low high [part] := by
  apply whole isLow
  rw [isAlone]
  exact nil isHigh

end InRow

/-! ### Expressions as targets -/

mutual

/-- A target and what is inside it begin where parts of the expression do that it is made of; what
is in the way of a target is one of these parts. -/
theorem Target.starts_ofExpr (expr : Expr) :
    match Target.ofExpr expr with
    | .ok target => (Part.target target).starts.Sublist (Part.expr expr).starts
    | .error bad => bad.start.offset ∈ (Part.expr expr).starts := by
  cases expr with
  | name name whole => exact List.Sublist.refl [whole.start.offset]
  | tuple items whole =>
      have each := Target.starts_ofExprs items
      rw [Target.ofExpr]
      cases areTargets : Target.ofExprs items with
      | error bad =>
          rw [areTargets] at each
          rw [Part.starts_eq]
          exact List.mem_cons_of_mem _ each
      | ok targets =>
          rw [areTargets] at each
          dsimp only at each ⊢
          rw [Part.starts_eq, Part.starts_eq (.expr _)]
          exact each.cons_cons _
  | group inner whole =>
      have same := Target.starts_ofExpr inner
      have areStarts : (Part.expr (.group inner whole)).starts =
          whole.start.offset :: (Part.expr inner).starts := by
        rw [Part.starts_eq]
        exact congrArg (_ :: ·) (List.append_nil _)
      rw [Target.ofExpr, areStarts]
      cases isTarget : Target.ofExpr inner with
      | error bad =>
          rw [isTarget] at same
          exact List.mem_cons_of_mem _ same
      | ok target =>
          rw [isTarget] at same
          exact same.cons _
  | «attribute» value attr whole =>
      rw [Target.ofExpr]
      dsimp only
      rw [Part.starts_eq, Part.starts_eq (.expr _)]
      exact List.Sublist.refl _
  | item value index whole =>
      rw [Target.ofExpr]
      dsimp only
      rw [Part.starts_eq, Part.starts_eq (.expr _)]
      exact List.Sublist.refl _
  | _ => exact Part.start_mem_starts _

theorem Target.starts_ofExprs (items : List Expr) :
    match Target.ofExprs items with
    | .ok targets => ((targets.map Part.target).flatMap Part.starts).Sublist
        ((items.map Part.expr).flatMap Part.starts)
    | .error bad => bad.start.offset ∈ (items.map Part.expr).flatMap Part.starts := by
  cases items with
  | nil => exact List.Sublist.refl _
  | cons first rest =>
      have atFirst := Target.starts_ofExpr first
      have atRest := Target.starts_ofExprs rest
      rw [Target.ofExprs, List.map_cons, List.flatMap_cons]
      cases isTarget : Target.ofExpr first with
      | error bad =>
          rw [isTarget] at atFirst
          exact List.mem_append_left _ atFirst
      | ok target =>
          rw [isTarget] at atFirst
          cases areTargets : Target.ofExprs rest with
          | error bad =>
              rw [areTargets] at atRest
              exact List.mem_append_right _ atRest
          | ok targets =>
              rw [areTargets] at atRest
              exact atFirst.append atRest

end

end Stencil.Syntax
