import Stencil.Proofs.Render.Standing
import Stencil.Render.Outcome

/-!
Contract: values that cannot be unpacked.

Owns:
- targets made of names and of tuples that are not empty;
- what the assignment of a value that has no items does to such a target: all of its names are bound
  to nothing, and the value is reported once.

The recovery goes on with nothing in place of the value, and nothing has no items for a tuple inside
the target either, so there is a report of a mismatch for each of these.

Does not own: values that have items (`Stencil.Render.Assign`).
-/

set_option autoImplicit false

namespace Stencil

namespace Syntax.Target

open Stencil.Text (Span)

/-- Whether a target is a name, or a tuple of at least one such target. -/
inductive Unpacks : Target → Prop where
  | name (name : String) (span : Span) : Unpacks (.name name span)
  | tuple (first : Target) (rest : List Target) (span : Span)
      (items : ∀ item ∈ first :: rest, Unpacks item) : Unpacks (.tuple (first :: rest) span)

mutual

/-- The tuples of a target, each with its number of items, from the outside in. -/
def tuples : Target → List (Nat × Span)
  | .name _ _ => []
  | .tuple items span => (items.length, span) :: tuplesOfAll items
  | .attribute _ _ _ => []
  | .item _ _ _ => []

def tuplesOfAll : List Target → List (Nat × Span)
  | [] => []
  | target :: rest => target.tuples ++ tuplesOfAll rest

end

theorem tuplesOfAll_of_names {items : List Target} (areNames : ∀ item ∈ items, ∃ name span,
    item = .name name span) : tuplesOfAll items = [] := by
  induction items with
  | nil => rfl
  | cons first rest inductionHypothesis =>
      rw [List.forall_mem_cons] at areNames
      obtain ⟨⟨name, span, rfl⟩, areRest⟩ := areNames
      exact inductionHypothesis areRest

end Syntax.Target

namespace Render

open Stencil.Host (Environment)
open Stencil.Report (Diagnostic)
open Stencil.Syntax (Target)
open Stencil.Text (Span)

/-! ### Names bound to nothing -/

/-- The frame with nothing under each of several names. -/
def bareFrame (names : List String) (frame : Table Value) : Table Value :=
  names.foldl (fun frame name => Table.put frame name .nil) frame

theorem lookup?_bareFrame (names : List String) (frame : Table Value) (name : String) :
    Table.lookup? (bareFrame names frame) name =
      if name ∈ names then some .nil else Table.lookup? frame name := by
  induction names generalizing frame with
  | nil => rfl
  | cons first rest inductionHypothesis =>
      rw [show bareFrame (first :: rest) frame = bareFrame rest (Table.put frame first .nil) from rfl,
        inductionHypothesis]
      by_cases isLater : name ∈ rest
      · rw [if_pos isLater, if_pos (List.mem_cons_of_mem _ isLater)]
      · rw [if_neg isLater]
        by_cases isFirst : name = first
        · rw [isFirst, Table.lookup?_put_self, if_pos List.mem_cons_self]
        · rw [Table.lookup?_put_other _ _ isFirst, if_neg]
          exact fun member => (List.mem_cons.mp member).elim isFirst isLater

/-- The report of a tuple for whose items there is nothing. -/
def lackOfItems (tuple : Nat × Span) : Diagnostic :=
  (Problem.unpackMismatch tuple.1 0).at_ tuple.2

/-- The state behind an assignment that binds names to nothing, with what it reports. -/
def State.bared (names : List String) (reports : List Diagnostic) (state : State) : State :=
  { state with
    scopes := { state.scopes with inner := bareFrame names state.scopes.inner }
    problems := state.problems ++ (reports.map (State.ascribe state.place)).toArray }

theorem State.bared_bared (names more : List String) (reports others : List Diagnostic)
    (state : State) : (state.bared names reports).bared more others =
      state.bared (names ++ more) (reports ++ others) := by
  simp only [bared, bareFrame, List.foldl_append, List.map_append, Array.append_assoc,
    List.append_toArray]

theorem State.report_eq_bared (state : State) (diagnostic : Diagnostic) :
    state.report diagnostic = state.bared [] [diagnostic] := by
  simp only [report, bared, bareFrame, List.foldl_nil, List.map_cons, List.map_nil]
  rfl

/-! ### Assignments of nothing -/

namespace Action

variable {environment : Environment} {below : Below}

/-- A tuple of which no item can be had goes on with nothing for each of them. -/
theorem perform_assign_mismatch (first : Target) (rest : List Target) (span : Span)
    (state : State) :
    (assign (.tuple (first :: rest) span) .nil).perform environment below state =
      (assignAll (first :: rest) []).perform environment below
        (state.report (lackOfItems (rest.length + 1, span))) := rfl

theorem perform_assign_notIterable (first : Target) (rest : List Target) (span : Span) {value : Value}
    (notIterable : value.iterate? = none) (state : State) :
    (assign (.tuple (first :: rest) span) value).perform environment below state =
      (assignAll (first :: rest) []).perform environment below
        (state.report ((Problem.notIterable value.typeName).at_ span)) := by
  rw [assign]
  · simp only [notIterable]
    rfl
  · exact List.cons_ne_nil first rest

theorem perform_assignAll_cons (target : Target) (rest : List Target) (state : State) :
    (assignAll (target :: rest) []).perform environment below state =
      ((assign target .nil).perform environment below state).bind fun answer =>
        (assignAll rest []).perform environment below answer.2 :=
  perform_andThen _ _ state

mutual

theorem perform_assign_nil {target : Target} (unpacks : target.Unpacks) (state : State) :
    (assign target .nil).perform environment below state =
      some ((), state.bared target.names (target.tuples.map lackOfItems)) := by
  match target, unpacks with
  | .name name span, _ =>
      show some ((), { state with scopes := state.scopes.bind name .nil }) = _
      simp only [State.bared, Target.names, Target.tuples, List.map_nil, bareFrame, List.foldl_cons,
        List.foldl_nil, Scopes.bind, Array.append_empty]
  | .tuple (first :: rest) span, .tuple _ _ _ items =>
      rw [perform_assign_mismatch, perform_assignAll_nil items, State.report_eq_bared,
        State.bared_bared]
      rfl

theorem perform_assignAll_nil {targets : List Target} (unpack : ∀ item ∈ targets, item.Unpacks)
    (state : State) :
    (assignAll targets []).perform environment below state = some ((),
      state.bared (Target.namesOfAll targets) ((Target.tuplesOfAll targets).map lackOfItems)) := by
  match targets with
  | [] => rfl
  | target :: rest =>
      rw [List.forall_mem_cons] at unpack
      rw [perform_assignAll_cons, perform_assign_nil unpack.1, Option.bind_some,
        perform_assignAll_nil unpack.2, State.bared_bared]
      simp only [Target.namesOfAll, Target.tuplesOfAll, List.map_append]

end

end Action

/-! ### Assignments of what has no items -/

/-- Assigning a value without items to a tuple of names and tuples binds all of its names to nothing
in the innermost frame and changes no other variable. The value is reported where the outermost tuple
stands, and then the lack of items where each tuple inside it stands; where there is none inside,
there is one report. -/
theorem unpacking_reported (environment : Environment) (below : Below) {items : List Target}
    {span : Span} (unpacks : (Target.tuple items span).Unpacks) {value : Value}
    (notIterable : value.iterate? = none) (state : State) :
    ∃ after, (Action.assign (.tuple items span) value).perform environment below state =
        some ((), after) ∧
      (∀ name, Table.lookup? after.scopes.inner name =
        if name ∈ (Target.tuple items span).names then some .nil
        else Table.lookup? state.scopes.inner name) ∧
      after = { state with
        scopes := { state.scopes with inner := after.scopes.inner }
        problems := after.problems } ∧
      after.problems.toList = state.problems.toList ++
        State.ascribe state.place ((Problem.notIterable value.typeName).at_ span) ::
          (Target.tuplesOfAll items).map (fun tuple => State.ascribe state.place
            ((Problem.unpackMismatch tuple.1 0).at_ tuple.2)) ∧
      ((∀ item ∈ items, ∃ name span, item = .name name span) →
        after.problems.toList = state.problems.toList ++
          [State.ascribe state.place ((Problem.notIterable value.typeName).at_ span)]) := by
  cases unpacks with
  | tuple first rest _ inner =>
      let reports := (Problem.notIterable value.typeName).at_ span ::
        (Target.tuplesOfAll (first :: rest)).map lackOfItems
      have performed : (Action.assign (.tuple (first :: rest) span) value).perform environment below
          state = some ((), state.bared (Target.namesOfAll (first :: rest)) reports) := by
        rw [Action.perform_assign_notIterable first rest span notIterable,
          Action.perform_assignAll_nil inner, State.report_eq_bared, State.bared_bared]
        rfl
      have problems : (state.bared (Target.namesOfAll (first :: rest)) reports).problems.toList =
          state.problems.toList ++ reports.map (State.ascribe state.place) := by
        simp only [State.bared, Array.toList_append]
      refine ⟨_, performed, fun name => lookup?_bareFrame _ _ name, rfl, ?_, fun areNames => ?_⟩
      · rw [problems, List.map_cons, List.map_map]
        rfl
      · rw [problems, List.map_cons, Target.tuplesOfAll_of_names areNames]
        rfl

/-- Three names, two of them in a tuple of their own. -/
def nestedPair : Target :=
  .tuple [.name "a" default, .tuple [.name "b" default, .name "c" default] default] default

theorem unpacks_nestedPair : nestedPair.Unpacks := by
  refine .tuple _ _ _ fun item member => ?_
  rcases List.mem_cons.mp member with rfl | member
  · exact .name _ _
  · obtain rfl := List.mem_singleton.mp member
    refine .tuple _ _ _ fun item member => ?_
    rcases List.mem_cons.mp member with rfl | member
    · exact .name _ _
    · obtain rfl := List.mem_singleton.mp member
      exact .name _ _

/-- A number assigned to three names, two of them in a tuple of their own, is reported where the
outer tuple stands. -/
theorem unpacking_reported_nested :
    nestedPair.Unpacks ∧ (Value.int 5).iterate? = none ∧
      ∃ after, (Action.assign nestedPair (.int 5)).perform Environment.empty
          (belowDepth Environment.empty 0) (.initial [] .empty) = some ((), after) ∧
        (∀ name ∈ ["a", "b", "c"], Table.lookup? after.scopes.inner name = some .nil) ∧
        after.problems.toList.head? = some ((Problem.notIterable "int").at_ default) := by
  have notIterable : (Value.int 5).iterate? = none := rfl
  obtain ⟨after, performed, names, _, problems, _⟩ := unpacking_reported Environment.empty
    (belowDepth Environment.empty 0) unpacks_nestedPair notIterable (.initial [] .empty)
  refine ⟨unpacks_nestedPair, notIterable, after, performed, fun name member => ?_, ?_⟩
  · rw [names name]
    exact if_pos member
  · rw [problems]
    rfl

/-- The lack of items for a tuple inside the target is reported, too, so a number is not reported
once. -/
theorem unpacking_reported_twice :
    let source := "\x7b% set a, (b, c) = 5 %\x7d"
    (renderTextWithin 9 .empty "page" source [] .empty).map
      (fun outcome => outcome.problems.map (·.code)) = some [.notIterable, .unpackMismatch] := by
  decide +kernel

end Render

end Stencil
