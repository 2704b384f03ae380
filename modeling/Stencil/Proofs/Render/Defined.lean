import Mathlib.Data.List.Forall2
import Stencil.Proofs.Render.Telling

/-!
Contract: whether a chain of names, attributes and items is defined, and what it evaluates to.

Owns:
- chains that begin with a name, and their index expressions in order;
- the silent look along a chain and the evaluation of the chain come to the same part;
- the tests for what is defined, next to the evaluation of what they test.

The look stops at the first part that is missing. The evaluation goes on from there with nothing,
and evaluates the index expressions that the look has left out.

Does not own: chains that calls are part of.
-/

set_option autoImplicit false

namespace Stencil.Syntax

open Stencil.Text (Span)

/-- Whether an expression is a chain of attributes, items and parentheses from a name on, with these
index expressions in it. No call stands in an index expression. -/
inductive Expr.IsChain (root : String) : Expr → List Expr → Prop where
  | name (span : Span) : IsChain root (.name root span) []
  | group {inner : Expr} {indexes : List Expr} (span : Span) (isChain : IsChain root inner indexes) :
      IsChain root (.group inner span) indexes
  | attribute {base : Expr} {indexes : List Expr} (attr : String) (span : Span)
      (isChain : IsChain root base indexes) : IsChain root (.attribute base attr span) indexes
  | item {base index : Expr} {indexes : List Expr} (span : Span) (isFree : index.CallFree)
      (isChain : IsChain root base indexes) :
      IsChain root (.item base index span) (indexes ++ [index])

end Stencil.Syntax

namespace Stencil.Render

open Stencil.Host (Environment)
open Stencil.Report (Diagnostic)
open Stencil.Syntax (Expr)
open Stencil.Text (Span)

variable {environment : Environment} {below : Below} {state : State} {root : String}
  {expr : Expr} {indexes : List Expr}

/-! ### Single look-ups -/

namespace Action

theorem tells_view : view.Tells environment below state state.toView [] := by
  intro before
  rw [List.append_nil]
  rfl

theorem tells_registry : registry.Tells environment below state environment.toRegistry [] := by
  intro before
  rw [List.append_nil]
  rfl

theorem tells_resolve (name : String) :
    ∃ found, (resolve name).Tells environment below state found [] := by
  cases isFound : state.scopes.lookup? name with
  | some value => exact ⟨some value, tells_view.bind_pure (by simp only [isFound])⟩
  | none =>
      refine ⟨environment.toRegistry.global? name, tells_view.bind ?_⟩
      simp only [isFound]
      exact tells_registry.bind_pure rfl

theorem tells_failedLookup (lookup : Lookup) (cause : Problem) (span : Span) :
    ∃ reports, (failedLookup lookup cause span).Tells environment below state () reports := by
  have inquires : (failedLookup lookup cause span).Inquires fun _ => False := .failedLookup _ _ _
  obtain ⟨_, reports, tells⟩ := inquires.tells fun _ isAllowed => isAllowed.elim
  exact ⟨reports, tells⟩

theorem tells_lookup {name : String} {found : Option Value} {reports : List Diagnostic}
    (looks : (resolve name).Tells environment below state found reports) (span : Span) :
    ∃ more, (lookup name span).Tells environment below state (found.getD .nil) (reports ++ more) ∧
      (found.isSome → more = []) := by
  cases found with
  | some value => exact ⟨[], looks.bind (tells_pure value), fun _ => rfl⟩
  | none =>
      obtain ⟨more, tells⟩ := tells_failedLookup .variable_ (.unknownVariable name) span
      exact ⟨more, looks.bind (tells.bind_pure rfl), nofun⟩

/-- A part that is there is given without a report, and nothing takes the place of one that is not. -/
theorem tells_partOr (part : Option Value) (base : Value) (cause : Problem) (span : Span) :
    ∃ more, (partOr part base cause span).Tells environment below state (part.getD .nil) more ∧
      (part.isSome → more = []) := by
  cases part with
  | some value => exact ⟨[], tells_pure value, fun _ => rfl⟩
  | none =>
      obtain ⟨more, tells⟩ := tells_failedLookup .variable_ cause span
      unfold partOr
      dsimp only
      split
      · exact ⟨more, tells.bind_pure rfl, nofun⟩
      · exact ⟨[], tells_pure _, nofun⟩

end Action

/-! ### Chains -/

/-- What the silent look along a chain and the evaluation of the chain come to, where its index
expressions tell these reports: the same part, or nothing if there is none. Without a missing part
neither of the two tells anything else. -/
structure Agree (environment : Environment) (state : State) (expr : Expr)
    (reports : List (List Diagnostic)) (found : Option Value) : Prop where
  looks : ∃ seen, seen <+: reports ∧ (found.isSome → seen = reports) ∧
    (Action.resolvePath? expr).Tells environment (unbounded environment) state found seen.flatten
  evaluates : ∃ told, (found.isSome → told = reports.flatten) ∧
    ((unbounded environment).eval expr).Tells state (found.getD .nil) told

namespace Agree

variable {base index : Expr} {reports : List (List Diagnostic)} {found : Option Value}

theorem at_name
    (looks : (Action.resolve root).Tells environment (unbounded environment) state found [])
    (span : Span) : Agree environment state (.name root span) [] found where
  looks := ⟨[], List.prefix_refl _, fun _ => rfl, by rw [Action.resolvePath?]; exact looks⟩
  evaluates := by
    obtain ⟨more, tells, quiet⟩ := Action.tells_lookup looks span
    refine ⟨[] ++ more, quiet, ?_⟩
    rw [unbounded_eval]
    exact tells

theorem in_group (agree : Agree environment state expr reports found) (span : Span) :
    Agree environment state (.group expr span) reports found where
  looks := by
    rw [Action.resolvePath?]
    exact agree.looks
  evaluates := by
    obtain ⟨told, quiet, tells⟩ := agree.evaluates
    refine ⟨told, quiet, ?_⟩
    rw [unbounded_eval]
    exact Action.tells_valueOf tells

/-- Nothing has no attributes and no items. -/
theorem on_attribute (agree : Agree environment state base reports found) (attr : String)
    (span : Span) :
    Agree environment state (.attribute base attr span) reports
      (found.bind (Value.attribute? · attr)) where
  looks := by
    obtain ⟨seen, isPrefix, whole, looks⟩ := agree.looks
    refine ⟨seen, isPrefix, fun isThere => whole (Option.isSome_of_isSome_bind isThere), ?_⟩
    rw [Action.resolvePath?]
    cases found with
    | none => exact looks.bind_pure rfl
    | some value => exact looks.bind_pure rfl
  evaluates := by
    obtain ⟨told, quiet, tells⟩ := agree.evaluates
    have same : (found.getD .nil).attribute? attr = found.bind (Value.attribute? · attr) := by
      cases found <;> rfl
    obtain ⟨more, further, quietPart⟩ := Action.tells_partOr
      ((found.getD .nil).attribute? attr) (found.getD .nil)
      (.unknownAttribute (found.getD .nil).typeName attr) span
    refine ⟨told ++ more, fun isThere => ?_, ?_⟩
    · rw [quietPart (same ▸ isThere), quiet (Option.isSome_of_isSome_bind isThere), List.append_nil]
    · rw [unbounded_eval, ← same]
      exact (Action.tells_valueOf tells).bind further

theorem on_item (agree : Agree environment state base reports found) {indexValue : Value}
    {told : List Diagnostic} (tellsIndex : ((unbounded environment).eval index).Tells state indexValue told)
    (span : Span) :
    Agree environment state (.item base index span) (reports ++ [told])
      (found.bind (Value.item? · indexValue)) where
  looks := by
    obtain ⟨seen, isPrefix, whole, looks⟩ := agree.looks
    rw [Action.resolvePath?]
    cases found with
    | none =>
        exact ⟨seen, isPrefix.trans (List.prefix_append _ _), nofun, looks.bind_pure rfl⟩
    | some value =>
        obtain rfl := whole rfl
        refine ⟨seen ++ [told], List.prefix_refl _, fun _ => rfl, ?_⟩
        rw [List.flatten_concat]
        exact looks.bind ((Action.tells_valueOf tellsIndex).bind_pure rfl)
  evaluates := by
    obtain ⟨toldBase, quiet, tells⟩ := agree.evaluates
    have same : (found.getD .nil).item? indexValue = found.bind (Value.item? · indexValue) := by
      cases found <;> rfl
    obtain ⟨more, further, quietPart⟩ := Action.tells_partOr
      ((found.getD .nil).item? indexValue) (found.getD .nil)
      (.unknownItem (found.getD .nil).typeName indexValue.display) span
    refine ⟨toldBase ++ (told ++ more), fun isThere => ?_, ?_⟩
    · rw [quietPart (same ▸ isThere), quiet (Option.isSome_of_isSome_bind isThere), List.append_nil,
        List.flatten_concat]
    · rw [unbounded_eval, ← same]
      exact (Action.tells_valueOf tells).bind ((Action.tells_valueOf tellsIndex).bind further)

end Agree

/-- Along every chain, the look and the evaluation agree. -/
theorem agree_of_isChain (environment : Environment) (state : State)
    (isChain : expr.IsChain root indexes) :
    ∃ reports found, List.Forall₂ (fun index told =>
        ∃ value, ((unbounded environment).eval index).Tells state value told) indexes reports ∧
      Agree environment state expr reports found := by
  induction isChain with
  | name span =>
      obtain ⟨found, looks⟩ := Action.tells_resolve root
      exact ⟨[], found, .nil, .at_name looks span⟩
  | group span _ inductionHypothesis =>
      obtain ⟨reports, found, told, agree⟩ := inductionHypothesis
      exact ⟨reports, found, told, agree.in_group span⟩
  | «attribute» attr span _ inductionHypothesis =>
      obtain ⟨reports, found, told, agree⟩ := inductionHypothesis
      exact ⟨reports, _, told, agree.on_attribute attr span⟩
  | item span isFree _ inductionHypothesis =>
      obtain ⟨reports, found, told, agree⟩ := inductionHypothesis
      obtain ⟨value, more, tells⟩ := tells_callFree environment state isFree
      exact ⟨reports ++ [more], _, List.rel_append told (.cons ⟨value, tells⟩ .nil),
        agree.on_item tells span⟩

/-! ### Tests -/

/-- A chain is defined if the look along it finds something, or if it is the name of a macro. -/
theorem tells_isDefined (isChain : expr.IsChain root indexes)
    (notMacro : state.macros.has root = false) (notImported : state.namespaces.has root = false)
    {found : Option Value} {told : List Diagnostic}
    (looks : (Action.resolvePath? expr).Tells environment below state found told) :
    (Action.isDefined expr).Tells environment below state found.isSome told := by
  cases isChain with
  | name span =>
      rw [Action.resolvePath?] at looks
      have noCallable : (found.isSome || state.toView.macros.has root ||
          state.toView.namespaces.has root) = found.isSome := by
        rw [notMacro, notImported, Bool.or_false, Bool.or_false]
      rw [← noCallable, ← List.append_nil told]
      exact looks.bind (Action.tells_view.bind_pure rfl)
  | group | «attribute» | item => exact looks.bind_pure rfl

/-- Both tests for what is defined give what they are named for, and tell nothing of their own. -/
theorem tells_tests {isDefined : Bool} {told : List Diagnostic}
    (tells : (Action.isDefined expr).Tells environment (unbounded environment) state isDefined told)
    (negated : Bool) (args : List Expr) (span : Span) :
    ((unbounded environment).eval (.test expr negated "defined" args span)).Tells state
        (.bool (isDefined != negated)) told ∧
      ((unbounded environment).eval (.test expr negated "undefined" args span)).Tells state
        (.bool (!(isDefined != negated))) told := by
  have opposite : (!(isDefined != negated)) = ((!isDefined) != negated) := by
    cases isDefined <;> cases negated <;> rfl
  have tellsOpposite : (Action.isDefined expr >>= fun result => pure !result : Action Bool).Tells
      environment (unbounded environment) state (!isDefined) told := tells.bind_pure rfl
  rw [unbounded_eval, unbounded_eval, opposite]
  exact ⟨tells.bind_pure rfl, tellsOpposite.bind_pure rfl⟩

/-- A chain of attributes and items from a variable on is defined or not, as its evaluation has it.
Both tests and the evaluation change nothing in the state but its reports. What a test tells are the
reports of the index expressions up to the first missing part, each evaluated in the same state. If
the chain is defined, the evaluation tells the reports of the index expressions and no others; if it
is not, it gives nothing. -/
theorem defined_agrees (environment : Environment) (state : State)
    (isChain : expr.IsChain root indexes) (notMacro : state.macros.has root = false)
    (notImported : state.namespaces.has root = false) :
    ∃ (isDefined : Bool) (value : Value) (reports seen : List (List Diagnostic))
      (told : List Diagnostic),
      List.Forall₂ (fun index told => ∃ value,
        (unbounded environment).eval index state = some (value, state.telling told)) indexes reports ∧
      (∀ negated args span,
        (unbounded environment).eval (.test expr negated "defined" args span) state =
            some (.bool (isDefined != negated), state.telling seen.flatten) ∧
          (unbounded environment).eval (.test expr negated "undefined" args span) state =
            some (.bool (!(isDefined != negated)), state.telling seen.flatten)) ∧
      (unbounded environment).eval expr state = some (value, state.telling told) ∧
      seen <+: reports ∧ (isDefined = true → seen = reports ∧ told = reports.flatten) ∧
      (isDefined = false → value = .nil) := by
  obtain ⟨reports, found, tellIndexes, agree⟩ := agree_of_isChain environment state isChain
  obtain ⟨seen, isPrefix, whole, looks⟩ := agree.looks
  obtain ⟨told, quiet, evaluates⟩ := agree.evaluates
  have tells := tells_isDefined isChain notMacro notImported looks
  refine ⟨found.isSome, found.getD .nil, reports, seen, told, ?_, fun negated args span => ?_,
    evaluates.perform, isPrefix, fun isThere => ⟨whole isThere, quiet isThere⟩, fun isMissing => ?_⟩
  · exact tellIndexes.imp fun _ _ ⟨value, tellsIndex⟩ => ⟨value, tellsIndex.perform⟩
  · obtain ⟨isTrue, isOpposite⟩ := tells_tests tells negated args span
    exact ⟨isTrue.perform, isOpposite.perform⟩
  · rw [Option.isNone_iff_eq_none.mp (Option.isSome_eq_false_iff.mp isMissing)]
    rfl

/-- `(a[missing]).x`, where the index stands for nothing. -/
def nestedPart : Expr :=
  .attribute (.group (.item (.name "a" default) (.name "missing" default) default) default) "x" default

/-- A state in which `a` has a part under the text of nothing. -/
def nestedState : State := .initial [("a", .map [("", .map [("x", .int 1)])])] .empty

def strictEnvironment : Environment := { Environment.empty with strict := ⟨true, true, true, true⟩ }

/-- The index expression is reported, and still the chain is defined. -/
theorem defined_agrees_nested :
    nestedPart.IsChain "a" [.name "missing" default] ∧ nestedState.macros.has "a" = false ∧
      nestedState.namespaces.has "a" = false ∧
      ∃ value reports seen,
        List.Forall₂ (fun index told => ∃ value, (unbounded strictEnvironment).eval index nestedState =
          some (value, nestedState.telling told)) [.name "missing" default] reports ∧
        (∀ negated args span,
          (unbounded strictEnvironment).eval (.test nestedPart negated "defined" args span)
              nestedState = some (.bool (true != negated), nestedState.telling seen.flatten) ∧
            (unbounded strictEnvironment).eval (.test nestedPart negated "undefined" args span)
              nestedState = some (.bool (!(true != negated)), nestedState.telling seen.flatten)) ∧
        (unbounded strictEnvironment).eval nestedPart nestedState =
          some (value, nestedState.telling reports.flatten) ∧
        seen = reports ∧
        reports.flatten = [(Problem.unknownVariable "missing").at_ default] := by
  have isChain : nestedPart.IsChain "a" [.name "missing" default] :=
    .attribute "x" default (.group default (.item default (Syntax.Expr.callFree_name _ _)
      (.name default)))
  have notMacro : nestedState.macros.has "a" = false := rfl
  have notImported : nestedState.namespaces.has "a" = false := rfl
  obtain ⟨isDefined, value, reports, seen, told, indexes, tests, evaluates, _, whole, _⟩ :=
    defined_agrees strictEnvironment nestedState isChain notMacro notImported
  have within := within_unbounded strictEnvironment 5
  have tested : (unbounded strictEnvironment).eval (.test nestedPart false "defined" [] default)
      nestedState = some (.bool true, nestedState.telling
        [(Problem.unknownVariable "missing").at_ default]) :=
    within.eval _ rfl
  obtain ⟨isTrue, isTold⟩ := Prod.mk.inj (Option.some.inj ((tests false [] default).1.symm.trans tested))
  have isTrue : isDefined = true := by simpa using isTrue
  subst isTrue
  obtain ⟨rfl, rfl⟩ := whole rfl
  have isFlat : seen.flatten = [(Problem.unknownVariable "missing").at_ default] := by
    have fresh : nestedState.problems = #[] := rfl
    have same := congrArg (fun state => state.problems.toList) isTold
    simpa [State.telling, fresh] using same
  exact ⟨isChain, notMacro, notImported, value, seen, seen, indexes, tests, evaluates, rfl, isFlat⟩

end Stencil.Render
