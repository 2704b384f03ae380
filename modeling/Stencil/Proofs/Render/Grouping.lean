import Stencil.Proofs.Render.Kindred
import Stencil.Proofs.Syntax.Ungrouped
import Stencil.Proofs.Syntax.Unplaced
import Stencil.Render.Outcome

/-!
Contract: what parentheses mean to a render.

Owns:
- renders of trees against renders of what is left of them without parentheses;
- that both have the same text and the same reports, apart from places, unless a parenthesis stands
  where a callee, an argument by keyword, the call of a call block, or a name in question is looked
  for.

Does not own: such trees (`Stencil.Proofs.Syntax.Ungrouped`).
-/

set_option autoImplicit false

namespace Stencil.Render

open Stencil.Host (Environment Shelf)
open Stencil.Report (Diagnostic)
open Stencil.Syntax

/-! ### Renders without parentheses -/

/-- Whether two ledgers are the same apart from the places of reports. -/
structure Ledger.Unplaced (ledger ledger' : Ledger) : Prop where
  templates : ledger.templates = ledger'.templates
  steps : ledger.steps = ledger'.steps
  shelf : ledger.shelf = ledger'.shelf
  reported : ledger.reported = ledger'.reported
  problems : ledger.problems.toList.map Diagnostic.unplaced =
    ledger'.problems.toList.map Diagnostic.unplaced

theorem unplaced_ascribe {diagnostic diagnostic' : Diagnostic}
    (same : diagnostic.unplaced = diagnostic'.unplaced) (place : Place) :
    (State.ascribe place diagnostic).unplaced = (State.ascribe place diagnostic').unplaced := by
  unfold State.ascribe
  split
  · split
    · exact same
    · rename_i current _ _ _
      exact congrArg (·.inTemplate current) same
  · exact same

namespace Ledger.Unplaced

variable {state state' : State}

theorem report (unplaced : state.ledger.Unplaced state'.ledger)
    {diagnostic diagnostic' : Diagnostic} (same : diagnostic.unplaced = diagnostic'.unplaced) :
    (state.report diagnostic).ledger.Unplaced (state'.report diagnostic').ledger := by
  refine { unplaced with problems := ?_ }
  have told := unplaced_ascribe same state'.place
  rw [← State.ascribe_of_templates unplaced.templates diagnostic] at told
  simpa [State.ledger, State.report, told] using unplaced.problems

theorem reportLoaded (unplaced : state.ledger.Unplaced state'.ledger) (loaded : Host.Loaded) :
    (state.reportLoaded loaded).ledger.Unplaced (state'.reportLoaded loaded).ledger := by
  have reported : state.reported = state'.reported := unplaced.reported
  unfold State.reportLoaded
  rw [reported]
  split
  · exact unplaced
  · have problems := unplaced.problems
    refine { unplaced with reported := rfl, problems := ?_ }
    simpa [State.ledger] using problems

theorem load (unplaced : state.ledger.Unplaced state'.ledger) (environment : Environment)
    (name : String) : (state.load environment name).1 = (state'.load environment name).1 ∧
      (state.load environment name).2.ledger.Unplaced (state'.load environment name).2.ledger := by
  have same : Shelf.fetch environment name state.shelf = Shelf.fetch environment name state'.shelf :=
    congrArg (Shelf.fetch environment name) unplaced.shelf
  have fetched : Ledger.Unplaced
      { state with shelf := (Shelf.fetch environment name state.shelf).2 }.ledger
      { state' with shelf := (Shelf.fetch environment name state'.shelf).2 }.ledger :=
    { unplaced with shelf := congrArg Prod.snd same }
  have answers := congrArg Prod.fst same
  refine ⟨?_, ?_⟩
  · rw [State.load_answer, State.load_answer]
    exact answers
  · cases isAnswer : (Shelf.fetch environment name state.shelf).1 with
    | error fault =>
        rw [State.load_of_error isAnswer, State.load_of_error (answers.symm.trans isAnswer)]
        exact fetched
    | ok loaded =>
        rw [State.load_of_ok isAnswer, State.load_of_ok (answers.symm.trans isAnswer)]
        exact fetched.reportLoaded loaded

end Ledger.Unplaced

namespace Kinship

/-- Renders of trees that are akin, with the same reports apart from their places. -/
def placeless (environment : Environment) (trees : Likeness) : Kinship where
  environment := environment
  trees := trees
  told _ diagnostic diagnostic' := diagnostic.unplaced = diagnostic'.unplaced
  ledgers := Ledger.Unplaced
  lenient := False
  spoilt _ := False

section Placeless

variable {environment : Environment} {trees : Likeness}

theorem sound_placeless (reflexive : (placeless environment trees).Reflexive)
    (script : ∀ {name renderer}, environment.renderer? name = some renderer →
      ∀ {source tag tag'}, (placeless environment trees).TagAkin source tag tag' →
        (placeless environment trees).ScriptAkin source (renderer tag) (renderer tag')) :
    (placeless environment trees).Sound where
  told _ _ := rfl
  report ledgers told := ledgers.report told
  pace ledgers := .inr ledgers.steps
  step ledgers := { ledgers with steps := congrArg (· + 1) ledgers.steps }
  load {state _} name ledgers := by
    obtain ⟨same, ledgers⟩ := ledgers.load environment name
    exact ⟨same ▸ reflexive.loaded (state.load environment name).1, ledgers⟩
  enter template ledgers :=
    { ledgers with templates := congrArg (template :: ·) ledgers.templates }
  leave before after := { after with templates := before.templates }
  spoil := False.elim
  spoilt _ := False.elim
  script := script

/-- The start of two renders with the same context. -/
theorem together_placeless (reflexive : (placeless environment trees).Reflexive)
    (context : Table Value) (shelf : Shelf) :
    (placeless environment trees).Together .outside .outside (.initial context shelf)
      (.initial context shelf) :=
  ⟨rfl, rfl, reflexive.sights rfl rfl rfl rfl, rfl, rfl, rfl, rfl, rfl⟩

end Placeless

/-- Renders of trees and of what is left of them without parentheses, with the same reports apart
from their places. -/
def ungrouped (environment : Environment) : Kinship where
  environment := environment
  trees := .ungrouped
  told _ diagnostic diagnostic' := diagnostic.unplaced = diagnostic'.unplaced
  ledgers := Ledger.Unplaced
  lenient := False
  spoilt _ := False

variable {environment : Environment}

theorem reflexive_ungrouped : (ungrouped environment).Reflexive :=
  ⟨fun _ _ => trivial, fun _ _ => .inl rfl, fun _ _ => rfl⟩

end Kinship

/-- Whether the scripts of tags ask the same whether or not there are parentheses in the tags, as
long as those hide nothing. -/
def LooksPastGroups (environment : Environment) : Prop :=
  ∀ {name renderer}, environment.renderer? name = some renderer →
    ∀ (source : String) (tag : Host.Tag), tag.Seamless →
      (Kinship.ungrouped environment).ScriptAkin source (renderer tag) (renderer tag.ungrouped)

namespace Kinship

variable {environment : Environment}

theorem sound_ungrouped (looksPast : LooksPastGroups environment) :
    (ungrouped environment).Sound := by
  refine sound_placeless reflexive_ungrouped fun {_ _} isRenderer {source tag tag'} akin => ?_
  rcases akin.seen with rfl | ⟨seamless, rfl⟩
  · exact reflexive_ungrouped.script source _
  · exact looksPast isRenderer source tag seamless

/-- The start of two renders with the same context. -/
theorem together_initial (context : Table Value) (shelf : Shelf) :
    (ungrouped environment).Together .outside .outside (.initial context shelf)
      (.initial context shelf) :=
  together_placeless reflexive_ungrouped context shelf

end Kinship

/-- What a render gives, apart from the places of its reports. -/
def Outcome.unplaced (outcome : Outcome) : Outcome :=
  { outcome with problems := outcome.problems.map Diagnostic.unplaced }

theorem Outcome.unplaced_ofState {state state' : State} (text : String)
    (unplaced : state.ledger.Unplaced state'.ledger) :
    (Outcome.ofState text state).unplaced = (Outcome.ofState text state').unplaced := by
  have shelf : state.shelf = state'.shelf := unplaced.shelf
  have problems : state.problems.toList.map Diagnostic.unplaced =
      state'.problems.toList.map Diagnostic.unplaced := unplaced.problems
  simp only [Outcome.ofState, Outcome.unplaced, shelf, problems]

/-- A template in which parentheses hide nothing, and what is left of it without parentheses: where
either of them has an answer the other one has it, too, with the same text and, apart from their
places, the same reports. The template with parentheses may have to be nested more deeply. -/
theorem groups_transparent (environment : Environment) (looksPast : LooksPastGroups environment)
    (template : Template) (seamless : ∀ node ∈ template.body, node.Seamless)
    (context : Table Value) (shelf : Shelf) (depth : Nat) :
    (∀ outcome, renderTemplateWithin depth environment template context shelf = some outcome →
      ∃ outcome', renderTemplateWithin depth environment template.ungrouped context shelf =
        some outcome' ∧ outcome.unplaced = outcome'.unplaced) ∧
    (∀ outcome', renderTemplateWithin depth environment template.ungrouped context shelf =
        some outcome' →
      ∃ more outcome, renderTemplateWithin more environment template context shelf =
        some outcome ∧ outcome.unplaced = outcome'.unplaced) := by
  have here : (Kinship.ungrouped environment).Here .outside .outside :=
    ⟨Kinship.sound_ungrouped looksPast, Kinship.placeAkin_outside _⟩
  have together : (Kinship.ungrouped environment).Together _ _ _ _ :=
    Kinship.together_initial context shelf
  have alike : (Kinship.ungrouped environment).Alike .outside .outside Eq
      (Action.renderTemplate template.displayName template)
      (Action.renderTemplate template.displayName template.ungrouped) :=
    Kinship.renderTemplate template.displayName (adapts_ungrouped.nodes template.body seamless)
  constructor
  · intro outcome rendered
    obtain ⟨⟨text, after⟩, isText, rfl⟩ := Option.map_eq_some_iff.mp rendered
    rcases here.abreast_belowDepth alike depth together with
      excused | ⟨answer, answered, _, after', isAnswer, isText', rfl, same⟩
    · exact (excused text after isText).elim
    · obtain ⟨rfl, rfl⟩ := Prod.mk.inj (Option.some.inj (isAnswer.symm.trans isText))
      exact ⟨_, Option.map_eq_some_iff.mpr ⟨_, isText', rfl⟩,
        Outcome.unplaced_ofState answer same.ledgers⟩
  · intro outcome' rendered
    obtain ⟨⟨text, after'⟩, isText', rfl⟩ := Option.map_eq_some_iff.mp rendered
    rcases here.abreast_unbounded id alike depth together with
      excused | ⟨_, after, answer, answered, isText, isAnswer, rfl, same⟩
    · cases isText'.symm.trans excused
    · obtain ⟨rfl, rfl⟩ := Prod.mk.inj (Option.some.inj (isAnswer.symm.trans isText'))
      obtain ⟨more, isText⟩ := (Action.perform_unbounded _ _ _).mp isText
      exact ⟨more, _, Option.map_eq_some_iff.mpr ⟨_, isText, rfl⟩,
        Outcome.unplaced_ofState _ same.ledgers⟩

/-! ### A tag that evaluates its arguments -/

theorem argumentsAfter_cons {arg : Expr} (isPositional : arg.isKeyword = false)
    (positional : List Value) (keywords : Table Value) (next : Host.Arguments → Host.TagScript)
    (rest : List Expr) :
    Host.TagScript.argumentsAfter positional keywords next (arg :: rest) = .evaluate arg fun value =>
      .argumentsAfter (positional ++ [value]) keywords next rest := by
  cases arg <;> first | rfl | cases isPositional

/-- Scripts that begin with the values of akin arguments ask the same if they go on in the same way. -/
theorem scriptAkin_argumentsAfter {kin : Kinship} {source : String} {args args' : List Expr}
    (given : Expr.ArgsAkin (kin.places source) args args') (positional : List Value)
    (keywords : Table Value) {next next' : Host.Arguments → Host.TagScript}
    (onward : ∀ arguments, kin.ScriptAkin source (next arguments) (next' arguments)) :
    kin.ScriptAkin source (.argumentsAfter positional keywords next args)
      (.argumentsAfter positional keywords next' args') := by
  obtain ⟨each, areKeywords⟩ := given
  induction each generalizing positional keywords with
  | nil => exact onward _
  | @cons arg arg' rest rest' akin _ inductionHypothesis =>
      obtain ⟨isSame, areKeywords⟩ := List.cons.inj areKeywords
      replace inductionHypothesis := fun positional keywords =>
        inductionHypothesis positional keywords areKeywords
      clear areKeywords
      cases isKeyword : arg.isKeyword with
      | false =>
          rw [argumentsAfter_cons isKeyword, argumentsAfter_cons (isSame.symm.trans isKeyword)]
          exact .evaluate akin fun value => inductionHypothesis _ _
      | true =>
          cases akin with
          | keyword name akin at_ => exact .evaluate akin fun value => inductionHypothesis _ _
          | _ => cases isKeyword

/-- An environment with a tag that prints its first argument. -/
def echoing : Environment :=
  Environment.empty.addRenderer "echo" fun tag =>
    .arguments tag.args fun arguments => .done ((arguments.positional.headD .nil).display)

/-- Parentheses around an operand and around an argument of a tag do not show. -/
theorem groups_transparent_echo :
    let letter (value : String) : Expr := .literal (.text value) default
    let pair : Expr := .binary .concat (letter "a") (letter "b") default
    let template : Template := ⟨none,
      [.output (.binary .concat (.group pair default) (.name "x" default) default) default,
        .custom "echo" [.group (.name "x" default) default] none default], default⟩
    LooksPastGroups echoing ∧ (∀ node ∈ template.body, node.Seamless) ∧
      (renderTemplateWithin 9 echoing template [("x", .text "c")] .empty).map Outcome.text =
        some "abcc" ∧
      (renderTemplateWithin 9 echoing template.ungrouped [("x", .text "c")] .empty).map
        Outcome.text = some "abcc" := by
  intro letter pair template
  have looksPast : LooksPastGroups echoing := by
    intro name renderer isRenderer source tag seamless
    obtain ⟨_, rfl⟩ : "echo" = name ∧ _ = renderer := by
      simpa [Host.Registry.renderer?, Host.Registry.layers, echoing, Environment.addRenderer,
        Environment.empty, Host.Layer.empty, Table.put, Table.lookup?] using isRenderer
    have each : ∀ arg ∈ tag.args, arg.Akin _ arg.ungrouped := fun arg isArg =>
      (seamless.expr isArg).akin fun _ _ => trivial
    exact scriptAkin_argumentsAfter ⟨List.forall₂_map_right_iff.mpr (List.forall₂_same.mpr each),
      seamless.own⟩ [] [] fun arguments => .done _
  have isLetter (value : String) : (letter value).Seamless := .mk trivial (List.forall_mem_nil _)
  have isName : (Expr.name "x" default).Seamless := .mk trivial (List.forall_mem_nil _)
  have isPair : pair.Seamless := .mk trivial
    (List.forall_mem_cons.mpr ⟨isLetter "a", List.forall_mem_singleton.mpr (isLetter "b")⟩)
  have isWord : (Expr.binary .concat (.group pair default) (.name "x" default) default).Seamless :=
    .mk trivial (List.forall_mem_cons.mpr ⟨.mk trivial (List.forall_mem_singleton.mpr isPair),
      List.forall_mem_singleton.mpr isName⟩)
  have isArgument : (Expr.group (.name "x" default) default).Seamless :=
    .mk trivial (List.forall_mem_singleton.mpr isName)
  have seamless : ∀ node ∈ template.body, node.Seamless := by
    refine List.forall_mem_cons.mpr ⟨.mk (List.forall_mem_nil _) ?_ (List.forall_mem_nil _)
      (List.forall_mem_nil _), List.forall_mem_singleton.mpr (.mk rfl ?_ (List.forall_mem_nil _)
        (List.forall_mem_nil _))⟩
    · exact List.forall_mem_singleton.mpr isWord
    · exact List.forall_mem_singleton.mpr isArgument
  have rendered : (renderTemplateWithin 9 echoing template [("x", .text "c")] .empty).map
      Outcome.text = some "abcc" := by decide +kernel
  refine ⟨looksPast, seamless, rendered, ?_⟩
  obtain ⟨outcome, isOutcome, isText⟩ := Option.map_eq_some_iff.mp rendered
  obtain ⟨outcome', isOutcome', same⟩ :=
    (groups_transparent echoing looksPast template seamless _ _ 9).1 outcome isOutcome
  have sameText : outcome'.text = outcome.text := (congrArg Outcome.text same).symm
  rw [isOutcome', Option.map_some, sameText, isText]

/-- Parentheses around a callee show: a macro's name in parentheses is no macro. -/
theorem groups_show :
    let source := "\x7b% macro m() %\x7dx\x7b% endmacro %\x7d\x7b\x7b (m)() \x7d\x7d"
    let template := (Environment.empty.parse "page" source).template
    let shown (template : Template) := (renderTemplateWithin 9 .empty template [] .empty).map
      fun outcome => (outcome.text, outcome.problems.map (·.code))
    shown template = some ("", [.notCallable]) ∧ shown template.ungrouped = some ("x", []) := by
  decide +kernel

end Stencil.Render
