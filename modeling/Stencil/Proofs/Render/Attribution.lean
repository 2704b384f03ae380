import Stencil.Proofs.Render.Cache
import Stencil.Proofs.Render.Kindred

/-!
Contract: the templates that reports name.

Owns:
- where the parts of the trees stand that a render can come by;
- a report about a part of the first template names no template, and one about a part of another
  template names that one, unless the part is handed around.

What is handed around are the bodies of macros with their defaults, and the bodies with parameters
of call blocks. They are rendered for the template whose statements are being rendered, which need
not be theirs.

Does not own: what is handed around (`Stencil.Proofs.Syntax.Marks`).
-/

set_option autoImplicit false

namespace Stencil

open Stencil.Report (Diagnostic)
open Stencil.Syntax (Node)
open Stencil.Text (Span)

/-! ### Scripts about their tags -/

/-- Whether the places of a statement are places of another one. -/
structure Syntax.Node.PartOf (node whole : Node) : Prop where
  marks : ∀ span, node.Marks span → whole.Marks span
  lends : ∀ span, node.Lends span → whole.Lends span

namespace Host

/-- Whether a script, in an environment that shows a facade, has only parts of its tag evaluated and
rendered, and reports only problems with parts of the tag, without a template's name. -/
inductive TagScript.Faithful (facade : Facade) (tag : Tag) : TagScript → Prop where
  | done (text : String) : Faithful facade tag (.done text)
  | evaluate {expr : Syntax.Expr} {next : Value → TagScript}
      (isPart : ∀ span, expr.Marks span → tag.node.Marks span)
      (rest : ∀ value, Faithful facade tag (next value)) : Faithful facade tag (.evaluate expr next)
  | render {body : List Node} {next : String → TagScript}
      (areParts : ∀ node ∈ body, node.PartOf tag.node) (rest : ∀ text, Faithful facade tag (next text)) :
      Faithful facade tag (.render body next)
  | renderWith {bindings : Table Value} {body : List Node} {next : String → TagScript}
      (areParts : ∀ node ∈ body, node.PartOf tag.node) (rest : ∀ text, Faithful facade tag (next text)) :
      Faithful facade tag (.renderWith bindings body next)
  | lookup {name : String} {next : Option Value → TagScript}
      (rest : ∀ value, Faithful facade tag (next value)) : Faithful facade tag (.lookup name next)
  | report {diagnostic : Diagnostic} {next : TagScript} (unnamed : diagnostic.template = none)
      (isPart : tag.node.Marks diagnostic.span) (rest : Faithful facade tag next) :
      Faithful facade tag (.report diagnostic next)
  | depth {next : Nat → TagScript} (rest : ∀ depth, Faithful facade tag (next depth)) :
      Faithful facade tag (.depth next)
  | survey {next : Facade → TagScript} (rest : Faithful facade tag (next facade)) :
      Faithful facade tag (.survey next)

/-- Whether the scripts of all tags keep to their tags. -/
def Environment.Faithful (environment : Environment) : Prop :=
  ∀ {name renderer}, environment.renderer? name = some renderer →
    ∀ tag, (renderer tag).Faithful environment.facade tag

end Host

namespace Render

open Stencil.Host (Environment Loaded Shelf)
open Stencil.Syntax

/-! ### Parts of trees -/

/-- What a render starts from: a host, the templates that are loaded, and a template with its
name. -/
structure Origin where
  environment : Environment
  shelf : Shelf
  name : String
  body : List Node

namespace Origin

variable (origin : Origin)

/-- Whether a template can be found under a name: it is loaded, or else the loader gives the text of
it at one time or another. -/
def Finds (key : String) (loaded : Loaded) : Prop :=
  origin.shelf.templates.lookup? key = some loaded ∨
    origin.shelf.templates.lookup? key = none ∧ ∃ source,
      origin.environment.MayGive key source ∧ loaded = Shelf.loaded origin.environment key source

/-- Whether a template of a name is the first one, or one that can be found. -/
inductive Holds : String → List Node → Prop where
  | first : Holds origin.name origin.body
  | found {key : String} {loaded : Loaded} (finds : origin.Finds key loaded) :
      Holds loaded.name loaded.template.body

/-- Whether a part of a template of a name stands at a span. -/
def Stands (name : String) (span : Span) : Prop :=
  ∃ body, origin.Holds name body ∧ ∃ node ∈ body, node.Marks span

/-- Whether a span is inside of what a template hands around. -/
def Lent (span : Span) : Prop :=
  ∃ name body, origin.Holds name body ∧ ∃ node ∈ body, node.Lends span

/-- Whether something at a span can be met while a template of a name is rendered. -/
def Met (name : String) (span : Span) : Prop := origin.Stands name span ∨ origin.Lent span

/-- The name that a report about a part of a template is to carry. -/
def label (name : String) : Option String := if name = origin.name then none else some name

/-- Whether a report is one about the text of a template that was loaded, or carries the name that
it is to carry, or is about something that is handed around.

Parts are known by their spans. Where parts of several templates stand at one span, a report may carry
the name that one about any of them is to carry. -/
inductive Attributed : Diagnostic → Prop where
  | text {key : String} {loaded : Loaded} {report : Diagnostic} (finds : origin.Finds key loaded)
      (member : report ∈ loaded.problems) : Attributed (report.inTemplate loaded.name)
  | part {report : Diagnostic} {name : String} (stands : origin.Stands name report.span)
      (isLabel : report.template = origin.label name) : Attributed report
  | lent {report : Diagnostic} (lent : origin.Lent report.span) : Attributed report

/-- Whether what a render has loaded and reported so far fits what it started from. -/
structure Accounts (shelf : Shelf) (problems : Array Diagnostic) : Prop where
  within : origin.shelf.Within shelf
  found : ∀ ⦃key : String⦄ ⦃loaded : Loaded⦄, shelf.templates.lookup? key = some loaded →
    origin.Finds key loaded
  problems : ∀ report ∈ problems, origin.Attributed report

variable {origin} {state : State}

/-- A report gets the name that it is to carry if it is about a part of the template whose
statements are being rendered. -/
theorem template_ascribe {place : Place} (isFirst : place.templates.getLast? = some origin.name)
    {diagnostic : Diagnostic} (unnamed : diagnostic.template = none) :
    (State.ascribe place diagnostic).template = origin.label place.source := by
  cases isStack : place.templates with
  | nil =>
      rw [isStack] at isFirst
      cases isFirst
  | cons current outer =>
      have isSource : place.source = current := by rw [Place.source, isStack, List.headD_cons]
      rw [isSource, label, State.ascribe, isFirst, isStack, List.head?_cons]
      dsimp only
      split
      · rename_i same
        rw [if_pos same.symm, unnamed]
      · rename_i isOther
        rw [if_neg (Ne.symm isOther)]
        rfl

theorem span_ascribe (place : Place) (diagnostic : Diagnostic) :
    (State.ascribe place diagnostic).span = diagnostic.span := by
  unfold State.ascribe
  split
  · split <;> rfl
  · rfl

namespace Accounts

theorem report (accounts : origin.Accounts state.shelf state.problems)
    (isFirst : state.place.templates.getLast? = some origin.name) {diagnostic : Diagnostic}
    (unnamed : diagnostic.template = none)
    (met : origin.Met state.place.source diagnostic.span) :
    origin.Accounts state.shelf (state.report diagnostic).problems := by
  refine { accounts with problems := fun report member => ?_ }
  rcases Array.mem_push.mp member with isOld | rfl
  · exact accounts.problems report isOld
  · rcases met with stands | isLent
    · exact .part (span_ascribe _ diagnostic ▸ stands) (template_ascribe isFirst unnamed)
    · exact .lent (span_ascribe _ diagnostic ▸ isLent)

/-- What can be had can be found. -/
theorem finds (accounts : origin.Accounts state.shelf state.problems) {key : String}
    {loaded : Loaded} (isFetched : (Shelf.fetch origin.environment key state.shelf).1 = .ok loaded) :
    origin.Finds key loaded := by
  rcases Shelf.fetch_eq_ok isFetched with isFound | ⟨isNew, isGiven⟩
  · exact accounts.found isFound
  · exact .inr ⟨accounts.within.lookup?_eq_none isNew, isGiven⟩

theorem load (accounts : origin.Accounts state.shelf state.problems) (name : String) :
    origin.Accounts (state.load origin.environment name).2.shelf
      (state.load origin.environment name).2.problems := by
  have within := Shelf.within_fetch origin.environment name state.shelf
  refine ⟨?_, ?_, ?_⟩
  · rw [State.shelf_load]
    exact accounts.within.trans within
  · rw [State.shelf_load]
    intro key loaded isFound
    rcases Shelf.lookup?_fetch_or origin.environment state.shelf key name with
      same | ⟨rfl, other, isFetched⟩
    · exact accounts.found (same ▸ isFound)
    · cases (Shelf.lookup?_fetch isFetched).symm.trans isFound
      exact accounts.finds isFetched
  cases isAnswer : (Shelf.fetch origin.environment name state.shelf).1 with
  | error fault =>
      rw [State.load_of_error isAnswer]
      exact accounts.problems
  | ok loaded =>
      rw [State.load_of_ok isAnswer]
      unfold State.reportLoaded
      split
      · exact accounts.problems
      · intro report member
        rcases Array.mem_append.mp member with isOld | isNew
        · exact accounts.problems report isOld
        · obtain ⟨problem, isProblem, rfl⟩ := List.mem_map.mp (List.mem_toArray.mp isNew)
          exact .text (accounts.finds isAnswer) isProblem

end Accounts

end Origin

/-! ### Renders against themselves -/

namespace State

variable {state state' : State}

/-- What a report does to the ledger depends on the ledger only. -/
theorem ledger_report_congr (same : state.ledger = state'.ledger) (diagnostic : Diagnostic) :
    (state.report diagnostic).ledger = (state'.report diagnostic).ledger := by
  obtain ⟨sameTemplates, sameSteps, sameShelf, sameReported, sameProblems⟩ := Ledger.mk.inj same
  simp only [ledger, report, sameTemplates, sameSteps, sameShelf, sameReported, sameProblems,
    ascribe_of_templates sameTemplates diagnostic]

/-- What comes of loading a template, and what it does to the ledger, depends on the ledger only. -/
theorem load_congr (environment : Environment) (name : String)
    (same : state.ledger = state'.ledger) :
    (state.load environment name).1 = (state'.load environment name).1 ∧
      (state.load environment name).2.ledger = (state'.load environment name).2.ledger := by
  obtain ⟨sameTemplates, sameSteps, sameShelf, sameReported, sameProblems⟩ := Ledger.mk.inj same
  have sameFetched := congrArg (Shelf.fetch environment name) sameShelf
  refine ⟨by rw [load_answer, load_answer, sameFetched], ?_⟩
  cases isAnswer : (Shelf.fetch environment name state.shelf).1 with
  | error fault =>
      rw [load_of_error isAnswer, load_of_error (sameFetched ▸ isAnswer)]
      simp only [ledger, sameTemplates, sameSteps, sameFetched, sameReported, sameProblems]
  | ok loaded =>
      rw [load_of_ok isAnswer, load_of_ok (sameFetched ▸ isAnswer)]
      unfold reportLoaded
      simp only [sameReported]
      split <;>
        simp only [ledger, sameTemplates, sameSteps, sameFetched, sameProblems]

end State

namespace Kinship

/-- A render against itself, with reports about parts that can be met. -/
def attributing (origin : Origin) : Kinship where
  environment := origin.environment
  trees := {
    places := fun name span span' => span = span' ∧ origin.Met name span
    tags := fun name tag tag' => tag = tag' ∧ (∀ span, tag.node.Marks span → origin.Met name span) ∧
      ∀ other span, tag.node.Lends span → origin.Met other span }
  told name diagnostic diagnostic' := diagnostic = diagnostic' ∧ diagnostic.template = none ∧
    origin.Met name diagnostic.span
  ledgers ledger ledger' := ledger = ledger' ∧
    ledger.templates.getLast? = some origin.name ∧ origin.Accounts ledger.shelf ledger.problems
  lenient := False
  spoilt _ := False

variable {origin : Origin}

theorem tagsAreSelf_attributing : (attributing origin).trees.TagsAreSelf := fun self =>
  ⟨rfl, fun span marks => (self.own span marks).2, fun other span lends =>
    (self.lent other span lends).2⟩

theorem akin_of_holds {name : String} {body : List Node} (holds : origin.Holds name body) :
    Nodes.Akin (attributing origin).trees name body body :=
  .refl tagsAreSelf_attributing body fun node member =>
    ⟨fun _ marks => ⟨rfl, .inl ⟨body, holds, node, member, marks⟩⟩,
      fun _ _ lends => ⟨rfl, .inr ⟨name, body, holds, node, member, lends⟩⟩⟩

theorem loadAkin_attributing {state : State} (accounts : origin.Accounts state.shelf state.problems)
    (name : String) :
    LoadAkin (attributing origin).trees (state.load origin.environment name).1
      (state.load origin.environment name).1 := by
  rw [State.load_answer]
  cases isFetched : (Shelf.fetch origin.environment name state.shelf).1 with
  | error fault => exact .error fault
  | ok loaded => exact .ok ⟨rfl, akin_of_holds (.found (accounts.finds isFetched))⟩

/-- A script that keeps to its tag only comes by what can be met where the tag stands. -/
theorem scriptAkin_of_faithful {name : String} {tag : Host.Tag} {script : Host.TagScript}
    (met : ∀ span, tag.node.Marks span → origin.Met name span)
    (metLent : ∀ other span, tag.node.Lends span → origin.Met other span)
    (faithful : script.Faithful origin.environment.facade tag) : (attributing origin).ScriptAkin name script script := by
  have bodyAkin {body : List Node} (areParts : ∀ node ∈ body, node.PartOf tag.node) :
      Nodes.Akin (attributing origin).trees name body body :=
    .refl tagsAreSelf_attributing body fun node member =>
      ⟨fun span marks => ⟨rfl, met span ((areParts node member).marks span marks)⟩,
        fun other span lends => ⟨rfl, metLent other span ((areParts node member).lends span lends)⟩⟩
  induction faithful with
  | done text => exact .done text
  | evaluate isPart _ inductionHypothesis =>
      exact .evaluate (.refl _ fun span marks => ⟨rfl, met span (isPart span marks)⟩)
        inductionHypothesis
  | render areParts _ inductionHypothesis => exact .render (bodyAkin areParts) inductionHypothesis
  | renderWith areParts _ inductionHypothesis =>
      exact .renderWith (bodyAkin areParts) inductionHypothesis
  | lookup _ inductionHypothesis => exact .lookup inductionHypothesis
  | report unnamed isPart _ inductionHypothesis =>
      exact .report ⟨rfl, unnamed, met _ isPart⟩ inductionHypothesis
  | depth _ inductionHypothesis => exact .depth inductionHypothesis
  | survey _ inductionHypothesis => exact .survey inductionHypothesis

theorem sound_attributing (faithful : origin.environment.Faithful) :
    (attributing origin).Sound where
  told problem at_ := by
    obtain ⟨rfl, met⟩ := at_
    exact ⟨rfl, rfl, met⟩
  report {state state' diagnostic diagnostic'} ledgers told := by
    obtain ⟨rfl, unnamed, met⟩ := told
    obtain ⟨same, isFirst, accounts⟩ := ledgers
    exact ⟨State.ledger_report_congr same diagnostic, isFirst, accounts.report isFirst unnamed met⟩
  pace ledgers := .inr (congrArg Ledger.steps ledgers.1)
  step ledgers := ⟨by rw [ledgers.1], ledgers.2⟩
  load {state state'} name ledgers := by
    obtain ⟨same, isFirst, accounts⟩ := ledgers
    obtain ⟨sameAnswer, sameLedger⟩ := State.load_congr origin.environment name same
    have isFirstStill : (state.load origin.environment name).2.ledger.templates.getLast? =
        some origin.name := by
      refine Eq.trans ?_ isFirst
      exact congrArg (·.place.templates.getLast?) (State.toView_load origin.environment name state)
    exact ⟨sameAnswer ▸ loadAkin_attributing accounts name, sameLedger, isFirstStill,
      accounts.load name⟩
  enter template ledgers := by
    obtain ⟨rfl, isFirst, accounts⟩ := ledgers
    exact ⟨rfl, by rw [List.getLast?_cons, isFirst]; rfl, accounts⟩
  leave before after := ⟨by rw [before.1, after.1], before.2.1, after.2.2⟩
  spoil := False.elim
  spoilt _ := False.elim
  script isRenderer source tag tag' akin := by
    obtain ⟨rfl, met, metLent⟩ := akin.seen
    exact scriptAkin_of_faithful met metLent (faithful isRenderer tag)

end Kinship

/-! ### Whole renders -/

/-- A render that nothing was entered or defined in before. -/
theorem Origin.attributed {origin : Origin} (faithful : origin.environment.Faithful)
    {template : Template} (isBody : template.body = origin.body) {context : Table Value}
    {state : State} (isStart : state.toView = (State.initial context origin.shelf).toView)
    (accounts : origin.Accounts state.shelf state.problems) {depth : Nat} {outcome : Outcome}
    (rendered : outcomeOf origin.environment depth (Action.renderTemplate origin.name template)
      state = some outcome) :
    ∀ report ∈ outcome.problems, origin.Attributed report := by
  let kin := Kinship.attributing origin
  let inside := (Setting.template origin.name).place .outside
  have here : kin.Here inside inside :=
    ⟨Kinship.sound_attributing faithful, (Kinship.placeAkin_outside kin).enter (.template _)⟩
  have akin : Nodes.Akin kin.trees origin.name template.body template.body :=
    isBody ▸ Kinship.akin_of_holds .first
  have alike : kin.Alike inside inside Eq (Action.renderOwn origin.name template)
      (Action.renderOwn origin.name template) := Kinship.renderOwn rfl akin
  obtain ⟨⟨text, after⟩, isAfter, rfl⟩ := Option.map_eq_some_iff.mp rendered
  rw [Action.renderTemplate_eq, Action.inSetting, Action.perform_within] at isAfter
  obtain ⟨⟨own, last⟩, isLast, isAfter⟩ := Option.bind_eq_some_iff.mp isAfter
  obtain ⟨rfl, rfl⟩ := Prod.mk.inj (Option.some.inj isAfter)
  obtain ⟨view, steps, stateShelf, reported, problems⟩ := state
  obtain rfl : view = _ := isStart
  let entered := (Setting.template origin.name).enter (State.initial context origin.shelf).toView
  have sights : Sights kin.trees entered entered := ⟨rfl, .nil, .nil, rfl⟩
  have together : kin.Together inside inside ⟨entered, steps, stateShelf, reported, problems⟩
      ⟨entered, steps, stateShelf, reported, problems⟩ := ⟨rfl, rfl, sights, rfl, rfl, accounts⟩
  rcases here.abreast_belowDepth alike depth together with
    excused | ⟨_, _, _, _, isAnswer, _, -, same⟩
  · exact (excused _ _ isLast).elim
  · obtain ⟨rfl, rfl⟩ := Prod.mk.inj (Option.some.inj (isAnswer.symm.trans isLast))
    exact fun report member => same.ledgers.2.2.problems report (Array.mem_toList_iff.mp member)

/-- Whenever the scripts of a host keep to their tags, a report about a part of a template carries no
name if a render starts from the template, and the template's name if it does not, whatever templates
and blocks the render is inside of. Nothing is said about bodies and defaults that are handed around. -/
theorem reports_name_their_template (environment : Environment) (faithful : environment.Faithful)
    (context : Table Value) (shelf : Shelf) (depth : Nat) :
    (∀ template outcome,
      renderTemplateWithin depth environment template context shelf = some outcome →
        ∀ report ∈ outcome.problems,
          Origin.Attributed ⟨environment, shelf, template.displayName, template.body⟩ report) ∧
    (∀ name loaded outcome, (Shelf.fetch environment name shelf).1 = .ok loaded →
      renderNamedWithin depth environment name context shelf = some outcome →
        ∀ report ∈ outcome.problems,
          Origin.Attributed ⟨environment, shelf, loaded.name, loaded.template.body⟩ report) := by
  have accounts (origin : Origin) : origin.Accounts origin.shelf #[] :=
    ⟨.refl origin.shelf, fun _ _ => .inl, nofun⟩
  refine ⟨fun template outcome rendered => ?_, fun name loaded outcome isLoaded rendered => ?_⟩
  · let origin : Origin := ⟨environment, shelf, template.displayName, template.body⟩
    exact origin.attributed faithful rfl rfl (accounts origin) rendered
  · let origin : Origin := ⟨environment, shelf, loaded.name, loaded.template.body⟩
    have isRendered := (outcomeOf_renderNamed depth name (.initial context shelf) isLoaded).symm.trans
      rendered
    exact origin.attributed faithful rfl (State.toView_load environment name _)
      (Origin.Accounts.load (accounts origin) name) isRendered

/-! ### A tag that warns -/

/-- A script that begins with the values of arguments keeps to its tag if it goes on so. -/
theorem faithful_argumentsAfter {facade : Host.Facade} {tag : Host.Tag} (positional : List Value) (keywords : Table Value)
    {next : Host.Arguments → Host.TagScript} (onward : ∀ arguments, (next arguments).Faithful facade tag)
    {args : List Expr} (areParts : ∀ arg ∈ args, ∀ span, arg.Marks span → tag.node.Marks span) :
    (Host.TagScript.argumentsAfter positional keywords next args).Faithful facade tag := by
  induction args generalizing positional keywords with
  | nil => exact onward _
  | cons arg rest inductionHypothesis =>
      have restParts := fun other isRest => areParts other (List.mem_cons_of_mem arg isRest)
      have isPart := areParts arg List.mem_cons_self
      cases arg with
      | keyword name value span =>
          exact .evaluate (fun inner marks => isPart inner (.inside List.mem_cons_self marks))
            fun value => inductionHypothesis _ _ restParts
      | _ => exact .evaluate isPart fun value => inductionHypothesis _ _ restParts

/-- An environment with a tag that reports its first argument. -/
def warning : Environment :=
  Environment.empty.addRenderer "warn" fun tag =>
    .arguments tag.args fun arguments =>
      .report (.new .callFailed ((arguments.positional.headD .nil).display) tag.span) (.done "")

/-- A place that is not that of anything else. -/
def elsewhere : Span := ⟨⟨18, 1, 19⟩, ⟨24, 1, 25⟩⟩

/-- A page that embeds a part and warns, and a part that warns, too. -/
theorem reports_name_their_template_warn :
    let warn (word : String) (span : Span) : Node :=
      .custom "warn" [.literal (.text word) span] none span
    let part : Loaded := ⟨"part", "", ⟨some "part", [warn "low" elsewhere], default⟩, []⟩
    let page : Template :=
      ⟨none, [.embed (.literal (.text "part") default) true false default, warn "late" default],
        default⟩
    let shelf : Shelf := ⟨[("part", part)], []⟩
    warning.Faithful ∧
      (renderTemplateWithin 9 warning page [] shelf).map (fun outcome =>
        outcome.problems.map fun report => (report.span, report.template)) =
          some [(elsewhere, some "part"), (default, none)] ∧
      ∀ outcome, renderTemplateWithin 9 warning page [] shelf = some outcome →
        ∀ report ∈ outcome.problems,
          Origin.Attributed ⟨warning, shelf, page.displayName, page.body⟩ report := by
  intro warn part page shelf
  have faithful : warning.Faithful := by
    intro name renderer isRenderer tag
    obtain ⟨_, rfl⟩ : "warn" = name ∧ _ = renderer := by
      simpa [Host.Registry.renderer?, Host.Registry.layers, warning, Environment.addRenderer,
        Environment.empty, Host.Layer.empty, Table.put, Table.lookup?] using isRenderer
    exact faithful_argumentsAfter [] [] (fun arguments => .report rfl (.own tag.node) (.done ""))
      fun arg isArg span marks => .expr isArg marks
  exact ⟨faithful, by decide +kernel,
    (reports_name_their_template warning faithful [] shelf 9).1 page⟩

/-! ### A macro of another template -/

/-- A sum that has no value. -/
def sum : Expr := .binary .add (.literal (.text "a") elsewhere) (.list [] elsewhere) elsewhere

/-- A template that defines a macro with the sum. -/
def sums : Loaded :=
  ⟨"lib", "", ⟨some "lib", [.define "m" [] [.output sum elsewhere] default], default⟩, []⟩

/-- A page that imports the macro and calls it. -/
def summing : Template :=
  ⟨none, [.importNames (.literal (.text "lib") default) [⟨"m", none, default⟩] false default,
    .output (.call (.name "m" default) [] default) default], default⟩

theorem span_of_marks_call {name : String} {span : Span}
    (marks : (Expr.call (.name name default) [] default).Marks span) : span = default := by
  cases marks with
  | own => rfl
  | inside member marks =>
      obtain rfl := List.mem_singleton.mp member
      cases marks with
      | own => rfl
      | inside member => cases member

theorem span_of_marks_literal {value : Literal} {span : Span}
    (marks : (Expr.literal value default).Marks span) : span = default := by
  cases marks with
  | own => rfl
  | inside member => cases member

theorem span_of_marks_summing {node : Node} (member : node ∈ summing.body) {span : Span}
    (marks : node.Marks span) : span = default := by
  rcases List.mem_cons.mp member with rfl | member
  · cases marks with
    | own => rfl
    | expr member marks =>
        obtain rfl := List.mem_singleton.mp member
        exact span_of_marks_literal marks
    | wanted member =>
        obtain rfl := List.mem_singleton.mp member
        rfl
    | target member | filter member | default member | inside member => cases member
  · obtain rfl := List.mem_singleton.mp member
    cases marks with
    | own => rfl
    | expr member marks =>
        obtain rfl := List.mem_singleton.mp member
        exact span_of_marks_call marks
    | target member | filter member | wanted member | default member | inside member => cases member

/-- A report about the body of a macro that is called from another template carries the name that one
about a part of that template is to carry. -/
theorem macro_reports_misnamed :
    let origin : Origin := ⟨.empty, ⟨[("lib", sums)], []⟩, summing.displayName, summing.body⟩
    Environment.Faithful .empty ∧
      (renderTemplateWithin 9 .empty summing [] origin.shelf).map (fun outcome =>
        outcome.problems.map fun report => (report.span, report.template)) =
          some [(elsewhere, none)] ∧
      origin.Stands "lib" elsewhere ∧ origin.label "lib" = some "lib" ∧
      ∀ name, origin.Stands name elsewhere → name = "lib" := by
  intro origin
  have faithful : Environment.Faithful .empty := by
    intro name renderer isRenderer
    simp [Host.Registry.renderer?, Host.Registry.layers, Environment.empty, Host.Layer.empty,
      Table.lookup?] at isRenderer
  have isFound : origin.shelf.templates.lookup? "lib" = some sums := rfl
  have holds : origin.Holds sums.name sums.template.body := .found (.inl isFound)
  have marks : (Node.define "m" [] [.output sum elsewhere] default).Marks elsewhere :=
    .inside List.mem_cons_self List.mem_cons_self (.own _)
  refine ⟨faithful, by decide +kernel, ⟨_, holds, _, List.mem_cons_self, marks⟩, by decide, ?_⟩
  rintro name ⟨body, isHeld, node, member, marks⟩
  cases isHeld with
  | first => exact absurd (span_of_marks_summing member marks) (by decide)
  | @found key loaded finds =>
      rcases finds with isFound | ⟨-, source, ⟨_, isText⟩, _⟩
      · by_cases isKey : key = "lib"
        · subst isKey
          cases isFound
          rfl
        · simp [origin, Table.lookup?, Ne.symm isKey] at isFound
      · cases isText

end Render

end Stencil
