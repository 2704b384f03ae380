import Stencil.Proofs.Render.Loads
import Stencil.Proofs.Render.Strictness

/-!
Contract: a render gets each template once, and reports once what is wrong with its text.

Owns:
- reports that renders make of their own accord, and the batches that all reports of a render fall
  into;
- the count that a render keeps of what it has asked for, got and reported.

Failed look-ups are not kept: a name for which the loader gives no text is asked for again when it is
needed again, and may be given one then.

Does not own: what it takes to have a template rendered (`Stencil.Proofs.Render.Loads`).
-/

set_option autoImplicit false

namespace Stencil

open Stencil.Report (Diagnostic)

namespace Host

/-- Whether the script of a tag may report a diagnostic in an environment that shows a facade. -/
inductive TagScript.MayReport (facade : Facade) (diagnostic : Diagnostic) : TagScript → Prop where
  | evaluate {expr : Syntax.Expr} {next : Value → TagScript} (value : Value)
      (later : MayReport facade diagnostic (next value)) :
      MayReport facade diagnostic (.evaluate expr next)
  | render {body : List Syntax.Node} {next : String → TagScript} (text : String)
      (later : MayReport facade diagnostic (next text)) :
      MayReport facade diagnostic (.render body next)
  | renderWith {bindings : Table Value} {body : List Syntax.Node} {next : String → TagScript}
      (text : String) (later : MayReport facade diagnostic (next text)) :
      MayReport facade diagnostic (.renderWith bindings body next)
  | lookup {name : String} {next : Option Value → TagScript} (value : Option Value)
      (later : MayReport facade diagnostic (next value)) :
      MayReport facade diagnostic (.lookup name next)
  | now {next : TagScript} : MayReport facade diagnostic (.report diagnostic next)
  | later {other : Diagnostic} {next : TagScript} (later : MayReport facade diagnostic next) :
      MayReport facade diagnostic (.report other next)
  | depth {next : Nat → TagScript} (depth : Nat)
      (later : MayReport facade diagnostic (next depth)) :
      MayReport facade diagnostic (.depth next)
  | survey {next : Facade → TagScript} (later : MayReport facade diagnostic (next facade)) :
      MayReport facade diagnostic (.survey next)

/-- Whether the script of some tag may report a diagnostic. -/
def Environment.MayReport (environment : Environment) (diagnostic : Diagnostic) : Prop :=
  ∃ name renderer tag, environment.renderer? name = some renderer ∧
    (renderer tag).MayReport environment.facade diagnostic

end Host

namespace Render

open Stencil.Host (Environment Shelf)

/-! ### Batches of reports -/

/-- Whether a render may report something of its own accord: it is of a kind that only renders come
by, or the script of a tag may report it. Elsewhere than in the first template, it gets the name of
the template. -/
def Utters (environment : Environment) (diagnostic : Diagnostic) : Prop :=
  diagnostic.code.family = .runtime ∨
    ∃ place told, environment.MayReport told ∧ diagnostic = State.ascribe place told

/-- A part of the reports of a render: one that it makes of its own accord, or all those on the text
of a template. -/
inductive Batch where
  | own (diagnostic : Diagnostic)
  | text (name source : String)

namespace Batch

def given? : Batch → Option (String × String)
  | .own _ => none
  | .text name source => some (name, source)

/-- The reports in a batch. Those on the text of a template carry its name. -/
def reports (environment : Environment) : Batch → List Diagnostic
  | .own diagnostic => [diagnostic]
  | .text name source => (environment.parse name source).problems.map (·.inTemplate name)

end Batch

/-- Whether a render gets each template once: what stands on the shelf are the templates of the texts
that the loader has given, it has given one for each of their names once and for no other name, and
the reports on each of these texts are one batch among all reports, in the order in which the texts
were given. -/
structure Outcome.GetsOnce (environment : Environment) (outcome : Outcome) : Prop where
  got : ∀ name loaded, outcome.shelf.templates.lookup? name = some loaded ↔
    ∃ source, (name, source) ∈ environment.granted outcome.shelf.asked ∧
      loaded = Shelf.loaded environment name source
  once : ∀ name, ((environment.granted outcome.shelf.asked).map Prod.fst).count name =
    if outcome.shelf.has name then 1 else 0
  batches : ∃ batches : List Batch, outcome.problems = batches.flatMap (·.reports environment) ∧
    batches.filterMap Batch.given? = (environment.granted outcome.shelf.asked).reverse ∧
    ∀ diagnostic, .own diagnostic ∈ batches → Utters environment diagnostic

/-! ### What a render keeps count of -/

/-- What holds of the shelf, the names of reported templates and the reports wherever a render that
began with an empty shelf stands. -/
structure Tally (environment : Environment) (shelf : Shelf) (reported : List String)
    (problems : Array Diagnostic) : Prop where
  got : ∀ name loaded, shelf.templates.lookup? name = some loaded ↔
    ∃ source, (name, source) ∈ environment.granted shelf.asked ∧
      loaded = Shelf.loaded environment name source
  inOrder : reported = (environment.granted shelf.asked).map Prod.fst
  nodup : reported.Nodup
  batches : ∃ batches : List Batch, problems.toList = batches.flatMap (·.reports environment) ∧
    batches.filterMap Batch.given? = (environment.granted shelf.asked).reverse ∧
    ∀ diagnostic, .own diagnostic ∈ batches → Utters environment diagnostic

namespace Tally

variable {environment : Environment} {shelf : Shelf} {reported : List String}
  {problems : Array Diagnostic}

theorem start (environment : Environment) : Tally environment .empty [] #[] where
  got name loaded := by simp [Shelf.empty, Host.Environment.granted]
  inOrder := rfl
  nodup := List.nodup_nil
  batches := ⟨[], rfl, rfl, nofun⟩

theorem mem_reported (tally : Tally environment shelf reported problems) (name : String) :
    name ∈ reported ↔ shelf.has name = true := by
  rw [tally.inOrder, List.mem_map]
  constructor
  · rintro ⟨⟨_, source⟩, isGranted, rfl⟩
    exact Option.isSome_iff_exists.mpr ⟨_, (tally.got _ _).mpr ⟨source, isGranted, rfl⟩⟩
  · intro isThere
    obtain ⟨loaded, isFound⟩ := Option.isSome_iff_exists.mp isThere
    obtain ⟨source, isGranted, _⟩ := (tally.got name loaded).mp isFound
    exact ⟨_, isGranted, rfl⟩

/-- What was reported of its own accord is one more batch. -/
theorem utter (tally : Tally environment shelf reported problems) {diagnostic : Diagnostic}
    (utters : Utters environment diagnostic) :
    Tally environment shelf reported (problems.push diagnostic) := by
  obtain ⟨batches, areProblems, areTexts, areOwn⟩ := tally.batches
  have behind : ∀ other, Batch.own other ∈ batches ++ [.own diagnostic] →
      Utters environment other := by
    intro other member
    rcases List.mem_append.mp member with member | member
    · exact areOwn other member
    · cases List.mem_singleton.mp member
      exact utters
  refine { tally with batches := ⟨batches ++ [.own diagnostic], ?_, ?_, behind⟩ }
  · simp [areProblems, Batch.reports]
  · simp [areTexts, Batch.given?]

/-- A name may be asked for in vain at any time. -/
theorem denied (tally : Tally environment shelf reported problems) {name : String}
    (isNone : environment.text? shelf.asked name = none) :
    Tally environment { shelf with asked := name :: shelf.asked } reported problems := by
  have same := Host.Environment.granted_of_none isNone
  exact ⟨same ▸ tally.got, same ▸ tally.inOrder, tally.nodup, same ▸ tally.batches⟩

/-- A template that is put on the shelf was never given before, and is reported in a batch. -/
theorem given (tally : Tally environment shelf reported problems) {name source : String}
    (isNew : shelf.templates.lookup? name = none)
    (isText : environment.text? shelf.asked name = some source) :
    Tally environment
      ⟨shelf.templates.put name (Shelf.loaded environment name source), name :: shelf.asked⟩
      (name :: reported)
      (problems ++ ((Shelf.loaded environment name source).problems.map
        (·.inTemplate name)).toArray) := by
  have grows := Host.Environment.granted_of_some isText
  have isUnreported : name ∉ reported := by
    simp [tally.mem_reported, Shelf.has, Table.has, isNew]
  constructor
  · intro key loaded
    rw [grows]
    by_cases isName : key = name
    · subst isName
      have ungranted (other : String) : (key, other) ∉ environment.granted shelf.asked :=
        fun isGranted => isUnreported
          (tally.inOrder ▸ List.mem_map.mpr ⟨(key, other), isGranted, rfl⟩)
      simp [Table.lookup?_put_self, ungranted, eq_comm]
    · simp [Table.lookup?_put_other _ _ isName, tally.got, isName]
  · rw [grows, tally.inOrder, List.map_cons]
  · exact List.nodup_cons.mpr ⟨isUnreported, tally.nodup⟩
  · obtain ⟨batches, areProblems, areTexts, areOwn⟩ := tally.batches
    refine ⟨batches ++ [.text name source], ?_, ?_, ?_⟩
    · simp [areProblems, Batch.reports, Shelf.loaded]
    · simp [grows, areTexts, Batch.given?]
    · intro other member
      rcases List.mem_append.mp member with member | member
      · exact areOwn other member
      · cases List.mem_singleton.mp member

/-- Wherever a template is needed, the count stays right. -/
theorem load {state : State}
    (tally : Tally environment state.shelf state.reported state.problems) (name : String) :
    let after := (state.load environment name).2
    Tally environment after.shelf after.reported after.problems := by
  have fetches := Shelf.fetches environment name state.shelf
  unfold State.load
  generalize Shelf.fetch environment name state.shelf = fetched at fetches
  cases fetches with
  | @found entry isFound =>
      -- The shelf was empty to begin with, so what stands on it was loaded and reported.
      have isReported : entry.name ∈ state.reported := by
        obtain ⟨source, _, rfl⟩ := (tally.got name entry).mp isFound
        exact (tally.mem_reported name).mpr (Option.isSome_iff_exists.mpr ⟨_, isFound⟩)
      have same : State.reportLoaded { state with shelf := state.shelf } entry = state :=
        if_pos isReported
      simpa only [same] using tally
  | denied _ isNone areAsked =>
      rcases areAsked with rfl | rfl
      · exact tally
      · exact tally.denied isNone
  | @given source isNew isText =>
      have isUnreported : (Shelf.loaded environment name source).name ∉ state.reported := by
        change name ∉ state.reported
        simp [tally.mem_reported, Shelf.has, Table.has, isNew]
      simp only [State.reportLoaded, if_neg isUnreported]
      exact tally.given isNew isText

theorem getsOnce {text : String} {state : State}
    (tally : Tally environment state.shelf state.reported state.problems) :
    (Outcome.ofState text state).GetsOnce environment where
  got := tally.got
  once name := by
    have nodup := tally.nodup
    have member := tally.mem_reported name
    rw [tally.inOrder] at nodup member
    simp only [Outcome.ofState, nodup.count, member]
    rfl
  batches := tally.batches

end Tally

/-! ### Whole renders -/

theorem Problem.family_code (problem : Problem) : problem.code.family = .runtime := by
  cases problem <;> dsimp only [code] <;> decide

/-- A render that reports nothing but what it may report of its own accord. -/
def Accord.uttering (environment : Environment) : Accord Unit :=
  .permissive (fun _ => environment)
    (fun diagnostic => diagnostic.code.family = .runtime ∨ environment.MayReport diagnostic)
    fun _ diagnostic => diagnostic.code.family = .runtime

theorem whole_uttering (environment : Environment) : (Accord.uttering environment).Whole .any :=
  Accord.whole_permissive (fun _ => rfl) (fun {problem} _ _ => .inl problem.family_code)
    fun {_ problem} _ _ => problem.family_code

variable {environment : Environment}

theorem utters_ascribe {diagnostic : Diagnostic} (place : Place)
    (isTold : diagnostic.code.family = .runtime ∨ environment.MayReport diagnostic) :
    Utters environment (State.ascribe place diagnostic) := by
  rcases isTold with isRuntime | mayReport
  · exact .inl ((State.code_ascribe place diagnostic) ▸ isRuntime)
  · exact .inr ⟨place, diagnostic, mayReport, rfl⟩

theorem keeps_tally : (Accord.uttering environment).Keeps fun states =>
    Tally environment (states ()).shelf (states ()).reported (states ()).problems where
  view {states} _ := ⟨(states ()).toView, fun _ => rfl⟩
  report {states _} tally isTold := tally.utter (utters_ascribe (states ()).place isTold)
  complain {states lookup diagnostic} tally isRuntime := by
    dsimp only
    split
    · exact tally.utter (utters_ascribe (states ()).place (.inl isRuntime))
    · exact tally
  bind _ _ tally := tally
  store {states} root path key value tally _ := by
    refine ⟨((states ()).store root path key value).1, fun _ => rfl, ?_⟩
    dsimp only
    rw [State.store_eq]
    exact tally
  define _ tally _ := tally
  mount _ tally _ := tally
  load {states} name tally _ :=
    ⟨((states ()).load environment name).1, fun _ _ => trivial, fun _ => rfl, tally.load name⟩
  enter tally _ := tally
  leave _ _ tally _ := tally

theorem ticks_tally : (Accord.uttering environment).Ticks
    (fun states => Tally environment (states ()).shelf (states ()).reported (states ()).problems)
    fun states => Tally environment (states ()).shelf (states ()).reported (states ()).problems :=
  Accord.ticks_of_same keeps_tally
    (fun {states} _ => ⟨(states ()).halted, (states ()).steps, environment.maxSteps,
      fun _ => ⟨rfl, rfl, rfl⟩⟩) id id
    fun limit _ => .inl (Problem.budgetExceeded limit).family_code

/-- A script asks for nothing but what it may report, and what any render may be asked. -/
theorem permits_of_mayReport {script : Host.TagScript}
    (areTold : ∀ diagnostic, script.MayReport environment.facade diagnostic →
      environment.MayReport diagnostic) :
    Accord.Uniform.Permits (Accord.uttering environment) .any script := by
  induction script with
  | done text => exact .done text
  | evaluate expr next inductionHypothesis =>
      exact .evaluate trivial fun value => inductionHypothesis value fun diagnostic later =>
        areTold diagnostic (.evaluate value later)
  | render body next inductionHypothesis =>
      exact .render (fun _ _ => trivial) fun text => inductionHypothesis text
        fun diagnostic later => areTold diagnostic (.render text later)
  | renderWith bindings body next inductionHypothesis =>
      exact .renderWith (fun _ _ => trivial) fun text => inductionHypothesis text
        fun diagnostic later => areTold diagnostic (.renderWith text later)
  | lookup name next inductionHypothesis =>
      exact .lookup trivial fun value => inductionHypothesis value fun diagnostic later =>
        areTold diagnostic (.lookup value later)
  | report diagnostic next inductionHypothesis =>
      exact .report (.inr (areTold diagnostic .now)) <| inductionHypothesis fun other later =>
        areTold other (.later later)
  | depth next inductionHypothesis =>
      exact .depth Accord.depth_of_permissive fun depth => inductionHypothesis depth
        fun diagnostic later => areTold diagnostic (.depth depth later)
  | survey next inductionHypothesis =>
      exact .survey _ (fun _ => rfl) <| inductionHypothesis environment.facade
        fun diagnostic later => areTold diagnostic (.survey later)

/-- Behind an action that asks for templates in any way the count is right. -/
theorem tally_perform (depth : Nat) {action : Action String}
    (asks : (Accord.uttering environment).Asks action) {context : Table Value} {text : String}
    {last : State} (performed : action.perform environment (belowDepth environment depth)
      (.initial context .empty) = some (text, last)) :
    Tally environment last.shelf last.reported last.problems := by
  have carries := Accord.carries_permissive (whole_uttering environment) keeps_tally ticks_tally ()
    (fun {name renderer} isRenderer tag => permits_of_mayReport fun _ mayReport =>
      ⟨name, renderer, tag, isRenderer, mayReport⟩) depth
  have abreast := Accord.abreast_perform keeps_tally carries asks
  obtain ⟨afters, _, rfl, tally⟩ := @Accord.Abreast.answer _ _ _ _ _ abreast
    (fun _ => .initial context .empty) (Tally.start environment) _ _ performed
  exact tally

/-- A render that begins with an empty shelf gets each template once, however often and from
wherever it is needed, and however often the loader has refused it before; and what is wrong with its
text is reported once, together and in order. -/
theorem templates_loaded_once (environment : Environment) (depth : Nat) (context : Table Value) :
    (∀ template outcome,
      renderTemplateWithin depth environment template context .empty = some outcome →
        outcome.GetsOnce environment) ∧
    ∀ name outcome, renderNamedWithin depth environment name context .empty = some outcome →
      outcome.GetsOnce environment := by
  have whole := whole_uttering environment
  constructor
  · intro template outcome isOutcome
    obtain ⟨⟨text, last⟩, performed, rfl⟩ := Option.map_eq_some_iff.mp isOutcome
    have asks : (Accord.uttering environment).Asks
        (Action.renderTemplate template.displayName template) :=
      whole.renderTemplate template.displayName fun _ _ => trivial
    exact (tally_perform depth asks performed).getsOnce
  · intro name outcome isOutcome
    obtain ⟨⟨text, last⟩, performed, rfl⟩ := Option.map_eq_some_iff.mp isOutcome
    exact (tally_perform depth (whole.renderNamed trivial name) performed).getsOnce

/-- A page that needs a part in three ways. -/
def triptychPage : String :=
  "\x7b% include ['gone', 'part'] ignore missing %\x7d\x7b% import 'part' as p %\x7d" ++
    "\x7b% include 'part' %\x7d"

/-- An environment with such a page. The part cannot be had before it was asked for once, and
something is wrong with it. -/
def triptych : Environment :=
  Environment.empty.withLoader fun before name =>
    if name = "page" then .ok triptychPage
    else if name = "part" ∧ "part" ∈ before then .ok "hi\x7b%"
    else .error (.notFound name)

/-- The page, by name and parsed, is refused the part once, gets it once and tells once what is wrong
with it. -/
theorem templates_loaded_once_thrice :
    let template := (triptych.parse "page" triptychPage).template
    let shown (outcome : Outcome) :=
      (outcome.text, outcome.shelf.asked, outcome.problems.map (·.template))
    ∃ named parsed,
      renderNamedWithin 9 triptych "page" [] .empty = some named ∧
      renderTemplateWithin 9 triptych template [] .empty = some parsed ∧
      shown named = ("hi", ["part", "part", "gone", "page"], [some "part", some "part"]) ∧
      shown parsed = ("hi", ["part", "part", "gone"], [some "part", some "part"]) ∧
      triptych.granted parsed.shelf.asked = [("part", "hi\x7b%")] ∧
      named.GetsOnce triptych ∧ parsed.GetsOnce triptych := by
  intro template shown
  have isNamed : (renderNamedWithin 9 triptych "page" [] .empty).map shown =
      some ("hi", ["part", "part", "gone", "page"], [some "part", some "part"]) := by decide +kernel
  have isParsed : (renderTemplateWithin 9 triptych template [] .empty).map shown =
      some ("hi", ["part", "part", "gone"], [some "part", some "part"]) := by decide +kernel
  obtain ⟨named, isNamed, namedShown⟩ := Option.map_eq_some_iff.mp isNamed
  obtain ⟨parsed, isParsed, parsedShown⟩ := Option.map_eq_some_iff.mp isParsed
  have areAsked : parsed.shelf.asked = ["part", "part", "gone"] := congrArg (·.2.1) parsedShown
  have once := templates_loaded_once triptych 9 []
  exact ⟨named, parsed, isNamed, isParsed, namedShown, parsedShown, areAsked ▸ by decide +kernel,
    once.2 "page" named isNamed, once.1 template parsed isParsed⟩

end Render

end Stencil
