import Stencil.Proofs.Render.Cache
import Stencil.Proofs.Render.Uniform

/-!
Contract: which failed look-ups a host wants reported has no influence on anything but the reports.

Owns:
- reports with the kind of look-up whose failure they tell of, and those that are kept;
- renders of one template for hosts that differ in nothing else, side by side;
- tags that do not look at what the host wants reported.

Does not own: what renders ask for (`Stencil.Proofs.Render.Uniform`).
-/

set_option autoImplicit false

namespace Stencil

open Stencil.Report (Code Diagnostic)

namespace Host

/-- The environment for a host that wants other failed look-ups reported. -/
def Environment.under (environment : Environment) (strictness : Strictness) : Environment :=
  { environment with strict := strictness }

/-- Whether two facades differ in nothing but what is to be reported, and the text that shows it. -/
def Facade.ButStrictness (facade facade' : Facade) : Prop :=
  ∃ strict description,
    facade' = { facade with strict := strict, description := description }

/-- Whether the scripts of all tags are blind to what the host wants reported, and report nothing but
diagnostics of some kind themselves. -/
def Environment.Blind (environment : Environment) (told : Diagnostic → Prop) : Prop :=
  environment.Overlooks Facade.ButStrictness told

end Host

namespace Render

open Stencil.Host (Environment Shelf Strictness)
open Stencil.Syntax (Expr Node Template)

/-! ### Reports -/

/-- The code of the reports on failed look-ups of a kind. -/
def Lookup.code : Lookup → Code
  | .variable_ => .unknownVariable
  | .filter => .unknownFilter
  | .test => .unknownTest
  | .function => .unknownFunction

theorem Problem.code_of_lookup? {problem : Problem} {lookup : Lookup}
    (isLookup : problem.lookup? = some lookup) : problem.code = lookup.code := by
  cases problem <;> cases isLookup <;> rfl

theorem Problem.code_ne_of_lookup? {problem : Problem} (isOther : problem.lookup? = none)
    (lookup : Lookup) : problem.code ≠ lookup.code := by
  cases problem <;> cases isOther <;> cases lookup <;> exact nofun

/-- A report, with the kind of look-up whose failure it tells of. -/
structure Notice where
  lookup? : Option Lookup
  diagnostic : Diagnostic

/-- Whether a host with some wishes gets a report. -/
def Notice.isKept (strictness : Strictness) (notice : Notice) : Bool :=
  notice.lookup?.all (·.isStrict strictness)

/-- The reports that a host with some wishes gets. -/
def kept (strictness : Strictness) (notices : List Notice) : List Diagnostic :=
  (notices.filter (·.isKept strictness)).map (·.diagnostic)

/-- Whether a report says what it is: the report on a failed look-up has the code of its kind. Any
other one has another code, unless it is about a template on the shelf or comes from a tag's
script. -/
def Notice.IsProper (told : Diagnostic → Prop) (shelf : Shelf) (notice : Notice) : Prop :=
  match notice.lookup? with
  | some lookup => notice.diagnostic.code = lookup.code
  | none =>
      (∀ lookup : Lookup, notice.diagnostic.code ≠ lookup.code) ∨
      (∃ name loaded, shelf.templates.lookup? name = some loaded ∧
        ∃ problem ∈ loaded.problems, notice.diagnostic = problem.inTemplate loaded.name) ∨
      ∃ place diagnostic, told diagnostic ∧ notice.diagnostic = State.ascribe place diagnostic

theorem Notice.IsProper.grow {told : Diagnostic → Prop} {shelf larger : Shelf} {notice : Notice}
    (isProper : notice.IsProper told shelf) (within : shelf.Within larger) :
    notice.IsProper told larger := by
  obtain ⟨lookup?, diagnostic⟩ := notice
  cases lookup? with
  | some lookup => exact isProper
  | none =>
      refine Or.imp_right (Or.imp_left ?_) isProper
      rintro ⟨name, loaded, found, about⟩
      exact ⟨name, loaded, within found, about⟩

theorem kept_append (strictness : Strictness) (notices others : List Notice) :
    kept strictness (notices ++ others) = kept strictness notices ++ kept strictness others := by
  unfold kept
  rw [List.filter_append, List.map_append]

theorem kept_singleton (strictness : Strictness) (notice : Notice) :
    kept strictness [notice] = if notice.isKept strictness then [notice.diagnostic] else [] := by
  unfold kept
  cases isKept : notice.isKept strictness <;> simp [isKept]

/-- Reports that are not about look-ups are kept. -/
theorem kept_others (strictness : Strictness) (diagnostics : List Diagnostic) :
    kept strictness (diagnostics.map (Notice.mk none)) = diagnostics := by
  induction diagnostics with
  | nil => rfl
  | cons diagnostic rest inductionHypothesis =>
      rw [List.map_cons, ← List.singleton_append, kept_append, kept_singleton, inductionHypothesis]
      rfl

/-! ### Hosts with different wishes -/

/-- Whether renders for hosts with different wishes have come equally far, and each host has got the
reports it wants. -/
def Differing (told : Diagnostic → Prop) (states : Strictness → State) : Prop :=
  ∃ (frame : State) (notices : List Notice),
    (∀ notice ∈ notices, notice.IsProper told frame.shelf) ∧
      ∀ strictness, states strictness =
        { frame with problems := (kept strictness notices).toArray }

/-- Renders of any templates for hosts that differ only in what they want reported. -/
def Accord.differing (environment : Environment) (told : Diagnostic → Prop) :
    Accord Strictness :=
  .permissive environment.under
    (fun diagnostic => (∀ lookup : Lookup, diagnostic.code ≠ lookup.code) ∨ told diagnostic)
    fun lookup diagnostic => diagnostic.code = lookup.code

theorem whole_differing (environment : Environment) (told : Diagnostic → Prop) :
    (Accord.differing environment told).Whole .any :=
  Accord.whole_permissive (show ∀ i, (environment.under i).lookups = environment.lookups from
    fun _ => rfl)
    (fun _ isOutright => .inl (Problem.code_ne_of_lookup? (Problem.lookup?_of_isOutright isOutright)))
    fun _ isLookup => Problem.code_of_lookup? isLookup

variable {environment : Environment} {told : Diagnostic → Prop}

theorem State.code_ascribe (place : Place) (diagnostic : Diagnostic) :
    (State.ascribe place diagnostic).code = diagnostic.code := by
  unfold State.ascribe
  split
  · split <;> rfl
  · rfl

namespace Differing

variable {states afters : Strictness → State}

theorem seen (differing : Differing told states) (change : View → View) :
    Differing told fun i => { states i with toView := change (states i).toView } := by
  obtain ⟨frame, notices, areProper, same⟩ := differing
  obtain rfl := funext same
  exact ⟨{ frame with toView := change frame.toView }, notices, areProper, fun _ => rfl⟩

/-- What one host wants to know and another one does not keeps their renders together. -/
theorem notice (differing : Differing told states) (lookup? : Option Lookup)
    (diagnostic : Diagnostic) (isProper : ∀ shelf place,
      (Notice.mk lookup? (State.ascribe place diagnostic)).IsProper told shelf) :
    Differing told fun i =>
      if lookup?.all (·.isStrict i) then (states i).report diagnostic else states i := by
  obtain ⟨frame, notices, areProper, same⟩ := differing
  obtain rfl := funext same
  refine ⟨frame, notices ++ [⟨lookup?, State.ascribe frame.place diagnostic⟩], ?_, fun i => ?_⟩
  · rw [List.forall_mem_append, List.forall_mem_singleton]
    exact ⟨areProper, isProper frame.shelf frame.place⟩
  · rw [kept_append, kept_singleton]
    cases isKept : lookup?.all (·.isStrict i) <;> simp [Notice.isKept, isKept, State.report]

theorem reports (differing : Differing told states) {diagnostic : Diagnostic}
    (isTold : (∀ lookup : Lookup, diagnostic.code ≠ lookup.code) ∨ told diagnostic) :
    Differing told fun i => (states i).report diagnostic := by
  refine differing.notice none diagnostic fun shelf place => ?_
  rcases isTold with isOther | isTold
  · exact .inl fun lookup => (State.code_ascribe place diagnostic) ▸ isOther lookup
  · exact .inr (.inr ⟨place, diagnostic, isTold, rfl⟩)

theorem load (differing : Differing told states) (environment : Environment) (name : String) :
    ∃ answer, (∀ i, ((states i).load (environment.under i) name).1 = answer) ∧
      Differing told fun i => ((states i).load (environment.under i) name).2 := by
  obtain ⟨frame, notices, areProper, same⟩ := differing
  obtain rfl := funext same
  have fetched : ∀ i, Shelf.fetch (environment.under i) name frame.shelf =
    Shelf.fetch environment name frame.shelf := fun _ => rfl
  have grown : ∀ notice ∈ notices,
      notice.IsProper told (Shelf.fetch environment name frame.shelf).2 := fun notice member =>
    (areProper notice member).grow (Shelf.within_fetch environment name frame.shelf)
  cases isAnswer : (Shelf.fetch environment name frame.shelf).1 with
  | error fault =>
      refine ⟨_, fun i => (State.load_answer _ _ _).trans isAnswer,
        { frame with shelf := (Shelf.fetch environment name frame.shelf).2 }, notices, grown,
        fun i => State.load_of_error isAnswer⟩
  | ok loaded =>
      refine ⟨_, fun i => (State.load_answer _ _ _).trans isAnswer, ?_⟩
      have onShelf := Shelf.lookup?_fetch isAnswer
      have isLoaded : ∀ i, (State.load (environment.under i) name
          { frame with problems := (kept i notices).toArray }).2 = State.reportLoaded { frame with
            shelf := (Shelf.fetch environment name frame.shelf).2
            problems := (kept i notices).toArray } loaded := fun i => State.load_of_ok isAnswer
      by_cases isReported : loaded.name ∈ frame.reported
      · exact ⟨{ frame with shelf := (Shelf.fetch environment name frame.shelf).2 }, notices, grown,
          fun i => (isLoaded i).trans (if_pos isReported)⟩
      · let problems := loaded.problems.map (·.inTemplate loaded.name)
        refine ⟨{ frame with
            shelf := (Shelf.fetch environment name frame.shelf).2
            reported := loaded.name :: frame.reported },
          notices ++ problems.map (Notice.mk none), ?_, fun i => ?_⟩
        · rw [List.forall_mem_append]
          refine ⟨grown, fun notice member => ?_⟩
          obtain ⟨told, isTold, rfl⟩ := List.mem_map.mp member
          obtain ⟨problem, isProblem, rfl⟩ := List.mem_map.mp isTold
          exact .inr (.inl ⟨name, loaded, onShelf, problem, isProblem, rfl⟩)
        · rw [kept_append, kept_others]
          refine (isLoaded i).trans ((if_neg isReported).trans ?_)
          simp [problems]

theorem keeps : (Accord.differing environment told).Keeps (Differing told) where
  view := by
    rintro states ⟨frame, notices, _, same⟩
    obtain rfl := funext same
    exact ⟨frame.toView, fun _ => rfl⟩
  report differing isTold := differing.reports isTold
  complain {states lookup diagnostic} differing isLookup :=
    differing.notice (some lookup) diagnostic fun _ place =>
      (State.code_ascribe place diagnostic).trans isLookup
  bind name value differing := differing.seen fun view =>
    { view with scopes := view.scopes.bind name value }
  store {states} root path key value differing _ := by
    have stored := differing.seen fun view =>
      { view with scopes := (view.scopes.stored root path key value).2 }
    obtain ⟨frame, notices, _, same⟩ := differing
    obtain rfl := funext same
    simp only [State.store_eq]
    exact ⟨(frame.scopes.stored root path key value).1, fun _ => rfl, stored⟩
  define {states callable} name differing _ := differing.seen fun view =>
    { view with macros := view.macros.put name callable }
  mount {states macros} name differing _ := differing.seen fun view =>
    { view with namespaces := view.namespaces.put name macros }
  load name differing _ := by
    obtain ⟨answer, areLoaded, related⟩ := differing.load environment name
    exact ⟨answer, fun _ _ => trivial, areLoaded, related⟩
  enter {states setting} differing _ := differing.seen setting.enter
  leave {states afters setting} differing _ differingAfter _ := by
    obtain ⟨frame, notices, _, same⟩ := differing
    obtain rfl := funext same
    exact differingAfter.seen (setting.leave frame.toView)

theorem ticks : (Accord.differing environment told).Ticks (Differing told) (Differing told) := by
  refine Accord.ticks_of_same keeps ?_ ?_ (fun differing => ?_) fun limit span => .inl nofun
  · rintro states ⟨frame, notices, _, same⟩
    obtain rfl := funext same
    exact ⟨frame.halted, frame.steps, environment.maxSteps, fun _ => ⟨rfl, rfl, rfl⟩⟩
  · rintro states ⟨frame, notices, areProper, same⟩
    obtain rfl := funext same
    exact ⟨{ frame with steps := frame.steps + 1 }, notices, areProper, fun _ => rfl⟩
  · exact differing.seen fun view => { view with halted := true }

end Differing

/-! ### Whole renders -/

theorem carries_differing (blind : environment.Blind told) (leader : Strictness) (depth : Nat) :
    (Accord.differing environment told).Carries (some leader) (Differing told)
      fun i => belowDepth (environment.under i) depth :=
  Accord.carries_permissive (whole_differing environment told) Differing.keeps Differing.ticks leader
    (fun isRenderer tag => Accord.permits_of_overlooks (blind isRenderer tag) (fun _ => .inr)
      environment.facade fun strictness => ⟨strictness, _, rfl⟩) depth

/-- Whether a render ends in the same way whatever the host wants reported: in the same state, with
the same text, after as many steps and with the same shelf. The reports are those that the host
wants among the reports that a host gets which wants all of them. -/
def OnlyReportsDiffer (environment : Environment) (told : Diagnostic → Prop) (depth : Nat)
    (action : Action String) (start : State) : Prop :=
  let run (strictness : Strictness) := action.perform (environment.under strictness)
    (belowDepth (environment.under strictness) depth) start
  (∀ strictness, run strictness = none) ∨
    ∃ (text : String) (last : State) (notices : List Notice),
      run .all = some (text, last) ∧ last.problems.toList = notices.map (·.diagnostic) ∧
        (∀ notice ∈ notices, notice.IsProper told last.shelf) ∧
          ∀ strictness, run strictness =
            some (text, { last with problems := (kept strictness notices).toArray })

theorem kept_all (notices : List Notice) : kept .all notices = notices.map (·.diagnostic) := by
  unfold kept
  rw [List.filter_eq_self.mpr]
  rintro ⟨lookup?, diagnostic⟩ _
  rcases lookup? with _ | lookup
  · rfl
  · cases lookup <;> rfl

theorem onlyReportsDiffer_of_asks (blind : environment.Blind told) (depth : Nat)
    {action : Action String} (asks : (Accord.differing environment told).Asks action)
    (context : Table Value) (shelf : Shelf) :
    OnlyReportsDiffer environment told depth action (.initial context shelf) := by
  have start : Differing told fun _ => State.initial context shelf :=
    ⟨State.initial context shelf, [], List.forall_mem_nil _, fun _ => rfl⟩
  have abreast := fun leader => Accord.abreast_perform Differing.keeps
    (carries_differing blind leader depth) asks
  by_cases isNone : ∀ strictness : Strictness, action.perform (environment.under strictness)
      (belowDepth (environment.under strictness) depth) (.initial context shelf) = none
  · exact .inl isNone
  · obtain ⟨leader, isSome⟩ := Classical.not_forall.mp isNone
    obtain ⟨⟨text, after⟩, isAnswer⟩ := Option.ne_none_iff_exists'.mp isSome
    obtain ⟨afters, areAfters, _, frame, notices, areProper, same⟩ :=
      (abreast leader).answer start isAnswer
    obtain rfl := funext same
    refine .inr ⟨text, _, notices, areAfters .all, ?_, areProper, areAfters⟩
    exact kept_all notices

/-- What a host wants reported of failed look-ups has no influence on anything but the reports, if
the scripts of tags do not look at it. -/
theorem strictness_only_reports (environment : Environment) (told : Diagnostic → Prop)
    (blind : environment.Blind told) (depth : Nat) (context : Table Value) (shelf : Shelf) :
    (∀ name, OnlyReportsDiffer environment told depth (Action.renderNamed name)
      (.initial context shelf)) ∧
    ∀ name template, OnlyReportsDiffer environment told depth (Action.renderTemplate name template)
      (.initial context shelf) := by
  have whole := whole_differing environment told
  exact ⟨fun name => onlyReportsDiffer_of_asks blind depth (whole.renderNamed trivial name) context shelf,
    fun name template => onlyReportsDiffer_of_asks blind depth
      (whole.renderTemplate name fun _ _ => trivial) context shelf⟩

/-- An environment with a tag that prints the limit on steps. -/
def limited : Environment :=
  Environment.empty.addRenderer "limit" fun _ => .terms fun terms =>
    .done (toString (terms.maxSteps.getD 0))

/-- An unknown variable and an unknown filter, with and without reports on variables. -/
theorem strictness_only_reports_unknown :
    let name := Expr.name "name" default
    let template : Template :=
      ⟨none, [.output (.filter name "upper" [] default default) default,
        .custom "limit" [] none default], default⟩
    let onlyFilters : Strictness := ⟨false, true, false, false⟩
    let run (strictness : Strictness) := (Action.renderTemplate "page" template).perform
      (limited.under strictness) (belowDepth (limited.under strictness) 3) (.initial [] .empty)
    limited.Blind (fun _ => False) ∧
      (run .all).map (fun last => last.2.problems.toList.map (·.code)) =
        some [.unknownVariable, .unknownFilter] ∧
      (run onlyFilters).map (fun last => last.2.problems.toList.map (·.code)) =
        some [.unknownFilter] ∧
      OnlyReportsDiffer limited (fun _ => False) 3 (Action.renderTemplate "page" template)
        (.initial [] .empty) := by
  intro name template onlyFilters run
  have blind : limited.Blind fun _ => False := by
    intro name renderer isRenderer tag
    obtain ⟨_, rfl⟩ : "limit" = name ∧ _ = renderer := by
      simpa [Host.Registry.renderer?, Host.Registry.layers, limited, Environment.addRenderer,
        Environment.empty, Host.Layer.empty, Table.put, Table.lookup?] using isRenderer
    refine .survey ?_ fun _ => .done _
    rintro facade _ ⟨strict, description, rfl⟩
    rfl
  exact ⟨blind, by decide, by decide,
    (strictness_only_reports limited _ blind 3 [] .empty).2 "page" template⟩

end Render

end Stencil
