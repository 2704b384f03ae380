import Stencil.Proofs.Host.Loading
import Stencil.Proofs.Render.Accord
import Stencil.Render.Outcome

/-!
Contract: what stands on the shelf before a render has no influence on it.

Owns:
- a render with a coherent shelf against a render with an empty one, and against a render of the text
  that the loader gives;
- the shelf that a render leaves.

The loader is one that never changes its answers.

Does not own: renders side by side (`Stencil.Proofs.Render.Accord`) and the shelves that are coherent
(`Stencil.Proofs.Host.Loading`).
-/

set_option autoImplicit false

namespace Stencil.Render

open Stencil.Host (Environment Shelf)
open Stencil.Report (Diagnostic)
open Stencil.Syntax (Expr Node Template)

variable {ι α : Type} {environment : Environment}

theorem State.mem_reported_reportLoaded {state : State} {loaded : Host.Loaded} {name : String} :
    name ∈ (state.reportLoaded loaded).reported ↔ name = loaded.name ∨ name ∈ state.reported := by
  unfold reportLoaded
  split
  · rename_i isReported
    exact ⟨.inr, Or.rec (fun isName => isName ▸ isReported) id⟩
  · exact List.mem_cons

/-! ### Renders on different shelves -/

/-- What a render's course depends on, apart from the shelf, and what it has reported. -/
structure Course where
  view : View
  steps : Nat
  problems : Array Diagnostic

def State.course (state : State) : Course := ⟨state.toView, state.steps, state.problems⟩

/-- Whether renders that began with some shelves have come equally far on coherent ones. They need
not have seen the same templates, as long as nothing was wrong with those that only some have
seen. -/
structure Shelved (environment : Environment) (shelves : ι → Shelf) (states : ι → State) : Prop where
  course : ∃ course, ∀ i, (states i).course = course
  coherent : ∀ i, (states i).shelf.Coherent environment
  grown : ∀ i, (shelves i).Within (states i).shelf
  reported : ∀ ⦃name source : String⦄, environment.Gives name source →
    (environment.parse name source).problems ≠ [] →
      ∀ i j, name ∈ (states i).reported → name ∈ (states j).reported

/-- Renders for one host that see the same, and may be asked anything. -/
def Accord.unbound (ι : Type) (environment : Environment) : Accord ι where
  hosts _ := environment
  views views := ∃ view, ∀ i, views i = view
  expr _ := True
  bodies bodies := ∃ nodes, ∀ i, bodies i = nodes
  ascent _ _ := True
  told _ := True
  complaint _ _ := True
  callable _ := True
  mounted _ := True
  loads := True
  loaded _ := True
  setting _ := True

/-- One action asks the same of renders for one host that see the same. -/
theorem alike_unbound (action : Action α) : (Accord.unbound ι environment).Alike fun _ => action := by
  induction action with
  | done answer => exact .done answer
  | eval expr next inductionHypothesis => exact .eval trivial inductionHypothesis
  | render nodes next inductionHypothesis =>
      exact .render ⟨nodes, fun _ => rfl⟩ inductionHypothesis
  | ascend overrides parent next inductionHypothesis => exact .ascend trivial inductionHypothesis
  | look next inductionHypothesis =>
      refine .look fun views ⟨view, areSame⟩ => ?_
      simp only [areSame]
      exact inductionHypothesis view
  | consult next inductionHypothesis => exact .consult (inductionHypothesis environment.toRegistry)
  | survey next inductionHypothesis => exact .survey (inductionHypothesis environment.facade)
  | report diagnostic next inductionHypothesis => exact .report trivial inductionHypothesis
  | complain lookup diagnostic next inductionHypothesis =>
      exact .complain trivial inductionHypothesis
  | bindName name value next inductionHypothesis => exact .bindName inductionHypothesis
  | store root path key value next inductionHypothesis => exact .store trivial inductionHypothesis
  | define name callable next inductionHypothesis => exact .define trivial inductionHypothesis
  | mount name macros next inductionHypothesis => exact .mount trivial inductionHypothesis
  | load name next inductionHypothesis => exact .load trivial fun answer _ => inductionHypothesis answer
  | within setting inner next innerHypothesis nextHypothesis =>
      exact .within trivial innerHypothesis nextHypothesis

namespace Shelved

variable {shelves : ι → Shelf} {states afters : ι → State}

/-- What leaves the shelves and the names of reported templates alone keeps renders together. -/
theorem moved (shelved : Shelved environment shelves states)
    (course : ∃ course, ∀ i, (afters i).course = course)
    (shelf : ∀ i, (afters i).shelf = (states i).shelf)
    (reported : ∀ i, (afters i).reported = (states i).reported) :
    Shelved environment shelves afters where
  course := course
  coherent i := shelf i ▸ shelved.coherent i
  grown i := shelf i ▸ shelved.grown i
  reported _ _ gives isWrong i j := by
    rw [reported i, reported j]
    exact shelved.reported gives isWrong i j

/-- What changes the same way in all views keeps renders together. -/
theorem seen (shelved : Shelved environment shelves states) (change : View → View) :
    Shelved environment shelves fun i => { states i with toView := change (states i).toView } := by
  obtain ⟨course, areSame⟩ := shelved.course
  exact shelved.moved ⟨{ course with view := change course.view }, fun i =>
    congrArg (fun course : Course => { course with view := change course.view }) (areSame i)⟩
    (fun _ => rfl) fun _ => rfl

theorem reports (shelved : Shelved environment shelves states) (diagnostic : Diagnostic) :
    Shelved environment shelves fun i => (states i).report diagnostic := by
  obtain ⟨course, areSame⟩ := shelved.course
  exact shelved.moved ⟨_, fun i => congrArg (fun course : Course =>
    { course with problems := course.problems.push (State.ascribe course.view.place diagnostic) })
    (areSame i)⟩ (fun _ => rfl) fun _ => rfl

/-- Where a template is loaded, all renders report what is wrong with it, or none of them does. -/
theorem reportLoaded (shelved : Shelved environment shelves states) {name source : String}
    (gives : environment.Gives name source) :
    Shelved environment shelves fun i =>
      (states i).reportLoaded (Shelf.loaded environment name source) where
  course := by
    obtain ⟨course, areSame⟩ := shelved.course
    by_cases isWrong : (environment.parse name source).problems = []
    · refine ⟨course, fun i => (areSame i).symm ▸ ?_⟩
      unfold State.reportLoaded
      split
      · rfl
      · simp [State.course, Shelf.loaded, isWrong]
    · have together := shelved.reported gives isWrong
      by_cases isReported : ∃ i, name ∈ (states i).reported
      · obtain ⟨i, isReported⟩ := isReported
        exact ⟨course, fun j =>
          (congrArg State.course (if_pos (together i j isReported))).trans (areSame j)⟩
      · exact ⟨_, fun j => (congrArg State.course (if_neg fun member => isReported ⟨j, member⟩)).trans
          (congrArg (fun course : Course => { course with
            problems := course.problems ++ ((Shelf.loaded environment name source).problems.map
              (Diagnostic.inTemplate · name)).toArray }) (areSame j))⟩
  coherent i := by
    have coherent := shelved.coherent i
    unfold State.reportLoaded
    split <;> exact coherent
  grown i := by
    have grown := shelved.grown i
    unfold State.reportLoaded
    split <;> exact grown
  reported other text isOther isWrong i j member := by
    have together := shelved.reported isOther isWrong i j
    rw [State.mem_reported_reportLoaded] at member ⊢
    exact member.imp_right together

theorem load (steady : environment.Steady) (shelved : Shelved environment shelves states)
    (name : String) :
    ∃ answer, (∀ i, ((states i).load environment name).1 = answer) ∧
      Shelved environment shelves fun i => ((states i).load environment name).2 := by
  have fetched : Shelved environment shelves fun i =>
      { states i with shelf := (Shelf.fetch environment name (states i).shelf).2 } :=
    { course := shelved.course
      coherent := fun i => (shelved.coherent i).fetch name
      grown := fun i => (shelved.grown i).trans (Shelf.within_fetch environment name _)
      reported := shelved.reported }
  rcases Shelf.gives_or_fails steady name with ⟨source, gives⟩ | ⟨fault, fails⟩
  · have answers := fun i => (shelved.coherent i).fetch_of_gives gives
    refine ⟨_, fun i => (State.load_answer _ _ _).trans (answers i), ?_⟩
    simpa only [fun i => State.load_of_ok (answers i)] using fetched.reportLoaded gives
  · have answers := fun i => fails (states i).shelf (shelved.coherent i)
    refine ⟨_, fun i => (State.load_answer _ _ _).trans (answers i), ?_⟩
    simpa only [fun i => State.load_of_error (answers i)] using fetched

/-- A template that nothing is wrong with may be loaded by some of the renders only. -/
theorem loaded (shelved : Shelved environment shelves states) {name source : String}
    (gives : environment.Gives name source)
    (isRight : (environment.parse name source).problems = []) (which : ι → Bool) :
    Shelved environment shelves fun i =>
      bif which i then ((states i).load environment name).2 else states i := by
  have isLoaded : ∀ i, ((states i).load environment name).2 = { states i with
      shelf := (Shelf.fetch environment name (states i).shelf).2
      reported := ((states i).load environment name).2.reported } := by
    intro i
    rw [State.load_of_ok ((shelved.coherent i).fetch_of_gives gives)]
    unfold State.reportLoaded
    split
    · rfl
    · simp [Shelf.loaded, isRight]
  have areReported : ∀ i other, other ≠ name → (other ∈ ((states i).load environment name).2.reported ↔
      other ∈ (states i).reported) := by
    intro i other isOther
    rw [State.load_of_ok ((shelved.coherent i).fetch_of_gives gives),
      State.mem_reported_reportLoaded]
    exact or_iff_right isOther
  obtain ⟨course, areSame⟩ := shelved.course
  constructor
  · refine ⟨course, fun i => ?_⟩
    cases which i with
    | false => exact areSame i
    | true => exact (congrArg State.course (isLoaded i)).trans (areSame i)
  · intro i
    cases which i with
    | false => exact shelved.coherent i
    | true => rw [cond_true, isLoaded i]; exact (shelved.coherent i).fetch name
  · intro i
    cases which i with
    | false => exact shelved.grown i
    | true =>
        rw [cond_true, isLoaded i]
        exact (shelved.grown i).trans (Shelf.within_fetch environment name _)
  · intro other text isOther isWrong i j
    have different : other ≠ name := by
      rintro rfl
      rw [gives.eq_of_mayGive isOther.mayGive] at isWrong
      exact isWrong isRight
    have together := shelved.reported isOther isWrong i j
    have before := areReported i other different
    have behind := areReported j other different
    cases which i <;> cases which j <;> simp only [cond_true, cond_false, before, behind] <;>
      exact together

theorem keeps (steady : environment.Steady) :
    (Accord.unbound ι environment).Keeps (Shelved environment shelves) where
  view shelved := by
    obtain ⟨course, areSame⟩ := shelved.course
    exact ⟨course.view, fun i => congrArg Course.view (areSame i)⟩
  report shelved _ := shelved.reports _
  complain {states lookup diagnostic} shelved _ := by
    change Shelved environment shelves fun i =>
      if lookup.isStrict environment.strict then (states i).report diagnostic else states i
    split
    · exact shelved.reports diagnostic
    · exact shelved
  bind name value shelved := shelved.seen fun view =>
    { view with scopes := view.scopes.bind name value }
  store {states} root path key value shelved _ := by
    obtain ⟨course, areSame⟩ := shelved.course
    simp only [State.store_eq]
    exact ⟨_, fun i => congrArg (fun course : Course =>
      (course.view.scopes.stored root path key value).1) (areSame i), shelved.seen fun view =>
        { view with scopes := (view.scopes.stored root path key value).2 }⟩
  define {states callable} name shelved _ := shelved.seen fun view =>
    { view with macros := view.macros.put name callable }
  mount {states macros} name shelved _ := shelved.seen fun view =>
    { view with namespaces := view.namespaces.put name macros }
  load name shelved _ := by
    obtain ⟨answer, areLoaded, related⟩ := shelved.load steady name
    exact ⟨answer, fun _ _ => trivial, areLoaded, related⟩
  enter {states setting} shelved _ := shelved.seen setting.enter
  leave {states afters setting} shelved _ shelvedAfter _ := by
    obtain ⟨course, areSame⟩ := shelved.course
    have before := fun i => congrArg Course.view (areSame i)
    have same : ∀ i, (states i).toView = course.view := before
    simp only [same]
    exact shelvedAfter.seen (setting.leave course.view)

theorem ticks (steady : environment.Steady) :
    (Accord.unbound ι environment).Ticks (Shelved environment shelves)
      (Shelved environment shelves) := by
  refine Accord.ticks_of_same (keeps steady) ?_ ?_ (fun shelved => ?_) fun _ _ => trivial
  · intro states shelved
    obtain ⟨course, areSame⟩ := shelved.course
    exact ⟨course.view.halted, course.steps, environment.maxSteps, fun i =>
      ⟨congrArg (·.view.halted) (areSame i), congrArg Course.steps (areSame i), rfl⟩⟩
  · intro states shelved
    obtain ⟨course, areSame⟩ := shelved.course
    exact shelved.moved ⟨_, fun i => congrArg (fun course : Course =>
      { course with steps := course.steps + 1 }) (areSame i)⟩ (fun _ => rfl) fun _ => rfl
  · exact shelved.seen fun view => { view with halted := true }

end Shelved

/-- Renders for one host go abreast in whatever relation single requests keep. -/
theorem carries_unbound {rel : (ι → State) → Prop}
    (keeps : (Accord.unbound ι environment).Keeps rel)
    (ticks : (Accord.unbound ι environment).Ticks rel rel) (leader : ι) (depth : Nat) :
    (Accord.unbound ι environment).Carries (some leader) rel fun _ => belowDepth environment depth :=
  Accord.carries_belowDepth keeps ticks leader (fun _ => alike_unbound _)
    (fun ⟨nodes, areNodes⟩ => ⟨nodes, areNodes, fun _ _ => alike_unbound _⟩)
    (fun _ => alike_unbound _) depth

/-- An action is carried out alike on coherent shelves: where one of the renders has an answer, all
of them have the same. -/
theorem abreast_unbound (steady : environment.Steady) {shelves : ι → Shelf} (leader : ι)
    (depth : Nat) (action : Action α) :
    Accord.Abreast (some leader) (Shelved environment shelves) fun (_ : ι) =>
      action.perform environment (belowDepth environment depth) :=
  have keeps := Shelved.keeps steady
  Accord.abreast_perform keeps (carries_unbound keeps (Shelved.ticks steady) leader depth)
    (alike_unbound action)

/-! ### Whole renders -/

/-- What can be seen of a render from outside, apart from the shelf. -/
def Outcome.shown (outcome : Outcome) : String × List Diagnostic := (outcome.text, outcome.problems)

theorem shelved_initial {shelves : ι → Shelf} (coherent : ∀ i, (shelves i).Coherent environment)
    (context : Table Value) :
    Shelved environment shelves fun i => State.initial context (shelves i) where
  course := ⟨(State.initial context .empty).course, fun _ => rfl⟩
  coherent := coherent
  grown i := .refl (shelves i)
  reported _ _ _ _ _ _ := id

/-- What a render of an action from some state gives. -/
def outcomeOf (environment : Environment) (depth : Nat) (action : Action String) (state : State) :
    Option Outcome :=
  (action.perform environment (belowDepth environment depth) state).map fun answer =>
    .ofState answer.1 answer.2

/-- Renders of one action that have come equally far end alike, whichever shelves they began with. -/
theorem Shelved.shown_eq (steady : environment.Steady) {shelves : ι → Shelf} {states : ι → State}
    (shelved : Shelved environment shelves states) (depth : Nat) (action : Action String) (i j : ι) :
    (outcomeOf environment depth action (states i)).map Outcome.shown =
      (outcomeOf environment depth action (states j)).map Outcome.shown := by
  have carriedOver : ∀ {i j : ι} {shown : String × List Diagnostic},
      (outcomeOf environment depth action (states i)).map Outcome.shown = some shown →
        (outcomeOf environment depth action (states j)).map Outcome.shown = some shown := by
    intro i j shown isShown
    obtain ⟨outcome, isOutcome, rfl⟩ := Option.map_eq_some_iff.mp isShown
    obtain ⟨⟨text, last⟩, isAnswer, rfl⟩ := Option.map_eq_some_iff.mp isOutcome
    obtain ⟨afters, areAfters, rfl, after⟩ :=
      (abreast_unbound steady i depth action).answer shelved isAnswer
    obtain ⟨course, areSame⟩ := after.course
    have same : (afters j).problems = (afters i).problems :=
      congrArg Course.problems ((areSame j).trans (areSame i).symm)
    simp only [outcomeOf, areAfters, Option.map_some, Outcome.shown, Outcome.ofState, same]
  exact Option.ext fun shown => ⟨carriedOver, carriedOver⟩

/-- The shelf that a render leaves is coherent and has lost nothing. -/
theorem Shelved.shelf_kept (steady : environment.Steady) {shelves : ι → Shelf} {states : ι → State}
    (shelved : Shelved environment shelves states) {depth : Nat} {action : Action String} {i : ι}
    {outcome : Outcome}
    (isOutcome : outcomeOf environment depth action (states i) = some outcome) :
    outcome.shelf.Coherent environment ∧ (shelves i).Within outcome.shelf := by
  obtain ⟨⟨text, last⟩, isAnswer, rfl⟩ := Option.map_eq_some_iff.mp isOutcome
  obtain ⟨afters, _, rfl, after⟩ :=
    (abreast_unbound steady i depth action).answer shelved isAnswer
  exact ⟨after.coherent i, after.grown i⟩

/-- Rendering a template by name is rendering it once it is loaded. -/
theorem perform_renderNamed {below : Below} {name : String} {state : State}
    {loaded : Host.Loaded} (isLoaded : (state.load environment name).1 = .ok loaded) :
    (Action.renderNamed name).perform environment below state =
      (Action.renderTemplate loaded.name loaded.template).perform environment below
        (state.load environment name).2 := by
  simp only [Action.renderNamed, Action.loadOrReport, Action.fetch, bind, Action.andThen,
    Action.perform, isLoaded]
  rfl

theorem outcomeOf_renderNamed (depth : Nat) (name : String) (state : State) {loaded : Host.Loaded}
    (isLoaded : (Shelf.fetch environment name state.shelf).1 = .ok loaded) :
    outcomeOf environment depth (Action.renderNamed name) state =
      outcomeOf environment depth (Action.renderTemplate loaded.name loaded.template)
        (state.load environment name).2 := by
  have answer := (State.load_answer environment name state).trans isLoaded
  rw [outcomeOf, perform_renderNamed answer, outcomeOf]

/-- The templates on the shelf before a render of a template by name have no influence on its text
and its reports, as long as they are what the loader gives and the loader never changes its answers.
Those on the shelf behind it are so, too, and none is lost. If nothing is wrong with the text that the
loader gives, a render of that text has the same text and the same reports. -/
theorem shelf_transparent (environment : Environment) (steady : environment.Steady) (shelf : Shelf)
    (coherent : shelf.Coherent environment) (depth : Nat) (name : String) (context : Table Value) :
    (renderNamedWithin depth environment name context shelf).map Outcome.shown =
      (renderNamedWithin depth environment name context .empty).map Outcome.shown ∧
    (∀ outcome, renderNamedWithin depth environment name context shelf = some outcome →
      outcome.shelf.Coherent environment ∧ shelf.Within outcome.shelf) ∧
    (∀ source, environment.Gives name source →
      (environment.parse name source).problems = [] →
        (renderTextWithin depth environment name source context .empty).map Outcome.shown =
          (renderNamedWithin depth environment name context shelf).map Outcome.shown) := by
  have start : Shelved environment (fun isWarm => bif isWarm then shelf else .empty) _ :=
    shelved_initial (Bool.rec (Shelf.coherent_empty environment) coherent) context
  refine ⟨start.shown_eq steady depth (Action.renderNamed name) true false, fun outcome isOutcome =>
    start.shelf_kept steady (i := true) isOutcome, fun source gives isRight => ?_⟩
  have isLoaded := coherent.fetch_of_gives gives
  have rendered := (start.loaded gives isRight id).shown_eq steady depth
    (Action.renderTemplate name (environment.parse name source).template) false true
  have named : renderNamedWithin depth environment name context shelf = _ :=
    outcomeOf_renderNamed depth name (.initial context shelf) isLoaded
  rw [named]
  refine Eq.trans ?_ rendered
  simp only [renderTextWithin, isRight, List.nil_append, Option.map_id']
  rfl

/-- An environment with a page and a part that is embedded in it. Something is wrong with the part. -/
def album : Environment :=
  Environment.empty.withLoader
    (.ofTable [("page", "\x7b% include 'part' %\x7d!"), ("part", "hi\x7b%")])

/-- The page against the shelf that loading the part leaves. -/
theorem shelf_transparent_warm :
    let shelf := (Shelf.fetch album "part" .empty).2
    let page := "\x7b% include 'part' %\x7d!"
    album.Steady ∧ shelf.Coherent album ∧ shelf.has "part" = true ∧ album.Gives "page" page ∧
      (album.parse "page" page).problems = [] ∧
      (renderNamedWithin 9 album "page" [] .empty).map (fun outcome =>
        (outcome.text, outcome.problems.length)) = some ("hi!", 2) ∧
      (renderNamedWithin 9 album "page" [] shelf).map Outcome.shown =
        (renderNamedWithin 9 album "page" [] .empty).map Outcome.shown ∧
      (renderTextWithin 9 album "page" page [] .empty).map Outcome.shown =
        (renderNamedWithin 9 album "page" [] shelf).map Outcome.shown := by
  intro shelf page
  have coherent : shelf.Coherent album := (Shelf.coherent_empty album).fetch "part"
  have steady : album.Steady := Environment.empty.steady_withLoader _
  have gives : album.Gives "page" page := steady.gives ⟨[], by decide⟩
  have isRight : (album.parse "page" page).problems = [] := by decide +kernel
  have transparent := shelf_transparent album steady shelf coherent 9 "page" []
  exact ⟨steady, coherent, rfl, gives, isRight, by decide +kernel, transparent.1,
    transparent.2.2 page gives isRight⟩

end Stencil.Render
