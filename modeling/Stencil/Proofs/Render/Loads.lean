import Stencil.Proofs.Render.Cache
import Stencil.Proofs.Render.Guarded
import Stencil.Proofs.Render.Occurrence
import Mathlib.Data.Set.Card

/-!
Contract: the templates that are being rendered.

Owns:
- shelves on which templates stand under their own names, and what they grow to;
- what holds of the templates being rendered wherever a render stands: they are different, all but the
  first have been loaded, and there are no more of them than templates that can be had, and one.

Does not own: where renders go into templates (`Stencil.Proofs.Render.Guarded`).
-/

set_option autoImplicit false

namespace Stencil.Host.Shelf

/-- Whether all templates on a shelf stand under their own names. -/
def Titled (shelf : Shelf) : Prop :=
  ∀ ⦃name : String⦄ ⦃entry : Loaded⦄, shelf.templates.lookup? name = some entry → entry.name = name

/-- Whether there is a template of a name: it stands on a shelf, or the loader gives a text for it at
one time or another. -/
def Offers (environment : Environment) (shelf : Shelf) (name : String) : Prop :=
  shelf.has name = true ∨ ∃ source, environment.MayGive name source

variable {environment : Environment} {shelf : Shelf}

theorem Coherent.titled (coherent : shelf.Coherent environment) : shelf.Titled := by
  intro name entry isFound
  obtain ⟨source, _, rfl⟩ := coherent isFound
  rfl

/-- A coherent shelf offers nothing that the loader does not give. -/
theorem Coherent.offers_iff (coherent : shelf.Coherent environment) (name : String) :
    Offers environment shelf name ↔ ∃ source, environment.MayGive name source := by
  refine ⟨Or.rec (fun isThere => ?_) id, .inr⟩
  obtain ⟨entry, isFound⟩ := Option.isSome_iff_exists.mp isThere
  obtain ⟨source, mayGive, _⟩ := coherent isFound
  exact ⟨source, mayGive⟩

theorem Titled.name_of_fetch (titled : shelf.Titled) {name : String} {entry : Loaded}
    (isFetched : (fetch environment name shelf).1 = .ok entry) : entry.name = name := by
  rcases fetch_eq_ok isFetched with isFound | ⟨-, source, _, rfl⟩
  · exact titled isFound
  · rfl

/-- Whether a shelf can have grown to another one while templates were looked for. -/
structure Grows (environment : Environment) (shelf larger : Shelf) : Prop where
  within : shelf.Within larger
  titled : shelf.Titled → larger.Titled
  offers : ∀ name, Offers environment larger name → Offers environment shelf name

theorem Grows.refl (environment : Environment) (shelf : Shelf) : Grows environment shelf shelf :=
  ⟨.refl shelf, id, fun _ => id⟩

theorem Grows.trans {larger largest : Shelf} (one : Grows environment shelf larger)
    (two : Grows environment larger largest) : Grows environment shelf largest :=
  ⟨one.within.trans two.within, fun titled => two.titled (one.titled titled),
    fun name offers => one.offers name (two.offers name offers)⟩

theorem Grows.has {larger : Shelf} (grows : Grows environment shelf larger) {name : String}
    (isThere : shelf.has name = true) : larger.has name = true := by
  obtain ⟨entry, isFound⟩ := Option.isSome_iff_exists.mp isThere
  exact Option.isSome_iff_exists.mpr ⟨entry, grows.within isFound⟩

theorem grows_fetch (environment : Environment) (name : String) (shelf : Shelf) :
    Grows environment shelf (fetch environment name shelf).2 where
  within := within_fetch environment name shelf
  titled titled key entry isFound := by
    rcases lookup?_fetch_or environment shelf key name with same | ⟨rfl, other, isFetched⟩
    · exact titled (same ▸ isFound)
    · rw [lookup?_fetch isFetched] at isFound
      cases isFound
      exact titled.name_of_fetch isFetched
  offers key offered := by
    refine offered.elim (fun isThere => ?_) .inr
    rcases lookup?_fetch_or environment shelf key name with same | ⟨rfl, entry, isFetched⟩
    · exact .inl ((congrArg Option.isSome same).symm.trans isThere)
    · rcases fetch_eq_ok isFetched with isFound | ⟨-, source, mayGive, _⟩
      · exact .inl (Option.isSome_iff_exists.mpr ⟨entry, isFound⟩)
      · exact .inr ⟨source, mayGive⟩

end Stencil.Host.Shelf

namespace Stencil.Render

open Stencil.Host (Environment Shelf)
open Stencil.Syntax (Expr Node Template)
open Stencil.Text (Span)

variable {α β : Type} {environment : Environment} {shelf : Shelf}

/-! ### The shelf of a render -/

theorem State.shelf_tick (state : State) (maxSteps : Option Nat) (span : Span) :
    (state.tick maxSteps span).2.shelf = state.shelf := by
  unfold State.tick
  split
  · rfl
  · dsimp only
    split
    · rfl
    · split <;> rfl

/-- Only loading changes the shelf. -/
theorem keeps_grows (environment : Environment) (start : Shelf) :
    (Accord.unbound Unit environment).Keeps fun states =>
      Shelf.Grows environment start (states ()).shelf where
  view {states} _ := ⟨(states ()).toView, fun _ => rfl⟩
  report grows _ := grows
  complain {states lookup diagnostic} grows _ := by
    dsimp only
    split <;> exact grows
  bind _ _ grows := grows
  store {states} root path key value grows _ := by
    refine ⟨((states ()).store root path key value).1, fun _ => rfl, ?_⟩
    dsimp only
    rw [State.store_eq]
    exact grows
  define _ grows _ := grows
  mount _ grows _ := grows
  load {states} name grows _ := by
    refine ⟨((states ()).load environment name).1, fun _ _ => trivial, fun _ => rfl, ?_⟩
    have isShelf := State.shelf_load environment name (states ())
    exact grows.trans (isShelf ▸ Shelf.grows_fetch environment name (states ()).shelf)
  enter grows _ := grows
  leave _ _ grows _ := grows

theorem ticks_grows (environment : Environment) (start : Shelf) :
    (Accord.unbound Unit environment).Ticks
    (fun states => Shelf.Grows environment start (states ()).shelf)
    fun states => Shelf.Grows environment start (states ()).shelf :=
  Accord.ticks_of_same (keeps_grows environment start)
    (fun {states} _ => ⟨(states ()).halted, (states ()).steps, environment.maxSteps,
      fun _ => ⟨rfl, rfl, rfl⟩⟩) id id fun _ _ => trivial

/-- Behind an action the shelf has grown. -/
theorem grows_perform (depth : Nat) {action : Action α} {state after : State} {answer : α}
    (performed : action.perform environment (belowDepth environment depth) state =
      some (answer, after)) : Shelf.Grows environment state.shelf after.shelf := by
  have keeps := keeps_grows environment state.shelf
  have abreast := Accord.abreast_perform keeps
    (carries_unbound keeps (ticks_grows environment state.shelf) () depth) (alike_unbound action)
  obtain ⟨afters, _, rfl, grows⟩ := @Accord.Abreast.answer _ _ _ _ _ abreast (fun _ => state)
    (.refl environment state.shelf) _ _ performed
  exact grows

/-! ### Wherever a render stands -/

/-- Whether what a render is about to do goes into open templates only. -/
def Task.Guarded (environment : Environment) (had : String → Prop) (loads : List String) :
    Task → Prop
  | .action next => next.Guarded environment had loads
  | .statements _ => True

/-- What holds of the templates being rendered wherever a render stands. -/
structure Distinct (environment : Environment) (shelf : Shelf) (task : Task) (state : State) :
    Prop where
  grows : Shelf.Grows environment shelf state.shelf
  nodup : state.place.loads.Nodup
  loaded : ∀ name ∈ state.place.loads.dropLast, state.shelf.has name = true
  guarded : task.Guarded environment (state.shelf.has · = true) state.place.loads

/-- Whether a guard that an action is under speaks of a state. -/
structure Agrees (had : String → Prop) (loads : List String) (state : State) : Prop where
  titled : state.shelf.Titled
  had : ∀ name, had name → state.shelf.has name = true
  loads : state.place.loads = loads

section Agrees

variable {had : String → Prop} {loads : List String} {state after : State} {depth : Nat}

theorem Agrees.perform (agrees : Agrees had loads state) {action : Action α} {answer : α}
    (performed : action.perform environment (belowDepth environment depth) state =
      some (answer, after)) : Agrees had loads after := by
  have grows := grows_perform depth performed
  exact ⟨grows.titled agrees.titled, fun name member => grows.has (agrees.had name member),
    (balanced_perform depth performed).place ▸ agrees.loads⟩

theorem Agrees.load (agrees : Agrees had loads state) (name : String) :
    Agrees had loads (state.load environment name).2 := by
  have isShelf := State.shelf_load environment name state
  have grows := isShelf ▸ Shelf.grows_fetch environment name state.shelf
  exact ⟨grows.titled agrees.titled, fun other member => grows.has (agrees.had other member),
    (congrArg (·.place.loads) (State.toView_load environment name state)).trans agrees.loads⟩

/-- A template that is loaded has the name that it was asked for by, and stands on the shelf. -/
theorem Agrees.loaded (agrees : Agrees had loads state) {name : String} {loaded : Host.Loaded}
    (isLoaded : (state.load environment name).1 = .ok loaded) :
    loaded.name = name ∧
      Agrees (fun other => other = name ∨ had other) loads (state.load environment name).2 := by
  have isFetched := (State.load_answer environment name state).symm.trans isLoaded
  have after : Agrees had loads (state.load environment name).2 := agrees.load name
  refine ⟨agrees.titled.name_of_fetch isFetched, after.titled, ?_, after.loads⟩
  rintro other (rfl | isHad)
  · rw [Shelf.has, State.shelf_load, Table.has, Shelf.lookup?_fetch isFetched]
    rfl
  · exact after.had other isHad

/-- The rest of a guarded sequence is guarded behind the first part of it. -/
theorem guarded_next {first : Action α} {rest : α → Action β} {answer : α}
    (agrees : Agrees had loads state)
    (guarded : (first.andThen rest).Guarded environment had loads)
    (performed : first.perform environment (belowDepth environment depth) state =
      some (answer, after)) :
    (rest answer).Guarded environment (after.shelf.has · = true) loads := by
  induction first generalizing had state with
  | done answer =>
      cases performed
      exact guarded.mono agrees.had
  | eval expr next inductionHypothesis =>
      rw [Action.perform_eval] at performed
      obtain ⟨middle, isMiddle, performed⟩ := Option.bind_eq_some_iff.mp performed
      rw [← Action.perform_valueOf] at isMiddle
      exact inductionHypothesis middle.1 (agrees.perform isMiddle) (guarded middle.1) performed
  | render nodes next inductionHypothesis =>
      rw [Action.perform_render] at performed
      obtain ⟨middle, isMiddle, performed⟩ := Option.bind_eq_some_iff.mp performed
      rw [← Action.perform_textOf] at isMiddle
      exact inductionHypothesis middle.1 (agrees.perform isMiddle) (guarded middle.1) performed
  | ascend overrides parent next inductionHypothesis =>
      rw [Action.perform_ascend] at performed
      obtain ⟨middle, isMiddle, performed⟩ := Option.bind_eq_some_iff.mp performed
      rw [← Action.perform_ascent] at isMiddle
      exact inductionHypothesis middle.1 (agrees.perform isMiddle) (guarded middle.1) performed
  | look next inductionHypothesis =>
      exact inductionHypothesis _ agrees (guarded _ agrees.loads) performed
  | consult next inductionHypothesis | survey next inductionHypothesis =>
      exact inductionHypothesis _ agrees guarded performed
  | report diagnostic next inductionHypothesis =>
      have reported : Agrees had loads (state.report diagnostic) := ⟨agrees.1, agrees.2, agrees.3⟩
      exact inductionHypothesis reported guarded performed
  | complain lookup diagnostic next inductionHypothesis =>
      rw [Action.perform] at performed
      split at performed
      · have reported : Agrees had loads (state.report diagnostic) := ⟨agrees.1, agrees.2, agrees.3⟩
        exact inductionHypothesis reported guarded performed
      · exact inductionHypothesis agrees guarded performed
  | bindName name value next inductionHypothesis =>
      have bound : Agrees had loads { state with scopes := state.scopes.bind name value } :=
        ⟨agrees.1, agrees.2, agrees.3⟩
      exact inductionHypothesis bound guarded performed
  | store root path key value next inductionHypothesis =>
      have stored : Agrees had loads (state.store root path key value).2 := by
        rw [State.store_eq]
        exact ⟨agrees.1, agrees.2, agrees.3⟩
      exact inductionHypothesis _ stored (guarded _) performed
  | define name callable next inductionHypothesis =>
      have defined : Agrees had loads { state with macros := state.macros.put name callable } :=
        ⟨agrees.1, agrees.2, agrees.3⟩
      exact inductionHypothesis defined guarded performed
  | mount name macros next inductionHypothesis =>
      have mounted : Agrees had loads
          { state with namespaces := state.namespaces.put name macros } :=
        ⟨agrees.1, agrees.2, agrees.3⟩
      exact inductionHypothesis mounted guarded performed
  | load name next inductionHypothesis =>
      cases isAnswer : (state.load environment name).1 with
      | error fault =>
          simp only [Action.perform, isAnswer] at performed
          exact inductionHypothesis _ (agrees.load name) (guarded.1 fault) performed
      | ok loaded =>
          simp only [Action.perform, isAnswer] at performed
          obtain ⟨isName, agreesAfter⟩ := agrees.loaded isAnswer
          exact inductionHypothesis _ agreesAfter (guarded.2 loaded isName) performed
  | within setting inner next _ nextHypothesis =>
      rw [Action.perform_within] at performed
      obtain ⟨middle, isMiddle, performed⟩ := Option.bind_eq_some_iff.mp performed
      have left : Agrees had loads
          { middle.2 with toView := setting.leave state.toView middle.2.toView } :=
        agrees.perform (Action.perform_inSetting_of_inner isMiddle)
      exact nextHypothesis middle.1 left (guarded.2.2 middle.1) performed

end Agrees

namespace Distinct

variable {task next : Task} {state after : State}

/-- What is behind a state with the same templates being rendered. -/
theorem moved (distinct : Distinct environment shelf task state) (place : after.place = state.place)
    (grows : Shelf.Grows environment state.shelf after.shelf)
    (guarded : next.Guarded environment (after.shelf.has · = true) after.place.loads) :
    Distinct environment shelf next after where
  grows := distinct.grows.trans grows
  nodup := place ▸ distinct.nodup
  loaded name member := grows.has (distinct.loaded name (place ▸ member))
  guarded := guarded

theorem ticked (distinct : Distinct environment shelf task state) {span : Span}
    (isTicked : (state.tick environment.maxSteps span).2 = after)
    (guarded : next.Guarded environment (after.shelf.has · = true) after.place.loads) :
    Distinct environment shelf next after := by
  have place := congrArg Standing.place (State.standing_tick state environment.maxSteps span)
  have isShelf := State.shelf_tick state environment.maxSteps span
  rw [isTicked] at place isShelf
  exact distinct.moved place (isShelf ▸ .refl environment state.shelf) guarded

/-- Inside an open setting the templates being rendered are different, too. -/
theorem entered {α : Type} {setting : Setting} {inner : Action α}
    (distinct : Distinct environment shelf (.action (Action.inSetting setting inner)) state) :
    Distinct environment shelf (.action inner)
      { state with toView := setting.enter state.toView } := by
  obtain ⟨grows, nodup, loaded, isOpen, guarded, _⟩ := distinct
  have isPlace : (setting.enter state.toView).place = setting.place state.place := rfl
  refine ⟨grows, ?_, ?_, ?_⟩
  · rw [isPlace, Setting.loads_place]
    cases setting with
    | template name => exact List.nodup_cons.mpr ⟨isOpen.1, nodup⟩
    | _ => exact nodup
  · rw [isPlace, Setting.loads_place]
    cases setting with
    | template name =>
        change ∀ other ∈ (name :: state.place.loads).dropLast, state.shelf.has other = true
        rcases isOpen.2 with isFirst | isHad
        · rw [isFirst]
          exact nofun
        · cases areLoads : state.place.loads with
          | nil => exact nofun
          | cons first rest =>
              rw [List.dropLast_cons_cons, ← areLoads, List.forall_mem_cons]
              exact ⟨isHad, loaded⟩
    | _ => exact loaded
  · rw [isPlace, Setting.loads_place]
    exact guarded

/-- Each step of a render keeps what holds of the templates being rendered. -/
theorem step (titled : shelf.Titled) (distinct : Distinct environment shelf task state)
    (leads : Leads environment task state next after) :
    Distinct environment shelf next after := by
  cases leads with
  | first => exact { distinct with guarded := distinct.guarded.of_andThen }
  | next depth performed =>
      have place := (balanced_perform depth performed).place
      have agrees : Agrees _ _ state := ⟨distinct.grows.titled titled, fun _ => id, rfl⟩
      exact distinct.moved place (grows_perform depth performed)
        (place ▸ guarded_next agrees distinct.guarded performed)
  | eval => exact { distinct with guarded := Action.guarded_evaluate _ }
  | ascend => exact { distinct with guarded := Action.guarded_ascendTo _ _ }
  | within => exact distinct.entered
  | render => exact { distinct with guarded := trivial }
  | statement isTicked =>
      exact distinct.ticked (congrArg Prod.snd isTicked) (Action.guarded_carryOut _)
  | @rest node rest _ ticked _ text depth isTicked performed =>
      have before : Distinct environment shelf (.action (Action.carryOut node)) ticked :=
        distinct.ticked (congrArg Prod.snd isTicked) (Action.guarded_carryOut _)
      exact before.moved (balanced_perform depth performed).place (grows_perform depth performed)
        trivial

theorem initial (context : Table Value) (shelf : Shelf)
    (guarded : task.Guarded environment (shelf.has · = true) []) :
    Distinct environment shelf task (.initial context shelf) :=
  ⟨.refl environment shelf, List.nodup_nil, nofun, guarded⟩

theorem of_occurs (titled : shelf.Titled) (occurs : Occurs environment shelf task state) :
    Distinct environment shelf task state := by
  induction occurs with
  | template name template context =>
      exact .initial context shelf
        (Action.guarded_renderTemplate template List.not_mem_nil (.inl rfl))
  | named name context => exact .initial context shelf (Action.guarded_renderNamed name)
  | step _ leads inductionHypothesis => exact inductionHypothesis.step titled leads

/-- There are no more templates being rendered than different names of which all but one are in a
set. -/
theorem length_le (distinct : Distinct environment shelf task state) {names : Set String}
    (offered : ∀ name, Shelf.Offers environment shelf name → name ∈ names) :
    (state.place.loads.length : ℕ∞) ≤ 1 + names.encard := by
  have nodup : state.place.loads.dropLast.Nodup :=
    distinct.nodup.sublist (List.dropLast_sublist _)
  have isWithin : (state.place.loads.dropLast.toFinset : Set String) ⊆ names := by
    intro name member
    have isThere := distinct.loaded name (List.mem_toFinset.mp member)
    exact offered name (distinct.grows.offers name (.inl isThere))
  have isCount : ((state.place.loads.dropLast.toFinset : Set String)).encard =
      (state.place.loads.length - 1 : ℕ) := by
    rw [Set.encard_coe_eq_coe_finsetCard, List.toFinset_card_of_nodup nodup, List.length_dropLast]
  calc (state.place.loads.length : ℕ∞)
      ≤ (1 + (state.place.loads.length - 1) : ℕ) := by exact_mod_cast (by omega)
    _ = 1 + ((state.place.loads.dropLast.toFinset : Set String)).encard := by rw [isCount]; rfl
    _ ≤ 1 + names.encard := by gcongr

end Distinct

/-- Wherever a render stands, the templates being rendered are different. All of them but the first
one have been loaded: they stand on the shelf under their names, where nothing is put that could not
be loaded, and are found there. So there are no more of them than templates that can be had, and one;
and where all that stands on the shelf to begin with is what the loader gives, than names it gives
texts for, and one. A render never goes into a template that it is in. -/
theorem loads_distinct {shelf : Shelf} (titled : shelf.Titled) {task : Task} {state : State}
    (occurs : Occurs environment shelf task state) :
    state.place.loads.Nodup ∧
    (∀ name ∈ state.place.loads.dropLast, state.shelf.has name = true ∧
      ∃ loaded : Host.Loaded, loaded.name = name ∧
        state.shelf.templates.lookup? name = some loaded ∧
        (Shelf.fetch environment name state.shelf).1 = .ok loaded) ∧
    state.place.loads.length ≤ 1 + {name | Shelf.Offers environment shelf name}.encard ∧
    (shelf.Coherent environment → state.place.loads.length ≤
      1 + {name | ∃ source, environment.MayGive name source}.encard) ∧
    ∀ {α : Type} (name : String) (inner : Action α),
      task = .action (Action.inSetting (.template name) inner) → name ∉ state.place.loads := by
  have distinct := Distinct.of_occurs titled occurs
  refine ⟨distinct.nodup, fun name member => ?_, distinct.length_le fun _ => id,
    fun coherent => distinct.length_le fun name => (coherent.offers_iff name).mp, ?_⟩
  · have isThere := distinct.loaded name member
    obtain ⟨loaded, isFound⟩ := Option.isSome_iff_exists.mp isThere
    exact ⟨isThere, loaded, distinct.grows.titled titled isFound, isFound,
      Shelf.fetch_of_lookup? isFound⟩
  · rintro α name inner rfl
    exact distinct.guarded.1.1

/-- Inside a part that a page renders in place of a tag, the part and the page are being rendered. -/
theorem loads_distinct_part :
    let part : Template := ⟨none, [.text "hi" default], default⟩
    let page : Template := ⟨none, [.embed (.literal (.text "part") default) true false default], default⟩
    let shelf : Shelf := ⟨[("part", ⟨"part", "hi", part, []⟩)], []⟩
    ∃ state : State, shelf.Titled ∧
      Occurs .empty shelf (.action (Action.renderTemplate "page" page)) (.initial [] shelf) ∧
      Occurs .empty shelf (.action (Action.textOf part.body)) state ∧
      state.place.loads = ["part", "page"] ∧ state.place.loads.Nodup ∧
      state.shelf.has "part" = true := by
  intro part page shelf
  have titled : shelf.Titled := by
    intro name entry isFound
    have member := Table.mem_of_lookup? isFound
    cases List.mem_singleton.mp member
    rfl
  have start : Occurs .empty shelf _ _ := .template "page" page []
  have onPage := ((start.step .within).step (.next 0 rfl)).step .render
  have tag := onPage.step (.statement rfl)
  have candidate := (tag.step (.next 1 rfl)).step .first
  have isLoaded := (candidate.step (.next 0 rfl)).step (.next 0 rfl)
  have onPart := ((isLoaded.step .first).step .within).step .within
  have inPart := onPart.step (.next 0 rfl)
  have distinct := loads_distinct titled inPart
  exact ⟨_, titled, start, inPart, rfl, distinct.1, (distinct.2.1 "part" List.mem_cons_self).1⟩

end Stencil.Render
