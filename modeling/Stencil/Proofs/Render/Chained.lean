import Stencil.Proofs.Host.Chain
import Stencil.Proofs.Render.Cache
import Stencil.Proofs.Render.Uniform

/-!
Contract: a chain of environments against the one environment that it comes to.

Owns:
- renders for hosts that give the same under all names go the same way, if no script makes anything
  of the text that shows the environment;
- renders for an environment that is built on others, for the environment with everything that it has
  or inherits, and for the others after something was registered in it.

The text that shows an environment tells whether that is built on another one, and names only what is
registered in it.

Does not own: chains of environments (`Stencil.Proofs.Host.Chain`).
-/

set_option autoImplicit false

namespace Stencil.Host.Shelf

/-- What comes of looking for a template depends on the loader and the tags of the environment. -/
theorem fetch_of_looksLike {one other : Environment} (same : one.LooksLike other) (name : String)
    (shelf : Shelf) : fetch one name shelf = fetch other name shelf := by
  simp only [fetch, loaded, Environment.parse, same.loader, same.tags]

end Stencil.Host.Shelf

namespace Stencil.Host

/-- Whether the scripts of all tags make nothing of the text that shows the environment. -/
def Environment.Undescribed (environment : Environment) : Prop :=
  environment.Overlooks Facade.ButDescription fun _ => True

end Stencil.Host

namespace Stencil.Render

open Stencil.Host (Cell Environment Kept Shelf)
open Stencil.Syntax (Template)

variable {ι α : Type}

/-! ### Hosts that look alike -/

/-- Renders for some hosts that may be asked anything. -/
abbrev Accord.lookingAlike (hosts : ι → Environment) : Accord ι :=
  .permissive hosts (fun _ => True) fun _ _ => True

/-- Whether renders have come to the same state. -/
def Coincide (states : ι → State) : Prop := ∃ state, ∀ i, states i = state

/-- What changes the state of each render in the same way keeps the states the same. -/
theorem Coincide.changed {states : ι → State} (coincide : Coincide states) (change : State → State) :
    Coincide fun i => change (states i) := by
  obtain ⟨state, same⟩ := coincide
  exact ⟨change state, fun i => congrArg change (same i)⟩

section Hosts

variable {hosts : ι → Environment} {environment : Environment}

theorem State.load_of_looksLike {one other : Environment} (same : one.LooksLike other) (name : String)
    (state : State) : state.load one name = state.load other name := by
  simp only [State.load, Shelf.fetch_of_looksLike same]

/-- Whatever renders for hosts that look alike ask, they are in the same state behind it. -/
theorem keeps_coincide (alike : ∀ i, (hosts i).LooksLike environment) :
    (Accord.lookingAlike hosts).Keeps Coincide where
  view := by
    rintro states ⟨state, same⟩
    exact ⟨state.toView, fun i => congrArg State.toView (same i)⟩
  report coincide _ := coincide.changed (·.report _)
  complain {states lookup diagnostic} coincide _ := by
    have strict : ∀ i, (hosts i).strict = environment.strict := fun i =>
      congrArg (·.strict) (alike i).terms
    change Coincide fun i =>
      if lookup.isStrict (hosts i).strict then (states i).report diagnostic else states i
    simp only [strict]
    exact coincide.changed fun state =>
      if lookup.isStrict environment.strict then state.report diagnostic else state
  bind name value coincide := coincide.changed fun state =>
    { state with scopes := state.scopes.bind name value }
  store root path key value coincide _ := by
    obtain ⟨state, same⟩ := coincide
    exact ⟨(state.store root path key value).1, fun i => congrArg
      (fun state : State => (state.store root path key value).1) (same i),
      (state.store root path key value).2, fun i => congrArg
        (fun state : State => (state.store root path key value).2) (same i)⟩
  define name coincide _ := coincide.changed fun state =>
    { state with macros := state.macros.put name _ }
  mount name coincide _ := coincide.changed fun state =>
    { state with namespaces := state.namespaces.put name _ }
  load := by
    rintro states name ⟨state, same⟩ _
    have loaded : ∀ i, (states i).load (hosts i) name = state.load environment name := fun i =>
      same i ▸ State.load_of_looksLike (alike i) name (states i)
    exact ⟨(state.load environment name).1, fun _ _ => trivial,
      fun i => congrArg Prod.fst (loaded i),
      (state.load environment name).2, fun i => congrArg Prod.snd (loaded i)⟩
  enter {states setting} coincide _ := coincide.changed fun state =>
    { state with toView := setting.enter state.toView }
  leave := by
    rintro states afters setting ⟨state, same⟩ _ coincide _
    simp only [same]
    exact coincide.changed fun after =>
      { after with toView := setting.leave state.toView after.toView }

theorem ticks_coincide (alike : ∀ i, (hosts i).LooksLike environment) :
    (Accord.lookingAlike hosts).Ticks Coincide Coincide := by
  refine Accord.ticks_of_same (keeps_coincide alike) ?_
    (·.changed fun state => { state with steps := state.steps + 1 })
    (·.changed fun state => { state with halted := true }) fun _ _ => trivial
  rintro states ⟨state, same⟩
  exact ⟨state.halted, state.steps, environment.maxSteps, fun i => same i ▸
    ⟨rfl, rfl, congrArg (·.maxSteps) (alike i).terms⟩⟩

theorem whole_lookingAlike (alike : ∀ i, (hosts i).LooksLike environment) :
    (Accord.lookingAlike hosts).Whole .any :=
  Accord.whole_permissive (fun i => (alike i).lookups) (fun _ _ => trivial) fun _ _ => trivial

/-- Where one of the renders has an answer, all of them have the same, and end in the same state. -/
theorem abreast_lookingAlike (alike : ∀ i, (hosts i).LooksLike environment)
    (undescribed : environment.Undescribed) (leader : ι) (depth : Nat) {action : Action α}
    (asks : (Accord.lookingAlike hosts).Asks action) :
    Accord.Abreast (some leader) Coincide fun i =>
      action.perform (hosts i) (belowDepth (hosts i) depth) := by
  refine Accord.abreast_perform (keeps_coincide alike) ?_ asks
  refine Accord.carries_permissive (whole_lookingAlike alike) (keeps_coincide alike)
    (ticks_coincide alike) leader (fun {name renderer} isRenderer tag => ?_) depth
  have isOwn : environment.renderer? name = some renderer :=
    (congrArg (·.renderer? name) (alike leader).lookups).symm.trans isRenderer
  exact Accord.permits_of_overlooks (undescribed isOwn tag) (fun _ _ => trivial) environment.facade
    fun i => (alike i).butDescription

end Hosts

/-! ### Whole renders -/

/-- An action that renders for hosts that look alike may be asked is carried out alike for two of
them. -/
theorem perform_of_looksLike {one other : Environment} (same : one.LooksLike other)
    (undescribed : other.Undescribed) (depth : Nat) {action : Action α} (asks : ∀ {hosts : Bool → Environment}, (∀ i, (hosts i).LooksLike other) →
      (Accord.lookingAlike hosts).Asks action) (state : State) :
    action.perform one (belowDepth one depth) state =
      action.perform other (belowDepth other depth) state := by
  let hosts (isOne : Bool) : Environment := bif isOne then one else other
  have alike : ∀ i, (hosts i).LooksLike other := Bool.rec (.refl other) same
  have carriedOver : ∀ (leader : Bool) {answer : α × State},
      action.perform (hosts leader) (belowDepth (hosts leader) depth) state = some answer →
        ∀ i, action.perform (hosts i) (belowDepth (hosts i) depth) state = some answer := by
    intro leader answer isAnswer i
    have coincide : Coincide fun _ : Bool => state := ⟨state, fun _ => rfl⟩
    obtain ⟨afters, areAfters, isAfter, last, areSame⟩ :=
      (abreast_lookingAlike alike undescribed leader depth (asks alike)).answer coincide isAnswer
    rw [areAfters i, areSame i, ← areSame leader, isAfter]
  exact Option.ext fun answer => ⟨fun isAnswer => carriedOver true isAnswer false,
    fun isAnswer => carriedOver false isAnswer true⟩

/-- Whether all renders for two environments are the same: their texts, their reports and the
templates they leave on the shelf, at any depth. -/
structure RendersLike (one other : Environment) : Prop where
  named : ∀ (depth : Nat) (name : String) (context : Table Value) (shelf : Shelf),
    renderNamedWithin depth one name context shelf = renderNamedWithin depth other name context shelf
  template : ∀ (depth : Nat) (template : Template) (context : Table Value) (shelf : Shelf),
    renderTemplateWithin depth one template context shelf =
      renderTemplateWithin depth other template context shelf
  text : ∀ (depth : Nat) (name source : String) (context : Table Value) (shelf : Shelf),
    renderTextWithin depth one name source context shelf =
      renderTextWithin depth other name source context shelf

theorem RendersLike.refl (environment : Environment) : RendersLike environment environment :=
  ⟨fun _ _ _ _ => rfl, fun _ _ _ _ => rfl, fun _ _ _ _ _ => rfl⟩

/-- Renders depend on what is registered under each name, and not on where it is registered, unless a
script makes something of the text that shows the environment. -/
theorem rendersLike_of_looksLike {one other : Environment} (same : one.LooksLike other)
    (undescribed : other.Undescribed) : RendersLike one other := by
  have template (depth : Nat) (template : Template) (context : Table Value) (shelf : Shelf) :
      renderTemplateWithin depth one template context shelf =
        renderTemplateWithin depth other template context shelf :=
    congrArg (Option.map _) (perform_of_looksLike same undescribed depth (fun alike =>
      (whole_lookingAlike alike).renderTemplate _ fun _ _ => trivial) (.initial context shelf))
  refine ⟨fun depth name context shelf => ?_, template, fun depth name source context shelf => ?_⟩
  · exact congrArg (Option.map _) (perform_of_looksLike same undescribed depth
      (fun alike => (whole_lookingAlike alike).renderNamed trivial name) (.initial context shelf))
  · have sameParse : one.parse name source = other.parse name source := by
      rw [Environment.parse, same.tags, Environment.parse]
    simp only [renderTextWithin, sameParse, template]

/-- All renders for an environment that is built on others are those for the environment without a
parent that has the closest entry of each name in the chain, the closest loader, and the tags and
settings of the first, if no script of a tag makes anything of the text that shows the environment.
Whatever is registered in it, the renders for all environments that it is built on stay as they
were, whatever the scripts do. -/
theorem chain_flattens {size : Nat} (kept : Kept size) (methods : Table Host.Method)
    (address : Fin size) :
    ((kept.environment methods address).Undescribed →
      RendersLike (kept.environment methods address)
        (kept.environment methods address).flattened) ∧
    ∀ (change : Cell → Cell), ∀ ancestor ∈ kept.ancestors address,
      RendersLike ((kept.update address change).environment methods ancestor)
        (kept.environment methods ancestor) := by
  constructor
  · intro undescribed
    have same := (kept.environment methods address).looksLike_flattened
    apply rendersLike_of_looksLike same
    intro name renderer isRenderer
    exact undescribed ((congrArg (·.renderer? name) same.lookups).trans isRenderer)
  · intro change ancestor isAncestor
    rw [kept.environment_update change (kept.lt_of_mem_ancestors isAncestor)]
    exact .refl _

/-- Registers a value that templates know as the site, and a tag that prints what comes of looking at
the environment. -/
def sited (site : String) (print : Host.Facade → String) (cell : Cell) : Cell :=
  { cell with own := { cell.own with
    globals := cell.own.globals.put "site" (.text site)
    renderers := cell.own.renderers.put "show" fun _ => .survey fun facade => .done (print facade) } }

/-- An environment with a site, and a child of it. -/
def siblings (print : Host.Facade → String) : Kept 2 :=
  ((Kept.more .empty ⟨.empty, ⟨.none, none⟩, .empty⟩ none).update 0 (sited "old" print)).child 0

/-- A template that prints the site, and what the tag prints. -/
def siteMap : Template :=
  ⟨none, [.output (.name "site" default) default, .custom "show" [] none default], default⟩

/-- What a tag prints that looks for the site in the environment. -/
def shownSite (facade : Host.Facade) : String := ((facade.global? "site").getD .nil).display

/-- A child of an environment with a site, before and after it gets a site of its own. -/
theorem chain_flattens_site :
    let kept := siblings shownSite
    let renamed := kept.update 1 (sited "new" shownSite)
    let text (environment : Environment) :=
      (renderTemplateWithin 9 environment siteMap [] .empty).map Outcome.text
    (0 : Fin 2) ∈ kept.ancestors 1 ∧
      (renamed.environment [] 1).Undescribed ∧
      text (kept.environment [] 1) = some "oldold" ∧
      text (renamed.environment [] 1) = some "newnew" ∧
      text (renamed.environment [] 1).flattened = some "newnew" ∧
      text (renamed.environment [] 0) = some "oldold" := by
  intro kept renamed text
  have isAncestor : (0 : Fin 2) ∈ kept.ancestors 1 := List.mem_singleton.mpr rfl
  have undescribed : (renamed.environment [] 1).Undescribed := by
    intro name renderer isRenderer tag
    let shows : Host.TagRenderer := fun _ => .survey fun facade => .done (shownSite facade)
    have found : (renamed.environment [] 1).renderer? name =
        [[("show", shows)], [("show", shows)]].findSome? (Table.lookup? · name) := rfl
    rw [found] at isRenderer
    by_cases isShow : "show" = name
    · subst isShow
      obtain rfl : shows = renderer := Option.some.inj isRenderer
      apply Host.TagScript.Overlooks.survey
      · rintro facade _ ⟨description, rfl⟩
        rfl
      · exact fun _ => .done _
    · simp [Table.lookup?, isShow] at isRenderer
  have isNew : text (renamed.environment [] 1) = some "newnew" := by decide +kernel
  have isOld : text (kept.environment [] 0) = some "oldold" := by decide +kernel
  have flat := (chain_flattens renamed [] 1).1 undescribed
  have stays := (chain_flattens kept [] 1).2 (sited "new" shownSite) 0 isAncestor
  refine ⟨isAncestor, undescribed, by decide +kernel, isNew, ?_, ?_⟩
  · exact (congrArg (Option.map Outcome.text) (flat.template 9 _ [] .empty)).symm.trans isNew
  · exact (congrArg (Option.map Outcome.text) (stays.template 9 _ [] .empty)).trans isOld

/-- A tag that prints the text which shows the environment tells a child from the environment without
a parent that has all the child has. -/
theorem chain_shows :
    let child := (siblings Host.Facade.description).environment [] 1
    (renderTemplateWithin 9 child siteMap [] .empty).map Outcome.text ≠
      (renderTemplateWithin 9 child.flattened siteMap [] .empty).map Outcome.text := by
  decide +kernel

end Stencil.Render
