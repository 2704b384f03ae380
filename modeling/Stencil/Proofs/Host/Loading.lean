import Stencil.Host.Shelf

/-!
Contract: what comes of looking for a template.

Owns:
- the texts that a loader gives for a name: always, at some time, or when it was asked for others
  before, those that it has given, and loaders that never change their answers;
- what looking for a template comes to, case by case;
- shelves whose templates are those that the loader gives, and shelves on which the same is found.

A loader may refuse a text at one time and give it at another.

Does not own: renders that look for templates (`Stencil.Proofs.Render.Cache`).
-/

set_option autoImplicit false

namespace Stencil.Host

namespace Environment

variable {environment : Environment} {name source : String}

/-- The text that an environment's loader gives for a name once it was asked for others, the latest
first. -/
def text? (environment : Environment) (before : List String) (name : String) : Option String :=
  environment.loader?.bind fun loader => (loader before name).toOption

/-- Whether the loader gives a text for a name, whatever it was asked for before. -/
def Gives (environment : Environment) (name source : String) : Prop :=
  ∀ before, environment.text? before name = some source

/-- Whether the loader gives a text for a name, at one time or another. -/
def MayGive (environment : Environment) (name source : String) : Prop :=
  ∃ before, environment.text? before name = some source

/-- Whether the loader never changes its answers. -/
def Steady (environment : Environment) : Prop :=
  ∀ ⦃loader : Loader⦄, environment.loader? = some loader →
    ∀ before name, loader before name = loader [] name

/-- The texts that the loader has given for the names that it was asked for, the latest first. Which
of them it gave a text for depends on the ones that it was asked for before. -/
def granted (environment : Environment) : List String → List (String × String)
  | [] => []
  | name :: before =>
      match environment.text? before name with
      | none => environment.granted before
      | some source => (name, source) :: environment.granted before

theorem granted_of_none {before : List String} (isNone : environment.text? before name = none) :
    environment.granted (name :: before) = environment.granted before := by
  rw [granted, isNone]

theorem granted_of_some {before : List String}
    (isText : environment.text? before name = some source) :
    environment.granted (name :: before) = (name, source) :: environment.granted before := by
  rw [granted, isText]

theorem Gives.mayGive (gives : environment.Gives name source) : environment.MayGive name source :=
  ⟨[], gives []⟩

theorem Gives.eq_of_mayGive (gives : environment.Gives name source) {other : String}
    (mayGive : environment.MayGive name other) : other = source := by
  obtain ⟨before, isText⟩ := mayGive
  exact Option.some.inj (isText.symm.trans (gives before))

theorem Steady.gives (steady : environment.Steady) (mayGive : environment.MayGive name source) :
    environment.Gives name source := by
  intro now
  obtain ⟨before, isText⟩ := mayGive
  obtain ⟨loader, isLoader, isText⟩ := Option.bind_eq_some_iff.mp isText
  rw [steady isLoader] at isText
  rw [text?, isLoader, Option.bind_some, steady isLoader, isText]

/-- An environment with a loader that is told to be steady has one. -/
theorem steady_withLoader (environment : Environment) (answer : String → Except LoadFault String) :
    (environment.withLoader (Loader.steady answer)).Steady := by
  intro loader isLoader before name
  cases isLoader
  rfl

end Environment

namespace Shelf

variable {environment : Environment} {shelf : Shelf} {name : String}

/-! ### What looking for a template comes to -/

/-- What can come of looking for a template: it stands on the shelf, or the loader, asked for it if
there is one, gives no text, or it gives a text and the template is put on the shelf. -/
inductive Fetches (environment : Environment) (name : String) (shelf : Shelf) :
    Except LoadFault Loaded × Shelf → Prop where
  | found {entry : Loaded} (isFound : shelf.templates.lookup? name = some entry) :
      Fetches environment name shelf (.ok entry, shelf)
  | denied {fault : LoadFault} {asked : List String} (isNew : shelf.templates.lookup? name = none)
      (isNone : environment.text? shelf.asked name = none)
      (areAsked : asked = shelf.asked ∨ asked = name :: shelf.asked) :
      Fetches environment name shelf (.error fault, { shelf with asked := asked })
  | given {source : String} (isNew : shelf.templates.lookup? name = none)
      (isText : environment.text? shelf.asked name = some source) :
      Fetches environment name shelf (.ok (loaded environment name source),
        ⟨shelf.templates.put name (loaded environment name source), name :: shelf.asked⟩)

theorem fetches (environment : Environment) (name : String) (shelf : Shelf) :
    Fetches environment name shelf (fetch environment name shelf) := by
  unfold fetch
  cases isFound : shelf.templates.lookup? name with
  | some entry => exact .found isFound
  | none =>
      cases isLoader : environment.loader? with
      | none => exact .denied isFound (by rw [Environment.text?, isLoader]; rfl) (.inl rfl)
      | some loader =>
          have isText : environment.text? shelf.asked name = (loader shelf.asked name).toOption := by
            rw [Environment.text?, isLoader, Option.bind_some]
          dsimp only
          cases isSource : loader shelf.asked name with
          | error fault => exact .denied isFound (by rw [isText, isSource]; rfl) (.inr rfl)
          | ok source => exact .given isFound (by rw [isText, isSource]; rfl)

theorem fetch_of_lookup? {entry : Loaded} (isFound : shelf.templates.lookup? name = some entry) :
    (fetch environment name shelf).1 = .ok entry := by
  unfold fetch
  rw [isFound]

/-- A template that does not stand on the shelf is what the loader, asked for it next, gives. -/
theorem fetch_of_new (isNew : shelf.templates.lookup? name = none) {loader : Loader}
    (isLoader : environment.loader? = some loader) :
    (fetch environment name shelf).1 =
      (loader shelf.asked name).map fun source => loaded environment name source := by
  unfold fetch
  rw [isNew, isLoader]
  dsimp only
  cases loader shelf.asked name <;> rfl

/-- A template that can be had stood on the shelf, or the loader gives the text of it. -/
theorem fetch_eq_ok {entry : Loaded} (isFetched : (fetch environment name shelf).1 = .ok entry) :
    shelf.templates.lookup? name = some entry ∨
      shelf.templates.lookup? name = none ∧
        ∃ source, environment.MayGive name source ∧ entry = loaded environment name source := by
  have fetches := fetches environment name shelf
  generalize fetch environment name shelf = fetched at fetches isFetched
  cases fetches with
  | found isFound =>
      cases isFetched
      exact .inl isFound
  | denied => cases isFetched
  | given isNew isText =>
      cases isFetched
      exact .inr ⟨isNew, _, ⟨_, isText⟩, rfl⟩

/-- A template that can be had stands on the shelf from then on. -/
theorem lookup?_fetch {entry : Loaded} (isFetched : (fetch environment name shelf).1 = .ok entry) :
    (fetch environment name shelf).2.templates.lookup? name = some entry := by
  have fetches := fetches environment name shelf
  generalize fetch environment name shelf = fetched at fetches isFetched
  cases fetches with
  | found isFound =>
      cases isFetched
      exact isFound
  | denied => cases isFetched
  | given =>
      cases isFetched
      exact Table.lookup?_put_self _ _ _

/-- Looking for a template changes nothing under any name unless the template can be had. -/
theorem lookup?_fetch_or (environment : Environment) (shelf : Shelf) (key name : String) :
    (fetch environment name shelf).2.templates.lookup? key = shelf.templates.lookup? key ∨
      key = name ∧ ∃ entry, (fetch environment name shelf).1 = .ok entry := by
  have fetches := fetches environment name shelf
  generalize fetch environment name shelf = fetched at fetches
  cases fetches with
  | found => exact .inl rfl
  | denied => exact .inl rfl
  | given =>
      by_cases isName : key = name
      · exact .inr ⟨isName, _, rfl⟩
      · exact .inl (Table.lookup?_put_other _ _ isName)

/-! ### What stands on a shelf -/

/-- Whether every template of one shelf stands on another one. -/
def Within (shelf larger : Shelf) : Prop :=
  ∀ ⦃name : String⦄ ⦃entry : Loaded⦄, shelf.templates.lookup? name = some entry →
    larger.templates.lookup? name = some entry

theorem Within.refl (shelf : Shelf) : shelf.Within shelf := fun _ _ found => found

theorem Within.trans {larger largest : Shelf} (one : shelf.Within larger)
    (two : larger.Within largest) : shelf.Within largest := fun _ _ found => two (one found)

theorem Within.lookup?_eq_none {larger : Shelf} (within : shelf.Within larger)
    (isNew : larger.templates.lookup? name = none) : shelf.templates.lookup? name = none := by
  apply Option.eq_none_iff_forall_ne_some.mpr
  intro entry isFound
  cases isNew.symm.trans (within isFound)

theorem within_fetch (environment : Environment) (name : String) (shelf : Shelf) :
    shelf.Within (fetch environment name shelf).2 := by
  have fetches := fetches environment name shelf
  generalize fetch environment name shelf = fetched at fetches
  cases fetches with
  | found => exact .refl shelf
  | denied => exact .refl shelf
  | given isNew =>
      intro other entry isFound
      have isOther : other ≠ name := by
        rintro rfl
        cases isNew.symm.trans isFound
      exact (Table.lookup?_put_other _ _ isOther).trans isFound

/-- Whether every template on a shelf is what its text forms, and its text what the loader gives. -/
def Coherent (environment : Environment) (shelf : Shelf) : Prop :=
  ∀ ⦃name : String⦄ ⦃entry : Loaded⦄, shelf.templates.lookup? name = some entry →
    ∃ source, environment.MayGive name source ∧ entry = loaded environment name source

theorem coherent_empty (environment : Environment) : empty.Coherent environment := nofun

/-- A template that can be had from a coherent shelf is that of a text that the loader gives. -/
theorem Coherent.mayGive (coherent : shelf.Coherent environment) {entry : Loaded}
    (isFetched : (fetch environment name shelf).1 = .ok entry) :
    ∃ source, environment.MayGive name source ∧ entry = loaded environment name source := by
  rcases fetch_eq_ok isFetched with isFound | ⟨-, isGiven⟩
  · exact coherent isFound
  · exact isGiven

theorem Coherent.fetch (coherent : shelf.Coherent environment) (name : String) :
    (fetch environment name shelf).2.Coherent environment := by
  intro key entry isFound
  rcases lookup?_fetch_or environment shelf key name with same | ⟨rfl, other, isFetched⟩
  · exact coherent (same ▸ isFound)
  · cases (lookup?_fetch isFetched).symm.trans isFound
    exact coherent.mayGive isFetched

/-- What a coherent shelf gives for a name with a text: the template of the text. -/
theorem Coherent.fetch_of_gives (coherent : shelf.Coherent environment) {source : String}
    (gives : environment.Gives name source) :
    (Shelf.fetch environment name shelf).1 = .ok (loaded environment name source) := by
  have fetches := fetches environment name shelf
  generalize Shelf.fetch environment name shelf = fetched at fetches
  cases fetches with
  | found isFound =>
      obtain ⟨other, mayGive, rfl⟩ := coherent isFound
      rw [gives.eq_of_mayGive mayGive]
  | denied _ isNone => cases isNone.symm.trans (gives _)
  | given _ isText => rw [gives.eq_of_mayGive ⟨_, isText⟩]

/-! ### Loaders that never change their answers -/

/-- A loader that never changes its answers gives a text for a name, or all coherent shelves have the
same reason why there is none. -/
theorem gives_or_fails (steady : environment.Steady) (name : String) :
    (∃ source, environment.Gives name source) ∨
      ∃ fault, ∀ shelf : Shelf, shelf.Coherent environment →
        (fetch environment name shelf).1 = .error fault := by
  by_cases isText : ∃ source, environment.MayGive name source
  · obtain ⟨source, mayGive⟩ := isText
    exact .inl ⟨source, steady.gives mayGive⟩
  · have noEntry (shelf : Shelf) (coherent : shelf.Coherent environment) :
        shelf.templates.lookup? name = none := by
      apply Option.eq_none_iff_forall_ne_some.mpr
      intro entry isFound
      obtain ⟨source, mayGive, _⟩ := coherent isFound
      exact isText ⟨source, mayGive⟩
    cases isLoader : environment.loader? with
    | none =>
        refine .inr ⟨.noLoader, fun shelf coherent => ?_⟩
        unfold fetch
        rw [noEntry shelf coherent, isLoader]
    | some loader =>
        cases isAnswer : loader [] name with
        | ok source =>
            have isGiven : environment.text? [] name = some source := by
              rw [Environment.text?, isLoader, Option.bind_some, isAnswer]
              rfl
            exact absurd ⟨source, [], isGiven⟩ isText
        | error fault =>
            refine .inr ⟨fault, fun shelf coherent => ?_⟩
            rw [fetch_of_new (noEntry shelf coherent) isLoader, steady isLoader, isAnswer]
            rfl

/-- Whether the same is found on two shelves: they are one, or what stands on them is what a loader
gives that never changes its answers. -/
def Interchangeable (environment : Environment) (shelf other : Shelf) : Prop :=
  shelf = other ∨ environment.Steady ∧ shelf.Coherent environment ∧ other.Coherent environment

theorem Interchangeable.fetch_eq {other : Shelf}
    (areAlike : Interchangeable environment shelf other) (name : String) :
    (fetch environment name shelf).1 = (fetch environment name other).1 := by
  rcases areAlike with rfl | ⟨steady, coherent, coherent'⟩
  · rfl
  · rcases gives_or_fails steady name with ⟨source, gives⟩ | ⟨fault, fails⟩
    · rw [coherent.fetch_of_gives gives, coherent'.fetch_of_gives gives]
    · rw [fails shelf coherent, fails other coherent']

theorem Interchangeable.fetch {other : Shelf}
    (areAlike : Interchangeable environment shelf other) (name : String) :
    Interchangeable environment (fetch environment name shelf).2
      (Shelf.fetch environment name other).2 := by
  rcases areAlike with rfl | ⟨steady, coherent, coherent'⟩
  · exact .inl rfl
  · exact .inr ⟨steady, coherent.fetch name, coherent'.fetch name⟩

end Shelf

end Stencil.Host
