import Stencil.Host.Describe
import Mathlib.Data.Fin.Basic
import Mathlib.Data.List.Basic

/-!
Contract: environments built on one another.

Owns:
- the one environment that a chain of environments comes to, with the closest entry of each name;
- what is registered under each name, and environments that give the same under all names, which
  differ in nothing that they show of themselves but the text;
- environments kept at addresses, where a child has nothing but the address of the one it is built
  on: its look-ups go there on demand, its tags and settings were copied when it was made.

Does not own: what a render makes of it (`Stencil.Proofs.Render.Chained`).
-/

set_option autoImplicit false

namespace Stencil

variable {α : Type}

/-! ### Tables and layers -/

namespace Table

/-- The entries of two tables; where both have one of a name, that of the closer one. -/
def union (closer farther : Table α) : Table α :=
  closer ++ farther.filter fun entry => !closer.has entry.1

theorem lookup?_append (closer farther : Table α) (name : String) :
    lookup? (closer ++ farther) name = (closer.lookup? name).or (farther.lookup? name) := by
  induction closer with
  | nil => rfl
  | cons entry rest inductionHypothesis =>
      obtain ⟨key, value⟩ := entry
      rw [List.cons_append, lookup?, lookup?]
      split
      · rfl
      · exact inductionHypothesis

theorem lookup?_filter (table : Table α) (keeps : String → Bool) {name : String}
    (isKept : keeps name = true) :
    lookup? (table.filter fun entry => keeps entry.1) name = table.lookup? name := by
  induction table with
  | nil => rfl
  | cons entry rest inductionHypothesis =>
      obtain ⟨key, value⟩ := entry
      by_cases isName : key = name
      · subst isName
        simp [lookup?, isKept]
      · cases isOther : keeps key <;> simp [lookup?, isName, isOther, inductionHypothesis]

theorem lookup?_union (closer farther : Table α) (name : String) :
    (closer.union farther).lookup? name = (closer.lookup? name).or (farther.lookup? name) := by
  rw [union, lookup?_append]
  cases isFound : closer.lookup? name with
  | some value => rfl
  | none =>
      have isFree : (!closer.has name) = true := by rw [has, isFound]; rfl
      exact lookup?_filter farther (fun key => !closer.has key) isFree

end Table

namespace Host

namespace Layer

/-- What two layers give together; where both have something of a name, that of the closer one. -/
def atop (closer farther : Layer) : Layer where
  filters := closer.filters.union farther.filters
  tests := closer.tests.union farther.tests
  functions := closer.functions.union farther.functions
  renderers := closer.renderers.union farther.renderers
  globals := closer.globals.union farther.globals
  loader := closer.loader.or farther.loader

/-- What several layers give together, the closest first. -/
def merged (layers : List Layer) : Layer := layers.foldr atop .empty

/-- Whatever is asked of layers, the closest one that has an answer gives it, if it is so for two. -/
theorem findSome?_eq_merged {get : Layer → Option α}
    (layered : ∀ closer farther : Layer, get (closer.atop farther) = (get closer).or (get farther))
    (empty : get .empty = none) (layers : List Layer) :
    layers.findSome? get = get (merged layers) := by
  induction layers with
  | nil => exact empty.symm
  | cons closest rest inductionHypothesis =>
      have merges : get (merged (closest :: rest)) = (get closest).or (get (merged rest)) :=
        layered closest (merged rest)
      rw [merges, ← inductionHypothesis, List.findSome?_cons]
      cases get closest <;> rfl

end Layer

/-! ### Environments that give the same -/

/-- What is registered under each name. Where it is registered can be seen in the text that shows an
environment, and nowhere else. -/
structure Lookups where
  filter? : String → Option Filter
  test? : String → Option Test
  function? : String → Option Function
  renderer? : String → Option TagRenderer
  global? : String → Option Value
  method? : Value → String → Option Method

def Registry.lookups (registry : Registry) : Lookups :=
  ⟨registry.filter?, registry.test?, registry.function?, registry.renderer?, registry.global?,
    registry.method?⟩

/-- Whether two facades differ in nothing but the text that shows the environment. -/
def Facade.ButDescription (facade facade' : Facade) : Prop :=
  ∃ description, facade' = { facade with description := description }

namespace Environment

/-- Whether two environments give the same under all names, and have the same loader, tags and
settings. -/
structure LooksLike (one other : Environment) : Prop where
  lookups : one.lookups = other.lookups
  loader : one.loader? = other.loader?
  terms : one.toTerms = other.toTerms
  tags : one.tags = other.tags

theorem LooksLike.refl (environment : Environment) : environment.LooksLike environment :=
  ⟨rfl, rfl, rfl, rfl⟩

theorem LooksLike.butDescription {one other : Environment} (same : one.LooksLike other) :
    Facade.ButDescription other.facade one.facade := by
  have filters : one.filter? = other.filter? := congrArg Lookups.filter? same.lookups
  have tests : one.test? = other.test? := congrArg Lookups.test? same.lookups
  have functions : one.function? = other.function? := congrArg Lookups.function? same.lookups
  have renderers : one.renderer? = other.renderer? := congrArg Lookups.renderer? same.lookups
  have globals : one.global? = other.global? := congrArg Lookups.global? same.lookups
  have methods : one.method? = other.method? := congrArg Lookups.method? same.lookups
  refine ⟨one.describe, ?_⟩
  simp only [facade, filters, tests, functions, renderers, globals, methods, same.loader, same.terms,
    same.tags]

/-- The environment without a parent that has everything an environment has itself or inherits, the
closest entry of each name. -/
def flattened (environment : Environment) : Environment :=
  { environment with own := .merged environment.layers, inherited := [] }

/-- Flattening an environment changes nothing that can be looked up. -/
theorem findSome?_flattened (environment : Environment) {get : Layer → Option α}
    (layered : ∀ closer farther : Layer, get (closer.atop farther) = (get closer).or (get farther))
    (empty : get .empty = none) :
    environment.layers.findSome? get = environment.flattened.layers.findSome? get := by
  have isAlone : environment.flattened.layers = [.merged environment.layers] := rfl
  rw [Layer.findSome?_eq_merged layered empty, isAlone, List.findSome?_singleton]

theorem looksLike_flattened (environment : Environment) :
    environment.LooksLike environment.flattened where
  lookups := by
    have filters : environment.filter? = environment.flattened.filter? := funext fun name =>
      environment.findSome?_flattened (fun _ _ => Table.lookup?_union _ _ name) rfl
    have tests : environment.test? = environment.flattened.test? := funext fun name =>
      environment.findSome?_flattened (fun _ _ => Table.lookup?_union _ _ name) rfl
    have functions : environment.function? = environment.flattened.function? := funext fun name =>
      environment.findSome?_flattened (fun _ _ => Table.lookup?_union _ _ name) rfl
    have renderers : environment.renderer? = environment.flattened.renderer? := funext fun name =>
      environment.findSome?_flattened (fun _ _ => Table.lookup?_union _ _ name) rfl
    have globals : environment.global? = environment.flattened.global? := funext fun name =>
      environment.findSome?_flattened (fun _ _ => Table.lookup?_union _ _ name) rfl
    unfold Registry.lookups
    rw [filters, tests, functions, renderers, globals]
    rfl
  loader := environment.findSome?_flattened (fun _ _ => rfl) rfl
  terms := rfl
  tags := rfl

end Environment

/-! ### Environments that are kept -/

/-- What is an environment's own: what is registered in it, its settings and its tags. -/
structure Cell where
  own : Layer
  terms : Terms
  tags : Grammar.Register

/-- The environment behind registrations in it and changes of its settings and tags. -/
def Environment.revised (environment : Environment) (change : Cell → Cell) : Environment :=
  let cell := change ⟨environment.own, environment.toTerms, environment.tags⟩
  ⟨⟨cell.own, environment.inherited, environment.methods⟩, cell.terms, cell.tags⟩

example (environment : Environment) (name : String) (filter : Filter) :
    environment.addFilter name filter = environment.revised fun cell =>
      { cell with own := { cell.own with filters := cell.own.filters.put name filter } } :=
  rfl

/-- Environments kept at addresses in the order in which they were made. Each is built on an earlier
one, of which it knows the address, or on none. -/
inductive Kept : Nat → Type where
  | empty : Kept 0
  | more {size : Nat} (earlier : Kept size) (cell : Cell) (parent : Option (Fin size)) :
      Kept (size + 1)

namespace Kept

variable {size : Nat}

def cell : {size : Nat} → Kept size → Fin size → Cell
  | _, .more earlier cell _, address => Fin.lastCases cell earlier.cell address

/-- The addresses of the environments that one is built on, the closest first. -/
def ancestors : {size : Nat} → Kept size → Fin size → List (Fin size)
  | _, .more earlier _ parent, address =>
      Fin.lastCases
        ((parent.elim [] fun closest => closest :: earlier.ancestors closest).map Fin.castSucc)
        (fun older => (earlier.ancestors older).map Fin.castSucc) address

/-- What comes of a look-up that goes from each environment on to the one it is built on. -/
def find? (get : Layer → Option α) : {size : Nat} → Kept size → Fin size → Option α
  | _, .more earlier cell parent, address =>
      Fin.lastCases ((get cell.own).or (parent.bind (earlier.find? get))) (earlier.find? get) address

/-- The environment at an address, as a render sees it. The methods of objects are the same in all
environments. -/
def environment (kept : Kept size) (methods : Table Method) (address : Fin size) : Environment :=
  let layers := (kept.ancestors address).map fun ancestor => (kept.cell ancestor).own
  ⟨⟨(kept.cell address).own, layers, methods⟩, (kept.cell address).terms, (kept.cell address).tags⟩

/-- Makes an environment that is built on the one at an address. It starts without registrations,
and with the tags and settings of that one. -/
def child (kept : Kept size) (address : Fin size) : Kept (size + 1) :=
  .more kept { kept.cell address with own := .empty } (some address)

/-- Registers something in the environment at an address, or changes its tags or settings. -/
def update : {size : Nat} → Kept size → Fin size → (Cell → Cell) → Kept size
  | _, .more earlier cell parent, address, change =>
      Fin.lastCases (.more earlier (change cell) parent)
        (fun older => .more (earlier.update older change) cell parent) address

variable (kept : Kept size) (newest : Cell) (parent : Option (Fin size)) (older : Fin size)
  (change : Cell → Cell)

@[simp] theorem cell_last : (more kept newest parent).cell (Fin.last size) = newest :=
  Fin.lastCases_last

@[simp] theorem cell_castSucc : (more kept newest parent).cell older.castSucc = kept.cell older :=
  Fin.lastCases_castSucc older

@[simp] theorem ancestors_last : (more kept newest parent).ancestors (Fin.last size) =
    (parent.elim [] fun closest => closest :: kept.ancestors closest).map Fin.castSucc := by
  rw [ancestors, Fin.lastCases_last]

@[simp] theorem ancestors_castSucc : (more kept newest parent).ancestors older.castSucc =
    (kept.ancestors older).map Fin.castSucc := by
  rw [ancestors, Fin.lastCases_castSucc]

@[simp] theorem update_last : (more kept newest parent).update (Fin.last size) change =
    more kept (change newest) parent := by
  rw [update, Fin.lastCases_last]

@[simp] theorem update_castSucc : (more kept newest parent).update older.castSucc change =
    more (kept.update older change) newest parent := by
  rw [update, Fin.lastCases_castSucc]

/-- Making an environment changes none that were there before. -/
theorem environment_castSucc (methods : Table Method) :
    (more kept newest parent).environment methods older.castSucc =
      kept.environment methods older := by
  simp [environment, Function.comp_def]

/-- An environment made from another one is a child of it. -/
theorem environment_child (methods : Table Method) (address : Fin size) :
    (kept.child address).environment methods (Fin.last size) =
      (kept.environment methods address).child := by
  simp [environment, child, Environment.child, Registry.layers, Function.comp_def]

/-- A look-up that goes from each environment on to the one it is built on gives what the closest of
them has. -/
theorem find?_eq (get : Layer → Option α) (methods : Table Method) (address : Fin size) :
    kept.find? get address = (kept.environment methods address).layers.findSome? get := by
  induction kept with
  | empty => exact address.elim0
  | more earlier newest parent inductionHypothesis =>
      cases address using Fin.lastCases with
      | cast older =>
          rw [find?, Fin.lastCases_castSucc, environment_castSucc]
          exact inductionHypothesis older
      | last =>
          rw [find?, Fin.lastCases_last]
          cases parent with
          | none =>
              have isAlone : ((more earlier newest none).environment methods (Fin.last _)).layers =
                  [newest.own] := by
                simp [environment, Registry.layers]
              rw [isAlone, List.findSome?_singleton, Option.bind_none, Option.or_none]
          | some closest =>
              have areLayers : ((more earlier newest (some closest)).environment methods
                  (Fin.last _)).layers =
                    newest.own :: (earlier.environment methods closest).layers := by
                simp [environment, Registry.layers, Function.comp_def]
              rw [areLayers, List.findSome?_cons, Option.bind_some, inductionHypothesis closest]
              cases get newest.own <;> rfl

/-- An environment is built on earlier ones only. -/
theorem lt_of_mem_ancestors {address ancestor : Fin size}
    (isAncestor : ancestor ∈ kept.ancestors address) : ancestor < address := by
  induction kept with
  | empty => exact address.elim0
  | more earlier newest parent inductionHypothesis =>
      cases address using Fin.lastCases with
      | cast older =>
          rw [ancestors_castSucc] at isAncestor
          obtain ⟨inner, isInner, rfl⟩ := List.mem_map.mp isAncestor
          exact Fin.castSucc_lt_castSucc_iff.mpr (inductionHypothesis isInner)
      | last =>
          rw [ancestors_last] at isAncestor
          obtain ⟨inner, _, rfl⟩ := List.mem_map.mp isAncestor
          exact Fin.castSucc_lt_last inner

/-- Registering in an environment changes what is its own, and nothing that it inherits. -/
theorem environment_update_self (methods : Table Method) (address : Fin size) :
    (kept.update address change).environment methods address =
      (kept.environment methods address).revised change := by
  induction kept with
  | empty => exact address.elim0
  | more earlier newest parent inductionHypothesis =>
      cases address using Fin.lastCases with
      | cast older =>
          rw [update_castSucc, environment_castSucc, environment_castSucc]
          exact inductionHypothesis older
      | last =>
          rw [update_last]
          simp [environment, Environment.revised, Function.comp_def]

/-- What happens to an environment changes none that was made before it. -/
theorem environment_update {address other : Fin size} (isEarlier : other < address)
    (methods : Table Method) :
    (kept.update address change).environment methods other = kept.environment methods other := by
  induction kept with
  | empty => exact address.elim0
  | more earlier newest parent inductionHypothesis =>
      cases other using Fin.lastCases with
      | last => exact absurd isEarlier (Fin.not_lt.mpr (Fin.le_last address))
      | cast other =>
          cases address using Fin.lastCases with
          | last => rw [update_last, environment_castSucc, environment_castSucc]
          | cast older =>
              rw [update_castSucc, environment_castSucc, environment_castSucc]
              exact inductionHypothesis (Fin.castSucc_lt_castSucc_iff.mp isEarlier)

end Kept

end Host

end Stencil
