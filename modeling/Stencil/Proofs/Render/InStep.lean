import Stencil.Proofs.Render.Binding
import Stencil.Proofs.Render.Following
import Stencil.Proofs.Render.Kinship
import Stencil.Proofs.Render.Uniform
import Stencil.Proofs.Syntax.Inlining

/-!
Contract: renders of a template, and of the template with calls of a macro replaced, side by side.

Owns:
- frames that differ only in the names that calls bring in by themselves;
- what both renders see, and how far they have come;
- frames and calls on both sides, and calls on the first side only.

The render with the calls is inside of more of them, so it may report that there are too many where
the other one does not.

Does not own: what the renders are asked (`Stencil.Proofs.Render.Inlining`).
-/

set_option autoImplicit false

namespace Stencil.Render

open Stencil.Host (Environment)
open Stencil.Syntax
open Stencil.Text (Span)

variable {α : Type}

/-! ### Frames -/

/-- The names that calls bring into the frames of macros, and the names of what macros and blocks are
handed. -/
def reservedNames : List String := surplusNames ++ ["caller", "super"]

/-- Whether templates that leave the names alone that calls bring in may ask for a name. -/
def Unreserved (name : String) : Prop := name ∉ reservedNames

/-- Whether two frames bind the same values to all names that templates may ask for. -/
def FrameAgrees (frame twin : Table Value) : Prop :=
  ∀ name, Unreserved name → frame.lookup? name = twin.lookup? name

theorem FrameAgrees.put {frame twin : Table Value} (agrees : FrameAgrees frame twin) (name : String)
    (value : Value) : FrameAgrees (frame.put name value) (twin.put name value) := by
  intro other isUnreserved
  by_cases same : other = name
  · rw [same, Table.lookup?_put_self, Table.lookup?_put_self]
  · rw [Table.lookup?_put_other _ _ same, Table.lookup?_put_other _ _ same]
    exact agrees other isUnreserved

/-- What is bound to a reserved name does not matter. -/
theorem FrameAgrees.put_left {frame twin : Table Value} (agrees : FrameAgrees frame twin)
    {name : String} (isReserved : name ∈ reservedNames) (value : Value) :
    FrameAgrees (frame.put name value) twin := by
  intro other isUnreserved
  have different : other ≠ name := fun same => isUnreserved (same ▸ isReserved)
  rw [Table.lookup?_put_other _ _ different]
  exact agrees other isUnreserved

theorem FrameAgrees.has {frame twin : Table Value} (agrees : FrameAgrees frame twin) {name : String}
    (isUnreserved : Unreserved name) : frame.has name = twin.has name := by
  rw [Table.has, Table.has, agrees name isUnreserved]

namespace Scopes

/-- Whether the frames of two renders agree one by one. -/
def Agree (scopes twin : Scopes) : Prop := List.Forall₂ FrameAgrees scopes.frames twin.frames

namespace Agree

variable {scopes twin : Scopes}

theorem of_same (scopes : Scopes) : scopes.Agree scopes :=
  List.forall₂_same.mpr fun _ _ _ _ => rfl

theorem lookup? (agree : scopes.Agree twin) {name : String} (isUnreserved : Unreserved name) :
    scopes.lookup? name = twin.lookup? name := by
  unfold Scopes.lookup?
  unfold Agree at agree
  generalize scopes.frames = frames at agree
  generalize twin.frames = twins at agree
  induction agree with
  | nil => rfl
  | cons agrees _ inductionHypothesis =>
      rw [List.findSome?_cons, List.findSome?_cons, agrees name isUnreserved, inductionHypothesis]

theorem push (agree : scopes.Agree twin) {frame frame' : Table Value}
    (agrees : FrameAgrees frame frame') : (scopes.push frame).Agree (twin.push frame') :=
  .cons agrees agree

theorem pop (agree : scopes.Agree twin) : scopes.pop.Agree twin.pop := by
  obtain ⟨inner, outer⟩ := scopes
  obtain ⟨inner', outer'⟩ := twin
  obtain ⟨agrees, others⟩ := List.forall₂_cons.mp agree
  cases others with
  | nil => exact .cons agrees .nil
  | cons first rest => exact .cons first rest

theorem bind (agree : scopes.Agree twin) (name : String) (value : Value) :
    (scopes.bind name value).Agree (twin.bind name value) := by
  obtain ⟨agrees, others⟩ := List.forall₂_cons.mp agree
  exact .cons (agrees.put name value) others

theorem replaceIn {frames twins : List (Table Value)}
    (agree : List.Forall₂ FrameAgrees frames twins) {name : String} (isUnreserved : Unreserved name)
    (value : Value) :
    List.Forall₂ FrameAgrees (Scopes.replaceIn frames name value)
      (Scopes.replaceIn twins name value) := by
  induction agree with
  | nil => exact .nil
  | cons agrees others inductionHypothesis =>
      unfold Scopes.replaceIn
      rw [agrees.has isUnreserved]
      split
      · exact .cons (agrees.put name value) others
      · exact .cons agrees inductionHypothesis

theorem replace (agree : scopes.Agree twin) {name : String} (isUnreserved : Unreserved name)
    (value : Value) : (scopes.replace name value).Agree (twin.replace name value) := by
  obtain ⟨agrees, others⟩ := List.forall₂_cons.mp agree
  unfold Scopes.replace
  rw [agrees.has isUnreserved]
  split
  · exact agree.bind name value
  · exact .cons agrees (replaceIn others isUnreserved value)

theorem stored (agree : scopes.Agree twin) {root : String} (isUnreserved : Unreserved root)
    (path : List Value.Key) (key : Value.Key) (value : Value) :
    (scopes.stored root path key value).1 = (twin.stored root path key value).1 ∧
      (scopes.stored root path key value).2.Agree (twin.stored root path key value).2 := by
  unfold Scopes.stored
  rw [agree.lookup? isUnreserved]
  cases twin.lookup? root with
  | none => exact ⟨rfl, agree⟩
  | some old =>
      dsimp only
      cases old.store (path ++ [key]) value with
      | error refusal => exact ⟨rfl, agree⟩
      | ok new => exact ⟨rfl, agree.replace isUnreserved new⟩

end Agree

end Scopes

/-! ### Two renders -/

/-- Templates that ask for no variables but some. -/
def Material.asking (names : String → Prop) : Material where
  node := Node.AsksOnly names
  default := Expr.AsksOnly names

theorem Material.closed_asking {names : String → Prop} : (Material.asking names).Closed where
  body isNode := Node.Throughout.bodies isNode
  params isNode := Node.Throughout.params isNode
  block _ := trivial
  super _ _ := trivial
  templates _ _ := trivial

/-- Whether two renders of a template without other templates see the same, apart from calls that are
replaced on the second side. -/
structure View.InStep (home home' : Table MacroDefinition) (view view' : View) : Prop where
  scopes : view.scopes.Agree view'.scopes
  macros : ∀ name, view.macros.lookup? name = (home.lookup? name).map (Macro.mk · home)
  macros' : ∀ name, view'.macros.lookup? name = (home'.lookup? name).map (Macro.mk · home')
  namespaces : view.namespaces = []
  namespaces' : view'.namespaces = []
  homes : ∀ sisters ∈ view.place.homes, sisters = home
  homes' : ∀ sisters ∈ view'.place.homes, sisters = home'
  overrides : view.place.overrides = []
  overrides' : view'.place.overrides = []
  templates : view.place.templates = view'.place.templates
  loopDepth : view.place.loopDepth = view'.place.loopDepth
  calls : view'.place.callDepth ≤ view.place.callDepth
  halted : view.halted = view'.halted

/-- Whether the two renders have come equally far. -/
structure State.InStep (home home' : Table MacroDefinition) (state state' : State) : Prop
    extends View.InStep home home' state.toView state'.toView where
  steps : state.steps = state'.steps
  shelf : state.shelf = state'.shelf
  problems : state.problems = state'.problems

/-- What two renders have in common if calls of a macro are replaced on the second side. -/
def Accord.inlining (environment : Environment) (definition : MacroDefinition)
    (home home' : Table MacroDefinition) : Accord Bool where
  hosts _ := environment
  views views := View.InStep home home' (views true) (views false)
  expr := Expr.AsksOnly Unreserved
  bodies bodies := Inlines definition (bodies true) (bodies false) ∧
    (Material.asking Unreserved).Body (bodies true)
  ascent _ _ := False
  told _ := True
  complaint _ _ := True
  callable _ := False
  mounted _ := False
  loads := False
  loaded _ := False
  setting setting := (∃ bindings, setting = .frame bindings) ∨ setting = .loop
  names := Unreserved

/-- Whether calls of a macro are replaced in the macros of a template. -/
structure Replaced (definition : MacroDefinition) (home home' : Table MacroDefinition) : Prop where
  akin : Table.Akin (MacroDefinition.Inlined definition) home home'
  called : home.lookup? definition.name = some definition
  isHome : (Material.asking Unreserved).Home home
  plain : ∀ param ∈ definition.params, param.default = none

variable {environment : Environment} {definition : MacroDefinition}
  {home home' : Table MacroDefinition}

theorem plain_inlining (replaced : Replaced definition home home') :
    (Accord.inlining environment definition home home').Plain where
  outlook := by
    intro views inStep
    refine ⟨(views false).outlook, fun side => ?_⟩
    cases side with
    | false => rfl
    | true =>
        have callable (name : String) : (views true).macros.has name = (views false).macros.has name := by
          rw [Table.has, Table.has, inStep.macros, inStep.macros', Option.isSome_map, Option.isSome_map]
          exact replaced.akin.has name
        simp only [View.outlook, Scenery.outlook, View.scenery, callable, inStep.namespaces,
          inStep.namespaces', inStep.loopDepth, inStep.halted]
  variable_ := by
    intro views name inStep isUnreserved
    refine ⟨(views false).scopes.lookup? name, fun side => ?_⟩
    cases side with
    | false => rfl
    | true => exact inStep.scopes.lookup? isUnreserved
  name asks := asks.here _ _ rfl
  lookups := ⟨environment.lookups, fun _ => rfl⟩
  child asks := asks.child
  told _ _ := trivial
  complaint _ _ := trivial
  frame bindings := .inl ⟨bindings, rfl⟩
  loop := .inr rfl

theorem State.InStep.report {state state' : State} (inStep : State.InStep home home' state state')
    (diagnostic : Report.Diagnostic) :
    State.InStep home home' (state.report diagnostic) (state'.report diagnostic) := by
  refine { inStep with problems := ?_ }
  simp only [State.report, inStep.problems, State.ascribe_of_templates inStep.templates]

theorem keeps_inlining : (Accord.inlining environment definition home home').Keeps
    fun states => State.InStep home home' (states true) (states false) where
  view inStep := inStep.toInStep
  report inStep _ := inStep.report _
  complain {states lookup diagnostic} inStep _ := by
    by_cases isStrict : lookup.isStrict environment.strict = true
    · simpa only [Accord.inlining, isStrict, if_true] using inStep.report diagnostic
    · simpa only [Accord.inlining, isStrict, Bool.false_eq_true, if_false] using inStep
  bind name value inStep := { inStep with scopes := inStep.scopes.bind name value }
  store {states} root path key value inStep isUnreserved := by
    obtain ⟨same, agree⟩ := inStep.scopes.stored isUnreserved path key value
    refine ⟨((states false).scopes.stored root path key value).1, fun side => ?_, ?_⟩
    · rw [State.store_eq]
      cases side with
      | true => exact same
      | false => rfl
    · simp only [State.store_eq]
      exact { inStep with scopes := agree }
  define _ _ isCallable := isCallable.elim
  mount _ _ isMounted := isMounted.elim
  load _ _ loads := loads.elim
  enter {states setting} inStep isSetting := by
    rcases isSetting with ⟨bindings, rfl⟩ | rfl
    · exact { inStep with scopes := inStep.scopes.push fun _ _ => rfl }
    · exact { inStep with loopDepth := congrArg (· + 1) inStep.loopDepth }
  leave {states afters setting} _ isSetting inStep _ := by
    rcases isSetting with ⟨bindings, rfl⟩ | rfl
    · exact { inStep with scopes := inStep.scopes.pop }
    · exact { inStep with loopDepth := congrArg (· - 1) inStep.loopDepth }

theorem ticks_inlining : (Accord.inlining environment definition home home').Ticks
    (fun states => State.InStep home home' (states true) (states false))
    fun states => State.InStep home home' (states true) (states false) := by
  refine Accord.ticks_of_same keeps_inlining (fun {states} inStep => ?_)
    (fun inStep => { inStep with steps := congrArg (· + 1) inStep.steps })
    (fun inStep => { inStep with halted := rfl }) fun _ _ => trivial
  refine ⟨(states false).halted, (states false).steps, environment.maxSteps, fun side => ?_⟩
  cases side with
  | true => exact ⟨inStep.halted, inStep.steps, rfl⟩
  | false => exact ⟨rfl, rfl, rfl⟩

variable {below below' : Below}

/-! ### Settings -/

/-- A frame on each side. -/
theorem Follows.inFrame {run run' : Run α} (follows : Follows (State.InStep home home') run run')
    (level : run.Upholds Standing.Level) (level' : run'.Upholds Standing.Level)
    {frame frame' : Table Value} (agrees : FrameAgrees frame frame') :
    Follows (State.InStep home home') (Run.inSetting (.frame frame) run)
      (Run.inSetting (.frame frame') run') := by
  refine follows.around level level' (fun state => { state with
      toView := Setting.enter (.frame frame) state.toView })
    (fun state => { state with toView := Setting.enter (.frame frame') state.toView })
    (fun state after => { after with
      toView := Setting.leave (.frame frame) state.toView after.toView })
    (fun state after => { after with
      toView := Setting.leave (.frame frame') state.toView after.toView }) ?_ rfl ?_
  · exact fun inStep => { inStep with scopes := inStep.scopes.push agrees }
  · exact fun _ inStep _ _ => { inStep with scopes := inStep.scopes.pop }

/-- A call on each side. -/
theorem Follows.inCalls {run run' : Run α} (follows : Follows (State.InStep home home') run run')
    (level : run.Upholds Standing.Level) (level' : run'.Upholds Standing.Level)
    (caller caller' : Option Caller) :
    Follows (State.InStep home home') (Run.inSetting (.call caller home) run)
      (Run.inSetting (.call caller' home') run') := by
  refine follows.around level level' (fun state => { state with
      toView := Setting.enter (.call caller home) state.toView })
    (fun state => { state with toView := Setting.enter (.call caller' home') state.toView })
    (fun state after => { after with
      toView := Setting.leave (.call caller home) state.toView after.toView })
    (fun state after => { after with
      toView := Setting.leave (.call caller' home') state.toView after.toView }) ?_ rfl ?_
  · exact fun inStep => { inStep with
      homes := List.forall_mem_cons.mpr ⟨rfl, inStep.homes⟩
      homes' := List.forall_mem_cons.mpr ⟨rfl, inStep.homes'⟩
      calls := Nat.succ_le_succ inStep.calls }
  · exact fun _ inStep _ _ => { inStep with
      homes := fun sisters member => inStep.homes sisters (List.mem_of_mem_tail member)
      homes' := fun sisters member => inStep.homes' sisters (List.mem_of_mem_tail member)
      calls := Nat.sub_le_sub_right inStep.calls 1 }

/-- A call on the first side only. -/
theorem Follows.inCall {run run' : Run α} (follows : Follows (State.InStep home home') run run')
    (level : run.Upholds Standing.Level) (level' : run'.Upholds Standing.Level)
    (caller : Option Caller) :
    Follows (State.InStep home home') (Run.inSetting (.call caller home) run) run' := by
  have around := follows.around level level' (fun state => { state with
      toView := Setting.enter (.call caller home) state.toView }) id
    (fun state after => { after with
      toView := Setting.leave (.call caller home) state.toView after.toView })
    (fun _ after => after)
    (fun inStep => { inStep with
      homes := List.forall_mem_cons.mpr ⟨rfl, inStep.homes⟩
      calls := Nat.le_succ_of_le inStep.calls }) rfl
    fun {state state' after after'} before inStep isLevel isLevel' => ?_
  · simp only [id_eq, Option.map_id'] at around
    exact around
  · have calls : after.place.callDepth = state.place.callDepth + 1 :=
      congrArg Place.callDepth isLevel.1
    have calls' : after'.place.callDepth = state'.place.callDepth :=
      congrArg Place.callDepth isLevel'.1
    have isLe := before.calls
    refine { inStep with
      homes := fun sisters member => inStep.homes sisters (List.mem_of_mem_tail member)
      calls := ?_ }
    show after'.place.callDepth ≤ after.place.callDepth - 1
    omega

/-! ### Requests that see neither -/

/-- Without imported macros an attribute is not one of them. -/
theorem alike_namespaceOf? {base : Expr}
    {rest : Bool → Option (String × Table MacroDefinition) → Action α}
    (alike : (Accord.inlining environment definition home home').Alike fun side => rest side none) :
    (Accord.inlining environment definition home home').Alike fun side =>
      Action.namespaceOf? base >>= rest side := by
  unfold Action.namespaceOf?
  split
  · refine Accord.Alike.bind_view fun views inStep => ?_
    have empty : ∀ side, (views side).namespaces = []
      | true => inStep.namespaces
      | false => inStep.namespaces'
    show (Accord.inlining environment definition home home').Alike fun side =>
      Action.andThen (if (views side).scopes.has _ then pure none
        else pure (((views side).namespaces.lookup? _).map fun macros => (_, macros))) (rest side)
    simp only [empty, Table.lookup?_nil, Option.map_none, ite_self]
    exact alike
  · exact alike

/-- Without templates built on others, a block is its own body. -/
theorem alike_renderBlock (name : String) {bodies : Bool → List Node}
    (allowed : (Accord.inlining environment definition home home').bodies bodies) :
    (Accord.inlining environment definition home home').Alike fun side =>
      Action.renderBlock name (bodies side) := by
  refine Accord.Alike.bind_view fun views inStep => ?_
  have noOverrides : ∀ side, (views side).place.overrides = []
    | true => inStep.overrides
    | false => inStep.overrides'
  simp only [pure, Action.andThen, noOverrides, Table.lookup?_nil, Option.bind_none]
  exact .textOf allowed

end Stencil.Render
