import Stencil.Proofs.Render.Binding
import Stencil.Proofs.Render.Termination

/-!
Contract: where the bodies of call blocks are rendered.

Owns:
- the variables, macros, blocks, tags and templates that parts of templates come across;
- renders of which one has frames in between that bind none of these variables, side by side;
- bodies without parameters, which are rendered at the tag, and bodies with parameters, which are
  rendered inside the macro that asks for them.

A body with parameters sets the callers and the sister macros of the macro aside, but not its frames:
a variable of the body that the macro binds is the macro's.

Does not own: what is bound to the parameters of a body (`Stencil.Proofs.Render.Binding`).
-/

set_option autoImplicit false

namespace Stencil

theorem Table.has_put_of_has {α : Type} {table : Table α} {name : String} (isBound : table.has name = true)
    (other : String) (value : α) : (table.put other value).has name = true := by
  by_cases same : name = other
  · rw [same, Table.has, Table.lookup?_put_self]
    rfl
  · rw [Table.has, Table.lookup?_put_other _ _ same]
    exact isBound

/-! ### What parts of templates come across -/

namespace Syntax

/-- What parts of templates may come across. -/
structure Ambit where
  /-- The variables that may be asked for. -/
  names : String → Prop
  /-- The names that may be called. -/
  calls : String → Prop
  blocks : String → Prop
  /-- The tags of a host. -/
  tags : String → Prop
  /-- Whether other templates may be loaded. -/
  templates : Prop

namespace Ambit

/-- Whether an expression by itself comes across nothing else. -/
def AllowsExpr (ambit : Ambit) : Expr → Prop
  | .name name _ => ambit.names name
  | .call callee _ _ => ∀ name ∈ callee.calledName?, ambit.calls name
  | _ => True

/-- Whether a statement by itself comes across nothing else. -/
def AllowsNode (ambit : Ambit) : Node → Prop
  | .block name _ _ => ambit.blocks name
  | .custom name _ _ _ => ambit.tags name
  | .inherit _ _ => ambit.templates
  | .embed _ _ _ _ => ambit.templates
  | .importAs _ _ _ _ => ambit.templates
  | .importNames _ _ _ _ => ambit.templates
  | _ => True

end Ambit

def Expr.Within (ambit : Ambit) (expr : Expr) : Prop := expr.Throughout ambit.AllowsExpr

def Node.Within (ambit : Ambit) (node : Node) : Prop :=
  node.Throughout ambit.AllowsNode ambit.AllowsExpr

end Syntax

namespace Host

open Stencil.Syntax (Ambit)

/-- Whether the script of a tag comes across nothing out of an ambit, and does not ask for the number
of frames. -/
inductive TagScript.Within (ambit : Ambit) : TagScript → Prop where
  | done (text : String) : Within ambit (.done text)
  | evaluate {expr : Syntax.Expr} {next : Value → TagScript} (allowed : expr.Within ambit)
      (rest : ∀ value, Within ambit (next value)) : Within ambit (.evaluate expr next)
  | render {body : List Syntax.Node} {next : String → TagScript}
      (allowed : ∀ node ∈ body, node.Within ambit) (rest : ∀ text, Within ambit (next text)) :
      Within ambit (.render body next)
  | renderWith {bindings : Table Value} {body : List Syntax.Node} {next : String → TagScript}
      (allowed : ∀ node ∈ body, node.Within ambit) (rest : ∀ text, Within ambit (next text)) :
      Within ambit (.renderWith bindings body next)
  | lookup {name : String} {next : Option Value → TagScript} (allowed : ambit.names name)
      (rest : ∀ value, Within ambit (next value)) : Within ambit (.lookup name next)
  | report {diagnostic : Report.Diagnostic} {next : TagScript} (rest : Within ambit next) :
      Within ambit (.report diagnostic next)
  | survey {next : Facade → TagScript} (rest : ∀ facade, Within ambit (next facade)) :
      Within ambit (.survey next)

end Host

namespace Render

open Stencil.Host (Arguments Environment Shelf)
open Stencil.Syntax (Ambit Expr MacroDefinition Node Param Template)
open Stencil.Text (Span)

variable {ambit : Ambit} {environment : Environment}

/-- Parts of templates that come across nothing out of an ambit. The rest of a block can be asked for
from inside it, whatever its name. -/
def Material.within (ambit : Ambit) : Material where
  node := Node.Within ambit
  default := Expr.Within ambit
  called := ambit.calls
  block name := ambit.blocks name ∨ ambit.calls "super"
  templates := ambit.templates

theorem Material.closed_within : (Material.within ambit).Closed where
  body isNode := Node.Throughout.bodies isNode
  params isNode := Node.Throughout.params isNode
  block isNode := .inl (Node.Throughout.here isNode)
  super isCalled _ := .inr isCalled
  templates {node} isNode isLinked := by
    have allowed : ambit.AllowsNode node := Node.Throughout.here isNode
    cases node with
    | inherit | embed | importAs | importNames => exact allowed
    | _ => cases isLinked

theorem Material.parent_within {template : Template} {parent : Expr} {span : Span}
    (isBody : (within ambit).Body template.body) (isParent : template.parent? = some (parent, span)) :
    parent.Within ambit := by
  obtain ⟨node, member, isNode⟩ := List.exists_of_findSome?_eq_some isParent
  cases node with
  | inherit =>
      cases isNode
      exact Node.Throughout.exprs (isBody _ member) _ List.mem_cons_self
  | _ => cases isNode

/-- Whether the templates and the tags of a host come across nothing out of an ambit, as far as
anything in it comes across them. -/
structure StaysWithin (environment : Environment) (ambit : Ambit) : Prop where
  templates : ambit.templates → (Material.within ambit).Loads environment
  tags : ∀ (tag : Host.Tag) {renderer : Host.TagRenderer}, tag.node.Within ambit →
    environment.renderer? tag.name = some renderer → (renderer tag).Within ambit

/-! ### Frames in between -/

namespace Scopes

/-- Frames with others on top of them. -/
def beneath (above : List (Table Value)) (scopes : Scopes) : Scopes :=
  match above with
  | [] => scopes
  | frame :: rest => ⟨frame, rest ++ scopes.frames⟩

/-- Whether none of some frames binds any of some names. -/
def Unbound (names : String → Prop) (frames : List (Table Value)) : Prop :=
  ∀ frame ∈ frames, ∀ name, names name → Table.lookup? frame name = none

/-- Frames that one of two stacks has in between: which these are, the variables that are bound right
on top of them in both stacks, and the number of frames below them. -/
structure Gap where
  frames : List (Table Value)
  covered : String → Prop
  below : Nat

/-- Whether it makes no difference to some names that there are frames in between. -/
def Gap.HiddenFrom (gap : Gap) (names : String → Prop) : Prop :=
  Unbound (fun name => names name ∧ ¬gap.covered name) gap.frames

/-- Whether the first of two stacks has some frames in between that the second one has not. Otherwise
they are the same. -/
inductive Spread (gap : Gap) : Scopes → Scopes → Prop where
  | apart (outer : List (Table Value)) (cover : Table Value) (lower : List (Table Value))
      (covers : ∀ name, gap.covered name → cover.has name = true) (isCount : lower.length = gap.below) :
      Spread gap (beneath outer ⟨cover, gap.frames ++ lower⟩) (beneath outer ⟨cover, lower⟩)
  | same (scopes : Scopes) : Spread gap scopes scopes

variable {names : String → Prop} {above : List (Table Value)} {gap : Gap}
  {scopes wide narrow wideAfter narrowAfter : Scopes}

theorem frames_injective (same : wide.frames = narrow.frames) : wide = narrow := by
  obtain ⟨inner, outer⟩ := wide
  obtain ⟨rfl, rfl⟩ := List.cons.inj same
  rfl

theorem frames_beneath (above : List (Table Value)) (scopes : Scopes) :
    (scopes.beneath above).frames = above ++ scopes.frames := by
  cases above <;> rfl

theorem depth_beneath (above : List (Table Value)) (scopes : Scopes) :
    (scopes.beneath above).depth = above.length + scopes.depth := by
  change (scopes.beneath above).frames.length = above.length + scopes.frames.length
  rw [frames_beneath, List.length_append]

theorem beneath_cons (frame : Table Value) (above : List (Table Value)) (scopes : Scopes) :
    scopes.beneath (frame :: above) = (scopes.beneath above).push frame := by
  rw [push, frames_beneath]
  rfl

theorem replaceIn_append (frames others : List (Table Value)) (name : String) (value : Value) :
    replaceIn (frames ++ others) name value =
      if frames.any (Table.has · name) then replaceIn frames name value ++ others
      else frames ++ replaceIn others name value := by
  induction frames with
  | nil => rfl
  | cons frame rest inductionHypothesis =>
      rw [List.cons_append, replaceIn, replaceIn, List.any_cons]
      by_cases isBound : Table.has frame name = true
      · simp [isBound]
      · rw [if_neg isBound, if_neg isBound, inductionHypothesis]
        simp only [isBound, Bool.false_or]
        split <;> rfl

theorem frames_replace (scopes : Scopes) (name : String) (value : Value) :
    (scopes.replace name value).frames = replaceIn scopes.frames name value := by
  unfold replace frames
  rw [replaceIn]
  split <;> rfl

/-- A variable is changed on top of frames, or else in them. -/
theorem replace_beneath (above : List (Table Value)) (scopes : Scopes) (name : String)
    (value : Value) : (scopes.beneath above).replace name value =
      if above.any (Table.has · name) then scopes.beneath (replaceIn above name value)
      else (scopes.replace name value).beneath above := by
  apply frames_injective
  rw [frames_replace, frames_beneath, replaceIn_append]
  split
  · rw [frames_beneath]
  · rw [frames_beneath, frames_replace]

namespace Unbound

theorem findSome? {frames : List (Table Value)} (unbound : Unbound names frames)
    {name : String} (allowed : names name) :
    (frames.findSome? fun frame => Table.lookup? frame name) = none :=
  List.findSome?_eq_none_iff.mpr fun frame member => unbound frame member name allowed

theorem replaceIn {frames : List (Table Value)} (unbound : Unbound names frames)
    (others : List (Table Value)) {name : String} (allowed : names name) (value : Value) :
    replaceIn (frames ++ others) name value = frames ++ Scopes.replaceIn others name value := by
  rw [replaceIn_append, if_neg]
  rw [List.any_eq_true]
  rintro ⟨frame, member, isBound⟩
  rw [Table.has, unbound frame member name allowed] at isBound
  cases isBound

end Unbound

namespace Spread

/-- A name that no frame on top binds is not bound in between. -/
theorem uncovered {cover : Table Value} (covers : ∀ name, gap.covered name → cover.has name = true)
    {name : String} (allowed : names name) (isUnbound : cover.has name = false) :
    names name ∧ ¬gap.covered name := by
  refine ⟨allowed, fun isCovered => ?_⟩
  rw [covers name isCovered] at isUnbound
  cases isUnbound

theorem lookup? (spread : Spread gap wide narrow) (hidden : gap.HiddenFrom names)
    {name : String} (allowed : names name) : wide.lookup? name = narrow.lookup? name := by
  cases spread with
  | same => rfl
  | apart outer cover lower covers =>
      simp only [Scopes.lookup?, frames_beneath, List.findSome?_append]
      simp only [frames, List.findSome?_cons, List.findSome?_append]
      cases isBound : cover.lookup? name with
      | some value => rfl
      | none =>
          have isUncovered := uncovered covers allowed (by rw [Table.has, isBound]; rfl)
          rw [Unbound.findSome? hidden isUncovered, Option.none_or]

theorem bind (spread : Spread gap wide narrow) (name : String) (value : Value) :
    Spread gap (wide.bind name value) (narrow.bind name value) := by
  cases spread with
  | same scopes => exact .same _
  | apart outer cover lower covers isCount =>
      cases outer with
      | cons first rest => exact .apart (first.put name value :: rest) cover lower covers isCount
      | nil =>
          refine .apart [] (cover.put name value) lower (fun other isCovered => ?_) isCount
          exact Table.has_put_of_has (covers other isCovered) name value

theorem replace (spread : Spread gap wide narrow) (hidden : gap.HiddenFrom names)
    {name : String} (allowed : names name) (value : Value) :
    Spread gap (wide.replace name value) (narrow.replace name value) := by
  cases spread with
  | same scopes => exact .same _
  | apart outer cover lower covers isCount =>
      rw [replace_beneath, replace_beneath]
      split
      · exact .apart _ cover lower covers isCount
      · unfold Scopes.replace
        cases isBound : cover.has name with
        | true =>
            refine .apart outer (cover.put name value) lower (fun other isCovered => ?_) isCount
            exact Table.has_put_of_has (covers other isCovered) name value
        | false =>
            have isUncovered := uncovered covers allowed isBound
            simp only [Unbound.replaceIn hidden lower isUncovered]
            exact .apart outer cover _ covers ((length_replaceIn lower name value).trans isCount)

theorem stored (spread : Spread gap wide narrow) (hidden : gap.HiddenFrom names)
    {root : String} (allowed : names root) (path : List Value.Key) (key : Value.Key)
    (value : Value) :
    (wide.stored root path key value).1 = (narrow.stored root path key value).1 ∧
      Spread gap (wide.stored root path key value).2 (narrow.stored root path key value).2 := by
  unfold Scopes.stored
  rw [spread.lookup? hidden allowed]
  cases narrow.lookup? root with
  | none => exact ⟨rfl, spread⟩
  | some old =>
      dsimp only
      cases old.store (path ++ [key]) value with
      | error refusal => exact ⟨rfl, spread⟩
      | ok new => exact ⟨rfl, spread.replace hidden allowed new⟩

theorem push (spread : Spread gap wide narrow) (frame : Table Value) :
    Spread gap (wide.push frame) (narrow.push frame) := by
  cases spread with
  | same scopes => exact .same _
  | apart outer cover lower covers isCount =>
      rw [← beneath_cons, ← beneath_cons]
      exact .apart (frame :: outer) cover lower covers isCount

/-- A frame that was entered is left. The frames beneath it show that it is not the one on top of those
that the two stacks differ by. -/
theorem pop (before : Spread gap wide narrow) (after : Spread gap wideAfter narrowAfter)
    (deepWide : wideAfter.depth = wide.depth + 1) (deepNarrow : narrowAfter.depth = narrow.depth + 1) :
    Spread gap wideAfter.pop narrowAfter.pop := by
  cases after with
  | same => exact .same _
  | apart outer cover lower covers isCount =>
      cases outer with
      | cons first rest =>
          rw [beneath_cons, beneath_cons, pop_push, pop_push]
          exact .apart rest cover lower covers isCount
      | nil =>
          have isDeep : lower.length + 1 = narrow.depth + 1 := deepNarrow
          have isWide : (gap.frames ++ lower).length + 1 = wide.depth + 1 := deepWide
          rw [List.length_append] at isWide
          cases before with
          | apart =>
              rw [depth_beneath] at isDeep
              simp only [depth] at isDeep
              omega
          | same =>
              have isEmpty : gap.frames = [] := List.eq_nil_of_length_eq_zero (by omega)
              rw [isEmpty]
              exact .same _

/-- Where the frame on top of those that differ is left, they are on top. -/
theorem pop_eq_beneath (spread : Spread gap wide narrow) (isSome : 0 < gap.below)
    (deepWide : wide.depth = gap.frames.length + gap.below + 1)
    (deepNarrow : narrow.depth = gap.below + 1) : wide.pop = narrow.pop.beneath gap.frames := by
  cases spread with
  | same scopes =>
      have isEmpty : gap.frames = [] := List.eq_nil_of_length_eq_zero (by omega)
      rw [isEmpty]
      rfl
  | apart outer cover lower covers isCount =>
      rw [depth_beneath] at deepNarrow
      simp only [depth] at deepNarrow
      obtain rfl : outer = [] := List.eq_nil_of_length_eq_zero (by omega)
      obtain ⟨first, rest, rfl⟩ : ∃ first rest, lower = first :: rest :=
        List.exists_cons_of_length_pos (isCount ▸ isSome)
      cases gap.frames <;> rfl

end Spread

/-- The gap that some frames leave beneath another one. -/
def gapBeneath (frame : Table Value) (above : List (Table Value)) (scopes : Scopes) : Gap where
  frames := above
  covered name := frame.has name = true
  below := scopes.depth

theorem spread_push_beneath (above : List (Table Value)) (scopes : Scopes) (frame : Table Value) :
    Spread (scopes.gapBeneath frame above) ((scopes.beneath above).push frame) (scopes.push frame) := by
  rw [push, frames_beneath]
  exact .apart [] frame scopes.frames (fun _ => id) rfl

end Scopes

/-! ### Renders with and without these frames -/

/-- Two renders that come across nothing out of an ambit. -/
def Accord.within (environment : Environment) (ambit : Ambit) : Accord Bool where
  hosts _ := environment
  views views := (∀ name, ambit.names name →
    (views true).scopes.lookup? name = (views false).scopes.lookup? name) ∧
      views true = { views false with scopes := (views true).scopes } ∧
        (Material.within ambit).Holds (views false)
  expr := Expr.Within ambit
  bodies bodies := ∃ nodes, (∀ side, bodies side = nodes) ∧ (Material.within ambit).Body nodes
  ascent overrides parent :=
    ambit.templates ∧ (Material.within ambit).Layers overrides ∧ parent.Within ambit
  told _ := True
  complaint _ _ := True
  callable := (Material.within ambit).OfMacro
  mounted := (Material.within ambit).Home
  loads := ambit.templates
  loaded loaded := (Material.within ambit).Body loaded.template.body
  setting := (Material.within ambit).OfSetting
  names := ambit.names

theorem whole_within : (Accord.within environment ambit).Whole (.within ambit) where
  outlook := by
    rintro views ⟨_, same, _⟩
    refine ⟨(views false).outlook, fun side => ?_⟩
    cases side with
    | true => rw [same]; rfl
    | false => rfl
  variable_ := by
    rintro views name ⟨lookups, _, _⟩ allowed
    refine ⟨(views false).scopes.lookup? name, fun side => ?_⟩
    cases side with
    | true => exact lookups name allowed
    | false => rfl
  name allowed := allowed.here
  lookups := ⟨environment.lookups, fun _ => rfl⟩
  child allowed := allowed.child
  told _ _ := trivial
  complaint _ _ := trivial
  frame _ := trivial
  loop := trivial
  closed := Material.closed_within
  same := by
    rintro views ⟨_, same, holds⟩
    refine ⟨views false, fun side => ?_, holds⟩
    cases side with
    | true => exact same
    | false => rfl
  default := id
  called allowed := allowed.here
  body {nodes} isBody := ⟨nodes, fun _ => rfl, isBody⟩
  callable := id
  mounted := id
  loads := id
  loaded := id
  setting _ := id
  ascent isLinked areLayers allowed := ⟨isLinked, areLayers, allowed⟩
  parent := Material.parent_within
  anySetting := id

theorem permits_of_within {script : Host.TagScript} (isWithin : script.Within ambit) :
    Accord.Uniform.Permits (Accord.within environment ambit) (.within ambit) script := by
  induction isWithin with
  | done text => exact .done text
  | evaluate allowed _ inductionHypothesis => exact .evaluate allowed inductionHypothesis
  | render allowed _ inductionHypothesis => exact .render allowed inductionHypothesis
  | renderWith allowed _ inductionHypothesis => exact .renderWith allowed inductionHypothesis
  | lookup allowed _ inductionHypothesis => exact .lookup allowed inductionHypothesis
  | report _ inductionHypothesis => exact .report trivial inductionHypothesis
  | survey _ inductionHypothesis =>
      exact .survey _ (fun _ => rfl) (inductionHypothesis environment.facade)

/-- Whether two renders have come equally far, one of them with frames in between. -/
structure Apart (environment : Environment) (ambit : Ambit) (gap : Scopes.Gap)
    (wide narrow : State) : Prop where
  scopes : wide.scopes.Spread gap narrow.scopes
  same : wide = { narrow with scopes := wide.scopes }
  holds : (Material.within ambit).Holds narrow.toView
  coherent : narrow.shelf.Coherent environment

namespace Apart

variable {gap : Scopes.Gap} {wide narrow wideAfter narrowAfter : State}

/-- What leaves the frames and the shelf alone, and brings in nothing, keeps the renders equally
far. -/
theorem changed (apart : Apart environment ambit gap wide narrow) (change : State → State)
    (blind : ∀ state scopes, change { state with scopes := scopes } =
      { change state with scopes := scopes })
    (sameScopes : (change narrow).scopes = narrow.scopes)
    (holds : (Material.within ambit).Holds (change narrow).toView)
    (coherent : (change narrow).shelf.Coherent environment) :
    Apart environment ambit gap (change wide) (change narrow) := by
  have same : change wide = { change narrow with scopes := wide.scopes } := by
    rw [← blind, ← apart.same]
  have wideScopes : (change wide).scopes = wide.scopes := congrArg (·.scopes) same
  refine ⟨?_, wideScopes.symm ▸ same, holds, coherent⟩
  rw [wideScopes, sameScopes]
  exact apart.scopes

/-- What does the same to the frames of both and nothing else keeps the renders equally far. -/
theorem moved (apart : Apart environment ambit gap wide narrow) {wideScopes scopes : Scopes}
    (spread : Scopes.Spread gap wideScopes scopes) :
    Apart environment ambit gap { wide with scopes := wideScopes }
      { narrow with scopes := scopes } where
  scopes := spread
  same := congrArg (fun state : State => { state with scopes := wideScopes }) apart.same
  holds := ⟨apart.holds.macros, apart.holds.namespaces, apart.holds.homes, apart.holds.callers,
    apart.holds.overrides⟩
  coherent := apart.coherent

theorem report (apart : Apart environment ambit gap wide narrow)
    (diagnostic : Report.Diagnostic) :
    Apart environment ambit gap (wide.report diagnostic) (narrow.report diagnostic) :=
  apart.changed (·.report diagnostic) (fun _ _ => rfl) rfl apart.holds apart.coherent

theorem load (apart : Apart environment ambit gap wide narrow) (name : String) :
    Apart environment ambit gap (wide.load environment name).2
      (narrow.load environment name).2 := by
  refine apart.changed (fun state => (state.load environment name).2) (fun state scopes => ?_) ?_ ?_ ?_
  · simp only [State.load, State.reportLoaded]
    split
    · dsimp only
      split <;> rfl
    · rfl
  · exact congrArg View.scopes (State.toView_load environment name narrow)
  · rw [State.toView_load]
    exact apart.holds
  · rw [State.shelf_load]
    exact apart.coherent.fetch name

theorem enter (apart : Apart environment ambit gap wide narrow) {setting : Setting}
    (isSetting : (Material.within ambit).OfSetting setting) :
    Apart environment ambit gap { wide with toView := setting.enter wide.toView }
      { narrow with toView := setting.enter narrow.toView } where
  scopes := by
    have spread := apart.scopes
    cases setting with
    | frame bindings => exact spread.push bindings
    | embedded withContext =>
        cases withContext with
        | true => exact spread
        | false => exact .same _
    | _ => exact spread
  same := by
    have same := apart.same
    generalize wide.scopes = scopes at same
    subst same
    rfl
  holds := apart.holds.enter isSetting
  coherent := apart.coherent

theorem leave (apart : Apart environment ambit gap wide narrow)
    (apartAfter : Apart environment ambit gap wideAfter narrowAfter) (setting : Setting)
    (levelWide : (setting.into wide.standing).Level wideAfter.standing)
    (levelNarrow : (setting.into narrow.standing).Level narrowAfter.standing) :
    Apart environment ambit gap
      { wideAfter with toView := setting.leave wide.toView wideAfter.toView }
      { narrowAfter with toView := setting.leave narrow.toView narrowAfter.toView } where
  scopes := by
    have spread := apart.scopes
    have spreadAfter := apartAfter.scopes
    cases setting with
    | frame bindings => exact spread.pop spreadAfter levelWide.2 levelNarrow.2
    | embedded withContext =>
        cases withContext with
        | true => exact spreadAfter
        | false => exact spread
    | _ => exact spreadAfter
  same := by
    have same := apart.same
    have sameAfter := apartAfter.same
    generalize wide.scopes = scopes at same
    generalize wideAfter.scopes = scopesAfter at sameAfter
    subst same sameAfter
    cases setting <;> rfl
  holds := apart.holds.leave apartAfter.holds setting
  coherent := apartAfter.coherent

end Apart

section Keeps

variable {gap : Scopes.Gap}

theorem keeps_apart (stays : StaysWithin environment ambit) (hidden : gap.HiddenFrom ambit.names) :
    (Accord.within environment ambit).Keeps fun states =>
      Apart environment ambit gap (states true) (states false) where
  view apart := ⟨fun _ allowed => apart.scopes.lookup? hidden allowed,
    congrArg State.toView apart.same, apart.holds⟩
  report apart _ := apart.report _
  complain {states lookup diagnostic} apart _ := by
    by_cases isStrict : lookup.isStrict environment.strict = true
    · simpa only [Accord.within, isStrict, if_true] using apart.report diagnostic
    · simpa only [Accord.within, isStrict, Bool.false_eq_true, if_false] using apart
  bind name value apart := apart.moved (apart.scopes.bind name value)
  store {states} root path key value apart allowed := by
    obtain ⟨same, spread⟩ := apart.scopes.stored hidden allowed path key value
    simp only [State.store_eq]
    refine ⟨((states false).scopes.stored root path key value).1, fun side => ?_, apart.moved spread⟩
    cases side with
    | true => exact same
    | false => rfl
  define {states callable} name apart isMacro :=
    apart.changed (fun state => { state with macros := state.macros.put name callable })
      (fun _ _ => rfl) rfl (apart.holds.define name isMacro) apart.coherent
  mount {states macros} name apart isHome :=
    apart.changed (fun state => { state with namespaces := state.namespaces.put name macros })
      (fun _ _ => rfl) rfl (apart.holds.mount name isHome) apart.coherent
  load {states} name apart isLinked := by
    refine ⟨((states false).load environment name).1, fun loaded isLoaded => ?_, fun side => ?_,
      apart.load name⟩
    · exact (Material.body_of_load (stays.templates isLinked) apart.coherent isLoaded).2.2
    · cases side with
      | true =>
          simp only [State.load_answer]
          rw [apart.same]
          rfl
      | false => rfl
  enter apart isSetting := apart.enter isSetting
  leave apart _ apartAfter level := apart.leave apartAfter _ (level true) (level false)

theorem ticks_apart (stays : StaysWithin environment ambit) (hidden : gap.HiddenFrom ambit.names) :
    (Accord.within environment ambit).Ticks
      (fun states => Apart environment ambit gap (states true) (states false))
      fun states => Apart environment ambit gap (states true) (states false) := by
  refine Accord.ticks_of_same (keeps_apart stays hidden) (fun {states} apart => ?_)
    (fun apart => ?_) (fun apart => ?_) fun _ _ => trivial
  · refine ⟨(states false).halted, (states false).steps, environment.maxSteps, fun side => ?_⟩
    cases side with
    | true => exact ⟨by rw [apart.same], by rw [apart.same], rfl⟩
    | false => exact ⟨rfl, rfl, rfl⟩
  · exact apart.changed (fun state => { state with steps := state.steps + 1 }) (fun _ _ => rfl) rfl
      apart.holds apart.coherent
  · exact apart.changed (fun state => { state with halted := true }) (fun _ _ => rfl) rfl
      ⟨apart.holds.macros, apart.holds.namespaces, apart.holds.homes, apart.holds.callers,
        apart.holds.overrides⟩ apart.coherent

/-- Bodies that ask for none of the variables in between are rendered abreast. -/
theorem abreast_within (stays : StaysWithin environment ambit) (hidden : gap.HiddenFrom ambit.names)
    (leader : Bool) (depth : Nat) :
    (Accord.within environment ambit).Carries (some leader)
      (fun states => Apart environment ambit gap (states true) (states false))
      fun _ => belowDepth environment depth := by
  have keeps : (Accord.within environment ambit).Keeps fun states =>
      Apart environment ambit gap (states true) (states false) := keeps_apart stays hidden
  refine Accord.carries_belowDepth keeps (ticks_apart stays hidden) leader whole_within.evaluate_of_expr
    ?_ (fun ⟨isLinked, areLayers, allowed⟩ => whole_within.ascendTo isLinked areLayers allowed) depth
  rintro bodies ⟨nodes, areNodes, isBody⟩
  refine ⟨nodes, areNodes, fun node member => whole_within.carryOut (fun {tag} isTag areBodies _ => ?_)
    (Node.Throughout.exprs (isBody node member)) (isBody node member)⟩
  refine whole_within.renderCustom (fun same renderer isRenderer => ?_) areBodies
  have found := congrArg (·.renderer? tag.name) (same true)
  exact permits_of_within (stays.tags tag isTag (found.trans isRenderer))

end Keeps

/-! ### Bodies of call blocks -/

/-- The text of a body in a frame of its own, outside the macro that asks for it. -/
def Action.bodyIn (frame : Table Value) (body : List Node) : Action String :=
  inSetting .callSite <| inSetting (.frame frame) <| textOf body

/-- The state of a render with some frames on top of all others. -/
def State.beneath (above : List (Table Value)) (state : State) : State :=
  { state with scopes := state.scopes.beneath above }

/-- The state of a render inside a body. -/
def State.inBody (frame : Table Value) (state : State) : State :=
  { state with toView := (Setting.frame frame).enter (Setting.callSite.enter state.toView) }

/-- The state of a render behind a body that was entered from another state. -/
def State.behindBody (frame : Table Value) (before after : State) : State :=
  let left := (Setting.frame frame).leave (Setting.callSite.enter before.toView) after.toView
  { after with toView := Setting.callSite.leave before.toView left }

theorem Action.perform_bodyIn (below : Below) (frame : Table Value) (body : List Node)
    (state : State) : (bodyIn frame body).perform environment below state =
      (below.render body (state.inBody frame)).map fun answer =>
        (answer.1, state.behindBody frame answer.2) := by
  rw [bodyIn, inSetting, perform_within, inSetting, perform_within, perform_textOf]
  change ((below.render body (state.inBody frame)).bind _).bind _ = _
  cases below.render body (state.inBody frame) with
  | none => rfl
  | some answer => rfl

section Bodies

variable {above : List (Table Value)} {body : List Node} {state : State}

theorem State.behindBody_beneath (frame : Table Value) {before wide narrow : State}
    (same : wide = { narrow with scopes := wide.scopes })
    (popped : wide.scopes.pop = narrow.scopes.pop.beneath above) :
    (before.beneath above).behindBody frame wide = (before.behindBody frame narrow).beneath above := by
  generalize wide.scopes = scopes at same popped
  subst same
  have left : (before.beneath above).behindBody frame { narrow with scopes := scopes } =
      { before.behindBody frame narrow with scopes := scopes.pop } := rfl
  rw [left, popped]
  rfl

/-- Frames in between make no difference to a body that asks for none of the variables in them, except
for those that its own frame binds. -/
theorem Action.perform_bodyIn_beneath (stays : StaysWithin environment ambit) {frame : Table Value}
    (hidden : (state.scopes.gapBeneath frame above).HiddenFrom ambit.names)
    (isBody : (Material.within ambit).Body body)
    (holds : (Material.within ambit).Holds (Setting.callSite.enter state.toView))
    (coherent : state.shelf.Coherent environment) (depth : Nat) :
    (bodyIn frame body).perform environment (belowDepth environment depth) (state.beneath above) =
      ((bodyIn frame body).perform environment (belowDepth environment depth) state).map
        fun answer => (answer.1, answer.2.beneath above) := by
  let states : Bool → State := fun side =>
    bif side then (state.beneath above).inBody frame else state.inBody frame
  have holdsInside : (Material.within ambit).Holds (state.inBody frame).toView := holds.enter trivial
  have apart : Apart environment ambit (state.scopes.gapBeneath frame above) (states true)
      (states false) :=
    ⟨Scopes.spread_push_beneath above state.scopes frame, rfl, holdsInside, coherent⟩
  have abreast (leader : Bool) : _ ∨ _ := (abreast_within stays hidden leader depth).render
    ⟨body, fun _ => rfl, isBody⟩ apart
  have deep {scopes after : State} {text : String}
      (rendered : (belowDepth environment depth).render body (scopes.inBody frame) =
        some (text, after)) : after.scopes.depth = scopes.scopes.depth + 1 :=
    ((Below.level environment depth).render body rendered).2
  rw [perform_bodyIn, perform_bodyIn]
  cases isNarrow : (belowDepth environment depth).render body (state.inBody frame) with
  | none =>
      rcases abreast true with ⟨side, isLead, isNone⟩ | ⟨text, afters, areAfters, _⟩
      · cases isLead
        change (belowDepth environment depth).render body ((state.beneath above).inBody frame) = none
          at isNone
        rw [isNone]
        rfl
      · cases isNarrow.symm.trans (areAfters false)
  | some answer =>
      obtain ⟨text, narrow⟩ := answer
      rcases abreast false with ⟨side, isLead, isNone⟩ | ⟨same, afters, areAfters, apartAfter⟩
      · cases isLead
        cases isNarrow.symm.trans isNone
      · cases isNarrow.symm.trans (areAfters false)
        have isWide : (belowDepth environment depth).render body ((state.beneath above).inBody frame) =
            some (text, afters true) := areAfters true
        have popped := apartAfter.scopes.pop_eq_beneath (Nat.succ_pos _)
          ((deep isWide).trans (congrArg (· + 1) (Scopes.depth_beneath above state.scopes)))
          (deep isNarrow)
        rw [isWide]
        exact congrArg (fun after => some (text, after))
          (State.behindBody_beneath frame apartAfter.same popped)

end Bodies

/-- Asking for a body with parameters renders it in the frames that are there, if no default is
needed. -/
theorem Action.perform_callCaller {below : Below} {params : List Param}
    (distinct : (params.map (·.name)).Nodup) {args : Arguments} (noDefaults : lacking params args = [])
    (body : List Node) (span : Span) {state : State}
    (isShallow : state.place.callDepth < callLimit) :
    (callCaller (.deferred params body) args span).perform environment below state =
      ((bodyIn (argumentFrame params args []) body).perform environment below
        (state.reportDoubled "caller" span (doubled params args))).map fun answer =>
          (.text answer.1, answer.2) := by
  refine (perform_unlessTooDeep span _ isShallow).trans ?_
  rw [perform_bound distinct "caller" args span .callSite body state, noDefaults]
  rfl

/-- The body of a call block with parameters is rendered in the frames that are there where the macro
asks for it, those of the macro among them, with one more for the parameters. Say the frames above
those of the call block bind no variable that the body asks for, apart from those that its own frame
binds, and none that is asked for by what it comes across in its turn: macros by the names that it
calls, blocks and tags that it has, and other templates if it loads any. Then its text, and all that it
does, is what it is in the frames of the call block. The macro that asks for the body need not be
looked at unless the body calls it. A body without parameters is rendered at the tag, before the call,
and the macro gets this text whenever it asks for it. -/
theorem call_body_frames {environment : Environment} {ambit : Ambit}
    (stays : StaysWithin environment ambit) {params : List Param}
    (distinct : (params.map (·.name)).Nodup) {args : Arguments} (noDefaults : lacking params args = [])
    {body : List Node} (isBody : ∀ node ∈ body, node.Within ambit) {above : List (Table Value)}
    (unbound : Scopes.Unbound
      (fun name => ambit.names name ∧ ¬(argumentFrame params args []).has name) above)
    {state : State} (holds : (Material.within ambit).Holds (Setting.callSite.enter state.toView))
    (coherent : state.shelf.Coherent environment) (isShallow : state.place.callDepth < callLimit)
    (span : Span) (depth : Nat) :
    let below := belowDepth environment depth
    let called := (Action.callCaller (.deferred params body) args span).perform environment below
    (∀ start : State, start.place.callDepth < callLimit → called start =
      ((Action.bodyIn (argumentFrame params args []) body).perform environment below
        (start.reportDoubled "caller" span (doubled params args))).map fun answer =>
          (.text answer.1, answer.2)) ∧
      called (state.beneath above) =
        (called state).map (fun answer => (answer.1, answer.2.beneath above)) ∧
      ∀ (callee : Expr) (given : List Expr) (start : State),
        (Action.callWithBody (.call callee given span) [] body).perform environment below start =
          (below.render body start).bind fun first =>
            (Action.callExpr callee given (some (.rendered first.1)) span).perform environment below
              first.2 := by
  intro below called
  have isCalled : ∀ start : State, start.place.callDepth < callLimit → called start =
      ((Action.bodyIn (argumentFrame params args []) body).perform environment below
        (start.reportDoubled "caller" span (doubled params args))).map fun answer =>
          (.text answer.1, answer.2) := fun _ =>
    Action.perform_callCaller distinct noDefaults body span
  refine ⟨isCalled, ?_, fun callee given start => ?_⟩
  · have reported : (state.beneath above).reportDoubled "caller" span (doubled params args) =
        (state.reportDoubled "caller" span (doubled params args)).beneath above := by
      rw [State.reportDoubled_eq, State.reportDoubled_eq]
      rfl
    have sameView : (state.reportDoubled "caller" span (doubled params args)).toView =
        state.toView := by
      rw [State.reportDoubled_eq]
    have coherentReported : (state.reportDoubled "caller" span
        (doubled params args)).shelf.Coherent environment := by
      rw [State.reportDoubled_eq]
      exact coherent
    rw [isCalled _ isShallow, isCalled (state.beneath above) isShallow, reported,
      Action.perform_bodyIn_beneath stays unbound isBody (sameView ▸ holds) coherentReported]
    simp only [Option.map_map, Function.comp_def]
    rfl
  · change (Action.textOf body >>= (fun text => pure (Caller.rendered text)) >>= fun caller =>
      Action.callExpr callee given (some caller) span).perform environment below start = _
    rw [Action.bind_assoc]
    change ((Action.textOf body).andThen _).perform environment below start = _
    rw [Action.perform_andThen, Action.perform_textOf]
    rfl

/-- A body that prints a variable of the page and its own parameter. -/
def credits : List Node := [.output (.name "x" default) default, .output (.name "p" default) default]

/-- A macro that prints its parameter, which has the name of the body's, and asks for the body. -/
def framing : MacroDefinition :=
  ⟨"m", [⟨"p", none, default⟩], [.output (.name "p" default) default,
    .output (.call (.name "caller" default) [.literal (.int 1) default] default) default], default⟩

/-- A page that calls the macro with the body. -/
def framedPage : Template :=
  ⟨none, [.define framing.name framing.params framing.body default,
    .assign (.name "x" default) (.literal (.text "site") default) default,
    .callBlock (.call (.name "m" default) [.literal (.text "macro") default] default)
      [⟨"p", none, default⟩] credits default], default⟩

/-- Where the macro asks for the body, there is the macro's frame above that of the page. It makes no
difference. -/
theorem call_body_frames_other :
    let ambit : Ambit :=
      ⟨fun name => name = "x" ∨ name = "p", fun _ => False, fun _ => False, fun _ => False, False⟩
    let params : List Param := [⟨"p", none, default⟩]
    let args : Arguments := ⟨[.int 1], []⟩
    let caller : Caller := .deferred params credits
    let home : Table MacroDefinition := [("m", framing)]
    let above : List (Table Value) := [argumentFrame framing.params ⟨[.text "macro"], []⟩ []]
    let place : Place := { Place.outside with
      loads := ["page"], templates := ["page"], callers := [some caller], homes := [home],
      callDepth := 1 }
    let state : State :=
      ⟨⟨.root [("x", .text "site")], [("m", ⟨framing, home⟩)], [], place, false⟩, 5, .empty, [], #[]⟩
    Reaches .empty (.action (Action.callCaller caller args default)) (state.beneath above) ∧
      Scopes.Unbound (fun name => ambit.names name ∧ ¬(argumentFrame params args []).has name) above ∧
      (Material.within ambit).Holds (Setting.callSite.enter state.toView) ∧
      state.place.callDepth < callLimit ∧
      ((Action.callCaller caller args default).perform .empty (belowDepth .empty 9)
        (state.beneath above)).map (fun answer => (answer.1, answer.2.scopes.depth)) =
          some (.text "site1", 2) ∧
      (renderTemplateWithin 12 .empty framedPage [] .empty).map Outcome.text = some "macrosite1" := by
  intro ambit params args caller home above place state
  have reached : Reaches .empty (.action (Action.callCaller caller args default))
      (state.beneath above) := by
    have start : Reaches .empty _ _ := .template "page" framedPage [] .empty
    have defined := Reaches.next 0 (Reaches.within start) rfl
    have block := Reaches.statement
      (Reaches.rest 1 (Reaches.rest 0 (Reaches.render defined) rfl rfl) rfl rfl) rfl
    have calling := Reaches.next 0 (Reaches.first block) rfl
    have isMacro := Reaches.next 0 (Reaches.next 0 calling rfl) rfl
    have framed := Reaches.next 0 (Reaches.next 0 (Reaches.next 1 isMacro rfl) rfl) rfl
    have inMacro := Reaches.within (Reaches.within (Reaches.first framed))
    have output := Reaches.statement (Reaches.rest 1 (Reaches.render inMacro) rfl rfl) rfl
    have asking := Reaches.next 0 (Reaches.eval (Reaches.first output)) rfl
    have asked := Reaches.next 1 asking rfl
    exact asked
  have named (name : String) (isName : ambit.names name) :
      Node.Within ambit (.output (.name name default) default) := by
    refine .mk trivial (fun expr member => ?_) nofun nofun
    obtain rfl := List.mem_singleton.mp member
    exact .mk isName nofun
  have isBody : ∀ node ∈ credits, node.Within ambit :=
    List.forall_mem_cons.mpr ⟨named "x" (.inl rfl), List.forall_mem_singleton.mpr (named "p" (.inr rfl))⟩
  have unbound : Scopes.Unbound
      (fun name => ambit.names name ∧ ¬(argumentFrame params args []).has name) above := by
    refine List.forall_mem_singleton.mpr ?_
    rintro name ⟨rfl | rfl, isUncovered⟩
    · rfl
    · exact absurd rfl isUncovered
  have stays : StaysWithin .empty ambit := by
    constructor
    · exact False.elim
    · intro tag renderer _ isRenderer
      cases isRenderer
  have holds : (Material.within ambit).Holds (Setting.callSite.enter state.toView) := by
    constructor
    · exact fun _ _ => False.elim
    · exact List.forall_mem_nil _
    · exact List.forall_mem_nil _
    · exact False.elim
    · exact Material.layers_nil _
  have coherent : state.shelf.Coherent .empty := Host.Shelf.coherent_empty _
  obtain ⟨_, same, _⟩ := call_body_frames stays (by decide) rfl isBody unbound holds coherent
    (by decide) default 9
  refine ⟨reached, unbound, holds, by decide, ?_, by decide +kernel⟩
  rw [same]
  rfl

/-- A variable of the body that the macro has a parameter for is the macro's, unless the block has no
parameters. -/
theorem call_body_frames_bound :
    let caller : Expr := .call (.name "caller" default) [.literal (.int 1) default] default
    let call : Expr := .call (.name "m" default) [.literal (.text "macro") default] default
    let page (params : List Param) : List Node :=
      [.define "m" [⟨"x", none, default⟩] [.output caller default] default,
        .assign (.name "x" default) (.literal (.text "site") default) default,
        .callBlock call params [.output (.name "x" default) default] default]
    let shown (params : List Param) :=
      (renderTemplateWithin 12 .empty ⟨"page", page params, default⟩ [] .empty).map
        fun outcome => (outcome.text, outcome.problems.map (·.code))
    shown [⟨"p", none, default⟩] = some ("macro", []) ∧ shown [] = some ("site", []) := by
  decide +kernel

end Render

end Stencil
