import Stencil.Proofs.Render.Kinship

/-!
Contract: expressions that are akin ask the same of two renders.

Owns:
- look-ups, operators, filters and tests;
- calls of macros, functions and methods, and the bodies handed to macros;
- blocks and the blocks they replace.

Does not own: statements and templates (`Stencil.Proofs.Render.AkinNode`).
-/

set_option autoImplicit false

namespace Stencil.Render

open Stencil.Host (Arguments)
open Stencil.Syntax
open Stencil.Text (Span)

namespace Kinship

variable {kin : Kinship} {place place' : Place} {α β : Type}

/-! ### Requests -/

theorem Alike.bind {relFirst : α → α → Prop} {rel : β → β → Prop} {first first' : Action α}
    {rest rest' : α → Action β} (alike : kin.Alike place place' relFirst first first')
    (alikeRest : ∀ {answer answer'}, relFirst answer answer' →
      kin.Alike place place' rel (rest answer) (rest' answer')) :
    kin.Alike place place' rel (first >>= rest) (first' >>= rest') :=
  alike.andThen fun _ _ => alikeRest

/-- Actions with the same answer, and what goes on with it. -/
theorem Alike.next {rel : β → β → Prop} {first first' : Action α} {rest rest' : α → Action β}
    (alike : kin.Alike place place' Eq first first')
    (alikeRest : ∀ answer, kin.Alike place place' rel (rest answer) (rest' answer)) :
    kin.Alike place place' rel (first >>= rest) (first' >>= rest') :=
  alike.andThen fun answer _ same => same ▸ alikeRest answer

theorem Alike.pure {rel : α → α → Prop} {answer answer' : α} (related : rel answer answer') :
    kin.Alike place place' rel (Pure.pure answer) (Pure.pure answer') := .done related

theorem Alike.same (answer : α) :
    kin.Alike place place' Eq (Pure.pure answer) (Pure.pure answer) := .done rfl

theorem Alike.bind_view {rel : α → α → Prop} {rest rest' : View → Action α}
    (alike : ∀ view view' : View, view.place = place → view'.place = place' →
      Sights kin.trees view view' → kin.Alike place place' rel (rest view) (rest' view')) :
    kin.Alike place place' rel (Action.view >>= rest) (Action.view >>= rest') := .look alike

theorem Alike.bind_registry {rel : α → α → Prop} {rest rest' : Host.Registry → Action α}
    (alike : kin.Alike place place' rel (rest kin.environment.toRegistry)
      (rest' kin.environment.toRegistry)) :
    kin.Alike place place' rel (Action.registry >>= rest) (Action.registry >>= rest') :=
  .consult alike

theorem Alike.bind_fetch {rel : α → α → Prop} (name : String)
    {rest rest' : Except Host.LoadFault Host.Loaded → Action α}
    (alike : ∀ {answer answer'}, LoadAkin kin.trees answer answer' →
      kin.Alike place place' rel (rest answer) (rest' answer')) :
    kin.Alike place place' rel (Action.fetch name >>= rest) (Action.fetch name >>= rest') :=
  .load fun _ _ => alike

theorem Alike.valueOf {expr expr' : Expr} (akin : expr.Akin (kin.places place.source) expr') :
    kin.Alike place place' Eq (Action.valueOf expr) (Action.valueOf expr') :=
  .eval akin fun _ => .done rfl

theorem Alike.textOf {nodes nodes' : List Node}
    (akin : Nodes.Akin kin.trees place.source nodes nodes') :
    kin.Alike place place' Eq (Action.textOf nodes) (Action.textOf nodes') :=
  .render akin fun _ => .done rfl

theorem Alike.bindTo (name : String) (value : Value) :
    kin.Alike place place' Eq (Action.bindTo name value) (Action.bindTo name value) :=
  .bindName (.done rfl)

theorem Alike.inSetting {rel : α → α → Prop} {setting setting' : Setting} {inner inner' : Action α}
    (akin : setting.Akin kin.trees setting')
    (alike : kin.Alike (setting.place place) (setting'.place place') rel inner inner') :
    kin.Alike place place' rel (Action.inSetting setting inner) (Action.inSetting setting' inner') :=
  .within akin alike fun _ _ related => .done related

/-- What the lemmas on single parts of a render rest on. -/
structure Here (kin : Kinship) (place place' : Place) : Prop where
  sound : kin.Sound
  akin : kin.PlaceAkin place place'

theorem Here.enter (here : kin.Here place place') {setting setting' : Setting}
    (entered : setting.Akin kin.trees setting') :
    kin.Here (setting.place place) (setting'.place place') :=
  ⟨here.sound, here.akin.enter entered⟩

theorem resolve (name : String) :
    kin.Alike place place' Eq (Action.resolve name) (Action.resolve name) := by
  refine .bind_view fun view view' _ _ sights => ?_
  rw [sights.scopes]
  cases view'.scopes.lookup? name with
  | some value => exact .same _
  | none => exact .bind_registry (.same _)

namespace Here

variable {span span' : Span}

theorem problem (here : kin.Here place place') (cause : Problem)
    (at_ : kin.places place.source span span') :
    kin.Alike place place' Eq (Action.problem cause span) (Action.problem cause span') :=
  .report (here.sound.told cause at_) (.done rfl)

theorem failedLookup (here : kin.Here place place') (lookup : Lookup) (cause : Problem)
    (at_ : kin.places place.source span span') :
    kin.Alike place place' Eq (Action.failedLookup lookup cause span)
      (Action.failedLookup lookup cause span') :=
  .complain (here.sound.told cause at_) (.done rfl)

/-! ### Look-ups -/

theorem lookup (here : kin.Here place place') (name : String)
    (at_ : kin.places place.source span span') :
    kin.Alike place place' Eq (Action.lookup name span) (Action.lookup name span') := by
  refine (resolve name).next fun found => ?_
  cases found with
  | some value => exact .same value
  | none => exact (here.failedLookup _ _ at_).next fun _ => .same _

theorem partOr (here : kin.Here place place') (part : Option Value) (base : Value) (cause : Problem)
    (at_ : kin.places place.source span span') :
    kin.Alike place place' Eq (Action.partOr part base cause span)
      (Action.partOr part base cause span') := by
  cases part with
  | some value => exact .same value
  | none =>
      unfold Action.partOr
      dsimp only
      split
      · exact (here.failedLookup _ _ at_).next fun _ => .same _
      · exact .same _

theorem settle (here : kin.Here place place') (result : Except Value.Fault Value)
    (at_ : kin.places place.source span span') :
    kin.Alike place place' Eq (Action.settle result span) (Action.settle result span') := by
  cases result with
  | ok value => exact .same value
  | error fault => exact (here.problem _ at_).next fun _ => .same _

theorem accept (here : kin.Here place place') (name : String) (answer : Except String Value)
    (at_ : kin.places place.source span span') :
    kin.Alike place place' Eq (Action.accept name answer span) (Action.accept name answer span') := by
  cases answer with
  | ok value => exact .same value
  | error reason => exact (here.problem _ at_).next fun _ => .same _

end Here

/-! ### Several expressions -/

theorem valuesOf {exprs exprs' : List Expr}
    (each : List.Forall₂ (Expr.Akin (kin.places place.source)) exprs exprs') :
    kin.Alike place place' Eq (Action.valuesOf exprs) (Action.valuesOf exprs') := by
  induction each with
  | nil => exact .same _
  | cons akin _ inductionHypothesis =>
      exact (Alike.valueOf akin).next fun value => inductionHypothesis.next fun values => .same _

theorem entriesAfter (entries : Table Value) {pairs pairs' : List (Expr × Expr)}
    (keys : List.Forall₂ (Expr.Akin (kin.places place.source)) (pairs.map Prod.fst)
      (pairs'.map Prod.fst))
    (values : List.Forall₂ (Expr.Akin (kin.places place.source)) (pairs.map Prod.snd)
      (pairs'.map Prod.snd)) :
    kin.Alike place place' Eq (Action.entriesAfter entries pairs)
      (Action.entriesAfter entries pairs') := by
  induction pairs generalizing entries pairs' with
  | nil =>
      cases pairs' with
      | nil => exact .same _
      | cons => cases keys
  | cons pair rest inductionHypothesis =>
      cases pairs' with
      | nil => cases keys
      | cons pair' rest' =>
          obtain ⟨keyAkin, keys⟩ := List.forall₂_cons.mp keys
          obtain ⟨valueAkin, values⟩ := List.forall₂_cons.mp values
          exact (Alike.valueOf keyAkin).next fun key => (Alike.valueOf valueAkin).next fun value =>
            inductionHypothesis _ keys values

/-- An argument that is not given by keyword takes the next position. -/
theorem argumentsAfter_cons {arg : Expr} (isPositional : arg.isKeyword = false)
    (positional : List Value) (keywords : Table Value) (rest : List Expr) :
    Action.argumentsAfter positional keywords (arg :: rest) = (do
      let value ← Action.valueOf arg
      Action.argumentsAfter (positional ++ [value]) keywords rest) := by
  cases arg <;> first | rfl | cases isPositional

theorem argumentsAfter (positional : List Value) (keywords : Table Value) {args args' : List Expr}
    (given : Expr.ArgsAkin (kin.places place.source) args args') :
    kin.Alike place place' Eq (Action.argumentsAfter positional keywords args)
      (Action.argumentsAfter positional keywords args') := by
  obtain ⟨each, areKeywords⟩ := given
  induction each generalizing positional keywords with
  | nil => exact .same _
  | @cons arg arg' rest rest' akin _ inductionHypothesis =>
      obtain ⟨isSame, areKeywords⟩ := List.cons.inj areKeywords
      replace inductionHypothesis := fun positional keywords =>
        inductionHypothesis positional keywords areKeywords
      clear areKeywords
      cases isKeyword : arg.isKeyword with
      | false =>
          rw [argumentsAfter_cons isKeyword, argumentsAfter_cons (isSame.symm.trans isKeyword)]
          exact (Alike.valueOf akin).next fun value => inductionHypothesis _ _
      | true =>
          cases akin with
          | keyword name akin at_ =>
              exact (Alike.valueOf akin).next fun value => inductionHypothesis _ _
          | _ => cases isKeyword

theorem argumentsOf {args args' : List Expr}
    (given : Expr.ArgsAkin (kin.places place.source) args args') :
    kin.Alike place place' Eq (Action.argumentsOf args) (Action.argumentsOf args') :=
  argumentsAfter [] [] given

/-- The value of a chain of names, attributes and items does not depend on parentheses on its way. -/
theorem resolvePath? {expr expr' : Expr} (akin : expr.Akin (kin.places place.source) expr') :
    kin.Alike place place' Eq (Action.resolvePath? expr) (Action.resolvePath? expr') := by
  induction expr using Action.resolvePath?.induct generalizing expr' with
  | case1 name span =>
      cases akin
      exact resolve name
  | case2 inner span inductionHypothesis =>
      cases akin with
      | @group _ inner' _ span' akin at_ =>
          have looksThrough : Action.resolvePath? (.group inner' span') =
            Action.resolvePath? inner' := rfl
          rw [looksThrough]
          exact inductionHypothesis akin
      | bare akin at_ => exact inductionHypothesis akin
  | case3 value attr span inductionHypothesis =>
      cases akin with
      | «attribute» attr akin at_ =>
          refine (inductionHypothesis akin).next fun base => ?_
          cases base <;> exact .same _
  | case4 value index span inductionHypothesis =>
      cases akin with
      | item first second at_ =>
          refine (inductionHypothesis first).next fun base => ?_
          cases base with
          | none => exact .same _
          | some base => exact (Alike.valueOf second).next fun index => .same _
  | case5 other notName notGroup notAttribute notItem =>
      have value : kin.Alike place place' Eq (Action.valueOf other) (Action.valueOf expr') :=
        .valueOf akin
      cases akin with
      | name | group | bare | «attribute» | item => simp at *
      | _ => exact value.next fun value => .same _

/-- Whether something that is no name is defined is a matter of its value. -/
theorem isDefined_of_isName {expr : Expr} (isOther : expr.isName = false) :
    Action.isDefined expr = (do
      let value ← Action.resolvePath? expr
      return value.isSome) := by
  cases expr <;> first | rfl | cases isOther

theorem isDefined {expr expr' : Expr} (akin : expr.Akin (kin.places place.source) expr')
    (named : expr.isName = expr'.isName) :
    kin.Alike place place' Eq (Action.isDefined expr) (Action.isDefined expr') := by
  cases isName : expr.isName with
  | false =>
      rw [isDefined_of_isName isName, isDefined_of_isName (named.symm.trans isName)]
      exact (resolvePath? akin).next fun value => .same _
  | true =>
      cases akin with
      | name name at_ =>
          refine (resolve name).next fun value => .bind_view fun view view' _ _ sights => ?_
          rw [sights.macros.has, sights.namespaces.has]
          exact .same _
      | _ => cases isName

namespace Here

variable {span span' : Span}

/-! ### Filters and tests -/

theorem applyFilter (here : kin.Here place place') (value : Value) {call call' : FilterCall}
    (akin : call.Akin (kin.places place.source) call') :
    kin.Alike place place' Eq (Action.applyFilter value call) (Action.applyFilter value call') := by
  refine (argumentsOf akin.args).next fun args => .bind_registry ?_
  rw [← akin.name]
  split
  · exact here.accept _ _ akin.at_
  · exact (here.failedLookup _ _ akin.at_).next fun _ => .same _

theorem applyFilters (here : kin.Here place place') (value : Value) {calls calls' : List FilterCall}
    (each : List.Forall₂ (FilterCall.Akin (kin.places place.source)) calls calls') :
    kin.Alike place place' Eq (Action.applyFilters value calls)
      (Action.applyFilters value calls') := by
  induction each generalizing value with
  | nil => exact .same _
  | cons akin _ inductionHypothesis =>
      exact (here.applyFilter value akin).next fun value => inductionHypothesis value

theorem passes (here : kin.Here place place') (name : String) {value value' : Expr}
    {args args' : List Expr} (akin : value.Akin (kin.places place.source) value')
    (given : Expr.ArgsAkin (kin.places place.source) args args')
    (at_ : kin.places place.source span span') :
    kin.Alike place place' Eq (Action.passes value name args span)
      (Action.passes value' name args' span') := by
  refine (Alike.valueOf akin).next fun value => (argumentsOf given).next fun args =>
    .bind_registry ?_
  split
  · split
    · exact .same _
    · exact (here.problem _ at_).next fun _ => .same _
  · exact (here.failedLookup _ _ at_).next fun _ => .same _

theorem holds (here : kin.Here place place') (name : String) {value value' : Expr}
    {args args' : List Expr} (akin : value.Akin (kin.places place.source) value')
    (named : Expr.isAboutNames name = true → value.isName = value'.isName)
    (given : Expr.ArgsAkin (kin.places place.source) args args')
    (at_ : kin.places place.source span span') :
    kin.Alike place place' Eq (Action.holds value name args span)
      (Action.holds value' name args' span') := by
  unfold Action.holds
  split
  · rename_i isDefinedTest
    exact isDefined akin (named (by simp [Expr.isAboutNames, isDefinedTest]))
  · split
    · rename_i isUndefinedTest
      refine (isDefined akin (named ?_)).next fun result => .same _
      simp [Expr.isAboutNames, isUndefinedTest]
    · exact here.passes name akin given at_

/-! ### Macros -/

theorem bindAfter (here : kin.Here place place') (owner : String)
    (at_ : kin.places place.source span span') (frame : Table Value) {params params' : List Param}
    (args : Arguments)
    (given : List.Forall₂ (Param.Akin (kin.places place.source)) params params') :
    kin.Alike place place' Eq (Action.bindAfter owner span frame params args)
      (Action.bindAfter owner span' frame params' args) := by
  induction given generalizing frame args with
  | nil => exact .same _
  | @cons param param' _ _ akin _ inductionHypothesis =>
      obtain ⟨name, default⟩ := param
      obtain ⟨_, default'⟩ := param'
      obtain ⟨rfl, defaults⟩ := akin
      obtain ⟨positional, keywords⟩ := args
      cases positional with
      | cons value positional =>
          unfold Action.bindAfter
          dsimp only
          split
          · exact (here.problem _ at_).next fun _ => inductionHypothesis _ _
          · exact inductionHypothesis _ _
      | nil =>
          refine Alike.next ?_ fun value => inductionHypothesis _ _
          unfold Action.valueOfParam
          dsimp only
          split
          · exact .same _
          · cases defaults with
            | none => exact .same _
            | some akin => exact .valueOf akin

theorem unlessTooDeep (here : kin.Here place place') {body body' : Action Value}
    (at_ : kin.places place.source span span') (alike : kin.Alike place place' Eq body body') :
    kin.Alike place place' Eq (Action.unlessTooDeep span body)
      (Action.unlessTooDeep span' body') := by
  refine .bind_view fun view view' isHere isThere _ => ?_
  rw [isHere, isThere]
  by_cases tooDeep : callLimit ≤ place.callDepth
  · rw [if_pos tooDeep]
    rcases here.akin.exact with isLenient | ⟨-, sameDepth⟩
    · exact .lost isLenient (.report rfl)
    · rw [if_pos (sameDepth ▸ tooDeep)]
      exact (here.problem _ at_).next fun _ => .same _
  · rw [if_neg tooDeep, if_neg fun tooDeep' => tooDeep (Nat.le_trans tooDeep' here.akin.calls)]
    exact alike

theorem callMacro (here : kin.Here place place') {callable callable' : Macro}
    (akin : callable.Akin kin.trees callable') (args : Arguments) {caller caller' : Option Caller}
    (handed : Option.Rel (Caller.Akin kin.trees) caller caller')
    (at_ : kin.places place.source span span') :
    kin.Alike place place' Eq (Action.callMacro callable args caller span)
      (Action.callMacro callable' args caller' span') := by
  refine here.unlessTooDeep at_ ?_
  unfold Action.bindParams
  dsimp only
  rw [← akin.definition.name]
  refine (here.bindAfter _ at_ [] args (akin.definition.params _)).next fun frame => ?_
  refine Alike.next ?_ fun text => .same _
  exact .inSetting (.call handed akin.home) (.inSetting (.frame frame)
    (.textOf (akin.definition.body _)))

theorem callCaller (here : kin.Here place place') {caller caller' : Caller}
    (akin : caller.Akin kin.trees caller') (args : Arguments)
    (at_ : kin.places place.source span span') :
    kin.Alike place place' Eq (Action.callCaller caller args span)
      (Action.callCaller caller' args span') := by
  cases akin with
  | rendered text => exact .same _
  | deferred given inner =>
      refine here.unlessTooDeep at_ ?_
      refine (here.bindAfter _ at_ [] args (given _)).next fun frame => ?_
      refine Alike.next ?_ fun text => .same _
      exact .inSetting .callSite (.inSetting (.frame frame) (.textOf (inner _)))

theorem findMacro? (here : kin.Here place place') (name : String) :
    kin.Alike place place' (Option.Rel (Macro.Akin kin.trees)) (Action.findMacro? name)
      (Action.findMacro? name) := by
  refine .bind_view fun view view' isHere isThere sights => ?_
  have sister : Option.Rel (Macro.Akin kin.trees)
      (view.place.homes.head?.bind fun home =>
        (home.lookup? name).map fun definition => Macro.mk definition home)
      (view'.place.homes.head?.bind fun home =>
        (home.lookup? name).map fun definition => Macro.mk definition home) := by
    rw [isHere, isThere]
    exact optionRel_bind (forall₂_head? here.akin.homes) fun sisters =>
      optionRel_map (sisters.lookup? name) fun akin => ⟨akin, sisters⟩
  generalize (view.place.homes.head?.bind _ : Option Macro) = found at sister ⊢
  generalize (view'.place.homes.head?.bind _ : Option Macro) = found' at sister ⊢
  cases sister with
  | none => exact .pure (sights.macros.lookup? name)
  | some akin => exact .pure (.some akin)

/-! ### Blocks -/

theorem renderLevel (here : kin.Here place place') (name : String) (level : Nat) :
    kin.Alike place place' Eq (Action.renderLevel name level)
      (Action.renderLevel name level) := by
  refine .bind_view fun view view' isHere isThere _ => ?_
  have definition : Option.Rel (Level.Akin kin.trees)
      ((view.place.overrides.lookup? name).bind fun chain => chain[level]?)
      ((view'.place.overrides.lookup? name).bind fun chain => chain[level]?) := by
    rw [isHere, isThere]
    exact optionRel_bind (here.akin.overrides.lookup? name) fun chain => forall₂_getElem? chain level
  generalize (view.place.overrides.lookup? name).bind _ = found at definition ⊢
  generalize (view'.place.overrides.lookup? name).bind _ = found' at definition ⊢
  cases definition with
  | none => exact .same _
  | @some definition definition' akin =>
      refine Alike.next ?_ fun text => .same _
      rw [← akin.template]
      exact .inSetting (.block name level _) (.textOf akin.body)

theorem renderBlock (here : kin.Here place place') (name : String) {body body' : List Node}
    (inner : Nodes.Akin kin.trees place.source body body') :
    kin.Alike place place' Eq (Action.renderBlock name body) (Action.renderBlock name body') := by
  refine (here.renderLevel name 0).next fun found => ?_
  cases found with
  | some text => exact .same _
  | none => exact .textOf inner

theorem callSuper (here : kin.Here place place') (at_ : kin.places place.source span span') :
    kin.Alike place place' Eq (Action.callSuper span) (Action.callSuper span') := by
  refine .bind_view fun view view' isHere isThere _ => ?_
  rw [isHere, isThere, ← here.akin.supers]
  cases place.supers with
  | nil => exact (here.problem _ at_).next fun _ => .same _
  | cons block _ =>
      refine (here.renderLevel block.1 (block.2 + 1)).next fun found => ?_
      cases found with
      | some text => exact .same _
      | none => exact (here.problem _ at_).next fun _ => .same _

/-! ### Calls -/

theorem callFunction (here : kin.Here place place') (name : String) (args : Arguments)
    (at_ : kin.places place.source span span') :
    kin.Alike place place' Eq (Action.callFunction name args span)
      (Action.callFunction name args span') := by
  refine .bind_registry ?_
  split
  · exact here.accept _ _ at_
  · refine (resolve name).next fun found => ?_
    cases found with
    | some value => exact (here.problem _ at_).next fun _ => .same _
    | none => exact (here.failedLookup _ _ at_).next fun _ => .same _

theorem callerFor? (here : kin.Here place place') (name : String) :
    kin.Alike place place' (Option.Rel (Caller.Akin kin.trees)) (Action.callerFor? name)
      (Action.callerFor? name) := by
  unfold Action.callerFor?
  split
  · refine .bind_view fun view view' isHere isThere _ => ?_
    have handed := here.akin.callers
    rw [← isHere, ← isThere] at handed
    generalize view.place.callers = callers at handed ⊢
    generalize view'.place.callers = callers' at handed ⊢
    cases handed with
    | nil => exact .pure .none
    | cons innermost _ =>
        cases innermost with
        | none => exact .pure .none
        | some akin => exact .pure (.some akin)
  · exact .pure .none

theorem callName (here : kin.Here place place') (name : String) {args args' : List Expr}
    {caller caller' : Option Caller} (given : Expr.ArgsAkin (kin.places place.source) args args')
    (handed : Option.Rel (Caller.Akin kin.trees) caller caller')
    (at_ : kin.places place.source span span') :
    kin.Alike place place' Eq (Action.callName name args caller span)
      (Action.callName name args' caller' span') := by
  refine (here.callerFor? name).bind fun {asked asked'} akin => ?_
  cases akin with
  | some akin => exact (argumentsOf given).next fun args => here.callCaller akin args at_
  | none =>
      dsimp only
      split
      · exact here.callSuper at_
      · refine (here.findMacro? name).bind fun {found found'} akin => ?_
        cases akin with
        | some akin => exact (argumentsOf given).next fun args => here.callMacro akin args handed at_
        | none => exact (argumentsOf given).next fun args => here.callFunction name args at_

theorem callMethod (here : kin.Here place place') (object : Value) (name : String)
    (args : Arguments) (at_ : kin.places place.source span span') :
    kin.Alike place place' Eq (Action.callMethod object name args span)
      (Action.callMethod object name args span') := by
  refine .bind_registry ?_
  split
  · exact here.accept _ _ at_
  · split
    · exact (here.problem _ at_).next fun _ => .same _
    · exact (here.failedLookup _ _ at_).next fun _ => .same _

end Here

/-- The imported macros that names of two renders stand for. -/
def NamespaceAkin (kin : Kinship) (found found' : String × Table MacroDefinition) : Prop :=
  found.1 = found'.1 ∧ HomeAkin kin.trees found.2 found'.2

/-- What is no name stands for no imported macros. -/
theorem namespaceOf?_of_isName {base : Expr} (isOther : base.isName = false) :
    Action.namespaceOf? base = Pure.pure none := by
  cases base <;> first | rfl | cases isOther

theorem namespaceOf? {base base' : Expr} (akin : base.Akin (kin.places place.source) base')
    (named : base.isName = base'.isName) :
    kin.Alike place place' (Option.Rel kin.NamespaceAkin) (Action.namespaceOf? base)
      (Action.namespaceOf? base') := by
  cases isName : base.isName with
  | false =>
      rw [namespaceOf?_of_isName isName, namespaceOf?_of_isName (named.symm.trans isName)]
      exact .pure .none
  | true =>
      cases akin with
      | name name at_ =>
          refine .bind_view fun view view' _ _ sights => ?_
          rw [sights.scopes]
          split
          · exact .pure .none
          · exact .pure (optionRel_map (sights.namespaces.lookup? name) fun akin => ⟨rfl, akin⟩)
      | _ => cases isName

/-- What has another form than a callee is evaluated, and cannot be called. -/
theorem callExpr_of_form {callee : Expr} (form : callee.calleeForm = .other) (args : List Expr)
    (caller : Option Caller) (span : Span) :
    Action.callExpr callee args caller span = (do
      let value ← Action.valueOf callee
      Action.problem (.notCallable value.typeName) span
      return .nil) := by
  cases callee <;> first | rfl | cases form

theorem Here.callExpr (here : kin.Here place place') {callee callee' : Expr}
    {args args' : List Expr} {caller caller' : Option Caller} {span span' : Span}
    (called : callee.Akin (kin.places place.source) callee')
    (form : callee.calleeForm = callee'.calleeForm)
    (given : Expr.ArgsAkin (kin.places place.source) args args')
    (handed : Option.Rel (Caller.Akin kin.trees) caller caller')
    (at_ : kin.places place.source span span') :
    kin.Alike place place' Eq (Action.callExpr callee args caller span)
      (Action.callExpr callee' args' caller' span') := by
  cases isForm : callee.calleeForm with
  | other =>
      rw [callExpr_of_form isForm, callExpr_of_form (form.symm.trans isForm)]
      exact (Alike.valueOf called).next fun value => (here.problem _ at_).next fun _ => .same _
  | name =>
      cases called with
      | name name _ => exact here.callName name given handed at_
      | _ => cases isForm
  | part ofName =>
      cases called with
      | «attribute» attr akin attrAt =>
          have named := Expr.CalleeForm.part.inj form
          refine (namespaceOf? akin named).bind fun {found found'} sameMacros => ?_
          cases sameMacros with
          | none =>
              exact (Alike.valueOf akin).next fun object => (argumentsOf given).next fun args =>
                here.callMethod object attr args at_
          | @some found found' sameMacros =>
              obtain ⟨name, macros⟩ := found
              obtain ⟨_, macros'⟩ := found'
              obtain ⟨rfl, sisters⟩ := sameMacros
              have definition := sisters.lookup? attr
              dsimp only at definition ⊢
              generalize macros.lookup? attr = found at definition ⊢
              generalize macros'.lookup? attr = found' at definition ⊢
              cases definition with
              | none => exact (here.problem _ attrAt).next fun _ => .same _
              | some akin =>
                  exact (argumentsOf given).next fun args =>
                    here.callMacro ⟨akin, sisters⟩ args handed at_
      | _ => cases isForm

/-! ### Expressions -/

/-- Expressions that are akin ask the same, unless the first one is in parentheses that the second
one does not have. -/
theorem Here.evaluate (here : kin.Here place place') {expr expr' : Expr}
    (akin : expr.Akin (kin.places place.source) expr') :
    (∃ inner span, expr = .group inner span ∧ inner.Akin (kin.places place.source) expr') ∨
      kin.Alike place place' Eq (Action.evaluate expr) (Action.evaluate expr') := by
  cases akin with
  | bare akin at_ => exact .inl ⟨_, _, rfl, akin⟩
  | literal value at_ => exact .inr (.same _)
  | name name at_ => exact .inr (here.lookup name at_)
  | group akin at_ => exact .inr (.valueOf akin)
  | unary op akin at_ =>
      exact .inr ((Alike.valueOf akin).next fun value => here.settle _ at_)
  | binary op first second at_ =>
      refine .inr ?_
      cases op
      case and =>
        refine (Alike.valueOf first).next fun left => ?_
        split
        · exact .valueOf second
        · exact .same _
      case or =>
        refine (Alike.valueOf first).next fun left => ?_
        split
        · exact .same _
        · exact .valueOf second
      all_goals
        exact (Alike.valueOf first).next fun left => (Alike.valueOf second).next fun right =>
          here.settle _ at_
  | membership negated first second at_ =>
      exact .inr ((Alike.valueOf first).next fun element => (Alike.valueOf second).next
        fun container => here.settle _ at_)
  | conditional tested first second at_ =>
      refine .inr ((Alike.valueOf tested).next fun test => ?_)
      split
      · exact .valueOf first
      · cases second with
        | none => exact .same _
        | some akin => exact .valueOf akin
  | call called form given keywords at_ =>
      exact .inr (here.callExpr called form ⟨given, keywords⟩ .none at_)
  | filter name akin given keywords called at_ =>
      exact .inr ((Alike.valueOf akin).next fun value =>
        here.applyFilter value ⟨rfl, ⟨given, keywords⟩, called⟩)
  | test negated name akin named given keywords at_ =>
      exact .inr ((here.holds name akin named ⟨given, keywords⟩ at_).next fun result => .same _)
  | «attribute» attr akin at_ =>
      exact .inr ((Alike.valueOf akin).next fun base => here.partOr _ _ _ at_)
  | item first second at_ =>
      exact .inr ((Alike.valueOf first).next fun base => (Alike.valueOf second).next
        fun index => here.partOr _ _ _ at_)
  | list each at_ => exact .inr ((valuesOf each).next fun values => .same _)
  | tuple each at_ => exact .inr ((valuesOf each).next fun values => .same _)
  | dict keys values at_ => exact .inr ((entriesAfter [] keys values).next fun entries => .same _)
  | keyword name akin at_ => exact .inr (.valueOf akin)
  | missing at_ => exact .inr (.same _)

end Kinship

end Stencil.Render
