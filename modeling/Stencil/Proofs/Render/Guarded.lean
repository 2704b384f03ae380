import Stencil.Proofs.Render.Uniform

/-!
Contract: where renders go into templates.

Owns:
- actions that go into a template only if it is not being rendered, and into another one than the
  first only if it has been loaded;
- that expressions, statements and whole renders are such actions: parts of a template go into no
  template, and chains of templates and templates in place of tags look before they do.

Does not own: what follows for the templates being rendered (`Stencil.Proofs.Render.Loads`).
-/

set_option autoImplicit false

namespace Stencil.Render

open Stencil.Host (Environment Loaded)
open Stencil.Syntax (Expr Node Template)
open Stencil.Text (Span)

/-! ### Templates that are being rendered -/

/-- The templates being rendered inside a setting. -/
def Setting.loads (setting : Setting) (outside : List String) : List String :=
  match setting with
  | .template name => name :: outside
  | _ => outside

variable {α β : Type} {environment : Environment} {had : String → Prop} {loads : List String}

theorem Setting.loads_place (setting : Setting) (place : Place) :
    (setting.place place).loads = setting.loads place.loads := by
  cases setting <;> rfl

/-- Whether a setting may be entered where some templates are being rendered and some have been
loaded. Nothing is asked of the first template. -/
def Setting.Open (had : String → Prop) (loads : List String) : Setting → Prop
  | .template name => name ∉ loads ∧ (loads = [] ∨ had name)
  | _ => True

theorem Setting.Open.mono {more : String → Prop} (isMore : ∀ name, had name → more name)
    {setting : Setting} (isOpen : setting.Open had loads) : setting.Open more loads := by
  cases setting with
  | template name => exact ⟨isOpen.1, isOpen.2.imp_right (isMore name)⟩
  | _ => trivial

theorem Setting.open_of_isInner {setting : Setting} (isInner : setting.isInner = true) :
    setting.Open had loads := by
  cases setting with
  | template => cases isInner
  | _ => trivial

namespace Action

/-- Whether an action enters open settings only, whatever the answers to its requests. A template
that is loaded has the name that it was asked for by. -/
def Guarded (environment : Environment) :
    {α : Type} → (had : String → Prop) → (loads : List String) → Action α → Prop
  | _, _, _, .done _ => True
  | _, had, loads, .eval _ next => ∀ value, (next value).Guarded environment had loads
  | _, had, loads, .render _ next => ∀ text, (next text).Guarded environment had loads
  | _, had, loads, .ascend _ _ next => ∀ text, (next text).Guarded environment had loads
  | _, had, loads, .look next =>
      ∀ view, view.place.loads = loads → (next view).Guarded environment had loads
  | _, had, loads, .consult next => (next environment.toRegistry).Guarded environment had loads
  | _, had, loads, .survey next => (next environment.facade).Guarded environment had loads
  | _, had, loads, .report _ next => next.Guarded environment had loads
  | _, had, loads, .complain _ _ next => next.Guarded environment had loads
  | _, had, loads, .bindName _ _ next => next.Guarded environment had loads
  | _, had, loads, .store _ _ _ _ next => ∀ refusal, (next refusal).Guarded environment had loads
  | _, had, loads, .define _ _ next => next.Guarded environment had loads
  | _, had, loads, .mount _ _ next => next.Guarded environment had loads
  | _, had, loads, .load name next =>
      (∀ fault, (next (.error fault)).Guarded environment had loads) ∧
        ∀ loaded, loaded.name = name →
          (next (.ok loaded)).Guarded environment (fun other => other = name ∨ had other) loads
  | _, had, loads, .within setting inner next =>
      setting.Open had loads ∧ inner.Guarded environment had (setting.loads loads) ∧
        ∀ answer, (next answer).Guarded environment had loads

theorem Guarded.mono {more : String → Prop} (isMore : ∀ name, had name → more name)
    {action : Action α} (guarded : action.Guarded environment had loads) :
    action.Guarded environment more loads := by
  induction action generalizing had more loads with
  | done answer => trivial
  | eval _ _ inductionHypothesis | render _ _ inductionHypothesis
  | ascend _ _ _ inductionHypothesis | store _ _ _ _ _ inductionHypothesis =>
      exact fun answer => inductionHypothesis answer isMore (guarded answer)
  | look next inductionHypothesis =>
      exact fun view areLoads => inductionHypothesis view isMore (guarded view areLoads)
  | consult _ inductionHypothesis | survey _ inductionHypothesis =>
      exact inductionHypothesis _ isMore guarded
  | report _ _ inductionHypothesis | complain _ _ _ inductionHypothesis
  | bindName _ _ _ inductionHypothesis | define _ _ _ inductionHypothesis
  | mount _ _ _ inductionHypothesis => exact inductionHypothesis isMore guarded
  | load name next inductionHypothesis =>
      exact ⟨fun fault => inductionHypothesis _ isMore (guarded.1 fault), fun loaded isName =>
        inductionHypothesis _ (fun other => Or.imp_right (isMore other)) (guarded.2 loaded isName)⟩
  | within setting inner next innerHypothesis nextHypothesis =>
      exact ⟨guarded.1.mono isMore, innerHypothesis isMore guarded.2.1, fun answer =>
        nextHypothesis answer isMore (guarded.2.2 answer)⟩

/-- A sequence of guarded actions is guarded. What the first of them has loaded only helps. -/
theorem Guarded.andThen {first : Action α} {rest : α → Action β}
    (guarded : first.Guarded environment had loads)
    (guardedRest : ∀ answer, (rest answer).Guarded environment had loads) :
    (first.andThen rest).Guarded environment had loads := by
  induction first generalizing had loads with
  | done answer => exact guardedRest answer
  | eval _ _ inductionHypothesis | render _ _ inductionHypothesis
  | ascend _ _ _ inductionHypothesis | store _ _ _ _ _ inductionHypothesis =>
      exact fun answer => inductionHypothesis answer (guarded answer) guardedRest
  | look next inductionHypothesis =>
      exact fun view areLoads => inductionHypothesis view (guarded view areLoads) guardedRest
  | consult _ inductionHypothesis | survey _ inductionHypothesis =>
      exact inductionHypothesis _ guarded guardedRest
  | report _ _ inductionHypothesis | complain _ _ _ inductionHypothesis
  | bindName _ _ _ inductionHypothesis | define _ _ _ inductionHypothesis
  | mount _ _ _ inductionHypothesis => exact inductionHypothesis guarded guardedRest
  | load name next inductionHypothesis =>
      exact ⟨fun fault => inductionHypothesis _ (guarded.1 fault) guardedRest,
        fun loaded isName => inductionHypothesis _ (guarded.2 loaded isName)
          fun answer => (guardedRest answer).mono fun _ => .inr⟩
  | within setting inner next _ nextHypothesis =>
      exact ⟨guarded.1, guarded.2.1, fun answer =>
        nextHypothesis answer (guarded.2.2 answer) guardedRest⟩

/-- The first part of a guarded sequence is guarded. -/
theorem Guarded.of_andThen {first : Action α} {rest : α → Action β}
    (guarded : (first.andThen rest).Guarded environment had loads) :
    first.Guarded environment had loads := by
  induction first generalizing had loads with
  | done answer => trivial
  | eval _ _ inductionHypothesis | render _ _ inductionHypothesis
  | ascend _ _ _ inductionHypothesis | store _ _ _ _ _ inductionHypothesis =>
      exact fun answer => inductionHypothesis answer (guarded answer)
  | look next inductionHypothesis =>
      exact fun view areLoads => inductionHypothesis view (guarded view areLoads)
  | consult _ inductionHypothesis | survey _ inductionHypothesis =>
      exact inductionHypothesis _ guarded
  | report _ _ inductionHypothesis | complain _ _ _ inductionHypothesis
  | bindName _ _ _ inductionHypothesis | define _ _ _ inductionHypothesis
  | mount _ _ _ inductionHypothesis => exact inductionHypothesis guarded
  | load name next inductionHypothesis =>
      exact ⟨fun fault => inductionHypothesis _ (guarded.1 fault),
        fun loaded isName => inductionHypothesis _ (guarded.2 loaded isName)⟩
  | within setting inner next _ nextHypothesis =>
      exact ⟨guarded.1, guarded.2.1, fun answer => nextHypothesis answer (guarded.2.2 answer)⟩

end Action

/-! ### Parts of a template -/

/-- A render by itself that may be asked anything but to go into a template. -/
def Accord.secluded (environment : Environment) : Accord Unit where
  hosts _ := environment
  views _ := True
  expr _ := True
  bodies _ := True
  ascent _ _ := True
  told _ := True
  complaint _ _ := True
  callable _ := True
  mounted _ := True
  loads := True
  loaded _ := True
  setting setting := setting.isInner = true

theorem uniform_secluded : (Accord.secluded environment).Uniform .any where
  outlook {views} _ := ⟨(views ()).outlook, fun _ => rfl⟩
  variable_ {views name} _ _ := ⟨(views ()).scopes.lookup? name, fun _ => rfl⟩
  name _ := trivial
  lookups := ⟨environment.lookups, fun _ => rfl⟩
  child _ _ := trivial
  told _ _ := trivial
  complaint _ _ := trivial
  frame _ := rfl
  loop := rfl
  closed := Material.any_closed
  same {views} _ := ⟨views (), fun _ => rfl, Material.any_holds _⟩
  default _ := trivial
  called _ _ _ := trivial
  body _ := trivial
  callable _ := trivial
  mounted _ := trivial
  loads _ := trivial
  loaded _ _ _ := trivial
  setting isInner _ := isInner

namespace Action

/-- What goes into no template goes into none that is being rendered. -/
theorem guarded_of_alike {actions : Unit → Action α}
    (alike : (Accord.secluded environment).Alike actions) :
    (actions ()).Guarded environment had loads := by
  induction alike generalizing had loads with
  | done answer => trivial
  | eval _ _ inductionHypothesis | render _ _ inductionHypothesis
  | ascend _ _ inductionHypothesis | store _ _ inductionHypothesis =>
      exact fun answer => inductionHypothesis answer
  | look _ inductionHypothesis => exact fun view _ => inductionHypothesis (fun _ => view) trivial
  | consult _ inductionHypothesis | survey _ inductionHypothesis
  | report _ _ inductionHypothesis | complain _ _ inductionHypothesis
  | bindName _ inductionHypothesis | define _ _ inductionHypothesis
  | mount _ _ inductionHypothesis => exact inductionHypothesis
  | load _ _ inductionHypothesis =>
      exact ⟨fun fault => inductionHypothesis _ fun _ _ => trivial,
        fun loaded _ => inductionHypothesis _ fun _ _ => trivial⟩
  | within isInner _ _ innerHypothesis nextHypothesis =>
      exact ⟨Setting.open_of_isInner isInner, innerHypothesis, fun answer => nextHypothesis answer⟩

theorem guarded_of_asks {action : Action α} (asks : (Accord.secluded environment).Asks action) :
    action.Guarded environment had loads :=
  guarded_of_alike asks

theorem guarded_evaluate (expr : Expr) : (evaluate expr).Guarded environment had loads :=
  guarded_of_asks (uniform_secluded.evaluate_of_expr trivial)

/-! ### Whole templates -/

/-- An action that begins with one that goes into no template is guarded if the rest of it is. -/
theorem guarded_bind {first : Action α} {rest : α → Action β}
    (asks : (Accord.secluded environment).Asks first)
    (guarded : ∀ answer, (rest answer).Guarded environment had loads) :
    (first >>= rest).Guarded environment had loads :=
  (guarded_of_asks asks).andThen guarded

theorem guarded_bind_view {rest : View → Action α}
    (guarded : ∀ view : View, view.place.loads = loads →
      (rest view).Guarded environment had loads) :
    (view >>= rest).Guarded environment had loads := guarded

theorem guarded_bind_fetch (name : String) {rest : Except Host.LoadFault Loaded → Action α}
    (guardedError : ∀ fault, (rest (.error fault)).Guarded environment had loads)
    (guarded : ∀ loaded : Loaded, loaded.name = name →
      (rest (.ok loaded)).Guarded environment (fun other => other = name ∨ had other) loads) :
    (fetch name >>= rest).Guarded environment had loads := ⟨guardedError, guarded⟩

theorem guarded_bind_loadOrReport (name : String) (span : Span) {rest : Option Loaded → Action α}
    (guardedNone : (rest none).Guarded environment had loads)
    (guarded : ∀ loaded : Loaded, loaded.name = name →
      (rest (some loaded)).Guarded environment (fun other => other = name ∨ had other) loads) :
    (loadOrReport name span >>= rest).Guarded environment had loads := ⟨fun _ => guardedNone, guarded⟩

theorem guarded_renderTemplate {name : String} (template : Template) (isNew : name ∉ loads)
    (isHad : loads = [] ∨ had name) :
    (renderTemplate name template).Guarded environment had loads := by
  refine ⟨⟨isNew, isHad⟩, guarded_of_asks ?_, fun _ => trivial⟩
  refine (uniform_secluded.defineAll (fun _ _ _ => Material.any_callable _)
    fun _ _ => Material.any_callable _).bind fun _ => ?_
  split
  · exact .textOf trivial
  · exact (uniform_secluded.prepare fun _ _ => trivial).bind fun _ => .ascend trivial .done

/-- A template by name is the first of its render. -/
theorem guarded_renderNamed (name : String) : (renderNamed name).Guarded environment had [] :=
  guarded_bind_loadOrReport name _ trivial fun loaded _ =>
    guarded_renderTemplate loaded.template List.not_mem_nil (.inl rfl)

theorem guarded_onto (overrides : Overrides) {loaded : Loaded} (isNew : loaded.name ∉ loads)
    (isHad : had loaded.name) : (onto overrides loaded).Guarded environment had loads := by
  refine guarded_bind (uniform_secluded.defineMissing (fun _ _ _ => Material.any_callable _)
    fun _ _ => Material.any_callable _) fun _ => ?_
  split
  · exact ⟨trivial, ⟨⟨isNew, .inr isHad⟩, fun _ => trivial, fun _ => trivial⟩, fun _ => trivial⟩
  · refine ⟨⟨isNew, .inr isHad⟩, guarded_of_asks ?_, fun _ => trivial⟩
    exact (uniform_secluded.prepare fun _ _ => trivial).bind fun _ => .ascend trivial .done

/-- A template that others are built on is looked for among those being rendered, then loaded, then
gone into. -/
theorem guarded_ascendTo (overrides : Overrides) (parent : Expr) :
    (ascendTo overrides parent).Guarded environment had loads := by
  refine guarded_bind (uniform_secluded.templateName? trivial) fun name? => ?_
  cases name? with
  | none => trivial
  | some name =>
      refine guarded_bind_view fun view areLoads => ?_
      split
      · exact guarded_bind (uniform_secluded.reportCycle name _) fun _ => trivial
      · rename_i isNew
        refine guarded_bind_loadOrReport name _ trivial ?_
        rintro loaded rfl
        exact guarded_onto overrides (areLoads ▸ isNew) (.inl rfl)

theorem guarded_embedFirst? (withContext : Bool) (span : Span) (names : List String) :
    (embedFirst? withContext span names).Guarded environment had loads := by
  induction names with
  | nil => trivial
  | cons name rest inductionHypothesis =>
      refine guarded_bind_view fun view areLoads => ?_
      split
      · exact guarded_bind (uniform_secluded.reportCycle name _) fun _ => trivial
      · rename_i isNew
        refine guarded_bind_fetch name (fun fault => ?_) ?_
        · dsimp only
          split
          · exact inductionHypothesis
          · trivial
        · rintro loaded rfl
          have isGuarded : (renderTemplate loaded.name loaded.template).Guarded environment
              (fun other => other = loaded.name ∨ had other) loads :=
            guarded_renderTemplate loaded.template (areLoads ▸ isNew) (.inr (.inl rfl))
          exact ⟨trivial, isGuarded, fun _ => trivial⟩

theorem guarded_embed (template : Expr) (withContext ignoreMissing : Bool) :
    (embed template withContext ignoreMissing).Guarded environment had loads := by
  refine guarded_bind (.valueOf trivial) fun value => ?_
  split
  · exact guarded_bind (uniform_secluded.problem _ rfl) fun _ => trivial
  · refine (guarded_embedFirst? _ _ _).andThen fun text? => ?_
    cases text? with
    | some text => trivial
    | none =>
        dsimp only
        split
        · exact guarded_bind (uniform_secluded.problem _ rfl) fun _ => trivial
        · trivial

/-- All statements are guarded: only one that renders a template in place of a tag goes into one. -/
theorem guarded_carryOut (node : Node) : (carryOut node).Guarded environment had loads := by
  by_cases isEmbed : ∃ template withContext ignoreMissing span,
      node = .embed template withContext ignoreMissing span
  · obtain ⟨template, withContext, ignoreMissing, span, rfl⟩ := isEmbed
    exact guarded_embed template withContext ignoreMissing
  · refine guarded_of_asks (uniform_secluded.carryOut
      (fun isNode _ => absurd ⟨_, _, _, _, isNode⟩ isEmbed) (fun _ _ _ => ?_) (fun _ _ => trivial) trivial)
    have same : ∀ i, ((Accord.secluded environment).hosts i).facade = environment.facade :=
      fun _ => rfl
    exact uniform_secluded.renderCustom (fun _ _ _ => .any (fun _ => trivial) (fun _ => trivial) same
      (fun _ _ _ => trivial) (fun _ => trivial)
      (fun {views} _ => ⟨(views ()).scopes.depth, fun _ => rfl⟩) _) fun _ _ _ _ => trivial

end Action

end Stencil.Render
