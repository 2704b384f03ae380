import Stencil.Proofs.Render.Balance

/-!
Contract: renders side by side.

Owns:
- what several renders have in common: what they can show when they are looked at side by side, and
  what they may be asked;
- actions that ask the same of all of them;
- relations between the states of all renders that single requests keep, and so do whole actions:
  what each request does is looked at once, in `Accord.abreast_perform`.

The renders need not be of the same templates or for the same host. One of them may lead: if it has
no answer, nothing is said about the others. Where none leads, all of them have an answer.

Does not own: which actions ask the same (`Stencil.Proofs.Render.Plain`,
`Stencil.Proofs.Render.Uniform`), and the relations.
-/

set_option autoImplicit false

namespace Stencil.Render

open Stencil.Host (Environment Loaded)
open Stencil.Report (Diagnostic)
open Stencil.Syntax (Expr MacroDefinition Node)
open Stencil.Text (Span)

variable {ι α β : Type}

/-! ### What requests read -/

/-- The frames behind a change of a part of a variable, and what cannot be assigned to. -/
def Scopes.stored (root : String) (path : List Value.Key) (key : Value.Key) (value : Value)
    (scopes : Scopes) : Option String × Scopes :=
  match scopes.lookup? root with
  | none => (some ("'" ++ root ++ "', which is not a local variable"), scopes)
  | some old =>
      match old.store (path ++ [key]) value with
      | .error refusal => (some refusal.describe, scopes)
      | .ok new => (none, scopes.replace root new)

/-- A change of a part of a variable depends on the frames only and changes nothing else. -/
theorem State.store_eq (root : String) (path : List Value.Key) (key : Value.Key) (value : Value)
    (state : State) : state.store root path key value =
      ((state.scopes.stored root path key value).1,
        { state with scopes := (state.scopes.stored root path key value).2 }) := by
  cases isOld : state.scopes.lookup? root with
  | none => simp only [State.store, Scopes.stored, isOld]
  | some old =>
      cases isNew : old.store (path ++ [key]) value <;>
        simp only [State.store, Scopes.stored, isOld, isNew]

/-- Whether there is a step left. -/
def State.goesOn (maxSteps : Option Nat) (state : State) : Bool :=
  !state.halted && maxSteps.all (state.steps + 1 ≤ ·)

theorem State.tick_goesOn (maxSteps : Option Nat) (span : Span) (state : State) :
    (state.tick maxSteps span).1 = state.goesOn maxSteps := by
  unfold State.tick State.goesOn
  cases state.halted with
  | true => rfl
  | false =>
      cases maxSteps with
      | none => rfl
      | some limit =>
          show (ite (state.steps + 1 ≤ limit) (_ : Bool × State) _).1 = decide (state.steps + 1 ≤ limit)
          by_cases isLe : state.steps + 1 ≤ limit
          · rw [if_pos isLe, decide_eq_true isLe]
          · rw [if_neg isLe, decide_eq_false isLe]

theorem State.tick_of_goesOn {maxSteps : Option Nat} (span : Span) {state : State}
    (goesOn : state.goesOn maxSteps = true) :
    (state.tick maxSteps span).2 = { state with steps := state.steps + 1 } := by
  unfold State.goesOn at goesOn
  unfold State.tick
  cases isHalted : state.halted with
  | true => simp [isHalted] at goesOn
  | false =>
      cases maxSteps with
      | none => rfl
      | some limit =>
          have isLe : state.steps + 1 ≤ limit := by simpa [isHalted] using goesOn
          simp [isLe]

theorem State.tick_of_halted (maxSteps : Option Nat) (span : Span) {state : State}
    (isHalted : state.halted = true) : (state.tick maxSteps span).2 = state := by
  unfold State.tick
  rw [isHalted]
  rfl

theorem State.tick_of_stops {limit : Nat} {span : Span} {state : State}
    (isRunning : state.halted = false) (stops : ¬state.steps + 1 ≤ limit) :
    (state.tick (some limit) span).2 =
      { state with steps := state.steps + 1, halted := true }.report
        ((Problem.budgetExceeded limit).at_ span) := by
  unfold State.tick
  simp [isRunning, stops]

theorem State.load_answer (environment : Environment) (name : String) (state : State) :
    (state.load environment name).1 = (Host.Shelf.fetch environment name state.shelf).1 := by
  unfold State.load
  split <;> rename_i isFetched <;> rw [isFetched]

theorem State.load_of_ok {environment : Environment} {name : String} {state : State}
    {loaded : Loaded} (isLoaded : (Host.Shelf.fetch environment name state.shelf).1 = .ok loaded) :
    (state.load environment name).2 = { state with
      shelf := (Host.Shelf.fetch environment name state.shelf).2 }.reportLoaded loaded := by
  unfold State.load
  split
  · rename_i isFetched
    rw [isFetched] at isLoaded ⊢
    cases isLoaded
    rfl
  · rename_i isFetched
    rw [isFetched] at isLoaded
    cases isLoaded

theorem State.load_of_error {environment : Environment} {name : String} {state : State}
    {fault : Host.LoadFault}
    (isFault : (Host.Shelf.fetch environment name state.shelf).1 = .error fault) :
    (state.load environment name).2 = { state with
      shelf := (Host.Shelf.fetch environment name state.shelf).2 } := by
  unfold State.load
  split
  · rename_i isFetched
    rw [isFetched] at isFault
    cases isFault
  · rename_i isFetched
    rw [isFetched]

theorem State.toView_load (environment : Environment) (name : String) (state : State) :
    (state.load environment name).2.toView = state.toView := by
  unfold State.load State.reportLoaded
  split
  · dsimp only
    split <;> rfl
  · rfl

theorem State.shelf_load (environment : Environment) (name : String) (state : State) :
    (state.load environment name).2.shelf =
      (Host.Shelf.fetch environment name state.shelf).2 := by
  cases isAnswer : (Host.Shelf.fetch environment name state.shelf).1 with
  | error fault => rw [State.load_of_error isAnswer]
  | ok loaded =>
      rw [State.load_of_ok isAnswer]
      unfold State.reportLoaded
      split <;> rfl

/-- Whether the stacks of a render are of the same heights behind a part of it as before. -/
def Standing.Level (before after : Standing) : Prop :=
  after.place = before.place ∧ after.scopes.depth = before.scopes.depth

theorem Below.level (environment : Environment) (depth : Nat) :
    (belowDepth environment depth).Upholds Standing.Level :=
  upholds_belowDepth upheld_balance environment depth

/-! ### Renders side by side -/

/-- What several renders have in common. -/
structure Accord (ι : Type) where
  hosts : ι → Environment
  /-- What looks at the renders can show. -/
  views : (ι → View) → Prop
  /-- What may be evaluated. -/
  expr : Expr → Prop
  /-- What may be rendered side by side. -/
  bodies : (ι → List Node) → Prop
  /-- What may be gone up to, and with which definitions of blocks. -/
  ascent : Overrides → Expr → Prop
  /-- What may be reported. -/
  told : Diagnostic → Prop
  /-- What may be reported of a failed look-up if the host wants it. -/
  complaint : Lookup → Diagnostic → Prop
  /-- What may be made callable. -/
  callable : Macro → Prop
  mounted : Table MacroDefinition → Prop
  /-- Whether templates may be loaded. -/
  loads : Prop
  /-- What loading a template can give. -/
  loaded : Loaded → Prop
  /-- What may be entered. -/
  setting : Setting → Prop
  /-- The variables that may be asked for. -/
  names : String → Prop := fun _ => True

namespace Accord

variable {accord : Accord ι}

/-! ### Actions -/

/-- Whether actions ask the same of all renders, whatever the renders answer and show. -/
inductive Alike (accord : Accord ι) : {α : Type} → (ι → Action α) → Prop where
  | done {α : Type} (answer : α) : accord.Alike fun _ => .done answer
  | eval {α : Type} {expr : Expr} {next : ι → Value → Action α} (allowed : accord.expr expr)
      (rest : ∀ value, accord.Alike fun i => next i value) :
      accord.Alike fun i => .eval expr (next i)
  | render {α : Type} {bodies : ι → List Node} {next : ι → String → Action α}
      (allowed : accord.bodies bodies) (rest : ∀ text, accord.Alike fun i => next i text) :
      accord.Alike fun i => .render (bodies i) (next i)
  | ascend {α : Type} {overrides : Overrides} {parent : Expr} {next : ι → String → Action α}
      (allowed : accord.ascent overrides parent) (rest : ∀ text, accord.Alike fun i => next i text) :
      accord.Alike fun i => .ascend overrides parent (next i)
  | look {α : Type} {next : ι → View → Action α}
      (rest : ∀ views, accord.views views → accord.Alike fun i => next i (views i)) :
      accord.Alike fun i => .look (next i)
  | consult {α : Type} {next : ι → Host.Registry → Action α}
      (rest : accord.Alike fun i => next i (accord.hosts i).toRegistry) :
      accord.Alike fun i => .consult (next i)
  | survey {α : Type} {next : ι → Host.Facade → Action α}
      (rest : accord.Alike fun i => next i (accord.hosts i).facade) :
      accord.Alike fun i => .survey (next i)
  | report {α : Type} {diagnostic : Diagnostic} {next : ι → Action α}
      (allowed : accord.told diagnostic) (rest : accord.Alike next) :
      accord.Alike fun i => .report diagnostic (next i)
  | complain {α : Type} {lookup : Lookup} {diagnostic : Diagnostic} {next : ι → Action α}
      (allowed : accord.complaint lookup diagnostic) (rest : accord.Alike next) :
      accord.Alike fun i => .complain lookup diagnostic (next i)
  | bindName {α : Type} {name : String} {value : Value} {next : ι → Action α}
      (rest : accord.Alike next) : accord.Alike fun i => .bindName name value (next i)
  | store {α : Type} {root : String} {path : List Value.Key} {key : Value.Key} {value : Value}
      {next : ι → Option String → Action α} (allowed : accord.names root)
      (rest : ∀ refusal, accord.Alike fun i => next i refusal) :
      accord.Alike fun i => .store root path key value (next i)
  | define {α : Type} {name : String} {callable : Macro} {next : ι → Action α}
      (allowed : accord.callable callable) (rest : accord.Alike next) :
      accord.Alike fun i => .define name callable (next i)
  | mount {α : Type} {name : String} {macros : Table MacroDefinition} {next : ι → Action α}
      (allowed : accord.mounted macros) (rest : accord.Alike next) :
      accord.Alike fun i => .mount name macros (next i)
  | load {α : Type} {name : String} {next : ι → Except Host.LoadFault Loaded → Action α}
      (allowed : accord.loads)
      (rest : ∀ answer, (∀ loaded, answer = .ok loaded → accord.loaded loaded) →
        accord.Alike fun i => next i answer) :
      accord.Alike fun i => .load name (next i)
  | within {α β : Type} {setting : Setting} {inner : ι → Action β} {next : ι → β → Action α}
      (allowed : accord.setting setting) (inside : accord.Alike inner)
      (rest : ∀ answer, accord.Alike fun i => next i answer) :
      accord.Alike fun i => .within setting (inner i) (next i)

theorem Alike.andThen {first : ι → Action α} {rest : ι → α → Action β}
    (alike : accord.Alike first) (alikeRest : ∀ answer, accord.Alike fun i => rest i answer) :
    accord.Alike fun i => (first i).andThen (rest i) := by
  induction alike with
  | done answer => exact alikeRest answer
  | eval allowed _ inductionHypothesis =>
      exact .eval allowed fun value => inductionHypothesis value alikeRest
  | render allowed _ inductionHypothesis =>
      exact .render allowed fun text => inductionHypothesis text alikeRest
  | ascend allowed _ inductionHypothesis =>
      exact .ascend allowed fun text => inductionHypothesis text alikeRest
  | look _ inductionHypothesis =>
      exact .look fun views isShown => inductionHypothesis views isShown alikeRest
  | consult _ inductionHypothesis => exact .consult (inductionHypothesis alikeRest)
  | survey _ inductionHypothesis => exact .survey (inductionHypothesis alikeRest)
  | report allowed _ inductionHypothesis => exact .report allowed (inductionHypothesis alikeRest)
  | complain allowed _ inductionHypothesis =>
      exact .complain allowed (inductionHypothesis alikeRest)
  | bindName _ inductionHypothesis => exact .bindName (inductionHypothesis alikeRest)
  | store allowed _ inductionHypothesis =>
      exact .store allowed fun refusal => inductionHypothesis refusal alikeRest
  | define allowed _ inductionHypothesis => exact .define allowed (inductionHypothesis alikeRest)
  | mount allowed _ inductionHypothesis => exact .mount allowed (inductionHypothesis alikeRest)
  | load allowed _ inductionHypothesis =>
      exact .load allowed fun answer isLoaded => inductionHypothesis answer isLoaded alikeRest
  | within allowed inside _ _ inductionHypothesis =>
      exact .within allowed inside fun answer => inductionHypothesis answer alikeRest

/-! ### Runs -/

/-- Whether runs that start from related states end with the same answer in related states. If one
of them leads, it may have no answer instead. -/
def Abreast (lead : Option ι) (rel : (ι → State) → Prop) (runs : ι → Run α) : Prop :=
  ∀ ⦃states : ι → State⦄, rel states →
    (∃ i ∈ lead, runs i (states i) = none) ∨
      ∃ answer afters, (∀ i, runs i (states i) = some (answer, afters i)) ∧ rel afters

variable {lead : Option ι} {rel : (ι → State) → Prop}

theorem Abreast.bind {runs : ι → Run α} {rest : ι → α → Run β} (first : Abreast lead rel runs)
    (second : ∀ answer, Abreast lead rel fun i => rest i answer) :
    Abreast lead rel fun i state =>
      (runs i state).bind fun answer => rest i answer.1 answer.2 := by
  intro states related
  rcases first related with ⟨i, isLead, isNone⟩ | ⟨answer, middles, areMiddles, related⟩
  · exact .inl ⟨i, isLead, by simp only [isNone, Option.bind_none]⟩
  · rcases second answer related with ⟨i, isLead, isNone⟩ | ⟨result, afters, areAfters, related⟩
    · exact .inl ⟨i, isLead, by simp only [areMiddles, Option.bind_some, isNone]⟩
    · refine .inr ⟨result, afters, fun i => ?_, related⟩
      simp only [areMiddles, Option.bind_some, areAfters]

/-- If the render that leads has an answer, all have it. -/
theorem Abreast.answer {runs : ι → Run α} {leader : ι} (abreast : Abreast (some leader) rel runs)
    {states : ι → State} (related : rel states) {answer : α} {after : State}
    (isAnswer : runs leader (states leader) = some (answer, after)) :
    ∃ afters, (∀ i, runs i (states i) = some (answer, afters i)) ∧ afters leader = after ∧
      rel afters := by
  rcases abreast related with ⟨i, isLead, isNone⟩ | ⟨other, afters, areAfters, related⟩
  · obtain rfl := Option.some.inj isLead
    cases isNone.symm.trans isAnswer
  · have same := (areAfters leader).symm.trans isAnswer
    cases same
    exact ⟨afters, areAfters, rfl, related⟩

/-- Whether a relation between the states of renders is kept by everything that their actions can do
to them by themselves. -/
structure Keeps (accord : Accord ι) (rel : (ι → State) → Prop) : Prop where
  view : ∀ {states}, rel states → accord.views fun i => (states i).toView
  report : ∀ {states diagnostic}, rel states → accord.told diagnostic →
    rel fun i => (states i).report diagnostic
  complain : ∀ {states lookup diagnostic}, rel states → accord.complaint lookup diagnostic →
    rel fun i => if lookup.isStrict (accord.hosts i).strict then (states i).report diagnostic
      else states i
  bind : ∀ {states} (name : String) (value : Value), rel states →
    rel fun i => { states i with scopes := (states i).scopes.bind name value }
  store : ∀ {states} (root : String) (path : List Value.Key) (key : Value.Key) (value : Value),
    rel states → accord.names root →
      ∃ refusal, (∀ i, ((states i).store root path key value).1 = refusal) ∧
        rel fun i => ((states i).store root path key value).2
  define : ∀ {states callable} (name : String), rel states → accord.callable callable →
    rel fun i => { states i with macros := (states i).macros.put name callable }
  mount : ∀ {states macros} (name : String), rel states → accord.mounted macros →
    rel fun i => { states i with namespaces := (states i).namespaces.put name macros }
  load : ∀ {states} (name : String), rel states → accord.loads → ∃ answer,
    (∀ loaded, answer = .ok loaded → accord.loaded loaded) ∧
      (∀ i, ((states i).load (accord.hosts i) name).1 = answer) ∧
        rel fun i => ((states i).load (accord.hosts i) name).2
  enter : ∀ {states setting}, rel states → accord.setting setting →
    rel fun i => { states i with toView := setting.enter (states i).toView }
  leave : ∀ {states afters setting}, rel states → accord.setting setting → rel afters →
    (∀ i, (setting.into (states i).standing).Level (afters i).standing) →
    rel fun i => { afters i with toView := setting.leave (states i).toView (afters i).toView }

/-- Whether the parts of actions are carried out abreast. -/
structure Carries (accord : Accord ι) (lead : Option ι) (rel : (ι → State) → Prop)
    (belows : ι → Below) : Prop where
  eval : ∀ {expr}, accord.expr expr → Abreast lead rel fun i => (belows i).eval expr
  render : ∀ {bodies}, accord.bodies bodies →
    Abreast lead rel fun i => (belows i).render (bodies i)
  ascend : ∀ {overrides parent}, accord.ascent overrides parent →
    Abreast lead rel fun i => (belows i).ascend overrides parent
  level : ∀ i, (belows i).Upholds Standing.Level

/-- Actions that ask the same are carried out abreast. -/
theorem abreast_perform {belows : ι → Below} (keeps : accord.Keeps rel)
    (carries : accord.Carries lead rel belows) {actions : ι → Action α}
    (alike : accord.Alike actions) :
    Abreast lead rel fun i => (actions i).perform (accord.hosts i) (belows i) := by
  induction alike with
  | done answer => exact fun states related => .inr ⟨answer, states, fun _ => rfl, related⟩
  | eval allowed _ inductionHypothesis =>
      intro states related
      simp only [Action.perform_eval]
      exact (carries.eval allowed).bind inductionHypothesis related
  | render allowed _ inductionHypothesis =>
      intro states related
      simp only [Action.perform_render]
      exact (carries.render allowed).bind inductionHypothesis related
  | ascend allowed _ inductionHypothesis =>
      intro states related
      simp only [Action.perform_ascend]
      exact (carries.ascend allowed).bind inductionHypothesis related
  | look _ inductionHypothesis =>
      exact fun states related => inductionHypothesis _ (keeps.view related) related
  | consult _ inductionHypothesis => exact inductionHypothesis
  | survey _ inductionHypothesis => exact inductionHypothesis
  | report allowed _ inductionHypothesis =>
      exact fun states related => inductionHypothesis (keeps.report related allowed)
  | complain allowed _ inductionHypothesis =>
      exact fun states related => inductionHypothesis (keeps.complain related allowed)
  | bindName _ inductionHypothesis =>
      exact fun states related => inductionHypothesis (keeps.bind _ _ related)
  | @store _ root path key value next allowed _ inductionHypothesis =>
      intro states related
      obtain ⟨refusal, areRefused, relatedAfter⟩ := keeps.store root path key value related allowed
      simp only [Action.perform, areRefused]
      exact inductionHypothesis refusal relatedAfter
  | define allowed _ inductionHypothesis =>
      exact fun states related => inductionHypothesis (keeps.define _ related allowed)
  | mount allowed _ inductionHypothesis =>
      exact fun states related => inductionHypothesis (keeps.mount _ related allowed)
  | @load _ name next allowed _ inductionHypothesis =>
      intro states related
      obtain ⟨answer, isLoaded, areLoaded, relatedAfter⟩ := keeps.load name related allowed
      simp only [Action.perform, areLoaded]
      exact inductionHypothesis answer isLoaded relatedAfter
  | @within _ _ setting inner next allowed _ _ innerHypothesis nextHypothesis =>
      intro states related
      simp only [Action.perform_within]
      rcases innerHypothesis (keeps.enter related allowed) with ⟨i, isLead, isNone⟩ |
        ⟨answer, insides, areInsides, relatedInside⟩
      · exact .inl ⟨i, isLead, by simp only [isNone, Option.bind_none]⟩
      · have level := fun i =>
          Action.upholds_perform upheld_balance (carries.level i) (inner i) (areInsides i)
        simp only [areInsides, Option.bind_some]
        exact nextHypothesis answer (keeps.leave related allowed relatedInside level)

/-! ### Statements -/

/-- Whether the renders take the steps of statements together. Taking one leads from the first
relation to the second one; where there is none left, the renders stay in the first. -/
def Ticks (accord : Accord ι) (rel inside : (ι → State) → Prop) : Prop :=
  ∀ ⦃states : ι → State⦄ (span : Span), rel states →
    ∃ goesOn, (∀ i, ((states i).tick (accord.hosts i).maxSteps span).1 = goesOn) ∧
      (if goesOn then inside else rel) fun i => ((states i).tick (accord.hosts i).maxSteps span).2

/-- Statements are rendered abreast if each of them is carried out abreast. -/
theorem abreast_renderAll {belows : ι → Below} {inside : (ι → State) → Prop}
    (ticks : accord.Ticks rel inside) (isInside : ∀ {states}, inside states → rel states)
    {nodes : List Node} (carried : ∀ node ∈ nodes,
      Abreast lead inside fun i => (Action.carryOut node).perform (accord.hosts i) (belows i)) :
    Abreast lead rel fun i => renderAll (accord.hosts i) (belows i) nodes := by
  induction nodes with
  | nil => exact fun states related => .inr ⟨"", states, fun _ => rfl, related⟩
  | cons node rest inductionHypothesis =>
      intro states related
      simp only [renderAll_cons]
      obtain ⟨goesOn, areTicked, relatedTicked⟩ := ticks node.span related
      simp only [areTicked]
      cases goesOn with
      | false =>
          simp only [Bool.false_eq_true, if_false] at relatedTicked ⊢
          exact .inr ⟨"", _, fun _ => rfl, relatedTicked⟩
      | true =>
          simp only [if_true] at relatedTicked ⊢
          rcases carried node List.mem_cons_self relatedTicked with ⟨i, isLead, isNone⟩ |
            ⟨text, middles, areMiddles, relatedMiddle⟩
          · exact .inl ⟨i, isLead, by simp only [isNone, Option.bind_none]⟩
          · simp only [areMiddles, Option.bind_some]
            rcases inductionHypothesis (fun other member => carried other (List.mem_cons_of_mem _ member))
                (isInside relatedMiddle) with ⟨i, isLead, isNone⟩ | ⟨more, afters, areAfters, related⟩
            · exact .inl ⟨i, isLead, by simp only [isNone, Option.map_none]⟩
            · exact .inr ⟨text ++ more, afters,
                fun i => by simp only [areAfters, Option.map_some], related⟩

theorem ticks_of_same (keeps : accord.Keeps rel)
    (same : ∀ {states}, rel states → ∃ halted steps maxSteps, ∀ i, (states i).halted = halted ∧
      (states i).steps = steps ∧ (accord.hosts i).maxSteps = maxSteps)
    (step : ∀ {states}, rel states → rel fun i => { states i with steps := (states i).steps + 1 })
    (halt : ∀ {states}, rel states → rel fun i => { states i with halted := true })
    (told : ∀ limit span, accord.told ((Problem.budgetExceeded limit).at_ span)) :
    accord.Ticks rel rel := by
  intro states span related
  obtain ⟨halted, steps, maxSteps, areSame⟩ := same related
  have goesOn : ∀ i, (states i).goesOn (accord.hosts i).maxSteps =
      (!halted && maxSteps.all (steps + 1 ≤ ·)) := by
    intro i
    simp only [State.goesOn, areSame i]
  refine ⟨!halted && maxSteps.all (steps + 1 ≤ ·), fun i => (State.tick_goesOn _ _ _).trans (goesOn i),
    ?_⟩
  rw [ite_self]
  cases isOn : !halted && maxSteps.all (steps + 1 ≤ ·) with
  | true =>
      have ticked := fun i => State.tick_of_goesOn span ((goesOn i).trans isOn)
      simpa only [ticked] using step related
  | false =>
      cases halted with
      | true =>
          have ticked := fun i =>
            State.tick_of_halted (accord.hosts i).maxSteps span (areSame i).1
          simpa only [ticked] using related
      | false =>
          cases maxSteps with
          | none => cases isOn
          | some limit =>
              have stops : ¬steps + 1 ≤ limit := by simpa using isOn
              have ticked : ∀ i, ((states i).tick (accord.hosts i).maxSteps span).2 =
                  { states i with steps := (states i).steps + 1, halted := true }.report
                    ((Problem.budgetExceeded limit).at_ span) := by
                intro i
                obtain ⟨isRunning, areSteps, isLimit⟩ := areSame i
                rw [isLimit]
                exact State.tick_of_stops isRunning (areSteps ▸ stops)
              simpa only [ticked] using keeps.report (halt (step related)) (told limit span)

/-! ### Whole renders -/

/-- Renders for which expressions, statements and chains of templates ask the same go abreast at any
depth. They have no answer at depth zero, so one of them leads. -/
theorem carries_belowDepth (keeps : accord.Keeps rel) (ticks : accord.Ticks rel rel) (leader : ι)
    (evaluated : ∀ {expr}, accord.expr expr → accord.Alike fun _ => Action.evaluate expr)
    (rendered : ∀ {bodies}, accord.bodies bodies → ∃ nodes, (∀ i, bodies i = nodes) ∧
      ∀ node ∈ nodes, accord.Alike fun _ => Action.carryOut node)
    (ascended : ∀ {overrides parent}, accord.ascent overrides parent →
      accord.Alike fun _ => Action.ascendTo overrides parent) (depth : Nat) :
    accord.Carries (some leader) rel fun i => belowDepth (accord.hosts i) depth := by
  induction depth with
  | zero =>
      exact ⟨fun _ _ _ => .inl ⟨leader, rfl, rfl⟩, fun _ _ _ => .inl ⟨leader, rfl, rfl⟩,
        fun _ _ _ => .inl ⟨leader, rfl, rfl⟩, fun i => Below.level (accord.hosts i) 0⟩
  | succ depth inductionHypothesis =>
      refine ⟨fun allowed => abreast_perform keeps inductionHypothesis (evaluated allowed), ?_,
        fun allowed => abreast_perform keeps inductionHypothesis (ascended allowed),
        fun i => Below.level (accord.hosts i) (depth + 1)⟩
      intro bodies allowed
      obtain ⟨nodes, areNodes, alike⟩ := rendered allowed
      obtain rfl : bodies = fun _ => nodes := funext areNodes
      exact abreast_renderAll ticks id fun node member =>
        abreast_perform keeps inductionHypothesis (alike node member)

end Accord

end Stencil.Render
