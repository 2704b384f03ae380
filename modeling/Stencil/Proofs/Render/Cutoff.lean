import Stencil.Proofs.Render.Strictness
import Stencil.Proofs.Render.Termination

/-!
Contract: a limit on steps cuts a render off and does not change it otherwise.

Owns:
- how many statements a render has carried out;
- how a render goes on where nothing cuts it off: without a limit, and behind the cut;
- a render with a limit beside the same render without one;
- a default that only ends as long as there are steps left.

Does not own: which renders with a limit end (`Stencil.Proofs.Render.Termination`).
-/

set_option autoImplicit false

namespace Stencil

open Stencil.Report (Diagnostic)

namespace Host

/-- The environment for a host with another limit on steps. -/
def Environment.limitedTo (environment : Environment) (maxSteps : Option Nat) : Environment :=
  { environment with maxSteps := maxSteps }

/-- Whether two facades differ in nothing but the limit on steps, and the text that shows it. -/
def Facade.ButLimit (facade facade' : Facade) : Prop :=
  ∃ maxSteps description,
    facade' = { facade with maxSteps := maxSteps, description := description }

/-- Whether the scripts of all tags are heedless of the limit on steps, and report nothing but
diagnostics of some kind themselves. -/
def Environment.Heedless (environment : Environment) (told : Diagnostic → Prop) : Prop :=
  environment.Overlooks Facade.ButLimit told

end Host

namespace Render

open Stencil.Host (Environment Shelf)
open Stencil.Syntax (Expr Node Template)
open Stencil.Text (Span)

variable {α β : Type}

/-! ### Steps -/

/-- How many statements have been carried out. The step at which a render runs out of them carries
out none. -/
def State.executed (state : State) : Nat := if state.halted then state.steps - 1 else state.steps

/-- A statement is counted if and only if its step goes on to carry it out. -/
theorem State.executed_tick (maxSteps : Option Nat) (span : Span) (state : State) :
    (state.tick maxSteps span).2.executed =
      state.executed + if (state.tick maxSteps span).1 then 1 else 0 := by
  rw [tick_goesOn]
  cases goesOn : state.goesOn maxSteps with
  | true =>
      have isRunning : state.halted = false := by
        simp only [State.goesOn, Bool.and_eq_true, Bool.not_eq_true'] at goesOn
        exact goesOn.1
      rw [tick_of_goesOn span goesOn]
      simp [executed, isRunning]
  | false =>
      cases isHalted : state.halted with
      | true => simp [tick_of_halted maxSteps span isHalted]
      | false =>
          cases maxSteps with
          | none => simp [State.goesOn, isHalted] at goesOn
          | some limit =>
              have stops : ¬state.steps + 1 ≤ limit := by simpa [State.goesOn, isHalted] using goesOn
              simp [tick_of_stops isHalted stops, executed, report, isHalted]

/-! ### Going on -/

/-- Whether a report does not say that the render has run out of steps, unless it is about a template
on the shelf or comes from a tag's script. -/
def Ordinary (told : Diagnostic → Prop) (shelf : Shelf) (diagnostic : Diagnostic) : Prop :=
  diagnostic.code ≠ .renderBudgetExceeded ∨
    (∃ name loaded, shelf.templates.lookup? name = some loaded ∧
      ∃ problem ∈ loaded.problems, diagnostic = problem.inTemplate loaded.name) ∨
    ∃ place reported, told reported ∧ diagnostic = State.ascribe place reported

variable {told : Diagnostic → Prop}

theorem Ordinary.grow {shelf larger : Shelf} {diagnostic : Diagnostic}
    (isOrdinary : Ordinary told shelf diagnostic) (within : shelf.Within larger) :
    Ordinary told larger diagnostic := by
  refine Or.imp_right (Or.imp_left ?_) isOrdinary
  rintro ⟨name, loaded, found, about⟩
  exact ⟨name, loaded, within found, about⟩

/-- How a render gets on where nothing cuts it off: it has run out of steps before, and takes none,
or it has not. -/
structure Goes (told : Diagnostic → Prop) (state after : State) : Prop where
  halted : after.halted = state.halted
  steps : state.steps ≤ after.steps
  idle : state.halted = true → after.steps = state.steps
  shelf : state.shelf.Within after.shelf
  problems : ∃ more, after.problems.toList = state.problems.toList ++ more ∧
    ∀ diagnostic ∈ more, Ordinary told after.shelf diagnostic

namespace Goes

variable {state middle after : State}

/-- A change of what a render sees, other than that it runs out of steps. -/
theorem of_seen (halted : after.halted = state.halted) (steps : after.steps = state.steps)
    (shelf : after.shelf = state.shelf) (problems : after.problems = state.problems) :
    Goes told state after where
  halted := halted
  steps := Nat.le_of_eq steps.symm
  idle _ := steps
  shelf := shelf ▸ .refl state.shelf
  problems := ⟨[], by rw [problems, List.append_nil], List.forall_mem_nil _⟩

theorem refl (state : State) : Goes told state state := of_seen rfl rfl rfl rfl

theorem trans (one : Goes told state middle) (two : Goes told middle after) :
    Goes told state after where
  halted := two.halted.trans one.halted
  steps := Nat.le_trans one.steps two.steps
  idle isHalted := (two.idle (one.halted.trans isHalted)).trans (one.idle isHalted)
  shelf := one.shelf.trans two.shelf
  problems := by
    obtain ⟨first, areFirst, ordinaryFirst⟩ := one.problems
    obtain ⟨second, areSecond, ordinarySecond⟩ := two.problems
    refine ⟨first ++ second, by rw [areSecond, areFirst, List.append_assoc], ?_⟩
    rw [List.forall_mem_append]
    exact ⟨fun diagnostic member => (ordinaryFirst diagnostic member).grow two.shelf, ordinarySecond⟩

theorem keeps_problems (goes : Goes told state after) :
    state.problems.toList <+: after.problems.toList := by
  obtain ⟨more, isMore, _⟩ := goes.problems
  exact ⟨more, isMore.symm⟩

theorem report (state : State) {diagnostic : Diagnostic}
    (isTold : diagnostic.code ≠ .renderBudgetExceeded ∨ told diagnostic) :
    Goes told state (state.report diagnostic) where
  halted := rfl
  steps := Nat.le_refl _
  idle _ := rfl
  shelf := .refl _
  problems := by
    refine ⟨[State.ascribe state.place diagnostic], by simp [State.report], ?_⟩
    rw [List.forall_mem_singleton]
    rcases isTold with isOther | isTold
    · exact .inl (State.code_ascribe state.place diagnostic ▸ isOther)
    · exact .inr (.inr ⟨state.place, diagnostic, isTold, rfl⟩)

theorem load (environment : Environment) (name : String) (state : State) :
    Goes told state (state.load environment name).2 := by
  have within := Shelf.within_fetch environment name state.shelf
  cases isAnswer : (Shelf.fetch environment name state.shelf).1 with
  | error fault =>
      rw [State.load_of_error isAnswer]
      exact ⟨rfl, Nat.le_refl _, fun _ => rfl, within, [], (List.append_nil _).symm,
        List.forall_mem_nil _⟩
  | ok loaded =>
      have onShelf := Shelf.lookup?_fetch isAnswer
      rw [State.load_of_ok isAnswer]
      unfold State.reportLoaded
      split
      · exact ⟨rfl, Nat.le_refl _, fun _ => rfl, within, [], (List.append_nil _).symm,
          List.forall_mem_nil _⟩
      · refine ⟨rfl, Nat.le_refl _, fun _ => rfl, within,
          loaded.problems.map (·.inTemplate loaded.name), by simp, fun diagnostic member => ?_⟩
        obtain ⟨problem, isProblem, rfl⟩ := List.mem_map.mp member
        exact .inr (.inl ⟨name, loaded, onShelf, problem, isProblem, rfl⟩)

theorem step (isRunning : state.halted = false) :
    Goes told state { state with steps := state.steps + 1 } where
  halted := rfl
  steps := Nat.le_succ _
  idle isHalted := absurd (isHalted.symm.trans isRunning) nofun
  shelf := .refl _
  problems := ⟨[], (List.append_nil _).symm, List.forall_mem_nil _⟩

theorem halted_leave (setting : Setting) (before after : View) :
    (setting.leave before after).halted = after.halted := by
  cases setting <;> rfl

end Goes

/-! ### Behind the cut -/

/-- Whether a render with a limit has been cut off, while the same render without one has got
somewhere. -/
structure Cut (told : Diagnostic → Prop) (limit : Nat) (full short : State) : Prop where
  halted : short.halted = true
  steps : short.steps = limit + 1
  problems : ∃ before place span after,
    short.problems.toList = before ++
      State.ascribe place ((Problem.budgetExceeded limit).at_ span) :: after ∧
    before <+: full.problems.toList ∧
      ∀ diagnostic ∈ after, Ordinary told short.shelf diagnostic

variable {limit : Nat}

/-- A render that has been cut off stays so, wherever the render without a limit gets. -/
theorem Cut.go {full further short after : State} (cut : Cut told limit full short)
    (fullGoes : Goes told full further) (shortGoes : Goes told short after) :
    Cut told limit further after where
  halted := shortGoes.halted.trans cut.halted
  steps := (shortGoes.idle cut.halted).trans cut.steps
  problems := by
    obtain ⟨before, place, span, behind, areProblems, isPrefix, areOrdinary⟩ := cut.problems
    obtain ⟨more, isMore, ordinaryMore⟩ := shortGoes.problems
    refine ⟨before, place, span, behind ++ more, ?_, isPrefix.trans fullGoes.keeps_problems, ?_⟩
    · rw [isMore, areProblems, List.append_assoc, List.cons_append]
    · rw [List.forall_mem_append]
      exact ⟨fun diagnostic member => (areOrdinary diagnostic member).grow shortGoes.shelf,
        ordinaryMore⟩

/-- What a run without a limit and a run with one come to from the same state. The former goes on,
and so does the latter if it has been cut off before. Otherwise both are the same if the limit is
not exceeded, and the latter is cut off if it is. -/
structure TrimsAt (told : Diagnostic → Prop) (limit : Nat) (state : State)
    (full short : Option (α × State)) : Prop where
  full_goes : state.halted = false → ∀ ⦃result⦄, full = some result → Goes told state result.2
  short_goes : state.halted = true → ∀ ⦃result⦄, short = some result → Goes told state result.2
  same : state.halted = false → state.steps ≤ limit → ∀ ⦃result⦄, full = some result →
    result.2.steps ≤ limit → short = some result
  cut : state.halted = false → state.steps ≤ limit → ∀ ⦃result other⦄, full = some result →
    limit < result.2.steps → short = some other → Cut told limit result.2 other.2

namespace TrimsAt

variable {state middle : State} {full short : Option (α × State)}

theorem pure (state : State) (answer : α) :
    TrimsAt told limit state (some (answer, state)) (some (answer, state)) where
  full_goes _ result isResult := by
    cases isResult
    exact .refl state
  short_goes _ result isResult := by
    cases isResult
    exact .refl state
  same _ _ _ isResult _ := isResult
  cut _ isLe result other isResult isLess := by
    cases isResult
    exact absurd isLe (Nat.not_le.mpr isLess)

/-- A change that both runs make first. -/
theorem behind (goes : Goes told state middle) (steps : middle.steps = state.steps)
    (trims : TrimsAt told limit middle full short) : TrimsAt told limit state full short where
  full_goes isRunning _ isResult :=
    goes.trans (trims.full_goes (goes.halted.trans isRunning) isResult)
  short_goes isHalted _ isResult :=
    goes.trans (trims.short_goes (goes.halted.trans isHalted) isResult)
  same isRunning isLe := trims.same (goes.halted.trans isRunning) (steps ▸ isLe)
  cut isRunning isLe := trims.cut (goes.halted.trans isRunning) (steps ▸ isLe)

theorem bind {fullRest shortRest : α → State → Option (β × State)}
    (first : TrimsAt told limit state full short)
    (rest : ∀ answer middle, TrimsAt told limit middle (fullRest answer middle)
      (shortRest answer middle)) :
    TrimsAt told limit state (full.bind fun result => fullRest result.1 result.2)
      (short.bind fun result => shortRest result.1 result.2) where
  full_goes isRunning result isResult := by
    obtain ⟨middle, isMiddle, isResult⟩ := Option.bind_eq_some_iff.mp isResult
    have goes := first.full_goes isRunning isMiddle
    exact goes.trans ((rest _ _).full_goes (goes.halted.trans isRunning) isResult)
  short_goes isHalted result isResult := by
    obtain ⟨middle, isMiddle, isResult⟩ := Option.bind_eq_some_iff.mp isResult
    have goes := first.short_goes isHalted isMiddle
    exact goes.trans ((rest _ _).short_goes (goes.halted.trans isHalted) isResult)
  same isRunning isLe result isResult isWithin := by
    obtain ⟨middle, isMiddle, isResult⟩ := Option.bind_eq_some_iff.mp isResult
    have isMiddleRunning := (first.full_goes isRunning isMiddle).halted.trans isRunning
    have goes := (rest _ _).full_goes isMiddleRunning isResult
    have isMiddleLe := Nat.le_trans goes.steps isWithin
    exact Option.bind_eq_some_iff.mpr ⟨middle, first.same isRunning isLe isMiddle isMiddleLe,
      (rest _ _).same isMiddleRunning isMiddleLe isResult isWithin⟩
  cut isRunning isLe result other isResult isBeyond isOther := by
    obtain ⟨middle, isMiddle, isResult⟩ := Option.bind_eq_some_iff.mp isResult
    obtain ⟨shorter, isShorter, isOther⟩ := Option.bind_eq_some_iff.mp isOther
    have isMiddleRunning := (first.full_goes isRunning isMiddle).halted.trans isRunning
    have goes := (rest _ _).full_goes isMiddleRunning isResult
    rcases Nat.lt_or_ge limit middle.2.steps with isMiddleBeyond | isMiddleLe
    · have cut := first.cut isRunning isLe isMiddle isMiddleBeyond isShorter
      exact cut.go goes ((rest _ _).short_goes cut.halted isOther)
    · cases isShorter.symm.trans (first.same isRunning isLe isMiddle isMiddleLe)
      exact (rest _ _).cut isMiddleRunning isMiddleLe isResult isBeyond isOther

theorem none (state : State) : TrimsAt told limit state (none : Option (α × State)) none :=
  ⟨nofun, nofun, nofun, nofun⟩

theorem map (shape : α → β) (trims : TrimsAt told limit state full short) :
    TrimsAt told limit state (full.map fun result => (shape result.1, result.2))
      (short.map fun result => (shape result.1, result.2)) := by
  simp only [Option.map_eq_bind]
  exact trims.bind fun answer middle => .pure middle (shape answer)

/-- A step that both runs take. -/
theorem step (isRunning : state.halted = false) (isLe : state.steps + 1 ≤ limit)
    (trims : TrimsAt told limit { state with steps := state.steps + 1 } full short) :
    TrimsAt told limit state full short where
  full_goes _ _ isResult := (Goes.step isRunning).trans (trims.full_goes isRunning isResult)
  short_goes isHalted := absurd (isHalted.symm.trans isRunning) nofun
  same _ _ := trims.same isRunning isLe
  cut _ _ := trims.cut isRunning isLe

/-- The step that cuts one of the runs off. -/
theorem stop {answer : α} {span : Span} (isRunning : state.halted = false)
    (stops : ¬state.steps + 1 ≤ limit)
    (trims : TrimsAt told limit { state with steps := state.steps + 1 } full short) :
    TrimsAt told limit state full (some (answer, (state.tick (some limit) span).2)) where
  full_goes _ _ isResult := (Goes.step isRunning).trans (trims.full_goes isRunning isResult)
  short_goes isHalted := absurd (isHalted.symm.trans isRunning) nofun
  same _ _ result isResult isWithin :=
    absurd (Nat.le_trans (trims.full_goes isRunning isResult).steps isWithin) stops
  cut _ isLe result other isResult _ isOther := by
    cases isOther
    obtain rfl : state.steps = limit :=
      Nat.le_antisymm isLe (Nat.le_of_lt_succ (Nat.lt_of_not_le stops))
    rw [State.tick_of_stops isRunning stops]
    exact ⟨rfl, rfl, state.problems.toList, state.place, span, [], by simp [State.report],
      (trims.full_goes isRunning isResult).keeps_problems, List.forall_mem_nil _⟩

end TrimsAt

/-! ### Beside a render without a limit -/

/-- Renders of any templates for hosts that differ only in the limit on steps. -/
def Accord.paced {ι : Type} (environment : Environment) (told : Diagnostic → Prop)
    (limits : ι → Option Nat) : Accord ι :=
  .permissive (fun i => environment.limitedTo (limits i))
    (fun diagnostic => diagnostic.code ≠ .renderBudgetExceeded ∨ told diagnostic)
    fun _ diagnostic => diagnostic.code ≠ .renderBudgetExceeded

/-- Only the render itself says that it has run out of steps. -/
theorem Problem.code_of_isOutright {problem : Problem} (isOutright : problem.isOutright = true) :
    problem.code ≠ .renderBudgetExceeded := by
  cases problem
  case budgetExceeded => cases isOutright
  all_goals exact of_decide_eq_true rfl

theorem Problem.code_ne_budget_of_lookup? {problem : Problem} {lookup : Lookup}
    (isLookup : problem.lookup? = some lookup) : problem.code ≠ .renderBudgetExceeded := by
  cases problem
  case budgetExceeded => cases isLookup
  all_goals exact of_decide_eq_true rfl

theorem whole_paced {ι : Type} (environment : Environment) (told : Diagnostic → Prop)
    (limits : ι → Option Nat) : (Accord.paced environment told limits).Whole .any :=
  Accord.whole_permissive (show ∀ i, (environment.limitedTo (limits i)).lookups = environment.lookups
    from fun _ => rfl)
    (fun _ isOutright => .inl (Problem.code_of_isOutright isOutright))
    fun _ isLookup => Problem.code_ne_budget_of_lookup? isLookup

/-- A render without a limit and one with a limit. -/
abbrev Accord.limited (environment : Environment) (told : Diagnostic → Prop) (limit : Nat) :
    Accord Bool :=
  .paced environment told fun isLimited => bif isLimited then some limit else none

variable {environment : Environment}

/-- Whether the parts of a render without a limit and of one with a limit come to what they should
from every state. -/
structure Below.Trims (told : Diagnostic → Prop) (limit : Nat) (full short : Below) : Prop where
  eval : ∀ expr state, TrimsAt told limit state (full.eval expr state) (short.eval expr state)
  render : ∀ nodes state, TrimsAt told limit state (full.render nodes state)
    (short.render nodes state)
  ascend : ∀ overrides parent state, TrimsAt told limit state (full.ascend overrides parent state)
    (short.ascend overrides parent state)

/-- Actions that ask the same whatever the limit are cut off by it. -/
theorem trims_perform {full short : Below} (trims : full.Trims told limit short)
    {actions : Bool → Action α} (alike : (Accord.limited environment told limit).Alike actions)
    (state : State) : TrimsAt told limit state
      ((actions false).perform (environment.limitedTo none) full state)
      ((actions true).perform (environment.limitedTo (some limit)) short state) := by
  induction alike generalizing state with
  | done answer => exact .pure state answer
  | @eval _ expr next _ _ inductionHypothesis =>
      simp only [Action.perform_eval]
      exact (trims.eval expr state).bind fun value middle => inductionHypothesis value middle
  | render allowed _ inductionHypothesis =>
      obtain ⟨nodes, areNodes⟩ := allowed
      obtain rfl := funext areNodes
      simp only [Action.perform_render]
      exact (trims.render nodes state).bind fun text middle => inductionHypothesis text middle
  | @ascend _ overrides parent next _ _ inductionHypothesis =>
      simp only [Action.perform_ascend]
      exact (trims.ascend overrides parent state).bind fun text middle =>
        inductionHypothesis text middle
  | look _ inductionHypothesis =>
      exact inductionHypothesis (fun _ => state.toView) ⟨state.toView, fun _ => rfl⟩ state
  | consult _ inductionHypothesis => exact inductionHypothesis state
  | survey _ inductionHypothesis => exact inductionHypothesis state
  | report allowed _ inductionHypothesis =>
      exact (inductionHypothesis _).behind (.report state allowed) rfl
  | @complain _ lookup diagnostic next allowed _ inductionHypothesis =>
      have goes : Goes told state
          (if lookup.isStrict environment.strict then state.report diagnostic else state) := by
        split
        · exact .report state (.inl allowed)
        · exact .refl state
      exact (inductionHypothesis _).behind goes (by split <;> rfl)
  | @bindName _ name value next _ inductionHypothesis =>
      have goes : Goes told state { state with scopes := state.scopes.bind name value } :=
        .of_seen rfl rfl rfl rfl
      exact (inductionHypothesis _).behind goes rfl
  | @store _ root path key value next _ _ inductionHypothesis =>
      simp only [Action.perform, State.store_eq]
      have goes : Goes told state
          { state with scopes := (state.scopes.stored root path key value).2 } :=
        .of_seen rfl rfl rfl rfl
      exact (inductionHypothesis _ _).behind goes rfl
  | @define _ name callable next _ _ inductionHypothesis =>
      have goes : Goes told state { state with macros := state.macros.put name callable } :=
        .of_seen rfl rfl rfl rfl
      exact (inductionHypothesis _).behind goes rfl
  | @mount _ name macros next _ _ inductionHypothesis =>
      have goes : Goes told state { state with namespaces := state.namespaces.put name macros } :=
        .of_seen rfl rfl rfl rfl
      exact (inductionHypothesis _).behind goes rfl
  | @load _ name next _ _ inductionHypothesis =>
      have goes : Goes told state (state.load environment name).2 := .load environment name state
      have steps : (state.load environment name).2.steps = state.steps := by
        unfold State.load State.reportLoaded
        split
        · dsimp only
          split <;> rfl
        · rfl
      exact (inductionHypothesis _ (fun _ _ => trivial) _).behind goes steps
  | @within _ _ setting inner next _ _ _ innerHypothesis nextHypothesis =>
      simp only [Action.perform_within]
      have goes : Goes told state { state with toView := setting.enter state.toView } :=
        .of_seen rfl rfl rfl rfl
      have leaves (answer : _) (middle : State) : TrimsAt told limit middle
          ((next false answer).perform (environment.limitedTo none) full
            { middle with toView := setting.leave state.toView middle.toView })
          ((next true answer).perform (environment.limitedTo (some limit)) short
            { middle with toView := setting.leave state.toView middle.toView }) :=
        have left : Goes told middle
            { middle with toView := setting.leave state.toView middle.toView } :=
          .of_seen (Goes.halted_leave setting state.toView middle.toView) rfl rfl rfl
        (nextHypothesis answer _).behind left rfl
      exact ((innerHypothesis _).behind goes rfl).bind leaves

/-- Statements are cut off by the limit if each of them is. -/
theorem trims_renderAll {full short : Below} {nodes : List Node}
    (carried : ∀ node ∈ nodes, ∀ state, TrimsAt told limit state
      ((Action.carryOut node).perform (environment.limitedTo none) full state)
      ((Action.carryOut node).perform (environment.limitedTo (some limit)) short state))
    (state : State) : TrimsAt told limit state
      (renderAll (environment.limitedTo none) full nodes state)
      (renderAll (environment.limitedTo (some limit)) short nodes state) := by
  induction nodes generalizing state with
  | nil => exact .pure state ""
  | cons node rest inductionHypothesis =>
      have others := inductionHypothesis fun other member =>
        carried other (List.mem_cons_of_mem node member)
      have taken : TrimsAt told limit { state with steps := state.steps + 1 } _ _ :=
        (carried node List.mem_cons_self _).bind fun text middle =>
          (others middle).map fun more => text ++ more
      simp only [renderAll_cons]
      cases isHalted : state.halted with
      | true =>
          simp only [State.tick_goesOn, State.goesOn, isHalted, Bool.not_true, Bool.false_and,
            Bool.false_eq_true, if_false, State.tick_of_halted _ _ isHalted]
          exact .pure state ""
      | false =>
          have isFree : state.goesOn (environment.limitedTo none).maxSteps = true := by
            simp [State.goesOn, isHalted, Environment.limitedTo]
          rw [if_pos ((State.tick_goesOn _ node.span state).trans isFree),
            State.tick_of_goesOn node.span isFree]
          by_cases isLe : state.steps + 1 ≤ limit
          · have isLeft : state.goesOn (environment.limitedTo (some limit)).maxSteps = true := by
              simp [State.goesOn, isHalted, Environment.limitedTo]
              omega
            rw [if_pos ((State.tick_goesOn _ node.span state).trans isLeft),
              State.tick_of_goesOn node.span isLeft]
            exact taken.step isHalted isLe
          · have isUsedUp :
                state.goesOn (environment.limitedTo (some limit)).maxSteps = false := by
              simp [State.goesOn, isHalted, Environment.limitedTo]
              omega
            rw [if_neg (by rw [State.tick_goesOn, isUsedUp]; decide)]
            exact taken.stop isHalted isLe

theorem trims_belowDepth (heedless : environment.Heedless told) (limit depth : Nat) :
    (belowDepth (environment.limitedTo none) depth).Trims told limit
      (belowDepth (environment.limitedTo (some limit)) depth) := by
  have whole : (Accord.limited environment told limit).Whole .any := whole_paced environment told _
  induction depth with
  | zero => exact ⟨fun _ => .none, fun _ => .none, fun _ _ => .none⟩
  | succ depth inductionHypothesis =>
      have asks (node : Node) :
          (Accord.limited environment told limit).Alike fun _ => Action.carryOut node := by
        refine Accord.asks_carryOut whole (fun same _ _ isRenderer tag => ?_) node
        exact Accord.permits_of_overlooks (heedless ((same false).symm ▸ isRenderer) tag)
          (fun _ => .inr) environment.facade fun _ => ⟨_, _, rfl⟩
      exact ⟨fun expr => trims_perform inductionHypothesis (whole.evaluate_of_expr trivial),
        fun nodes => trims_renderAll fun node _ state =>
          trims_perform inductionHypothesis (asks node) state,
        fun overrides parent => trims_perform inductionHypothesis
          (whole.ascendTo trivial (fun _ _ _ _ _ _ _ => trivial) trivial)⟩

/-- Whether a limit cuts a render off and does not change it otherwise. If there is no need of more
steps than the limit, the render ends in the same state as without a limit, with the same text, and
no report says that it has run out of steps. If there is, the render can only end after as many
steps as the limit, and one report says so. Those before it come first among the reports of the
render without a limit. -/
def CutsOff (environment : Environment) (told : Diagnostic → Prop) (action : Action String)
    (start : State) : Prop :=
  let run (maxSteps : Option Nat) (depth : Nat) := action.perform (environment.limitedTo maxSteps)
    (belowDepth (environment.limitedTo maxSteps) depth) start
  ∀ depth text last, run none depth = some (text, last) →
    (∀ diagnostic ∈ last.problems.toList, Ordinary told last.shelf diagnostic) ∧ ∀ limit,
      (last.executed ≤ limit → ∀ more, depth ≤ more → run (some limit) more = some (text, last)) ∧
      (limit < last.executed → ∀ more cutText cutLast,
        run (some limit) more = some (cutText, cutLast) →
          cutLast.executed = limit ∧ cutLast.halted = true ∧ ∃ before place span after,
            cutLast.problems.toList = before ++
              State.ascribe place ((Problem.budgetExceeded limit).at_ span) :: after ∧
            before <+: last.problems.toList ∧
            ∀ diagnostic ∈ after, Ordinary told cutLast.shelf diagnostic)

theorem cutsOff_of_asks (heedless : environment.Heedless told) {action : Action String}
    (asks : ∀ limit, (Accord.limited environment told limit).Asks action)
    (context : Table Value) (shelf : Shelf) :
    CutsOff environment told action (.initial context shelf) := by
  unfold CutsOff
  intro run depth text last isEnd
  have trims (limit more : Nat) : TrimsAt told limit (.initial context shelf) (run none more)
      (run (some limit) more) :=
    trims_perform (trims_belowDepth heedless limit more) (asks limit) _
  have goes := (trims 0 depth).full_goes rfl isEnd
  have isExecuted : last.executed = last.steps := by
    rw [State.executed, goes.halted]
    rfl
  obtain ⟨problems, areProblems, areOrdinary⟩ := goes.problems
  rw [isExecuted]
  refine ⟨fun diagnostic member => areOrdinary diagnostic ?_, fun limit => ⟨fun isLe more deeper => ?_,
    fun isLess more cutText cutLast isCut => ?_⟩⟩
  · rw [areProblems] at member
    exact member
  · exact rising_perform _ action deeper ((trims limit depth).same rfl (Nat.zero_le _) isEnd isLe)
  · have isEnd := rising_perform _ action (Nat.le_max_left depth more) isEnd
    have isCut := rising_perform _ action (Nat.le_max_right depth more) isCut
    have cut := (trims limit _).cut rfl (Nat.zero_le _) isEnd isLess isCut
    refine ⟨?_, cut.halted, cut.problems⟩
    rw [State.executed, cut.halted, if_pos rfl, cut.steps, Nat.add_sub_cancel]

/-- A limit on steps cuts a render off and does not change it otherwise, if the scripts of tags do not
look at it. With a limit the render ends if there are templates of finitely many names and no
default of a parameter has a call in it. -/
theorem limit_cuts_off (environment : Environment) (told : Diagnostic → Prop)
    (heedless : environment.Heedless told) (context : Table Value) (shelf : Shelf) :
    (∀ name, CutsOff environment told (Action.renderNamed name) (.initial context shelf)) ∧
    (∀ name template, CutsOff environment told (Action.renderTemplate name template)
      (.initial context shelf)) ∧
    ∀ names : List String, (∀ name source, environment.MayGive name source → name ∈ names) →
      Material.plain.Loads environment → Material.plain.Tags environment →
        shelf.Coherent environment → ∀ limit,
          let limited := environment.limitedTo (some limit)
          (∀ name, ∃ depth, renderNamedWithin depth limited name context shelf ≠ none) ∧
            ∀ template : Template, (∀ node ∈ template.body, node.PlainDefaults) →
              ∃ depth, renderTemplateWithin depth limited template context shelf ≠ none := by
  refine ⟨fun name => cutsOff_of_asks heedless
      (fun _ => (whole_paced environment told _).renderNamed trivial name) context shelf,
    fun name template => cutsOff_of_asks heedless
      (fun _ => (whole_paced environment told _).renderTemplate name fun _ _ => trivial)
      context shelf, ?_⟩
  intro names finite sound tags coherent limit limited
  have isLimited : limited.maxSteps = some limit := rfl
  have ends {action : Action String} (asks : (Accord.unaided limited).Asks action) :
      ∃ depth, outcomeOf limited depth action (.initial context shelf) ≠ none := by
    obtain ⟨depth, outcome, isOutcome⟩ :=
      exists_depth_of_asks isLimited (finite _ _) sound tags coherent context asks
    exact ⟨depth, Option.ne_none_iff_exists'.mpr ⟨outcome, isOutcome depth (Nat.le_refl depth)⟩⟩
  exact ⟨fun name => ends (whole_unaided.renderNamed trivial name),
    fun template isBody => ends (whole_unaided.renderTemplate template.displayName isBody)⟩

/-- An environment with a tag that prints whether the host wants unknown names reported. -/
def stamping : Environment :=
  Environment.empty.addRenderer "stamp" fun _ => .terms fun terms =>
    .done (toString terms.strict.undefined)

/-- Three statements, without a limit and with two steps at most. -/
theorem limit_cuts_off_stamp :
    let template : Template :=
      ⟨none, [.text "a" default, .custom "stamp" [] none default,
        .output (.name "b" default) default], default⟩
    let run (maxSteps : Option Nat) := (Action.renderTemplate "<template>" template).perform
      (stamping.limitedTo maxSteps) (belowDepth (stamping.limitedTo maxSteps) 3)
      (.initial [] .empty)
    stamping.Heedless (fun _ => False) ∧
      (run none).map (fun last => (last.1, last.2.executed, last.2.problems.size)) =
        some ("afalse", 3, 0) ∧
      (run (some 2)).map (fun last =>
          (last.1, last.2.executed, last.2.problems.toList.map (·.code))) =
        some ("afalse", 2, [.renderBudgetExceeded]) ∧
      CutsOff stamping (fun _ => False) (Action.renderTemplate "<template>" template)
        (.initial [] .empty) ∧
      ∃ depth, renderTemplateWithin depth (stamping.limitedTo (some 2)) template [] .empty ≠
        none := by
  intro template run
  have isStamp {name : String} {renderer : Host.TagRenderer}
      (isRenderer : stamping.renderer? name = some renderer) :
      renderer = fun _ => .terms fun terms => .done (toString terms.strict.undefined) := by
    obtain ⟨_, rfl⟩ : "stamp" = name ∧ _ = renderer := by
      simpa [Host.Registry.renderer?, Host.Registry.layers, stamping, Environment.addRenderer,
        Environment.empty, Host.Layer.empty, Table.put, Table.lookup?] using isRenderer
    rfl
  have heedless : stamping.Heedless fun _ => False := by
    intro name renderer isRenderer tag
    rw [isStamp isRenderer]
    refine .survey ?_ fun _ => .done _
    rintro facade _ ⟨maxSteps, description, rfl⟩
    rfl
  have finite : ∀ name source, stamping.MayGive name source → name ∈ ([] : List String) := by
    rintro name source ⟨_, isText⟩
    cases isText
  have sound : Material.plain.Loads stamping := by
    rintro name source ⟨_, isText⟩
    cases isText
  have tags : Material.plain.Tags stamping := by
    intro name renderer isRenderer tag _
    rw [isStamp isRenderer]
    exact .survey fun _ => .done _
  have isBody : ∀ node ∈ template.body, node.PlainDefaults := by
    have areFlat : template.body.all (fun node => node.params.isEmpty && node.bodies.isEmpty) =
        true := rfl
    exact fun node member => .of_flat (List.all_eq_true.mp areFlat node member)
  have cutsOff := limit_cuts_off stamping _ heedless [] .empty
  exact ⟨heedless, by decide +kernel, by decide +kernel, cutsOff.2.1 "<template>" template,
    (cutsOff.2.2 [] finite sound tags (Shelf.coherent_empty stamping) 2).2 template isBody⟩

/-! ### A default that needs steps -/

/-- Whether the macro `g` prints anything but what its body says. -/
def isDrained : Expr :=
  .binary .notEqual (.call (.name "g" default) [] default) (.literal (.text "a") default) default

def thirst : Expr := .call (.name "m" default) [] default

/-- A macro whose parameter has a call of the macro as its default when there are no steps left for
the body of another macro. -/
def draining : Syntax.MacroDefinition :=
  ⟨"m", [⟨"x", some (.conditional isDrained thirst (some (.literal .none default)) default), default⟩],
    [], default⟩

/-- A template that defines both macros and calls the one with the default. -/
def thirsty : Template :=
  ⟨none, [.define "g" [] [.text "a" default] default,
    .define draining.name draining.params draining.body default, .output thirst default], default⟩

/-- A call of the macro has no value if the test of its default leads to a state in which a call of
the macro has none. -/
theorem eval_draining {state spent : State} {home : Table Syntax.MacroDefinition}
    (isMacro : state.macros.lookup? "m" = some ⟨draining, home⟩) (outside : state.place.homes = [])
    (isShallow : state.place.callDepth < callLimit) {enough : Nat}
    (isTested : (belowDepth environment enough).eval isDrained state = some (.bool true, spent))
    {depth : Nat}
    (again : ∀ fewer < depth, (belowDepth environment fewer).eval thirst spent = none) :
    (belowDepth environment depth).eval thirst state = none := by
  cases depth with
  | zero => rfl
  | succ depth =>
      refine callName_none isMacro outside ⟨by decide, by decide⟩ isShallow rfl rfl ?_
      cases depth with
      | zero => rfl
      | succ depth =>
          change ((Action.valueOf isDrained).andThen _).perform environment
            (belowDepth environment depth) state = none
          rw [Action.perform_andThen, Action.perform_valueOf, Option.bind_eq_none_iff]
          intro answer isAnswer
          obtain rfl : answer = (.bool true, spent) :=
            (rising_eval environment isDrained).unique isAnswer isTested
          change (Action.valueOf thirst).perform environment (belowDepth environment depth) spent = none
          rw [Action.perform_valueOf]
          exact again depth (Nat.lt_succ_of_lt (Nat.lt_succ_self depth))

/-- Without a limit the render ends after four steps. With three steps at most no depth is enough
for it. -/
theorem limit_endless :
    let run (maxSteps : Option Nat) (depth : Nat) :=
      (Action.renderTemplate thirsty.displayName thirsty).perform
        (Environment.empty.limitedTo maxSteps)
        (belowDepth (Environment.empty.limitedTo maxSteps) depth) (.initial [] .empty)
    (run none 9).map (fun last => (last.1, last.2.executed, last.2.problems.size)) =
        some ("", 4, 0) ∧
      ∀ depth, run (some 3) depth = none := by
  intro run
  refine ⟨by decide +kernel, fun depth => ?_⟩
  let environment := Environment.empty.limitedTo (some 3)
  let g : Syntax.MacroDefinition := ⟨"g", [], [.text "a" default], default⟩
  let home := [("g", g), ("m", draining)]
  let start := State.initial [] .empty
  let fresh : State := { start with
    macros := [("g", ⟨g, home⟩), ("m", ⟨draining, home⟩)]
    place := { Place.outside with loads := ["<template>"], templates := ["<template>"] }
    steps := 3 }
  let spent : State := { fresh with
    halted := true, steps := 4, problems := #[(Problem.budgetExceeded 3).at_ default] }
  have fromSpent (depth : Nat) : (belowDepth environment depth).eval thirst spent = none := by
    induction depth using Nat.strongRecOn with
    | ind depth inductionHypothesis =>
        have isTested : (belowDepth environment 6).eval isDrained spent = some (.bool true, spent) := rfl
        exact eval_draining rfl rfl (by decide) isTested inductionHypothesis
  have isTested : (belowDepth environment 6).eval isDrained fresh = some (.bool true, spent) := rfl
  have fromFresh (depth : Nat) : (belowDepth environment depth).eval thirst fresh = none :=
    eval_draining rfl rfl (by decide) isTested fun fewer _ => fromSpent fewer
  cases depth with
  | zero => rfl
  | succ depth =>
      have output : (Action.carryOut (.output thirst default)).perform environment
          (belowDepth environment depth) fresh = none := by
        change ((Action.valueOf _).andThen _).perform environment (belowDepth environment depth)
          fresh = none
        rw [Action.perform_andThen, Action.perform_valueOf, fromFresh, Option.bind_none]
      have body : (belowDepth environment (depth + 1)).render thirsty.body
          { fresh with steps := 0 } = none := by
        change renderAll environment (belowDepth environment depth)
          [.define "g" [] [.text "a" default] default,
            .define draining.name draining.params draining.body default, .output thirst default]
          { fresh with steps := 0 } = none
        rw [renderAll_cons, if_pos (by decide)]
        change (renderAll environment (belowDepth environment depth)
          [.define draining.name draining.params draining.body default, .output thirst default]
          { fresh with steps := 1 }).map _ = none
        rw [renderAll_cons, if_pos (by decide)]
        change ((renderAll environment (belowDepth environment depth) [.output thirst default]
          { fresh with steps := 2 }).map _).map _ = none
        rw [renderAll_cons, if_pos (by decide)]
        change (((Option.bind ((Action.carryOut (.output thirst default)).perform environment
          (belowDepth environment depth) fresh) _).map _).map _) = none
        rw [output]
        rfl
      change (Action.renderTemplate "<template>" thirsty).perform environment
        (belowDepth environment (depth + 1)) start = none
      rw [Action.renderTemplate, Action.inSetting, Action.perform_within]
      change Option.bind ((Action.textOf thirsty.body).perform environment
        (belowDepth environment (depth + 1)) { fresh with steps := 0 }) _ = none
      rw [Action.textOf, Action.perform_render, body]
      rfl

end Render

end Stencil
