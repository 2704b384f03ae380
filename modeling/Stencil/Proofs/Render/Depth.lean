import Stencil.Proofs.Render.Standing

/-!
Contract: how deeply evaluation may be nested matters only until there is an answer.

Owns:
- an answer at one depth is the answer at every greater depth;
- evaluation without a bound, which has the answers of all depths, and its equations.

Does not own: which renders have an answer (`Stencil.Proofs.Render.Termination`).
-/

set_option autoImplicit false

namespace Stencil.Render

open Stencil.Host (Environment)
open Stencil.Syntax (Expr Node)

variable {α β : Type} {environment : Environment} {below deeper : Below} {depth more : Nat}

/-! ### More depth -/

/-- Whether one run has every answer of another one. -/
def Run.Within (run longer : Run α) : Prop :=
  ∀ ⦃state : State⦄ ⦃result : α × State⦄, run state = some result → longer state = some result

/-- Whether one way to carry parts out has every answer of another one. -/
structure Below.Within (below deeper : Below) : Prop where
  eval : ∀ expr, Run.Within (below.eval expr) (deeper.eval expr)
  render : ∀ nodes, Run.Within (below.render nodes) (deeper.render nodes)
  ascend : ∀ overrides parent,
    Run.Within (below.ascend overrides parent) (deeper.ascend overrides parent)

theorem Run.Within.bind {run longer : Run α} {rest others : α → Run β}
    (first : Run.Within run longer) (second : ∀ answer, Run.Within (rest answer) (others answer))
    {state : State} {result : β × State}
    (isResult : ((run state).bind fun answer => rest answer.1 answer.2) = some result) :
    ((longer state).bind fun answer => others answer.1 answer.2) = some result := by
  obtain ⟨middle, isMiddle, isResult⟩ := Option.bind_eq_some_iff.mp isResult
  exact Option.bind_eq_some_iff.mpr ⟨middle, first isMiddle, second middle.1 isResult⟩

theorem Action.within_perform (within : below.Within deeper) (action : Action α) :
    Run.Within (action.perform environment below) (action.perform environment deeper) := by
  intro state result performed
  induction action generalizing state with
  | done answer => exact performed
  | eval expr next inductionHypothesis =>
      rw [perform_eval] at performed ⊢
      exact (within.eval expr).bind (fun value => inductionHypothesis value) performed
  | render nodes next inductionHypothesis =>
      rw [perform_render] at performed ⊢
      exact (within.render nodes).bind (fun text => inductionHypothesis text) performed
  | ascend overrides parent next inductionHypothesis =>
      rw [perform_ascend] at performed ⊢
      exact (within.ascend overrides parent).bind (fun text => inductionHypothesis text) performed
  | look next inductionHypothesis => exact inductionHypothesis _ performed
  | consult next inductionHypothesis => exact inductionHypothesis _ performed
  | survey next inductionHypothesis => exact inductionHypothesis _ performed
  | report diagnostic next inductionHypothesis => exact inductionHypothesis performed
  | complain lookup diagnostic next inductionHypothesis => exact inductionHypothesis performed
  | bindName name value next inductionHypothesis => exact inductionHypothesis performed
  | store root path key value next inductionHypothesis => exact inductionHypothesis _ performed
  | define name callable next inductionHypothesis => exact inductionHypothesis performed
  | mount name macros next inductionHypothesis => exact inductionHypothesis performed
  | load name next inductionHypothesis => exact inductionHypothesis _ performed
  | within setting inner next innerHypothesis nextHypothesis =>
      rw [perform_within] at performed ⊢
      obtain ⟨middle, isMiddle, performed⟩ := Option.bind_eq_some_iff.mp performed
      exact Option.bind_eq_some_iff.mpr
        ⟨middle, innerHypothesis isMiddle, nextHypothesis middle.1 performed⟩

theorem within_renderAll (within : below.Within deeper) (nodes : List Node) :
    Run.Within (renderAll environment below nodes) (renderAll environment deeper nodes) := by
  intro state result rendered
  induction nodes generalizing state result with
  | nil => exact rendered
  | cons node rest inductionHypothesis =>
      rw [renderAll_cons] at rendered ⊢
      split at rendered
      · rename_i goesOn
        rw [if_pos goesOn]
        obtain ⟨first, isFirst, rendered⟩ := Option.bind_eq_some_iff.mp rendered
        obtain ⟨others, areOthers, isResult⟩ := Option.map_eq_some_iff.mp rendered
        exact Option.bind_eq_some_iff.mpr ⟨first, Action.within_perform within _ isFirst,
          Option.map_eq_some_iff.mpr ⟨others, inductionHypothesis areOthers, isResult⟩⟩
      · rename_i stops
        rw [if_neg stops]
        exact rendered

theorem Below.Within.trans {deepest : Below} (one : below.Within deeper)
    (two : deeper.Within deepest) : below.Within deepest :=
  ⟨fun expr _ _ evaluated => two.eval expr (one.eval expr evaluated),
    fun nodes _ _ rendered => two.render nodes (one.render nodes rendered),
    fun overrides parent _ _ ascended => two.ascend overrides parent
      (one.ascend overrides parent ascended)⟩

theorem within_succ (environment : Environment) (depth : Nat) :
    (belowDepth environment depth).Within (belowDepth environment (depth + 1)) := by
  induction depth with
  | zero => exact ⟨fun _ _ _ => nofun, fun _ _ _ => nofun, fun _ _ _ _ => nofun⟩
  | succ depth inductionHypothesis =>
      exact ⟨fun _ => Action.within_perform inductionHypothesis _,
        fun nodes => within_renderAll inductionHypothesis nodes,
        fun _ _ => Action.within_perform inductionHypothesis _⟩

/-- What has an answer at one depth has the same answer at every greater depth. -/
theorem within_of_le (environment : Environment) (isLe : depth ≤ more) :
    (belowDepth environment depth).Within (belowDepth environment more) := by
  induction isLe with
  | refl => exact ⟨fun _ _ _ => id, fun _ _ _ => id, fun _ _ _ _ => id⟩
  | step _ inductionHypothesis => exact inductionHypothesis.trans (within_succ environment _)

/-! ### No bound -/

open Classical in
/-- What the runs at all depths come to. -/
noncomputable def Run.limit (runs : Nat → Run α) : Run α := fun state =>
  if found : ∃ depth, (runs depth state).isSome then runs found.choose state else none

/-- Whether runs that may be nested more deeply keep all answers. -/
def Run.Rising (runs : Nat → Run α) : Prop :=
  ∀ ⦃depth more : Nat⦄, depth ≤ more → Run.Within (runs depth) (runs more)

theorem Run.Rising.limit_eq_some {runs : Nat → Run α} (rising : Run.Rising runs) (state : State)
    (result : α × State) :
    Run.limit runs state = some result ↔ ∃ depth, runs depth state = some result := by
  unfold Run.limit
  constructor
  · intro isLimit
    split at isLimit
    · exact ⟨_, isLimit⟩
    · cases isLimit
  · rintro ⟨depth, isResult⟩
    have found : ∃ depth, (runs depth state).isSome := ⟨depth, by rw [isResult]; rfl⟩
    rw [dif_pos found]
    obtain ⟨other, isOther⟩ := Option.isSome_iff_exists.mp found.choose_spec
    rcases Nat.le_total depth found.choose with isLe | isLe
    · exact rising isLe isResult
    · rw [isOther, ← isResult]
      exact (rising isLe isOther).symm

/-- All answers of such runs are the same. -/
theorem Run.Rising.unique {runs : Nat → Run α} (rising : Run.Rising runs) {state : State}
    {depth more : Nat} {one other : α × State} (isOne : runs depth state = some one)
    (isOther : runs more state = some other) : one = other :=
  Option.some.inj <| (rising (Nat.le_max_left depth more) isOne).symm.trans
    (rising (Nat.le_max_right depth more) isOther)

/-- How expressions and statements are carried out when evaluation may be nested to any depth. -/
noncomputable def unbounded (environment : Environment) : Below where
  eval expr := Run.limit fun depth => (belowDepth environment depth).eval expr
  render nodes := Run.limit fun depth => (belowDepth environment depth).render nodes
  ascend overrides parent :=
    Run.limit fun depth => (belowDepth environment depth).ascend overrides parent

section Unbounded

variable (environment) (expr : Expr) (nodes : List Node) (overrides : Overrides) (parent : Expr)

theorem rising_eval : Run.Rising fun depth => (belowDepth environment depth).eval expr :=
  fun _ _ isLe => (within_of_le environment isLe).eval expr

theorem rising_render : Run.Rising fun depth => (belowDepth environment depth).render nodes :=
  fun _ _ isLe => (within_of_le environment isLe).render nodes

theorem rising_ascend :
    Run.Rising fun depth => (belowDepth environment depth).ascend overrides parent :=
  fun _ _ isLe => (within_of_le environment isLe).ascend overrides parent

theorem rising_perform (action : Action α) :
    Run.Rising fun depth => action.perform environment (belowDepth environment depth) :=
  fun _ _ isLe => Action.within_perform (within_of_le environment isLe) action

theorem rising_renderAll :
    Run.Rising fun depth => renderAll environment (belowDepth environment depth) nodes :=
  fun _ _ isLe => within_renderAll (within_of_le environment isLe) nodes

theorem within_unbounded (depth : Nat) :
    (belowDepth environment depth).Within (unbounded environment) :=
  ⟨fun expr _ _ evaluated => ((rising_eval environment expr).limit_eq_some _ _).mpr ⟨depth, evaluated⟩,
    fun nodes _ _ rendered => ((rising_render environment nodes).limit_eq_some _ _).mpr ⟨depth, rendered⟩,
    fun overrides parent _ _ ascended =>
      ((rising_ascend environment overrides parent).limit_eq_some _ _).mpr ⟨depth, ascended⟩⟩

end Unbounded

/-- What parts uphold at any depth, they uphold without a bound on it. -/
theorem upholds_unbounded {rel : Standing → Standing → Prop} (upheld : Upheld rel)
    (environment : Environment) : (unbounded environment).Upholds rel where
  eval expr _ _ _ evaluated := by
    obtain ⟨depth, evaluated⟩ := ((rising_eval environment expr).limit_eq_some _ _).mp evaluated
    exact (upholds_belowDepth upheld environment depth).eval expr evaluated
  render nodes _ _ _ rendered := by
    obtain ⟨depth, rendered⟩ := ((rising_render environment nodes).limit_eq_some _ _).mp rendered
    exact (upholds_belowDepth upheld environment depth).render nodes rendered
  ascend overrides parent _ _ _ ascended := by
    obtain ⟨depth, ascended⟩ :=
      ((rising_ascend environment overrides parent).limit_eq_some _ _).mp ascended
    exact (upholds_belowDepth upheld environment depth).ascend overrides parent ascended

/-- Two runs one after the other that have answers at some depth each have them at one depth. -/
theorem Run.Rising.bind {runs : Nat → Run α} {rest : Nat → α → Run β} (rising : Run.Rising runs)
    (risingRest : ∀ answer, Run.Rising fun depth => rest depth answer) {state : State}
    {middle : α × State} {result : β × State} (isMiddle : ∃ depth, runs depth state = some middle)
    (isResult : ∃ depth, rest depth middle.1 middle.2 = some result) :
    ∃ depth, ((runs depth state).bind fun answer => rest depth answer.1 answer.2) =
      some result := by
  obtain ⟨depth, isMiddle⟩ := isMiddle
  obtain ⟨more, isResult⟩ := isResult
  exact ⟨max depth more, Option.bind_eq_some_iff.mpr ⟨middle,
    rising (Nat.le_max_left depth more) isMiddle,
    risingRest middle.1 (Nat.le_max_right depth more) isResult⟩⟩

/-- An action asks for finitely many things, so one depth is enough for all of them. -/
theorem Action.perform_unbounded (action : Action α) (state : State) (result : α × State) :
    action.perform environment (unbounded environment) state = some result ↔
      ∃ depth, action.perform environment (belowDepth environment depth) state = some result := by
  refine ⟨fun performed => ?_, fun ⟨depth, performed⟩ =>
    within_perform (within_unbounded environment depth) action performed⟩
  induction action generalizing state with
  | done answer => exact ⟨0, performed⟩
  | eval expr next inductionHypothesis =>
      rw [perform_eval] at performed
      obtain ⟨middle, isMiddle, performed⟩ := Option.bind_eq_some_iff.mp performed
      simp only [perform_eval]
      exact (rising_eval environment expr).bind (fun value => rising_perform environment (next value))
        (((rising_eval environment expr).limit_eq_some _ _).mp isMiddle)
        (inductionHypothesis middle.1 middle.2 result performed)
  | render nodes next inductionHypothesis =>
      rw [perform_render] at performed
      obtain ⟨middle, isMiddle, performed⟩ := Option.bind_eq_some_iff.mp performed
      simp only [perform_render]
      exact (rising_render environment nodes).bind
        (fun text => rising_perform environment (next text))
        (((rising_render environment nodes).limit_eq_some _ _).mp isMiddle)
        (inductionHypothesis middle.1 middle.2 result performed)
  | ascend overrides parent next inductionHypothesis =>
      rw [perform_ascend] at performed
      obtain ⟨middle, isMiddle, performed⟩ := Option.bind_eq_some_iff.mp performed
      simp only [perform_ascend]
      exact (rising_ascend environment overrides parent).bind
        (fun text => rising_perform environment (next text))
        (((rising_ascend environment overrides parent).limit_eq_some _ _).mp isMiddle)
        (inductionHypothesis middle.1 middle.2 result performed)
  | look next inductionHypothesis => exact inductionHypothesis _ _ _ performed
  | consult next inductionHypothesis => exact inductionHypothesis _ _ _ performed
  | survey next inductionHypothesis => exact inductionHypothesis _ _ _ performed
  | report diagnostic next inductionHypothesis => exact inductionHypothesis _ _ performed
  | complain lookup diagnostic next inductionHypothesis =>
      exact inductionHypothesis _ _ performed
  | bindName name value next inductionHypothesis => exact inductionHypothesis _ _ performed
  | store root path key value next inductionHypothesis =>
      exact inductionHypothesis _ _ _ performed
  | define name callable next inductionHypothesis => exact inductionHypothesis _ _ performed
  | mount name macros next inductionHypothesis => exact inductionHypothesis _ _ performed
  | load name next inductionHypothesis => exact inductionHypothesis _ _ _ performed
  | within setting inner next innerHypothesis nextHypothesis =>
      rw [perform_within] at performed
      obtain ⟨middle, isMiddle, performed⟩ := Option.bind_eq_some_iff.mp performed
      obtain ⟨depth, isMiddle⟩ := innerHypothesis _ _ isMiddle
      obtain ⟨more, performed⟩ := nextHypothesis middle.1 _ _ performed
      refine ⟨max depth more, ?_⟩
      rw [perform_within]
      exact Option.bind_eq_some_iff.mpr ⟨middle,
        rising_perform environment inner (Nat.le_max_left depth more) isMiddle,
        rising_perform environment (next middle.1) (Nat.le_max_right depth more) performed⟩

theorem renderAll_unbounded (nodes : List Node) (state : State) (result : String × State) :
    renderAll environment (unbounded environment) nodes state = some result ↔
      ∃ depth, renderAll environment (belowDepth environment depth) nodes state = some result := by
  refine ⟨fun rendered => ?_, fun ⟨depth, rendered⟩ =>
    within_renderAll (within_unbounded environment depth) nodes rendered⟩
  induction nodes generalizing state result with
  | nil => exact ⟨0, rendered⟩
  | cons node rest inductionHypothesis =>
      rw [renderAll_cons] at rendered
      simp only [renderAll_cons]
      split at rendered
      · rename_i goesOn
        obtain ⟨first, isFirst, rendered⟩ := Option.bind_eq_some_iff.mp rendered
        obtain ⟨others, areOthers, isResult⟩ := Option.map_eq_some_iff.mp rendered
        obtain ⟨depth, isFirst⟩ := (Action.perform_unbounded _ _ _).mp isFirst
        obtain ⟨more, areOthers⟩ := inductionHypothesis _ _ areOthers
        refine ⟨max depth more, ?_⟩
        rw [if_pos goesOn]
        exact Option.bind_eq_some_iff.mpr ⟨first,
          rising_perform environment _ (Nat.le_max_left depth more) isFirst,
          Option.map_eq_some_iff.mpr ⟨others,
            rising_renderAll environment rest (Nat.le_max_right depth more) areOthers, isResult⟩⟩
      · rename_i stops
        refine ⟨0, ?_⟩
        rw [if_neg stops]
        exact rendered

/-! ### Equations without a bound -/

/-- A run that has the answers of runs one deeper than others has the answers of those. -/
theorem Run.limit_eq {runs : Nat → Run α} (rising : Run.Rising runs) {run : Run α}
    (isZero : ∀ state, runs 0 state = none)
    (isLimit : ∀ state result, run state = some result ↔
      ∃ depth, runs (depth + 1) state = some result) :
    Run.limit runs = run := by
  funext state
  refine Option.ext fun result => ?_
  rw [rising.limit_eq_some, isLimit]
  constructor
  · rintro ⟨depth, isResult⟩
    cases depth with
    | zero => cases (isZero state).symm.trans isResult
    | succ depth => exact ⟨depth, isResult⟩
  · rintro ⟨depth, isResult⟩
    exact ⟨depth + 1, isResult⟩

theorem unbounded_eval (environment : Environment) (expr : Expr) :
    (unbounded environment).eval expr =
      (Action.evaluate expr).perform environment (unbounded environment) :=
  Run.limit_eq (rising_eval environment expr) (fun _ => rfl) (Action.perform_unbounded _)

theorem unbounded_render (environment : Environment) (nodes : List Node) :
    (unbounded environment).render nodes =
      renderAll environment (unbounded environment) nodes :=
  Run.limit_eq (rising_render environment nodes) (fun _ => rfl) (renderAll_unbounded nodes)

theorem unbounded_ascend (environment : Environment) (overrides : Overrides) (parent : Expr) :
    (unbounded environment).ascend overrides parent =
      (Action.ascendTo overrides parent).perform environment (unbounded environment) :=
  Run.limit_eq (rising_ascend environment overrides parent) (fun _ => rfl)
    (Action.perform_unbounded _)

end Stencil.Render
