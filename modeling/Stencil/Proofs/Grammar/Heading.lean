import Stencil.Proofs.Grammar.Lockstep
import Stencil.Proofs.Grammar.Quiet

/-!
Contract: the tags that open bodies, each by itself.

Owns:
- what such a tag says before its body, and the statement in terms of it;
- every such tag is read alike on two tapes that share its words, as long as nothing is reported.

Does not own: the bodies (`Stencil.Proofs.Grammar.Abreast`).
-/

set_option autoImplicit false

namespace Stencil.Grammar

open Stencil.Syntax
open Stencil.Text (Span)
open Stencil.Token (Kind)
open Read Statement

variable {α : Type} {lane : Lane} {bound fewer : Nat} {tape other : Tape} {reader : BodyReader}
  {start : Span}

/-! ### Targets -/

/-- Expressions that are the same up to places are the same targets, or none. -/
theorem SameExpr.target {expr same : Expr} (isSame : SameExpr expr same) :
    (Target.ofExpr same).toOption.map Target.unplaced =
      (Target.ofExpr expr).toOption.map Target.unplaced := by
  rw [← Target.ofExpr_unplaced, ← Target.ofExpr_unplaced, isSame]

theorem follows_toTarget (tag : String) {expr same : Expr} (isSame : SameExpr expr same) :
    Follows tape other (toTarget tag expr) (toTarget tag same) fun target twin here there =>
      Upto Target.unplaced target twin ∧ here = tape ∧ there = other := by
  have sameTarget := isSame.target
  unfold toTarget
  cases isTarget : Target.ofExpr expr with
  | error bad => exact .of_mistake _ _
  | ok target =>
      rw [isTarget] at sameTarget
      cases isTwin : Target.ofExpr same with
      | error bad =>
          rw [isTwin] at sameTarget
          cases sameTarget
      | ok twin =>
          rw [isTwin] at sameTarget
          exact .pure ⟨Option.some.inj sameTarget, rfl, rfl⟩

theorem follows_assignTarget (tag : String) (beside : lane.Beside bound tape other) :
    Follows tape other (assignTarget tag) (assignTarget tag) fun target twin here there =>
      Upto Target.unplaced target twin ∧ lane.Beside bound here there := by
  refine (Follows.of_twin (likewise_targetOperand.on beside)).bind fun first twinFirst here there
    ended => ?_
  obtain ⟨sameFirst, beside⟩ := ended
  refine .seeing (run_atSymbol _ here) (run_atSymbol _ there) ?_
  refine .ite (by rw [Likeness.kind beside.current]) (fun _ => ?_) fun _ => ?_
  · have sameItems : SameExprs [first] [twinFirst] := congrArg (fun item => [item]) sameFirst
    refine (Follows.of_twin ((likewise_loop turnsLikewise_target sameItems).on beside)).bind
      fun items twins here there ended => ?_
    refine .seeing (run_previousSpan here) (run_previousSpan there) ?_
    have same : SameExpr (.tuple items (first.span.cover here.previousSpan))
        (.tuple twins (twinFirst.span.cover there.previousSpan)) := by
      rw [SameExpr, Upto, Expr.unplaced_tuple, Expr.unplaced_tuple, ended.1]
    refine (follows_toTarget tag same).weaken fun target twin final last arrived => ?_
    obtain ⟨sameTarget, rfl, rfl⟩ := arrived
    exact ⟨sameTarget, ended.2⟩
  · refine (follows_toTarget tag sameFirst).weaken fun target twin final last arrived => ?_
    obtain ⟨sameTarget, rfl, rfl⟩ := arrived
    exact ⟨sameTarget, beside⟩

/-! ### Ends of tags -/

/-- Whether two heads stand outside tags side by side. -/
abbrev Lane.Outside (lane : Lane) (bound : Nat) (tape other : Tape) : Prop :=
  Grammar.Beside lane.like lane.margin bound .outside tape other

/-- Whether two heads stand side by side before the same tag. -/
structure Lane.AtTag (lane : Lane) (bound : Nat) (name : String) (tape other : Tape) : Prop where
  inside : lane.Beside bound tape.advance other.advance
  named : tape.advance.current.isName name = true

theorem Lane.AtTag.mono {name : String} (atTag : lane.AtTag fewer name tape other)
    (isFewer : fewer ≤ bound) : lane.AtTag bound name tape other :=
  ⟨atTag.inside.mono isFewer, atTag.named⟩

theorem follows_expectTagEnd (what : Kind) (beside : lane.Beside bound tape other) :
    Follows tape other (expectTagEnd what) (expectTagEnd what) fun _ _ here there =>
      lane.Outside bound here there := by
  refine .seeing (run_atTagEnd tape) (run_atTagEnd other) ?_
  refine .ite (by rw [Likeness.kind beside.current]) (fun ends => ?_) fun _ => .of_expected _
  exact .of_twin ((beside.mono (Nat.le_succ bound)).leave ends)

theorem follows_expectBlockEnd (beside : lane.Beside bound tape other) :
    Follows tape other expectBlockEnd expectBlockEnd fun _ _ here there =>
      lane.Outside bound here there :=
  follows_expectTagEnd _ beside

theorem twin_openTag {name : String} (atTag : lane.AtTag (bound + 1) name tape other) :
    Twin tape other openTag openTag fun _ _ here there => lane.Beside bound here there :=
  atTag.inside.advance (isInner_of_isName atTag.named)

theorem follows_finishTag {name : String} (atTag : lane.AtTag bound name tape other) :
    Follows tape other finishTag finishTag fun _ _ here there => lane.Outside bound here there := by
  have opened := twin_openTag (atTag.mono (Nat.le_succ bound))
  refine (Follows.of_twin opened).bind fun _ _ here there beside => ?_
  refine .seeing (run_peekAhead 1 here) (run_peekAhead 1 there) ?_
  refine .seeing (run_atKind .name here) (run_atKind .name there) ?_
  rw [Tape.ahead_one, Tape.ahead_one]
  have sameGuard := beside.guardedKind (show Kind.name.isInner = true from rfl)
    (·.kind.isTagEnd) fun same => by rw [Likeness.kind same]
  refine .ite (Bool.eq_iff_iff.mp sameGuard) (fun isLabel => ?_) fun _ =>
    follows_expectBlockEnd beside
  rw [Bool.and_eq_true, beq_iff_eq] at isLabel
  refine (Follows.of_twin (twin_pass beside (by rw [isLabel.1]; rfl))).bind fun _ _ _ _ ended => ?_
  exact follows_expectBlockEnd ended.2

/-- What two readers of tags that are read alike come to, and where their tags lead. -/
abbrev Lane.Leads (lane : Lane) (bound : Nat) (rel : α → α → Prop) (value same : α)
    (here there : Tape) : Prop :=
  rel value same ∧ lane.Outside bound here there

/-- The end of a tag comes last. -/
theorem follows_ended {rel : α → α → Prop} {value same : α} (holds : rel value same)
    (beside : lane.Beside bound tape other) :
    Follows tape other (do expectBlockEnd; return value) (do expectBlockEnd; return same)
      (lane.Leads bound rel) :=
  (follows_expectBlockEnd beside).bind fun _ _ _ _ left => .pure ⟨holds, left⟩

/-! ### Tags that open bodies -/

def chooseHead : Read Expr := do
  let test ← expression
  expectBlockEnd
  return test

structure EachHead where
  target : Target
  items : Expr
  condition : Option Expr

def eachHead : Read EachHead := do
  let target ← assignTarget "for"
  expectWord "in"
  let items ← disjunction
  let condition ← loopCondition?
  expectBlockEnd
  return ⟨target, items, condition⟩

def blockHead : Read String := do
  let name := (← expectName "block name").getD ""
  loop blockWordTurn ()
  expectBlockEnd
  return name

structure DefineHead where
  name : String
  params : List Param

def defineHead : Read DefineHead := do
  let name := (← expectName "macro name").getD ""
  let params ←
    if ← atSymbol .leftParen then params
    else
      expected (Kind.symbol .leftParen).describe
      pure []
  expectBlockEnd
  return ⟨name, params⟩

structure CallHead where
  params : List Param
  call : Expr

def callHead : Read CallHead := do
  let params ← callerParams
  let call ← expression
  expectBlockEnd
  return ⟨params, call⟩

def withHead : Read (List Binding) := do
  let bindings ← loop bindingTurn []
  expectBlockEnd
  return bindings

def filterHead : Read (List FilterCall) := do
  let filters ← furtherFilters [← filterCall]
  expectBlockEnd
  return filters

section Equations

variable (reader : BodyReader) (start : Span)

theorem choose_eq : choose reader start = do
    let test ← chooseHead
    let choice ← loop (nextBranch reader start) ⟨[], none, test, start⟩
    return .choose choice.branches choice.otherwise (← spanFrom start) := by
  simp only [choose, chooseHead, bind_assoc, pure_bind]

theorem each_eq : each reader start = do
    let head ← eachHead
    let (nodes, found) ← reader ["else", "endfor"]
    let otherwise ← loopOtherwise? reader found start
    return .each head.target head.items head.condition nodes otherwise (← spanFrom start) := by
  simp only [each, eachHead, bind_assoc, pure_bind]

theorem block_eq : block reader start = do
    let name ← blockHead
    let nodes ← closedBody reader "endblock" "block" start
    return .block name nodes (← spanFrom start) := by
  simp only [block, blockHead, bind_assoc, pure_bind]

theorem define_eq : define reader start = do
    let head ← defineHead
    let nodes ← closedBody reader "endmacro" "macro" start
    return .define head.name head.params nodes (← spanFrom start) := by
  simp only [define, defineHead, bind_assoc, pure_bind]
  refine bind_congr fun name => bind_congr fun opens => ?_
  split <;> simp only [bind_assoc, pure_bind]

theorem callBlock_eq : callBlock reader start = do
    let head ← callHead
    let nodes ← closedBody reader "endcall" "call" start
    return .callBlock head.call head.params nodes (← spanFrom start) := by
  simp only [callBlock, callHead, bind_assoc, pure_bind]

theorem withBlock_eq : withBlock reader start = do
    let bindings ← withHead
    let nodes ← closedBody reader "endwith" "with" start
    return .withBlock bindings nodes (← spanFrom start) := by
  simp only [withBlock, withHead, bind_assoc, pure_bind]

theorem filterBlock_eq : filterBlock reader start = do
    let filters ← filterHead
    let nodes ← closedBody reader "endfilter" "filter" start
    return .filterBlock filters nodes (← spanFrom start) := by
  simp only [filterBlock, filterHead, bind_assoc, pure_bind]

end Equations

instance : Steady chooseHead := by
  unfold chooseHead
  infer_instance

instance : Steady eachHead := by
  unfold eachHead
  infer_instance

instance : Steady blockHead := by
  unfold blockHead
  infer_instance

instance : Steady defineHead := by
  unfold defineHead
  infer_instance

instance : Steady callHead := by
  unfold callHead
  infer_instance

instance : Steady withHead := by
  unfold withHead
  infer_instance

instance : Steady filterHead := by
  unfold filterHead
  infer_instance

theorem follows_chooseHead (beside : lane.Beside bound tape other) :
    Follows tape other chooseHead chooseHead (lane.Leads bound SameExpr) := by
  refine (Follows.of_twin (likewise_expression.on beside)).bind fun _ _ _ _ ended => ?_
  exact follows_ended ended.1 ended.2

structure EachHead.Same (head twin : EachHead) : Prop where
  target : Upto Target.unplaced head.target twin.target
  items : SameExpr head.items twin.items
  condition : Upto (Option.map Expr.unplaced) head.condition twin.condition

theorem follows_eachHead (beside : lane.Beside bound tape other) :
    Follows tape other eachHead eachHead (lane.Leads bound EachHead.Same) := by
  refine (follows_assignTarget "for" beside).bind fun target twinTarget _ _ ended => ?_
  obtain ⟨sameTarget, beside⟩ := ended
  refine (Follows.of_twin ((likewise_expectWord _).on beside)).bind fun _ _ _ _ ended => ?_
  refine (Follows.of_twin (likewise_disjunction.on ended.2)).bind fun items _ _ _ ended => ?_
  obtain ⟨sameItems, beside⟩ := ended
  refine (Follows.of_twin (likewise_loopCondition?.on beside)).bind fun condition _ _ _ ended => ?_
  exact follows_ended ⟨sameTarget, sameItems, ended.1⟩ ended.2

theorem follows_blockHead (beside : lane.Beside bound tape other) :
    Follows tape other blockHead blockHead (lane.Leads bound Same) := by
  refine (Follows.of_twin ((likewise_expectName _).on beside)).bind fun name _ _ _ ended => ?_
  rw [ended.1]
  refine (Follows.of_twin ((likewise_loop turnsLikewise_blockWord rfl).on ended.2)).bind
    fun _ _ _ _ ended => ?_
  exact follows_ended rfl ended.2

structure DefineHead.Same (head twin : DefineHead) : Prop where
  name : twin.name = head.name
  params : Upto (List.map Param.unplaced) head.params twin.params

theorem follows_defineHead (beside : lane.Beside bound tape other) :
    Follows tape other defineHead defineHead (lane.Leads bound DefineHead.Same) := by
  refine (Follows.of_twin ((likewise_expectName _).on beside)).bind fun name _ here there ended => ?_
  obtain ⟨sameName, beside⟩ := ended
  rw [sameName]
  refine .seeing (run_atSymbol _ here) (run_atSymbol _ there) ?_
  refine .ite (by rw [Likeness.kind beside.current]) (fun isParen => ?_) fun _ => .of_expected _
  have opens : here.current.kind.isInner = true := by rw [beq_iff_eq.mp isParen]; rfl
  refine (Follows.of_twin (twin_params (beside.mono (Nat.le_succ bound)) opens)).bind
    fun params twins _ _ ended => ?_
  exact follows_ended ⟨rfl, ended.1⟩ ended.2

structure CallHead.Same (head twin : CallHead) : Prop where
  params : Upto (List.map Param.unplaced) head.params twin.params
  call : SameExpr head.call twin.call

theorem follows_callHead (beside : lane.Beside bound tape other) :
    Follows tape other callHead callHead (lane.Leads bound CallHead.Same) := by
  refine (Follows.of_twin (likewise_callerParams.on beside)).bind fun params _ _ _ ended => ?_
  obtain ⟨sameParams, beside⟩ := ended
  refine (Follows.of_twin (likewise_expression.on beside)).bind fun call _ _ _ ended => ?_
  exact follows_ended ⟨sameParams, ended.1⟩ ended.2

theorem follows_binding {limit : Nat} {bindings twins : List Binding}
    (same : Upto (List.map Binding.unplaced) bindings twins)
    (beside : lane.Beside (limit + 1) tape other) :
    Follows tape other (bindingTurn bindings) (bindingTurn twins)
      (turnsEnd
        (fun bindings twins here there =>
          Upto (List.map Binding.unplaced) bindings twins ∧ lane.Beside limit here there)
        fun bindings twins here there =>
          Upto (List.map Binding.unplaced) bindings twins ∧
            lane.Beside (limit + 1) here there) := by
  refine (Follows.of_twin (likewise_atClose.on beside)).bind fun closes _ _ _ ended => ?_
  obtain ⟨sameCloses, beside⟩ := ended
  rw [sameCloses]
  refine .ite Iff.rfl (fun _ => .pure ⟨same, beside⟩) fun _ => ?_
  refine (Follows.of_twin (likewise_targetOperand.on beside)).bind fun _ _ _ _ ended => ?_
  obtain ⟨sameOperand, beside⟩ := ended
  refine (follows_toTarget "with" sameOperand).bind fun target twinTarget _ _ ended => ?_
  obtain ⟨sameTarget, rfl, rfl⟩ := ended
  refine (Follows.of_twin ((likewise_expectSymbol _).on beside)).bind fun _ _ _ _ ended => ?_
  refine (Follows.of_twin (likewise_expression.on ended.2)).bind fun value twinValue _ _ ended => ?_
  obtain ⟨sameValue, beside⟩ := ended
  have sameBindings : Upto (List.map Binding.unplaced) (bindings ++ [⟨target, value⟩])
      (twins ++ [⟨twinTarget, twinValue⟩]) := by
    unfold Upto at same sameTarget ⊢
    rw [List.map_append, List.map_append, same, List.map_singleton, List.map_singleton,
      Binding.unplaced, Binding.unplaced, sameTarget, sameValue]
  exact .of_twin (twin_comma sameBindings (Nat.le_refl limit) beside)

theorem follows_withHead (beside : lane.Beside bound tape other) :
    Follows tape other withHead withHead (lane.Leads bound (Upto (List.map Binding.unplaced))) := by
  have turns : Follows tape other (loop bindingTurn []) (loop bindingTurn [])
      fun bindings twins here there =>
        Upto (List.map Binding.unplaced) bindings twins ∧ lane.Beside bound here there := by
    have none : Upto (List.map Binding.unplaced) [] [] := rfl
    refine follows_loop (fun limit bindings twins here there isLess same beside => ?_) none beside
    refine (follows_binding same beside).weaken fun result twin here there ended => ?_
    match result, twin, ended with
    | .again _, .again _, ended => exact ended
    | .done _, .done _, ended => exact ⟨ended.1, ended.2.mono isLess⟩
  exact turns.bind fun _ _ _ _ ended => follows_ended ended.1 ended.2

theorem follows_filterHead (beside : lane.Beside bound tape other) :
    Follows tape other filterHead filterHead
      (lane.Leads bound (Upto (List.map FilterCall.unplaced))) := by
  refine (Follows.of_twin (likewise_filter.on beside)).bind fun first twinFirst _ _ ended => ?_
  obtain ⟨sameFirst, beside⟩ := ended
  have sameFirst : Upto (List.map FilterCall.unplaced) [first] [twinFirst] :=
    congrArg (fun call => [call]) sameFirst
  refine (Follows.of_twin ((likewise_furtherFilters sameFirst).on beside)).bind
    fun filters _ _ _ ended => ?_
  exact follows_ended ended.1 ended.2

end Stencil.Grammar
