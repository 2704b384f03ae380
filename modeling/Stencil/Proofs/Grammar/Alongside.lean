import Stencil.Proofs.Grammar.Clause
import Stencil.Proofs.Grammar.Likewise

/-!
Contract: the clauses of tags depend on nothing but the words of the tag.

Owns:
- every clause of a tag that cannot fail on the meaning of what it has read is paired with itself,
  whatever follows the tag and wherever the tag stands.

Does not own: targets, which can be refused once they are read, and statements
(`Stencil.Proofs.Grammar.Abreast`).
-/

set_option autoImplicit false

namespace Stencil.Grammar

open Stencil.Syntax
open Stencil.Token (Kind)
open Read Statement

variable {α : Type} {lane : Lane} {bound : Nat} {tape other : Tape}

/-! ### Lists without brackets -/

theorem turnsLikewise_listed : lane.TurnsLikewise bound SameExprs listedTurn listedTurn := by
  intro limit _ items twins same tape other beside
  refine (twin_takeSymbol _ beside).bind fun taken _ here there ended => ?_
  obtain ⟨rfl, stays, passed⟩ := ended
  refine .ite Iff.rfl (fun isTaken => ?_) fun _ => .pure ⟨same, stays⟩
  refine (likewise_atClose.on (passed isTaken)).bind fun closes _ here there ended => ?_
  obtain ⟨rfl, beside⟩ := ended
  refine .ite Iff.rfl (fun _ => .pure ⟨same, beside.mono (Nat.le_succ limit)⟩) fun _ => ?_
  refine (likewise_expression.on beside).bind fun item twin here there ended => ?_
  exact .pure ⟨same.concat ended.1, ended.2⟩

theorem likewise_expressionList : lane.Likewise bound SameExpr expressionList expressionList := by
  refine likewise_expression.bind fun first twinFirst sameFirst => ?_
  refine (likewise_atKind _).bind fun isList _ same => ?_
  rw [same]
  refine .ite Iff.rfl ?_ (.pure sameFirst)
  have sameItems : SameExprs [first] [twinFirst] := congrArg (fun item => [item]) sameFirst
  refine (likewise_loop turnsLikewise_listed sameItems).bind fun items twins sameItems => ?_
  refine likewise_previousSpan.bind fun _ _ _ => .pure ?_
  rw [SameExpr, Upto, Expr.unplaced_tuple, Expr.unplaced_tuple, sameItems]

theorem turnsLikewise_target : lane.TurnsLikewise bound SameExprs targetTurn targetTurn := by
  intro limit _ items twins same tape other beside
  refine (twin_takeSymbol _ beside).bind fun taken _ here there ended => ?_
  obtain ⟨rfl, stays, passed⟩ := ended
  refine .ite Iff.rfl (fun isTaken => ?_) fun _ => .pure ⟨same, stays⟩
  refine ((likewise_atKind _).on (passed isTaken)).bind fun _ _ here there ended => ?_
  obtain ⟨rfl, beside⟩ := ended
  refine ((likewise_atWord _).on beside).bind fun _ _ here there ended => ?_
  obtain ⟨rfl, beside⟩ := ended
  refine (likewise_atTagEnd.on beside).bind fun _ _ here there ended => ?_
  obtain ⟨rfl, beside⟩ := ended
  refine .ite Iff.rfl (fun _ => .pure ⟨same, beside.mono (Nat.le_succ limit)⟩) fun _ => ?_
  refine (likewise_targetOperand.on beside).bind fun item twin here there ended => ?_
  exact .pure ⟨same.concat ended.1, ended.2⟩

/-! ### Context -/

/-- Two words that stand in the same tag are passed over on both tapes. -/
theorem pass_words {first second : String} (beside : lane.Beside (bound + 1) tape other)
    (isFirst : tape.current.isName first = true)
    (isSecond : tape.advance.current.isName second = true) :
    lane.Beside bound tape.advance.advance other.advance.advance :=
  (beside.advance (isInner_of_isName isFirst)).pass (isInner_of_isName isSecond)

/-- Whether a context clause is under the head depends on the words of the tag. -/
theorem contextClause_of_beside (beside : lane.Beside bound tape other) :
    ((other.current.isName "with" || other.current.isName "without") &&
        other.advance.current.isName "context") =
      ((tape.current.isName "with" || tape.current.isName "without") &&
        tape.advance.current.isName "context") := by
  refine beside.guarded (fun token => token.isName "with" || token.isName "without") ?_ ?_ ?_
  · intro token isWord
    exact (Bool.or_eq_true_iff.mp isWord).elim isInner_of_isName isInner_of_isName
  · intro first second same
    rw [Likeness.isName same, Likeness.isName same]
  · exact fun moved => Likeness.isName moved.current _

theorem twin_contextClause? (beside : lane.Beside (bound + 1) tape other) :
    Twin tape other contextClause? contextClause? fun clause twin here there =>
      twin = clause ∧ lane.Beside (bound + 1) here there ∧
        (clause.isSome = true → lane.Beside bound here there) := by
  refine .seeing (run_atContextClause tape) (run_atContextClause other) ?_
  rw [contextClause_of_beside beside]
  refine .ite Iff.rfl (fun isClause => ?_) fun _ => .pure ⟨rfl, beside, nofun⟩
  rw [Bool.and_eq_true, Bool.or_eq_true] at isClause
  have moved := isClause.1.elim (pass_words beside · isClause.2) (pass_words beside · isClause.2)
  refine ⟨?_, moved.mono (Nat.le_succ bound), fun _ => moved⟩
  exact congrArg some (Likeness.isName beside.current _)

theorem likewise_contextClause? :
    lane.Likewise bound Same contextClause? contextClause? :=
  .intro fun _ _ _ _ beside =>
    (twin_contextClause? beside).weaken fun _ _ _ _ ended => ⟨ended.1, ended.2.1⟩

theorem turnsLikewise_clause : lane.TurnsLikewise bound Same clauseTurn clauseTurn := by
  intro limit _ clauses _ same tape other beside
  rw [same]
  refine .seeing (run_peekAhead 1 tape) (run_peekAhead 1 other) ?_
  refine .seeing (run_atWord _ tape) (run_atWord _ other) ?_
  rw [Tape.ahead_one, Tape.ahead_one]
  have sameGuard := beside.guardedWord "ignore" (·.isName "missing") fun same =>
    Likeness.isName same _
  refine .ite (Bool.eq_iff_iff.mp sameGuard) (fun ignores => ?_) fun _ => ?_
  · rw [Bool.and_eq_true] at ignores
    exact ⟨rfl, pass_words beside ignores.1 ignores.2⟩
  · refine (twin_contextClause? beside).bind fun _ clause here there ended => ?_
    obtain ⟨rfl, stays, passed⟩ := ended
    cases clause with
    | none => exact .pure ⟨rfl, stays⟩
    | some context => exact .pure ⟨rfl, passed rfl⟩

/-! ### Names and parameters -/

theorem turnsLikewise_blockWord : lane.TurnsLikewise bound Same blockWordTurn blockWordTurn := by
  intro limit _ _ _ _ tape other beside
  refine (twin_takeWord _ beside).bind fun taken _ here there ended => ?_
  obtain ⟨rfl, stays, passed⟩ := ended
  refine .ite Iff.rfl (fun isTaken => .pure ⟨rfl, passed isTaken⟩) fun _ => ?_
  refine (twin_takeWord _ stays).bind fun taken _ here there ended => ?_
  obtain ⟨rfl, stays, passed⟩ := ended
  exact .ite Iff.rfl (fun isTaken => .pure ⟨rfl, passed isTaken⟩) fun _ => .pure ⟨rfl, stays⟩

/-- The last thing of a turn: it goes on behind a comma. -/
theorem twin_comma {rel : α → α → Prop} {value same : α} (holds : rel value same) {least : Nat}
    (isLeast : least ≤ bound) (beside : lane.Beside (least + 1) tape other) :
    Twin tape other
      (do if ← takeSymbol .comma then return Turn.again value else return Turn.done value)
      (do if ← takeSymbol .comma then return Turn.again same else return Turn.done same)
      (turnsEnd (fun value same here there => rel value same ∧ lane.Beside bound here there)
        fun value same here there => rel value same ∧ lane.Beside (bound + 1) here there) := by
  refine (twin_takeSymbol _ beside).bind fun taken _ here there ended => ?_
  obtain ⟨rfl, stays, passed⟩ := ended
  refine .ite Iff.rfl (fun isTaken => .pure ⟨holds, (passed isTaken).mono isLeast⟩) fun _ => ?_
  exact .pure ⟨holds, stays.mono (Nat.succ_le_succ isLeast)⟩

theorem turnsLikewise_param :
    lane.TurnsLikewise bound (Upto (List.map Param.unplaced)) paramTurn paramTurn := by
  intro limit _ params twins same tape other beside
  refine ((likewise_atKind _).on beside).bind fun _ _ here there ended => ?_
  obtain ⟨rfl, beside⟩ := ended
  refine (likewise_atClose.on beside).bind fun _ _ here there ended => ?_
  obtain ⟨rfl, beside⟩ := ended
  refine .ite Iff.rfl (fun _ => .pure ⟨same, beside⟩) fun _ => ?_
  refine (twin_take? rfl beside).bind fun found twin here there ended => ?_
  match found, twin, ended with
  | none, none, beside =>
      refine ((likewise_expected _).on beside).bind fun _ _ _ _ ended => ?_
      exact .pure ⟨same, ended.2⟩
  | some token, some twin, ⟨sameToken, _, beside⟩ =>
      have ends : ∀ (value twinValue : Option Expr) (here there : Tape),
          Upto (Option.map Expr.unplaced) value twinValue → lane.Beside limit here there →
          Twin here there
            (do
              let params := params ++ [⟨token.lexeme, value, ← spanFrom token.span⟩]
              if ← takeSymbol .comma then return Turn.again params else return Turn.done params)
            (do
              let params := twins ++ [⟨twin.lexeme, twinValue, ← spanFrom twin.span⟩]
              if ← takeSymbol .comma then return Turn.again params else return Turn.done params)
            (turnsEnd
              (fun params twins here there =>
                Upto (List.map Param.unplaced) params twins ∧ lane.Beside limit here there)
              fun params twins here there =>
                Upto (List.map Param.unplaced) params twins ∧
                  lane.Beside (limit + 1) here there) := by
        intro value twinValue here there sameValue beside
        refine .seeing (run_spanFrom _ here) (run_spanFrom _ there) ?_
        obtain ⟨least, rfl⟩ := beside.exists_succ
        refine twin_comma ?_ (Nat.le_succ least) beside
        unfold Upto at same sameValue ⊢
        rw [List.map_append, List.map_append, same, List.map_singleton, List.map_singleton,
          Param.unplaced, Param.unplaced, sameValue, Likeness.lexeme sameToken]
      obtain ⟨least, rfl⟩ := beside.exists_succ
      refine (twin_takeSymbol _ beside).bind fun taken _ here there ended => ?_
      obtain ⟨rfl, stays, passed⟩ := ended
      refine .ite Iff.rfl (fun _ => ?_) fun _ => ?_
      · refine (likewise_expression.some.on stays).bind fun value twinValue here there ended => ?_
        exact ends value twinValue here there ended.1 ended.2
      · exact ends none none here there rfl stays

theorem twin_params (beside : lane.Beside (bound + 1) tape other)
    (opens : tape.current.kind.isInner = true) :
    Twin tape other params params fun params twins here there =>
      Upto (List.map Param.unplaced) params twins ∧ lane.Beside bound here there := by
  refine (twin_advance beside opens).bind fun _ _ here there ended => ?_
  refine Lane.Likewise.on ?_ ended.2
  refine (likewise_loop turnsLikewise_param rfl).bind fun params twins same => ?_
  exact (likewise_expectSymbol _).bind fun _ _ _ => .pure same

theorem likewise_callerParams :
    lane.Likewise bound (Upto (List.map Param.unplaced)) callerParams callerParams := by
  refine .intro fun fewer _ tape other beside => ?_
  refine .seeing (run_atSymbol _ tape) (run_atSymbol _ other) ?_
  refine .ite (by rw [Likeness.kind beside.current]) (fun isParen => ?_)
    fun _ => .pure ⟨rfl, beside⟩
  refine (twin_params beside (by rw [beq_iff_eq.mp isParen]; rfl)).weaken fun _ _ _ _ ended => ?_
  exact ⟨ended.1, ended.2.mono (Nat.le_succ fewer)⟩

theorem turnsLikewise_import :
    lane.TurnsLikewise bound (Upto (List.map ImportName.unplaced)) importTurn importTurn := by
  intro limit _ names twins same tape other beside
  refine .seeing (run_atKind _ tape) (run_atKind _ other) ?_
  refine .seeing (run_atContextClause tape) (run_atContextClause other) ?_
  rw [contextClause_of_beside beside, Likeness.kind beside.current]
  refine .ite Iff.rfl (fun isName => ?_) fun _ => .pure ⟨same, beside⟩
  rw [Bool.and_eq_true, beq_iff_eq] at isName
  refine (twin_advance beside (by rw [isName.1]; rfl)).bind fun token twin here there ended => ?_
  obtain ⟨sameToken, beside⟩ := ended
  have ends : ∀ (boundAs : Option String) (here there : Tape), lane.Beside limit here there →
      Twin here there
        (do
          let names := names ++ [⟨token.lexeme, boundAs, ← spanFrom token.span⟩]
          if ← takeSymbol .comma then return Turn.again names else return Turn.done names)
        (do
          let names := twins ++ [⟨twin.lexeme, boundAs, ← spanFrom twin.span⟩]
          if ← takeSymbol .comma then return Turn.again names else return Turn.done names)
        (turnsEnd
          (fun names twins here there =>
            Upto (List.map ImportName.unplaced) names twins ∧ lane.Beside limit here there)
          fun names twins here there =>
            Upto (List.map ImportName.unplaced) names twins ∧
              lane.Beside (limit + 1) here there) := by
    intro boundAs here there beside
    refine .seeing (run_spanFrom _ here) (run_spanFrom _ there) ?_
    obtain ⟨least, rfl⟩ := beside.exists_succ
    refine twin_comma ?_ (Nat.le_succ least) beside
    unfold Upto at same ⊢
    rw [List.map_append, List.map_append, same, List.map_singleton, List.map_singleton,
      ImportName.unplaced, ImportName.unplaced, Likeness.lexeme sameToken]
  refine ((likewise_takeWord _).on beside).bind fun _ taken here there ended => ?_
  obtain ⟨rfl, beside⟩ := ended
  refine .ite Iff.rfl (fun _ => ?_) fun _ => ends none here there beside
  refine ((likewise_expectName _).on beside).bind fun _ boundAs here there ended => ?_
  obtain ⟨rfl, beside⟩ := ended
  exact ends boundAs here there beside

/-! ### Arguments of tags of the host -/

/-- The last of the expressions that a hook asks for is the one that passes over nothing, on both
tapes. -/
theorem turnsLikewise_hook (words : List String) :
    lane.TurnsLikewise bound SameExprs (hookTurn words) (hookTurn words) := by
  intro limit _ exprs twins same tape other beside
  obtain ⟨shared, exactly, isLess, length, otherLength⟩ := beside.exact
  have sameClose : (other.current.kind.isTagEnd || other.current.kind == .endOfInput) =
      (tape.current.kind.isTagEnd || tape.current.kind == .endOfInput) := by
    rw [Likeness.kind beside.current]
  have sameWord : words.any other.current.isName = words.any tape.current.isName :=
    congrArg words.any (funext (Likeness.isName beside.current))
  refine .seeing (run_peek tape) (run_peek other) ?_
  refine .seeing (run_atClose tape) (run_atClose other) ?_
  refine .ite (by rw [sameClose, sameWord]) (fun _ => .pure ⟨same, beside⟩) fun _ => ?_
  -- What the turn comes to is hidden on the way, since nothing of it is to be computed.
  generalize isEnds : turnsEnd _ _ = ends
  refine .seeing (run_get tape) (run_get other) ?_
  refine (likewise_expression.on exactly).bind fun value twin _ _ ended => ?_
  have sameExprs := SameExprs.concat same ended.1
  refine ((likewise_takeSymbol .comma).on ended.2).bind fun _ _ here there ended => ?_
  obtain ⟨left, exactly, isFewer, lengthHere, lengthThere⟩ := ended.2.exact
  refine .seeing (run_get here) (run_get there) ?_
  rw [← isEnds]
  refine .ite (by omega) (fun _ => .pure ⟨sameExprs, exactly.mono (by omega)⟩) fun passed => ?_
  exact .pure ⟨sameExprs, exactly.mono (by omega)⟩

/-! ### Filters and conditions -/

theorem likewise_loopCondition? :
    lane.Likewise bound (Upto (Option.map Expr.unplaced)) loopCondition? loopCondition? := by
  refine (likewise_takeWord _).bind fun taken _ same => ?_
  rw [same]
  exact .ite Iff.rfl likewise_disjunction.some (.pure rfl)

theorem turnsLikewise_filter :
    lane.TurnsLikewise bound (Upto (List.map FilterCall.unplaced)) filterTurn filterTurn := by
  intro limit _ filters twins same tape other beside
  refine (twin_takeSymbol _ beside).bind fun taken _ here there ended => ?_
  obtain ⟨rfl, stays, passed⟩ := ended
  refine .ite Iff.rfl (fun isTaken => ?_) fun _ => .pure ⟨same, stays⟩
  refine (likewise_filter.on (passed isTaken)).bind fun call twin here there ended => ?_
  refine .pure ⟨?_, ended.2⟩
  have sameCall := ended.1
  unfold Upto at same sameCall ⊢
  rw [List.map_append, List.map_append, same, List.map_singleton, List.map_singleton, sameCall]

theorem likewise_furtherFilters {filters twins : List FilterCall}
    (same : Upto (List.map FilterCall.unplaced) filters twins) :
    lane.Likewise bound (Upto (List.map FilterCall.unplaced)) (furtherFilters filters)
      (furtherFilters twins) :=
  likewise_loop turnsLikewise_filter same

end Stencil.Grammar
