import Stencil.Proofs.Grammar.Body
import Stencil.Proofs.Grammar.Confined
import Stencil.Proofs.Grammar.Lockstep

/-!
Contract: statements lead from outside tags to outside tags, whatever their tags hold.

Owns:
- every statement of the language leads out of its tag, and so do its bodies;
- every tag of a host does, whatever its hook asks for and in whatever order;
- a turn of a body starts and ends outside tags.

Does not own: bodies of all depths (`Stencil.Proofs.Grammar.Alarm`), and what well-formed templates
read as (`Stencil.Proofs.Grammar.RoundTrip`).
-/

set_option autoImplicit false

namespace Stencil.Grammar

open Stencil.Syntax
open Stencil.Text (Span)
open Stencil.Token (Kind Region)
open Read Statement

variable {tape : Tape} {bound : Nat} {reader other : BodyReader}

/-! ### Tags without bodies -/

/-- What a statement is made of its span comes last. -/
theorem lockstep_spanned {α : Type} {region : Region} (start : Span) (build : Span → α)
    (stands : tape.Stands bound region) :
    Lockstep tape (do return build (← spanFrom start)) (do return build (← spanFrom start)) fun _ =>
      Tape.Stands bound region :=
  (Lockstep.confined (confined_spanFrom start) stands).bind fun _ _ left => .pure left

theorem lockstep_inherit (start : Span) (stands : tape.Stands bound (.inside .block)) :
    Lockstep tape (inherit start) (inherit start) fun _ => Tape.Stands bound .outside := by
  refine (Lockstep.confined confined_expression stands).bind fun _ _ stands => ?_
  refine (lockstep_expectBlockEnd stands).bind fun _ _ left => ?_
  exact lockstep_spanned start _ left

theorem lockstep_embed (start : Span) (stands : tape.Stands bound (.inside .block)) :
    Lockstep tape (embed start) (embed start) fun _ => Tape.Stands bound .outside := by
  refine (Lockstep.confined confined_expression stands).bind fun _ _ stands => ?_
  refine (Lockstep.confined (confined_loop confined_clauseTurn _) stands).bind fun _ _ stands => ?_
  refine (lockstep_expectBlockEnd stands).bind fun _ _ left => ?_
  exact lockstep_spanned start _ left

theorem lockstep_contextEnd (start : Span) (build : Option Bool → Span → Node)
    (stands : tape.Stands bound (.inside .block)) :
    let ending : Read Node := do
      let context ← contextClause?
      expectBlockEnd
      return build context (← spanFrom start)
    Lockstep tape ending ending fun _ => Tape.Stands bound .outside := by
  intro ending
  refine (Lockstep.confined confined_contextClause? stands).bind fun _ _ stands => ?_
  refine (lockstep_expectBlockEnd stands).bind fun _ _ left => ?_
  exact lockstep_spanned start _ left

theorem lockstep_importAs (start : Span) (stands : tape.Stands bound (.inside .block)) :
    Lockstep tape (importAs start) (importAs start) fun _ => Tape.Stands bound .outside := by
  refine (Lockstep.confined confined_expression stands).bind fun template _ stands => ?_
  refine (Lockstep.confined (confined_expectWord _) stands).bind fun _ _ stands => ?_
  refine (Lockstep.confined (confined_expectName _) stands).bind fun name _ stands => ?_
  exact lockstep_contextEnd start
    (fun context => .importAs template (name.getD "") (context.getD false)) stands

theorem lockstep_importNames (start : Span) (stands : tape.Stands bound (.inside .block)) :
    Lockstep tape (importNames start) (importNames start) fun _ => Tape.Stands bound .outside := by
  refine (Lockstep.confined confined_expression stands).bind fun template _ stands => ?_
  refine (Lockstep.confined (confined_expectWord _) stands).bind fun _ _ stands => ?_
  have turns := confined_loop confined_importTurn []
  refine (Lockstep.confined turns stands).bind fun names here stands => ?_
  refine .ite (fun _ => ?_) fun _ => ?_
  · refine (Lockstep.confined (confined_expected _) stands).bind fun _ _ stands => ?_
    exact lockstep_contextEnd start
      (fun context => .importNames template names (context.getD false)) stands
  · exact lockstep_contextEnd start
      (fun context => .importNames template names (context.getD false)) stands

/-- The closing tag of a verbatim body, if it is there. -/
theorem lockstep_verbatimEnd (content : String) (start : Span)
    (stands : tape.Stands bound .outside) :
    Lockstep tape (verbatimEnd content start) (verbatimEnd content start)
      fun _ => Tape.Stands bound .outside := by
  refine .seeing (run_peek tape) ?_
  refine .seeing (run_peekAhead 1 tape) ?_
  refine .ite (fun closes => ?_) fun _ => ?_
  · rw [Tape.ahead_one] at closes
    refine (lockstep_finishTag stands (Tape.atTag_of_closesVerbatim closes)).bind fun _ _ left => ?_
    exact lockstep_spanned start _ left
  · refine (Lockstep.confined (confined_mistake _ _) stands).bind fun _ _ stands => ?_
    exact lockstep_spanned start _ stands

/-- A verbatim body is a single token of text, so that what follows it stands outside tags. -/
theorem lockstep_verbatim (start : Span) (stands : tape.Stands bound (.inside .block)) :
    Lockstep tape (verbatim start) (verbatim start) fun _ => Tape.Stands bound .outside := by
  refine (lockstep_expectBlockEnd stands).bind fun _ here left => ?_
  refine .seeing (run_atKind .text here) ?_
  refine .ite (fun isText => ?_) fun _ => lockstep_verbatimEnd "" start left
  obtain ⟨fewer, rfl⟩ := left.exists_succ
  refine .seeing (run_trimmedText here) ?_
  refine (Lockstep.advance left (by rw [beq_iff_eq.mp isText]; rfl)).bind fun _ _ passed => ?_
  exact lockstep_verbatimEnd _ start (passed.2.2.mono (Nat.le_succ fewer))

/-! ### Tags with bodies -/

section Bodies

variable (alike : Alike bound reader other) (start : Span)
include alike

/-- A closed body is the last thing that most tags have. -/
theorem lockstep_closedSpanned (ending tag : String) (build : List Node → Span → Node)
    (stands : tape.Stands bound .outside) :
    Lockstep tape
      (do
        let nodes ← closedBody reader ending tag start
        return build nodes (← spanFrom start))
      (do
        let nodes ← closedBody other ending tag start
        return build nodes (← spanFrom start))
      fun _ => Tape.Stands bound .outside := by
  refine (lockstep_closedBody alike ending tag start stands).bind fun _ _ left => ?_
  exact lockstep_spanned start _ left

theorem lockstep_nextBranch {fewer : Nat} (isFewer : fewer < bound) (choice : Choice)
    (stands : tape.Stands (fewer + 1) .outside) :
    Lockstep tape (nextBranch reader start choice) (nextBranch other start choice)
      (turnEnds (fun _ final => True ∧ final.Stands fewer .outside) fun _ =>
        Tape.Stands bound .outside) := by
  have shorter : ∀ final : Tape, final.Stands (fewer + 1) .outside → final.Stands bound .outside :=
    fun _ left => left.mono isFewer
  refine (alike.mono isFewer _ tape stands).bind fun result here stops => ?_
  obtain ⟨nodes, found⟩ := result
  obtain ⟨standsHere, reason⟩ := stops
  refine .seeing (run_spanFrom _ here) ?_
  dsimp only
  split
  · refine (lockstep_openTag standsHere reason.2).bind fun _ _ stands => ?_
    refine (Lockstep.confined confined_expression stands).bind fun _ _ stands => ?_
    exact (lockstep_expectBlockEnd stands).bind fun _ _ left => .pure ⟨trivial, left⟩
  · refine (lockstep_finishTag standsHere reason.2).bind fun _ _ left => ?_
    exact (lockstep_closedBody (alike.mono isFewer) _ _ _ left).bind fun _ _ left =>
      .pure (shorter _ left)
  · exact (lockstep_finishTag standsHere reason.2).bind fun _ _ left => .pure (shorter _ left)
  · exact (Lockstep.confined (confined_mistake _ _) standsHere).bind fun _ _ left =>
      .pure (shorter _ left)

theorem lockstep_choose (stands : tape.Stands bound (.inside .block)) :
    Lockstep tape (choose reader start) (choose other start) fun _ =>
      Tape.Stands bound .outside := by
  refine (Lockstep.confined confined_expression stands).bind fun test _ stands => ?_
  refine (lockstep_expectBlockEnd stands).bind fun _ _ left => ?_
  refine (Lockstep.loop (fun _ => True) (fun fewer choice here isFewer _ standsHere =>
    lockstep_nextBranch alike start isFewer choice standsHere) trivial left).bind
      fun choice _ left => ?_
  exact lockstep_spanned start _ left

theorem lockstep_loopOtherwise? {found : Option String} {endings : List String}
    {outer : List (List String)} (stops : Stops bound endings outer found tape) :
    Lockstep tape (loopOtherwise? reader found start) (loopOtherwise? other found start) fun _ =>
      Tape.Stands bound .outside := by
  obtain ⟨stands, reason⟩ := stops
  unfold loopOtherwise?
  split
  · refine (lockstep_finishTag stands reason.2).bind fun _ _ left => ?_
    exact Lockstep.map (lockstep_closedBody alike _ _ _ left)
  · exact (lockstep_finishTag stands reason.2).bind fun _ _ left => .pure left
  · exact (Lockstep.confined (confined_mistake _ _) stands).bind fun _ _ left => .pure left

theorem lockstep_each (stands : tape.Stands bound (.inside .block)) :
    Lockstep tape (each reader start) (each other start) fun _ => Tape.Stands bound .outside := by
  refine (Lockstep.confined (confined_assignTarget _) stands).bind fun _ _ stands => ?_
  refine (Lockstep.confined (confined_expectWord _) stands).bind fun _ _ stands => ?_
  refine (Lockstep.confined confined_disjunction stands).bind fun _ _ stands => ?_
  refine (Lockstep.confined confined_loopCondition? stands).bind fun _ _ stands => ?_
  refine (lockstep_expectBlockEnd stands).bind fun _ _ left => ?_
  refine (alike _ _ left).bind fun result _ stops => ?_
  refine (lockstep_loopOtherwise? alike start stops).bind fun _ _ left => ?_
  exact lockstep_spanned start _ left

theorem lockstep_assign (stands : tape.Stands bound (.inside .block)) :
    Lockstep tape (assign reader start) (assign other start) fun _ =>
      Tape.Stands bound .outside := by
  refine (Lockstep.confined (confined_assignTarget _) stands).bind fun target _ stands => ?_
  refine (Lockstep.confined (confined_takeSymbol _) stands).bind fun _ _ stands => ?_
  refine .ite (fun _ => ?_) fun _ => ?_
  · refine (Lockstep.confined confined_expressionList stands).bind fun _ _ stands => ?_
    refine (lockstep_expectBlockEnd stands).bind fun _ _ left => ?_
    exact lockstep_spanned start _ left
  · refine (Lockstep.confined (confined_furtherFilters _) stands).bind fun filters _ stands => ?_
    refine (lockstep_expectBlockEnd stands).bind fun _ _ left => ?_
    exact lockstep_closedSpanned alike start _ _ (.capture target filters) left

theorem lockstep_block (stands : tape.Stands bound (.inside .block)) :
    Lockstep tape (block reader start) (block other start) fun _ => Tape.Stands bound .outside := by
  refine (Lockstep.confined (confined_expectName _) stands).bind fun name _ stands => ?_
  refine (Lockstep.confined (confined_loop confined_blockWordTurn _) stands).bind
    fun _ _ stands => ?_
  refine (lockstep_expectBlockEnd stands).bind fun _ _ left => ?_
  exact lockstep_closedSpanned alike start _ _ (.block (name.getD "")) left

theorem lockstep_define (stands : tape.Stands bound (.inside .block)) :
    Lockstep tape (define reader start) (define other start) fun _ =>
      Tape.Stands bound .outside := by
  refine (Lockstep.confined (confined_expectName _) stands).bind fun name here stands => ?_
  refine .seeing (run_atSymbol _ here) ?_
  refine .ite (fun isParen => ?_) fun _ => ?_
  · have opens : here.current.kind.isInner = true := by
      rw [beq_iff_eq.mp isParen]
      rfl
    refine (Lockstep.inside (inside_params opens) stands).bind fun params _ stands => ?_
    refine (lockstep_expectBlockEnd stands).bind fun _ _ left => ?_
    exact lockstep_closedSpanned alike start _ _ (.define (name.getD "") params) left
  · refine (Lockstep.confined (confined_expected _) stands).bind fun _ _ stands => ?_
    refine (Lockstep.confined (confined_pure _) stands).bind fun params _ stands => ?_
    refine (lockstep_expectBlockEnd stands).bind fun _ _ left => ?_
    exact lockstep_closedSpanned alike start _ _ (.define (name.getD "") params) left

theorem lockstep_callBlock (stands : tape.Stands bound (.inside .block)) :
    Lockstep tape (callBlock reader start) (callBlock other start) fun _ =>
      Tape.Stands bound .outside := by
  refine (Lockstep.confined confined_callerParams stands).bind fun params _ stands => ?_
  refine (Lockstep.confined confined_expression stands).bind fun call _ stands => ?_
  refine (lockstep_expectBlockEnd stands).bind fun _ _ left => ?_
  exact lockstep_closedSpanned alike start _ _ (.callBlock call params) left

theorem lockstep_withBlock (stands : tape.Stands bound (.inside .block)) :
    Lockstep tape (withBlock reader start) (withBlock other start) fun _ =>
      Tape.Stands bound .outside := by
  refine (Lockstep.confined (confined_loop confined_bindingTurn _) stands).bind
    fun bindings _ stands => ?_
  refine (lockstep_expectBlockEnd stands).bind fun _ _ left => ?_
  exact lockstep_closedSpanned alike start _ _ (.withBlock bindings) left

theorem lockstep_filterBlock (stands : tape.Stands bound (.inside .block)) :
    Lockstep tape (filterBlock reader start) (filterBlock other start) fun _ =>
      Tape.Stands bound .outside := by
  refine (Lockstep.confined confined_filter stands).bind fun filter _ stands => ?_
  refine (Lockstep.confined (confined_furtherFilters _) stands).bind fun filters _ stands => ?_
  refine (lockstep_expectBlockEnd stands).bind fun _ _ left => ?_
  exact lockstep_closedSpanned alike start _ _ (.filterBlock filters) left

/-! ### Tags of the host -/

/-- Where the head stands in the tag of a hook, before the hook has closed it and after. -/
def tagRegion (closed : Bool) : Region := if closed then .outside else .inside .block

/-- What a hook asks for keeps the head in its tag until it closes the tag, and outside tags from
then on, in whatever order it asks. -/
theorem lockstep_runHook (name : String) (hook : Hook) (closed : Bool)
    (stands : tape.Stands bound (tagRegion closed)) :
    Lockstep tape (runHook reader name start hook closed) (runHook other name start hook closed)
      fun result => Tape.Stands bound (tagRegion result.2) := by
  induction hook generalizing tape closed with
  | finish node => exact .pure stands
  | look next inductionHypothesis =>
      refine (Lockstep.confined confined_peek stands).bind fun token _ stands => ?_
      exact inductionHypothesis token closed stands
  | takeWord word next inductionHypothesis =>
      refine (Lockstep.confined (confined_takeWord word) stands).bind fun found _ stands => ?_
      exact inductionHypothesis found closed stands
  | expression next inductionHypothesis =>
      refine (Lockstep.confined confined_expression stands).bind fun expr _ stands => ?_
      exact inductionHypothesis expr closed stands
  | expressionsUntil words next inductionHypothesis =>
      refine (Lockstep.confined (confined_expressionsUntil words) stands).bind
        fun exprs _ stands => ?_
      exact inductionHypothesis exprs closed stands
  | closeTag next inductionHypothesis =>
      cases closed with
      | false =>
          refine (lockstep_expectBlockEnd stands).bind fun _ _ left => ?_
          exact inductionHypothesis true left
      | true => exact inductionHypothesis true stands
  | bodyUntil endings next inductionHypothesis =>
      have reads : ∀ here : Tape, here.Stands bound .outside →
          Lockstep here
            (do
              let result ← reader endings
              if result.2.isSome then finishTag
              else missingEnd name (endings.head?.getD "end") start
              runHook reader name start (next result.1 result.2) true)
            (do
              let result ← other endings
              if result.2.isSome then finishTag
              else missingEnd name (endings.head?.getD "end") start
              runHook other name start (next result.1 result.2) true)
            fun result => Tape.Stands bound (tagRegion result.2) := by
        intro here stands
        refine (alike endings here stands).bind fun result there stops => ?_
        obtain ⟨nodes, found⟩ := result
        cases found with
        | none =>
            refine (Lockstep.confined (confined_mistake _ _) stops.stands).bind fun _ _ left => ?_
            exact inductionHypothesis nodes none true left
        | some ending =>
            refine (lockstep_finishTag stops.stands stops.reason.2).bind fun _ _ left => ?_
            exact inductionHypothesis nodes (some ending) true left
      cases closed with
      | false => exact (lockstep_expectBlockEnd stands).bind fun _ here left => reads here left
      | true => exact reads tape stands
  | report diagnostic next inductionHypothesis =>
      refine (Lockstep.confined (confined_report diagnostic) stands).bind fun _ _ stands => ?_
      exact inductionHypothesis closed stands
  | spanFrom origin next inductionHypothesis =>
      refine (Lockstep.confined (confined_spanFrom origin) stands).bind fun span _ stands => ?_
      exact inductionHypothesis span closed stands

/-- A tag of the host leads out of itself, closed by its hook or not. -/
theorem lockstep_custom (extension : Extension) (name : String)
    (stands : tape.Stands bound (.inside .block)) :
    Lockstep tape (custom reader extension name start) (custom other extension name start) fun _ =>
      Tape.Stands bound .outside := by
  refine (lockstep_runHook alike start name (extension name start) false stands).bind
    fun result _ stands => ?_
  obtain ⟨node, closed⟩ := result
  cases closed with
  | false => exact (lockstep_expectBlockEnd stands).bind fun _ _ left => .pure left
  | true => exact .pure stands

/-! ### Statements -/

theorem lockstep_builtin (name : String) (stands : tape.Stands bound (.inside .block)) :
    Lockstep tape (builtin reader name start) (builtin other name start) fun _ =>
      Tape.Stands bound .outside := by
  unfold builtin
  split
  · exact Lockstep.map (lockstep_choose alike start stands)
  · exact Lockstep.map (lockstep_each alike start stands)
  · exact Lockstep.map (lockstep_assign alike start stands)
  · exact Lockstep.map (lockstep_block alike start stands)
  · exact Lockstep.map (lockstep_inherit start stands)
  · exact Lockstep.map (lockstep_embed start stands)
  · exact Lockstep.map (lockstep_importAs start stands)
  · exact Lockstep.map (lockstep_importNames start stands)
  · exact Lockstep.map (lockstep_define alike start stands)
  · exact Lockstep.map (lockstep_callBlock alike start stands)
  · exact Lockstep.map (lockstep_withBlock alike start stands)
  · exact Lockstep.map (lockstep_filterBlock alike start stands)
  · exact Lockstep.map (lockstep_verbatim start stands)
  · refine (Lockstep.confined (confined_spanFrom start) stands).bind fun _ _ stands => ?_
    refine (Lockstep.confined (confined_mistake _ _) stands).bind fun _ _ stands => ?_
    exact (lockstep_skipTag stands).bind fun _ _ left => .pure left

omit start in
/-- Every statement leads from its opening delimiter to outside tags. -/
theorem lockstep_statement (register : Register) (stands : tape.Stands (bound + 1) .outside)
    (opens : ∃ trim, tape.current.kind = .blockStart trim) :
    Lockstep tape (statement register reader) (statement register other) fun _ =>
      Tape.Stands bound .outside := by
  obtain ⟨trim, isStart⟩ := opens
  refine (Lockstep.advance stands (by rw [isStart]; rfl)).bind fun _ here opened => ?_
  obtain ⟨rfl, rfl, stands⟩ := opened
  refine .seeing (run_atKind .name tape.advance) ?_
  refine .ite (fun isName => ?_) fun _ => ?_
  · have passesName : tape.advance.Inside (advance.run tape.advance).2 :=
      inside_advance (by rw [beq_iff_eq.mp isName]; rfl)
    refine (Lockstep.inside passesName stands).bind fun token _ stands => ?_
    dsimp only
    split
    · exact lockstep_custom alike _ _ _ stands
    · exact lockstep_builtin alike _ _ stands
  · refine (Lockstep.confined (confined_expected _) stands).bind fun _ _ stands => ?_
    exact (lockstep_expectBlockEnd stands).bind fun _ _ left => .pure left

end Bodies

/-! ### Bodies -/

theorem lockstep_text (stands : tape.Stands (bound + 1) .outside)
    (isText : tape.current.kind = .text) :
    Lockstep tape text text fun _ => Tape.Stands bound .outside := by
  refine .seeing (run_trimmedText tape) ?_
  exact (Lockstep.advance stands (by rw [isText]; rfl)).bind fun _ _ passed => .pure passed.2.2

theorem lockstep_comment {trimBefore trimAfter : Bool} (stands : tape.Stands (bound + 1) .outside)
    (isComment : tape.current.kind = .comment trimBefore trimAfter) :
    Lockstep tape (comment trimBefore trimAfter) (comment trimBefore trimAfter) fun _ =>
      Tape.Stands bound .outside :=
  (Lockstep.advance stands (by rw [isComment]; rfl)).bind fun _ _ passed => .pure passed.2.2

theorem lockstep_output {trim : Bool} (stands : tape.Stands (bound + 1) .outside)
    (isStart : tape.current.kind = .variableStart trim) :
    Lockstep tape output output fun _ => Tape.Stands bound .outside := by
  refine (Lockstep.advance stands (by rw [isStart]; rfl)).bind fun start _ passed => ?_
  refine (Lockstep.confined confined_expression passed.2.2).bind fun _ _ stands => ?_
  refine (lockstep_expectTagEnd _ stands).bind fun _ _ left => ?_
  exact lockstep_spanned _ _ left

theorem lockstep_statementTurn (alike : Alike bound reader other) (register : Register)
    (endings : List String) (body : Body) (unfound : body.found = none)
    (stands : tape.Stands (bound + 1) .outside)
    (opens : ∃ trim, tape.current.kind = .blockStart trim) :
    Lockstep tape (do return Turn.again (body.add (← statement register reader)))
      (do return Turn.again (body.add (← statement register other)))
      (turnEnds (fun next final => next.found = none ∧ final.Stands bound .outside)
        fun result final =>
          Stops (bound + 1) endings final.enclosing.tail result.found final) :=
  (lockstep_statement alike register stands opens).bind fun _ _ left => .pure ⟨unfound, left⟩

/-- One turn of a body: from outside tags to outside tags, unless it is the last one. -/
theorem lockstep_nextNode (alike : Alike bound reader other) (register : Register)
    (endings : List String) (body : Body) (unfound : body.found = none)
    (stands : tape.Stands (bound + 1) .outside) :
    Lockstep tape (nextNode register reader endings body) (nextNode register other endings body)
      (turnEnds (fun next final => next.found = none ∧ final.Stands bound .outside)
        fun result final =>
          Stops (bound + 1) endings final.enclosing.tail result.found final) := by
  refine .seeing (run_peek tape) ?_
  have outer : tape.current.kind.isOuter = true := stands.isOuter
  split
  · rename_i isEnd
    refine .pure ⟨stands, ?_⟩
    rw [unfound]
    exact .inl isEnd
  · rename_i isText
    exact (lockstep_text stands isText).bind fun _ _ left => .pure ⟨unfound, left⟩
  · rename_i isComment
    exact (lockstep_comment stands isComment).bind fun _ _ left => .pure ⟨unfound, left⟩
  · rename_i isStart
    exact (lockstep_output stands isStart).bind fun _ _ left => .pure ⟨unfound, left⟩
  · rename_i trim isStart
    refine .seeing (run_peekAhead 1 tape) ?_
    have goesOn := lockstep_statementTurn alike register endings body unfound stands ⟨trim, isStart⟩
    refine .ite (fun isName => ?_) fun _ => goesOn
    have named : tape.advance.current.isName (tape.ahead 1).lexeme = true := by
      rw [← Tape.ahead_one, Token.isName, isName, beq_self_eq_true]
      rfl
    have atTag : tape.AtTag (tape.ahead 1).lexeme := ⟨⟨trim, isStart⟩, named⟩
    refine .ite (fun isOwn => ?_) fun _ => ?_
    · exact .pure ⟨stands, List.contains_iff_mem.mp isOwn, atTag⟩
    · refine .seeing (run_closesEnclosing _ tape) ?_
      refine .ite (fun isOuter => ?_) fun _ => goesOn
      refine .pure ⟨stands, ?_⟩
      rw [unfound]
      exact .inr ⟨_, atTag, isOuter⟩
  · rename_i notEnd notText notComment notVariable notBlock
    revert outer
    cases isKind : tape.current.kind <;> simp_all [Kind.isOuter]

end Stencil.Grammar
