import Stencil.Proofs.Grammar.Heading

/-!
Contract: statements that read without a report depend on nothing but their own words.

Owns:
- every statement of the language is read alike on two tapes that share its tokens, whatever
  closing tags are waited for around it, as long as nothing is reported;
- so is a body of any depth that finds its own closing tag.

Does not own: sequences of statements that a template may have anywhere
(`Stencil.Proofs.Grammar.Segment`).
-/

set_option autoImplicit false

-- The readers of tags are long chains of actions, each of which counts.
set_option synthInstance.maxSize 1024

namespace Stencil.Grammar

open Stencil.Syntax
open Stencil.Text (Span)
open Stencil.Token (Kind)
open Read Statement

variable {α : Type} {lane : Lane} {bound fewer : Nat} {tape other : Tape} {reader twin : BodyReader}
  {start twinStart : Span}

/-! ### Tags without bodies -/

abbrev SameNode : Node → Node → Prop := Upto Node.unplaced

abbrev SameNodes : List Node → List Node → Prop := Upto (List.map Node.unplaced)

theorem SameNodes.body {nodes twins : List Node} (same : SameNodes nodes twins) :
    unplacedBody twins = unplacedBody nodes := by
  rw [unplacedBody_eq_map, unplacedBody_eq_map, same]

theorem SameNodes.append {nodes twins others otherTwins : List Node} (left : SameNodes nodes twins)
    (right : SameNodes others otherTwins) : SameNodes (nodes ++ others) (twins ++ otherTwins) := by
  rw [SameNodes, Upto, List.map_append, List.map_append, left, right]

/-- A statement's place comes last. -/
theorem follows_spanned {build twinBuild : Span → Node}
    (same : ∀ span twinSpan, SameNode (build span) (twinBuild twinSpan))
    (left : lane.Outside bound tape other) :
    Follows tape other (do return build (← spanFrom start))
      (do return twinBuild (← spanFrom twinStart)) (lane.Leads bound SameNode) :=
  .of_twin ⟨same _ _, left⟩

theorem follows_inherit (beside : lane.Beside bound tape other) :
    Follows tape other (inherit start) (inherit twinStart) (lane.Leads bound SameNode) := by
  refine (Follows.of_twin (likewise_expression.on beside)).bind fun _ _ _ _ ended => ?_
  refine (follows_expectBlockEnd ended.2).bind fun _ _ _ _ left => ?_
  refine follows_spanned (fun _ _ => ?_) left
  exact congrArg (Node.inherit · default) ended.1

theorem follows_embed (beside : lane.Beside bound tape other) :
    Follows tape other (embed start) (embed twinStart) (lane.Leads bound SameNode) := by
  refine (Follows.of_twin (likewise_expression.on beside)).bind fun _ _ _ _ ended => ?_
  obtain ⟨sameTemplate, beside⟩ := ended
  refine (Follows.of_twin ((likewise_loop turnsLikewise_clause rfl).on beside)).bind
    fun clauses _ _ _ ended => ?_
  obtain ⟨sameClauses, beside⟩ := ended
  rw [sameClauses]
  refine (follows_expectBlockEnd beside).bind fun _ _ _ _ left => ?_
  refine follows_spanned (fun _ _ => ?_) left
  exact congrArg (Node.embed · clauses.withContext clauses.ignoreMissing default) sameTemplate

theorem follows_contextEnd {build twinBuild : Option Bool → Span → Node}
    (same : ∀ context span twinSpan, SameNode (build context span) (twinBuild context twinSpan))
    (beside : lane.Beside bound tape other) :
    Follows tape other
      (do
        let context ← contextClause?
        expectBlockEnd
        return build context (← spanFrom start))
      (do
        let context ← contextClause?
        expectBlockEnd
        return twinBuild context (← spanFrom twinStart))
      (lane.Leads bound SameNode) := by
  refine (Follows.of_twin (likewise_contextClause?.on beside)).bind fun context _ _ _ ended => ?_
  rw [ended.1]
  refine (follows_expectBlockEnd ended.2).bind fun _ _ _ _ left => ?_
  exact follows_spanned (same context) left

theorem follows_importAs (beside : lane.Beside bound tape other) :
    Follows tape other (importAs start) (importAs twinStart) (lane.Leads bound SameNode) := by
  refine (Follows.of_twin (likewise_expression.on beside)).bind fun template twin _ _ ended => ?_
  obtain ⟨sameTemplate, beside⟩ := ended
  refine (Follows.of_twin ((likewise_expectWord _).on beside)).bind fun _ _ _ _ ended => ?_
  refine (Follows.of_twin ((likewise_expectName _).on ended.2)).bind fun name _ _ _ ended => ?_
  rw [ended.1]
  refine follows_contextEnd (fun context _ _ => ?_) ended.2
  exact congrArg (Node.importAs · (name.getD "") (context.getD false) default) sameTemplate

theorem follows_importNames (beside : lane.Beside bound tape other) :
    Follows tape other (importNames start) (importNames twinStart) (lane.Leads bound SameNode) := by
  refine (Follows.of_twin (likewise_expression.on beside)).bind fun template twin _ _ ended => ?_
  obtain ⟨sameTemplate, beside⟩ := ended
  refine (Follows.of_twin ((likewise_expectWord _).on beside)).bind fun _ _ _ _ ended => ?_
  refine (Follows.of_twin ((likewise_loop turnsLikewise_import rfl).on ended.2)).bind
    fun names twins here there ended => ?_
  obtain ⟨sameNames, beside⟩ := ended
  have sameEmpty : twins.isEmpty = names.isEmpty := by
    rw [← List.isEmpty_map, sameNames, List.isEmpty_map]
  refine .ite (by rw [sameEmpty]) (fun _ => .of_expected _) fun _ => ?_
  refine follows_contextEnd (fun context _ _ => ?_) beside
  rw [SameNode, Upto, Node.unplaced, Node.unplaced, sameTemplate, sameNames]

/-! ### Where bodies cannot be closed -/

/-- The end of the input, perhaps with text before it, or with the tag of a verbatim body that is
never closed. A template may end like this; a body that does is not closed. -/
inductive Final : List Token → Prop where
  | ending {last : Token} (isEnd : last.kind = .endOfInput) : Final [last]
  | text {token : Token} {rest : List Token} (isText : token.kind = .text) (final : Final rest) :
      Final (token :: rest)
  | verbatim {opening name closing : Token} {trim : Bool} {rest : List Token}
      (opens : opening.kind = .blockStart trim) (isRaw : wordOf name = .name "raw")
      (closes : closing.kind.isTagEnd = true) (final : Final rest) :
      Final (opening :: name :: closing :: rest)

theorem Final.not_closesVerbatim {tokens : List Token} (final : Final tokens)
    (isRemaining : tape.remaining = tokens) : tape.closesVerbatim = false := by
  cases final with
  | ending isEnd =>
      rw [Tape.closesVerbatim, Tape.current_of_remaining isRemaining, isEnd]
      rfl
  | text isText =>
      rw [Tape.closesVerbatim, Tape.current_of_remaining isRemaining, isText]
      rfl
  | @verbatim _ name _ _ _ _ isRaw =>
      have notEnd : name.isName "endraw" = false := isName_eq_false.mpr (by rw [isRaw]; decide)
      rw [Tape.closesVerbatim, Tape.remaining_advance isRemaining, notEnd, Bool.and_false]

theorem Final.ne_nil {tokens : List Token} (final : Final tokens) : tokens ≠ [] := by
  cases final <;> exact List.cons_ne_nil _ _

theorem Final.of_text {token : Token} {rest : List Token} (final : Final (token :: rest))
    (isText : token.kind = .text) : Final rest := by
  cases final with
  | ending isEnd =>
      rw [isText] at isEnd
      cases isEnd
  | text _ final => exact final
  | verbatim opens =>
      rw [isText] at opens
      cases opens

/-- Outside tags both heads stand at the margin, or before tokens that stand for each other. From
these they move on side by side, into a tag or past what stands outside of tags. -/
theorem Lane.Outside.step (beside : lane.Outside (bound + 1) tape other) :
    (tape.remaining = lane.margin.behind ∧ other.remaining = lane.margin.otherBehind) ∨
      (lane.like.token tape.current other.current ∧
        (tape.current.kind = .text → other.trimsEnd = tape.trimsEnd) ∧
          ∃ next, Token.Region.outside.next? tape.current.kind = some next ∧
          Grammar.Beside lane.like lane.margin bound next tape.advance other.advance) := by
  rcases Beside.step beside with ⟨_, atMargin⟩ | ⟨same, sameEnd, next, isNext, moves⟩
  · exact .inl atMargin
  · exact .inr ⟨same, sameEnd, next, isNext, moves bound (Nat.le_refl _)⟩

/-- Text without the blanks that its neighbours take off. -/
def trimmed (front back : Bool) (content : String) : String :=
  let content := if front then Text.trimStart content else content
  if back then Text.trimEnd content else content

theorem content_eq (tape : Tape) :
    (trimmedText.run tape).1 = trimmed tape.trims tape.trimsEnd tape.current.lexeme := rfl

/-- Shared text has the same content on both tapes. -/
theorem content_of_outside (beside : lane.Outside bound tape other)
    (same : lane.like.token tape.current other.current)
    (sameEnd : tape.current.kind = .text → other.trimsEnd = tape.trimsEnd)
    (isText : tape.current.kind = .text) :
    (trimmedText.run other).1 = (trimmedText.run tape).1 := by
  rw [content_eq, content_eq, beside.trims isText, sameEnd isText, Likeness.lexeme same]

instance (content : String) (start : Span) : Steady (verbatimEnd content start) := by
  unfold verbatimEnd
  infer_instance

theorem reports_verbatimEnd (unclosed : tape.closesVerbatim = false) (content : String) :
    Reports tape (verbatimEnd content start) := by
  unfold Reports
  rw [run_verbatimEnd, unclosed, if_neg Bool.false_ne_true]
  exact (Reports.mistake _ _).bind

theorem follows_verbatimEnd (content : String)
    (closes : tape.closesVerbatim = true →
      other.closesVerbatim = true ∧ lane.AtTag bound "endraw" tape other) :
    Follows tape other (verbatimEnd content start) (verbatimEnd content twinStart)
      (lane.Leads bound SameNode) := by
  cases isClosed : tape.closesVerbatim with
  | false => exact .of_reports (reports_verbatimEnd isClosed content)
  | true =>
      obtain ⟨otherCloses, atTag⟩ := closes isClosed
      have finishes : Follows tape other
          (do finishTag; return Node.verbatim content (← spanFrom start))
          (do finishTag; return Node.verbatim content (← spanFrom twinStart))
          (lane.Leads bound SameNode) :=
        (follows_finishTag atTag).bind fun _ _ _ _ left => follows_spanned (fun _ _ => rfl) left
      exact finishes.of_runs ((run_verbatimEnd content start tape).trans (if_pos isClosed))
        ((run_verbatimEnd content twinStart other).trans (if_pos otherCloses))

/-- What follows the opening tag of a verbatim body: text, perhaps, and the end of the body. -/
def verbatimRest (start : Span) : Read Node := do
  let content ←
    if ← atKind .text then
      let content ← trimmedText
      let _ ← advance
      pure content
    else pure ""
  verbatimEnd content start

instance (start : Span) : Steady (verbatimRest start) := by
  unfold verbatimRest
  infer_instance

theorem run_verbatimRest (start : Span) (tape : Tape) :
    (verbatimRest start).run tape =
      if tape.current.kind == .text then
        (verbatimEnd (trimmedText.run tape).1 start).run tape.advance
      else (verbatimEnd "" start).run tape :=
  run_ite _ _ _ _

/-- A verbatim body that runs into the end of a template is not closed. -/
theorem reports_verbatimRest (final : Final tape.remaining) :
    Reports tape (verbatimRest start) := by
  unfold Reports
  rw [run_verbatimRest]
  split
  · rename_i isText
    have finalRest : Final tape.following := final.of_text (beq_iff_eq.mp isText)
    have isRest := Tape.remaining_advance_of_more finalRest.ne_nil
    have reports : Reports tape.advance (verbatimEnd (trimmedText.run tape).1 start) :=
      reports_verbatimEnd (finalRest.not_closesVerbatim isRest) _
    rw [Reports, Tape.problems_advance] at reports
    exact reports
  · exact reports_verbatimEnd (final.not_closesVerbatim rfl) ""

section Block

variable (isBlock : lane.delimiter = .block)
include isBlock

theorem atTag_of_step {next : Token.Region} {name : String} {trim : Bool}
    (isNext : Token.Region.outside.next? tape.current.kind = some next)
    (moved : Grammar.Beside lane.like lane.margin bound next tape.advance other.advance)
    (opens : tape.current.kind = .blockStart trim)
    (named : tape.advance.current.isName name = true) : lane.AtTag bound name tape other := by
  rw [opens] at isNext
  cases isNext
  refine ⟨?_, named⟩
  rw [Lane.Beside, isBlock]
  exact moved

theorem closesVerbatim_of_outside (final : Final lane.margin.behind)
    (beside : lane.Outside (bound + 1) tape other) (closes : tape.closesVerbatim = true) :
    other.closesVerbatim = true ∧ lane.AtTag bound "endraw" tape other := by
  rcases beside.step with ⟨atMargin, _⟩ | ⟨same, _, next, isNext, moved⟩
  · rw [final.not_closesVerbatim atMargin] at closes
    cases closes
  · obtain ⟨⟨trim, opens⟩, named⟩ := Tape.atTag_of_closesVerbatim closes
    have atTag := atTag_of_step isBlock isNext moved opens named
    refine ⟨?_, atTag⟩
    unfold Tape.closesVerbatim
    rw [Likeness.kind same, opens, Likeness.isName atTag.inside.current, named]
    rfl

theorem follows_verbatim (final : Final lane.margin.behind) (beside : lane.Beside bound tape other) :
    Follows tape other (verbatim start) (verbatim twinStart) (lane.Leads bound SameNode) := by
  refine (follows_expectBlockEnd beside).bind fun _ _ here there left => ?_
  obtain ⟨least, rfl⟩ := left.exists_succ
  rcases left.step with ⟨atMargin, _⟩ | ⟨same, sameEnd, next, isNext, moved⟩
  · exact .of_reports (reports_verbatimRest (atMargin ▸ final))
  · refine .seeing (run_atKind .text here) (run_atKind .text there) ?_
    refine .ite (by rw [Likeness.kind same]) (fun isText => ?_) fun _ => ?_
    · refine .seeing (run_trimmedText here) (run_trimmedText there) ?_
      have isText := beq_iff_eq.mp isText
      rw [content_of_outside left same sameEnd isText]
      rw [isText] at isNext
      cases isNext
      have passed : lane.Outside (least + 1) here.advance there.advance :=
        moved.mono (Nat.le_succ least)
      refine (Follows.of_twin .advances).bind fun _ _ _ _ ended => ?_
      obtain ⟨-, -, rfl, rfl⟩ := ended
      exact follows_verbatimEnd _ fun closes =>
        (closesVerbatim_of_outside isBlock final passed closes).imp_right (·.mono (Nat.le_succ least))
    · exact follows_verbatimEnd "" fun closes =>
        (closesVerbatim_of_outside isBlock final left closes).imp_right (·.mono (Nat.le_succ least))

end Block

/-! ### Tags with bodies -/

theorem unreserved_singleton {ending : String} (unreserved : ending ∉ builtinTags) :
    Unreserved [[ending]] := by
  intro endings member name isName
  rw [List.mem_singleton.mp member] at isName
  rw [List.mem_singleton.mp isName]
  exact unreserved

/-- Whether two readers of bodies read alike up to a closing tag of the body, as long as nothing is
reported and such a tag is found. -/
def Lane.Tracks (lane : Lane) (bound : Nat) (reader twin : BodyReader) : Prop :=
  ∀ endings, Unreserved [endings] → ∀ fewer ≤ bound, ∀ tape other : Tape,
    lane.Outside fewer tape other →
      Follows tape other (reader endings) (twin endings) fun result same here there =>
        ∀ name, result.2 = some name →
          same.2 = some name ∧ SameNodes result.1 same.1 ∧ lane.AtTag fewer name here there

theorem Lane.Tracks.mono (tracks : lane.Tracks bound reader twin) (isFewer : fewer ≤ bound) :
    lane.Tracks fewer reader twin :=
  fun endings unreserved least isLeast =>
    tracks endings unreserved least (Nat.le_trans isLeast isFewer)

section Bodies

variable (tracks : lane.Tracks bound reader twin) [∀ endings, Steady (reader endings)]
include tracks

/-- A body with one closing tag, which is passed over on both tapes. -/
theorem follows_closedBody {ending : String} (tag : String) (unreserved : ending ∉ builtinTags)
    (left : lane.Outside bound tape other) :
    Follows tape other (closedBody reader ending tag start) (closedBody twin ending tag twinStart)
      (lane.Leads bound SameNodes) := by
  refine (tracks [ending] (unreserved_singleton unreserved) bound (Nat.le_refl bound) tape other left).bind
    fun result same here there ended => ?_
  obtain ⟨nodes, found⟩ := result
  obtain ⟨twins, twinFound⟩ := same
  cases found with
  | none => exact .of_mistake _ _
  | some name =>
      obtain ⟨isFound, sameNodes, atTag⟩ := ended name rfl
      dsimp only at isFound
      rw [isFound]
      exact (follows_finishTag atTag).bind fun _ _ _ _ left => .pure ⟨sameNodes, left⟩

/-- A closed body is the last thing that most tags have. -/
theorem follows_closedSpanned {ending : String} (tag : String) (unreserved : ending ∉ builtinTags)
    {build twinBuild : List Node → Span → Node}
    (same : ∀ nodes twins span twinSpan, SameNodes nodes twins →
      SameNode (build nodes span) (twinBuild twins twinSpan))
    (left : lane.Outside bound tape other) :
    Follows tape other
      (do
        let nodes ← closedBody reader ending tag start
        return build nodes (← spanFrom start))
      (do
        let nodes ← closedBody twin ending tag twinStart
        return twinBuild nodes (← spanFrom twinStart))
      (lane.Leads bound SameNode) :=
  (follows_closedBody tracks tag unreserved left).bind fun nodes twins _ _ ended =>
    follows_spanned (fun span twinSpan => same nodes twins span twinSpan ended.1) ended.2

theorem follows_assign (beside : lane.Beside bound tape other) :
    Follows tape other (assign reader start) (assign twin twinStart) (lane.Leads bound SameNode) := by
  refine (follows_assignTarget "set" beside).bind fun target twinTarget _ _ ended => ?_
  obtain ⟨sameTarget, beside⟩ := ended
  refine (Follows.of_twin ((likewise_takeSymbol _).on beside)).bind fun taken _ _ _ ended => ?_
  obtain ⟨sameTaken, beside⟩ := ended
  rw [sameTaken]
  refine .ite Iff.rfl (fun _ => ?_) fun _ => ?_
  · refine (Follows.of_twin (likewise_expressionList.on beside)).bind fun value _ _ _ ended => ?_
    refine (follows_expectBlockEnd ended.2).bind fun _ _ _ _ left => ?_
    refine follows_spanned (fun _ _ => ?_) left
    exact congrArg₂ (Node.assign · · default) sameTarget ended.1
  · refine (Follows.of_twin ((likewise_furtherFilters rfl).on beside)).bind
      fun filters twinFilters _ _ ended => ?_
    refine (follows_expectBlockEnd ended.2).bind fun _ _ _ _ left => ?_
    refine follows_closedSpanned tracks _ (by decide) (fun nodes twins _ _ same => ?_) left
    rw [SameNode, Upto, Node.unplaced, Node.unplaced, SameNodes.body same, sameTarget, ended.1]

theorem follows_block (beside : lane.Beside bound tape other) :
    Follows tape other (block reader start) (block twin twinStart) (lane.Leads bound SameNode) := by
  rw [block_eq, block_eq]
  refine (follows_blockHead beside).bind fun name _ _ _ ended => ?_
  rw [ended.1]
  refine follows_closedSpanned tracks _ (by decide) (fun nodes twins _ _ same => ?_) ended.2
  rw [SameNode, Upto, Node.unplaced, Node.unplaced, SameNodes.body same]

theorem follows_define (beside : lane.Beside bound tape other) :
    Follows tape other (define reader start) (define twin twinStart) (lane.Leads bound SameNode) := by
  rw [define_eq, define_eq]
  refine (follows_defineHead beside).bind fun head _ _ _ ended => ?_
  refine follows_closedSpanned tracks _ (by decide) (fun nodes twins _ _ same => ?_) ended.2
  rw [SameNode, Upto, Node.unplaced, Node.unplaced, SameNodes.body same, ended.1.name,
    ended.1.params]

theorem follows_callBlock (beside : lane.Beside bound tape other) :
    Follows tape other (callBlock reader start) (callBlock twin twinStart)
      (lane.Leads bound SameNode) := by
  rw [callBlock_eq, callBlock_eq]
  refine (follows_callHead beside).bind fun head _ _ _ ended => ?_
  refine follows_closedSpanned tracks _ (by decide) (fun nodes twins _ _ same => ?_) ended.2
  rw [SameNode, Upto, Node.unplaced, Node.unplaced, SameNodes.body same, ended.1.params,
    ended.1.call]

theorem follows_withBlock (beside : lane.Beside bound tape other) :
    Follows tape other (withBlock reader start) (withBlock twin twinStart)
      (lane.Leads bound SameNode) := by
  rw [withBlock_eq, withBlock_eq]
  refine (follows_withHead beside).bind fun bindings _ _ _ ended => ?_
  refine follows_closedSpanned tracks _ (by decide) (fun nodes twins _ _ same => ?_) ended.2
  rw [SameNode, Upto, Node.unplaced, Node.unplaced, SameNodes.body same, ended.1]

theorem follows_filterBlock (beside : lane.Beside bound tape other) :
    Follows tape other (filterBlock reader start) (filterBlock twin twinStart)
      (lane.Leads bound SameNode) := by
  rw [filterBlock_eq, filterBlock_eq]
  refine (follows_filterHead beside).bind fun filters _ _ _ ended => ?_
  refine follows_closedSpanned tracks _ (by decide) (fun nodes twins _ _ same => ?_) ended.2
  rw [SameNode, Upto, Node.unplaced, Node.unplaced, SameNodes.body same, ended.1]

/-! ### Tags with several bodies -/

/-- What is known of two choices that are read alike, and where their next branches start. -/
structure SameChoice (choice twin : Choice) : Prop where
  branches : unplacedBranches twin.branches = unplacedBranches choice.branches
  otherwise : unplacedBody? twin.otherwise = unplacedBody? choice.otherwise
  test : SameExpr choice.test twin.test

omit tracks [∀ endings, Steady (reader endings)] in
theorem SameChoice.add {choice other : Choice} (same : SameChoice choice other)
    {nodes twins : List Node} (sameNodes : SameNodes nodes twins) (span twinSpan : Span) :
    SameChoice { choice with branches := choice.branches ++ [.mk choice.test nodes span] }
      { other with branches := other.branches ++ [.mk other.test twins twinSpan] } := by
  refine ⟨?_, same.otherwise, same.test⟩
  have sameBranches := same.branches
  rw [unplacedBranches_eq_map, unplacedBranches_eq_map] at sameBranches ⊢
  rw [List.map_append, List.map_append, sameBranches, List.map_singleton, List.map_singleton,
    Branch.unplaced, Branch.unplaced, sameNodes.body, same.test]

omit tracks in
theorem follows_nextBranch {limit : Nat} (tracks : lane.Tracks (limit + 1) reader twin)
    {choice twinChoice : Choice} (same : SameChoice choice twinChoice)
    (left : lane.Outside (limit + 1) tape other) :
    Follows tape other (nextBranch reader start choice) (nextBranch twin twinStart twinChoice)
      (turnsEnd (lane.Leads limit SameChoice) (lane.Leads (limit + 1) SameChoice)) := by
  refine Follows.bind_of_steady inferInstance (fun result => ?_)
    (tracks _ (by decide) _ (Nat.le_refl _) tape other left) fun result twins here there ended => ?_
  · refine Steady.bind inferInstance fun span => ?_
    dsimp only
    split <;> infer_instance
  obtain ⟨nodes, found⟩ := result
  obtain ⟨twins, twinFound⟩ := twins
  cases found with
  | none =>
      have reports : Reports here (missingEnd "if" "endif" start) := Reports.mistake _ _
      exact .of_reports (Reports.behind (show Reports here (_ >>= fun _ => pure _) from reports.bind))
  | some name =>
      obtain ⟨isFound, sameNodes, atTag⟩ := ended name rfl
      dsimp only at isFound
      rw [isFound]
      refine .seeing (run_spanFrom _ here) (run_spanFrom _ there) ?_
      have added := same.add sameNodes (choice.start.cover here.previousSpan)
        (twinChoice.start.cover there.previousSpan)
      dsimp only
      split
      · refine (Follows.of_twin (twin_openTag atTag)).bind fun _ _ _ _ beside => ?_
        refine (Follows.of_twin (likewise_expression.on beside)).bind fun test _ _ _ ended => ?_
        refine (follows_expectBlockEnd ended.2).bind fun _ _ _ _ left => ?_
        exact .pure ⟨⟨added.branches, added.otherwise, ended.1⟩, left⟩
      · refine (follows_finishTag atTag).bind fun _ _ _ _ left => ?_
        refine (follows_closedBody tracks "if" (by decide) left).bind fun nodes twins _ _ ended => ?_
        refine .pure ⟨⟨added.branches, ?_, added.test⟩, ended.2⟩
        exact congrArg some (SameNodes.body ended.1)
      · exact (follows_finishTag atTag).bind fun _ _ _ _ left => .pure ⟨added, left⟩
      · rename_i impossible
        cases impossible

theorem follows_choose (beside : lane.Beside bound tape other) :
    Follows tape other (choose reader start) (choose twin twinStart)
      (lane.Leads bound SameNode) := by
  rw [choose_eq, choose_eq]
  refine (follows_chooseHead beside).bind fun test twinTest here there ended => ?_
  obtain ⟨sameTest, left⟩ := ended
  have first : SameChoice ⟨[], none, test, start⟩ ⟨[], none, twinTest, twinStart⟩ :=
    ⟨rfl, rfl, sameTest⟩
  have branches : Follows here there (loop (nextBranch reader start) ⟨[], none, test, start⟩)
      (loop (nextBranch twin twinStart) ⟨[], none, twinTest, twinStart⟩)
      (lane.Leads bound SameChoice) := by
    refine follows_loop (fun limit choice other here there isLess same beside => ?_) first left
    refine (follows_nextBranch (tracks.mono isLess) same beside).weaken
      fun result twin here there ended => ?_
    match result, twin, ended with
    | .again _, .again _, ended => exact ended
    | .done _, .done _, ended => exact ⟨ended.1, ended.2.mono isLess⟩
  refine branches.bind fun choice twinChoice _ _ ended => ?_
  obtain ⟨same, left⟩ := ended
  refine follows_spanned (fun _ _ => ?_) left
  rw [SameNode, Upto, Node.unplaced, Node.unplaced, same.branches, same.otherwise]

theorem follows_loopOtherwise? {found : String} (atTag : lane.AtTag bound found tape other) :
    Follows tape other (loopOtherwise? reader (some found) start)
      (loopOtherwise? twin (some found) twinStart) (lane.Leads bound (Upto unplacedBody?)) := by
  unfold loopOtherwise?
  split
  · refine (follows_finishTag atTag).bind fun _ _ _ _ left => ?_
    refine .map ((follows_closedBody tracks "for" (by decide) left).weaken fun _ _ _ _ ended => ?_)
    exact ⟨congrArg some (SameNodes.body ended.1), ended.2⟩
  · exact (follows_finishTag atTag).bind fun _ _ _ _ left => .pure ⟨rfl, left⟩
  · rename_i impossible
    cases impossible

theorem follows_each (beside : lane.Beside bound tape other) :
    Follows tape other (each reader start) (each twin twinStart) (lane.Leads bound SameNode) := by
  rw [each_eq, each_eq]
  refine (follows_eachHead beside).bind fun head twinHead here there ended => ?_
  obtain ⟨sameHead, left⟩ := ended
  refine (tracks _ (by decide) _ (Nat.le_refl _) here there left).bind
    fun result twins here there ended => ?_
  obtain ⟨nodes, found⟩ := result
  obtain ⟨twins, twinFound⟩ := twins
  cases found with
  | none =>
      have reports : Reports here (loopOtherwise? reader none start) := (Reports.mistake _ _).bind
      exact .of_reports reports.bind
  | some name =>
      obtain ⟨isFound, sameNodes, atTag⟩ := ended name rfl
      dsimp only at isFound
      rw [isFound]
      refine (follows_loopOtherwise? tracks atTag).bind fun otherwise _ _ _ ended => ?_
      refine follows_spanned (fun _ _ => ?_) ended.2
      rw [SameNode, Upto, Node.unplaced, Node.unplaced, SameNodes.body sameNodes,
        sameHead.target, sameHead.items, sameHead.condition, ended.1]

end Bodies

/-! ### Statements -/

theorem Follows.some {reader twin : Read Node}
    (follows : Follows tape other reader twin (lane.Leads bound SameNode)) :
    Follows tape other (some <$> reader) (some <$> twin)
      (lane.Leads bound (Upto (Option.map Node.unplaced))) :=
  .map (follows.weaken fun _ _ _ _ ended => ⟨congrArg Option.some ended.1, ended.2⟩)

/-- A tag of no known name is reported. -/
theorem reports_builtin {name : String} (unknown : name ∉ builtinTags) :
    Reports tape (builtin reader name start) := by
  unfold builtin
  split
  all_goals first
    | exact absurd (by decide) unknown
    | exact Reports.behind (Reports.mistake _ _).bind

/-- Without tags of a host, a statement is read by its name. -/
theorem statement_empty (reader : BodyReader) :
    statement .empty reader = do
      let start := (← advance).span
      if ← atKind .name then
        let name := (← advance).lexeme
        builtin reader name start
      else
        expected "tag name"
        expectBlockEnd
        return none := by
  unfold statement
  simp only [extensionFor?_empty]

section Statements

variable (isBlock : lane.delimiter = .block) (final : Final lane.margin.behind)
  (tracks : lane.Tracks bound reader twin) [∀ endings, Steady (reader endings)]
include isBlock final tracks

theorem follows_builtin (name : String) (beside : lane.Beside bound tape other) :
    Follows tape other (builtin reader name start) (builtin twin name twinStart)
      (lane.Leads bound (Upto (Option.map Node.unplaced))) := by
  by_cases known : name ∈ builtinTags
  · unfold builtin
    split
    · exact (follows_choose tracks beside).some
    · exact (follows_each tracks beside).some
    · exact (follows_assign tracks beside).some
    · exact (follows_block tracks beside).some
    · exact (follows_inherit beside).some
    · exact (follows_embed beside).some
    · exact (follows_importAs beside).some
    · exact (follows_importNames beside).some
    · exact (follows_define tracks beside).some
    · exact (follows_callBlock tracks beside).some
    · exact (follows_withBlock tracks beside).some
    · exact (follows_filterBlock tracks beside).some
    · exact (follows_verbatim isBlock final beside).some
    · simp_all [builtinTags]
  · exact .of_reports (reports_builtin known)

theorem follows_statement (inside : lane.Beside bound tape.advance other.advance) :
    Follows tape other (statement .empty reader) (statement .empty twin)
      (lane.Leads bound (Upto (Option.map Node.unplaced))) := by
  rw [statement_empty, statement_empty]
  refine (Follows.of_twin .advances).bind fun _ _ _ _ ended => ?_
  obtain ⟨rfl, rfl, rfl, rfl⟩ := ended
  refine .seeing (run_atKind _ _) (run_atKind _ _) ?_
  refine .ite (by rw [Likeness.kind inside.current]) (fun isName => ?_) fun _ => .of_expected _
  have passes := twin_pass inside (by rw [beq_iff_eq.mp isName]; rfl)
  refine (Follows.of_twin passes).bind fun name _ _ _ ended => ?_
  rw [Likeness.lexeme ended.1]
  exact follows_builtin isBlock final tracks name.lexeme ended.2

end Statements

end Stencil.Grammar
