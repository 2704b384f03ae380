import Stencil.Proofs.Grammar.Abreast

/-!
Contract: bodies that read without a report depend on nothing but their own words.

Owns:
- one turn of a body is read alike on two tapes that share its tokens;
- so is a body of any depth that finds its own closing tag;
- a body that runs into the end of a template finds none.

Does not own: templates in the midst of other tokens (`Stencil.Proofs.Grammar.Segment`).
-/

set_option autoImplicit false

-- The readers of tags are long chains of actions, each of which counts.
set_option synthInstance.maxSize 1024

namespace Stencil.Grammar

open Stencil.Syntax
open Stencil.Text (Span)
open Stencil.Token (Kind Region)
open Read Statement

variable {lane : Lane} {bound limit : Nat} {tape other : Tape} {reader twin : BodyReader}
  {endings others : List String} {body twinBody : Body} {before : List Node × List Node}

/-! ### Turns -/

/-- Whether two sequences of statements go on alike, up to places, from what was there before. -/
def GoOn (before : List Node × List Node) (nodes twins : List Node) : Prop :=
  ∃ added others, nodes = before.1 ++ added ∧ twins = before.2 ++ others ∧ SameNodes added others

theorem GoOn.same {nodes twins : List Node} (goOn : GoOn ([], []) nodes twins) :
    SameNodes nodes twins := by
  obtain ⟨added, others, rfl, rfl, same⟩ := goOn
  exact same

/-- What two bodies come to that are read alike and go on. -/
structure SameBody (before : List Node × List Node) (body twin : Body) : Prop where
  nodes : GoOn before body.nodes.toList twin.nodes.toList
  unfound : body.found = none
  twinUnfound : twin.found = none

theorem Body.toList_add (body : Body) (node : Option Node) :
    (body.add node).nodes.toList = body.nodes.toList ++ node.toList := by
  rw [Body.add, Array.toList_append]
  cases node <;> rfl

theorem SameBody.add (same : SameBody before body twinBody) {node twinNode : Option Node}
    (sameNode : Upto (Option.map Node.unplaced) node twinNode) :
    SameBody before (body.add node) (twinBody.add twinNode) := by
  refine ⟨?_, same.unfound, same.twinUnfound⟩
  obtain ⟨added, others, isNodes, areTwins, sameNodes⟩ := same.nodes
  refine ⟨added ++ node.toList, others ++ twinNode.toList, ?_, ?_, ?_⟩
  · rw [Body.toList_add, isNodes, List.append_assoc]
  · rw [Body.toList_add, areTwins, List.append_assoc]
  · have sameLast : twinNode.toList.map Node.unplaced = node.toList.map Node.unplaced := by
      rw [← Option.toList_map, ← Option.toList_map, sameNode]
    rw [SameNodes, Upto, List.map_append, List.map_append, sameNodes, sameLast]

/-- Whether a body waits for all closing tags that another one waits for, and for no tag that opens
a statement. -/
structure Awaits (endings others : List String) : Prop where
  own : ∀ name ∈ endings, name ∈ others
  unreserved : ∀ name ∈ others, name ∉ builtinTags

/-- What holds of two turns of bodies that are read alike: both go on, or both stop at the same
closing tag. Where the first one stops at another body's tag, nothing is said. -/
def Lane.bodyEnds (lane : Lane) (limit : Nat) (before : List Node × List Node)
    (endings : List String) :
    Turn Body → Turn Body → Tape → Tape → Prop
  | .again body, .again twin => fun here there =>
      SameBody before body twin ∧ lane.Outside limit here there
  | .again _, .done _ => fun _ _ => False
  | .done body, result => fun here there =>
      match body.found with
      | none => here.enclosing.tail ≠ []
      | some name => name ∈ endings ∧ ∃ twin, result = .done twin ∧ twin.found = some name ∧
          GoOn before body.nodes.toList twin.nodes.toList ∧
            lane.AtTag (limit + 1) name here there

/-! ### What stands outside tags -/

theorem follows_text (left : lane.Outside (limit + 1) tape other)
    (same : lane.like.token tape.current other.current)
    (sameEnd : tape.current.kind = .text → other.trimsEnd = tape.trimsEnd)
    (isText : tape.current.kind = .text)
    (moved : lane.Outside limit tape.advance other.advance) :
    Follows tape other text text (lane.Leads limit (Upto (Option.map Node.unplaced))) := by
  refine .seeing (run_trimmedText tape) (run_trimmedText other) ?_
  rw [content_of_outside left same sameEnd isText]
  refine (Follows.of_twin .advances).bind fun _ _ _ _ ended => ?_
  obtain ⟨rfl, rfl, rfl, rfl⟩ := ended
  refine .pure ⟨?_, moved⟩
  cases (trimmedText.run tape).1.isEmpty <;> rfl

theorem follows_comment (trimBefore trimAfter : Bool)
    (same : lane.like.token tape.current other.current)
    (moved : lane.Outside limit tape.advance other.advance) :
    Follows tape other (comment trimBefore trimAfter) (comment trimBefore trimAfter)
      (lane.Leads limit SameNode) := by
  refine (Follows.of_twin .advances).bind fun _ _ _ _ ended => ?_
  obtain ⟨rfl, rfl, rfl, rfl⟩ := ended
  refine .pure ⟨?_, moved⟩
  rw [SameNode, Upto, Likeness.lexeme same]
  rfl

theorem follows_output (inside : lane.Beside limit tape.advance other.advance) :
    Follows tape other output output (lane.Leads limit SameNode) := by
  refine (Follows.of_twin .advances).bind fun _ _ _ _ ended => ?_
  obtain ⟨rfl, rfl, rfl, rfl⟩ := ended
  refine (Follows.of_twin (likewise_expression.on inside)).bind fun value _ _ _ ended => ?_
  refine (follows_expectTagEnd _ ended.2).bind fun _ _ _ _ left => ?_
  exact follows_spanned (fun _ _ => congrArg (Node.output · default) ended.1) left

/-! ### One turn -/

theorem reports_statement [∀ endings, Steady (reader endings)]
    (isName : tape.advance.current.kind = .name)
    (unknown : tape.advance.current.lexeme ∉ builtinTags) :
    Reports tape (statement .empty reader) := by
  have reports : Reports tape.advance.advance
      (builtin reader tape.advance.current.lexeme tape.current.span) := reports_builtin unknown
  rw [Reports, Tape.problems_advance, Tape.problems_advance] at reports
  rw [Reports, statement_empty]
  simp only [run_bind, run_advance, run_atKind, isName, beq_self_eq_true, if_true]
  exact reports


section Turns

variable (isBlock : lane.delimiter = .block) (final : Final lane.margin.behind)
  (tracks : lane.Tracks limit reader twin) [∀ endings, Steady (reader endings)]
  (awaits : Awaits endings others) (sameBody : SameBody before body twinBody)
include isBlock final tracks awaits sameBody

omit awaits in
theorem follows_statementTurn (inside : lane.Beside limit tape.advance other.advance) :
    Follows tape other (do return Turn.again (body.add (← statement .empty reader)))
      (do return Turn.again (twinBody.add (← statement .empty twin)))
      (lane.bodyEnds limit before endings) :=
  (follows_statement isBlock final tracks inside).bind fun _ _ _ _ ended =>
    .pure ⟨sameBody.add ended.1, ended.2⟩

/-- A turn at a tag: the body stops there, or a body around it does, or the tag is a statement. -/
theorem follows_tagTurn (otherWaiting : Unreserved other.enclosing)
    (inside : lane.Beside limit tape.advance other.advance)
    (isName : tape.advance.current.kind = .name) :
    let word := tape.advance.current.lexeme
    Follows tape other
      (do
        if endings.contains word then return Turn.done { body with found := some word }
        if ← closesEnclosing word then return Turn.done body
        return Turn.again (body.add (← statement .empty reader)))
      (do
        if others.contains word then return Turn.done { twinBody with found := some word }
        if ← closesEnclosing word then return Turn.done twinBody
        return Turn.again (twinBody.add (← statement .empty twin)))
      (lane.bodyEnds limit before endings) := by
  intro word
  have named : tape.advance.current.isName word = true := by
    rw [Token.isName, isName, beq_self_eq_true, beq_self_eq_true]
    rfl
  by_cases isOwn : word ∈ endings
  · rw [if_pos (List.contains_iff_mem.mpr isOwn),
      if_pos (List.contains_iff_mem.mpr (awaits.own word isOwn))]
    refine .pure ⟨isOwn, _, rfl, rfl, sameBody.nodes, ?_⟩
    exact ⟨inside.mono (Nat.le_succ limit), named⟩
  · rw [if_neg (mt List.contains_iff_mem.mp isOwn)]
    cases isOuter : tape.enclosing.tail.any (·.contains word) with
    | true =>
        have stops : (do
            if ← closesEnclosing word then return Turn.done body
            return Turn.again (body.add (← statement .empty reader))).run tape =
              (.done body, tape) := by
          rw [run_bind, run_closesEnclosing, isOuter]
          rfl
        refine ⟨fun _ => ?_⟩
        unfold Twin
        rw [stops]
        simp only [Lane.bodyEnds, sameBody.unfound]
        intro isEmpty
        rw [isEmpty] at isOuter
        cases isOuter
    | false =>
        by_cases known : word ∈ builtinTags
        · rw [if_neg fun isOther => awaits.unreserved word (List.contains_iff_mem.mp isOther) known]
          have otherOuter : other.enclosing.tail.any (·.contains word) = false := by
            refine Bool.eq_false_iff.mpr fun isOther => ?_
            obtain ⟨waiting, member, isWord⟩ := List.any_eq_true.mp isOther
            exact otherWaiting waiting (List.mem_of_mem_tail member) word
              (List.contains_iff_mem.mp isWord) known
          refine .seeing (run_closesEnclosing word tape) (run_closesEnclosing word other) ?_
          rw [isOuter, otherOuter]
          exact follows_statementTurn isBlock final tracks sameBody inside
        · refine .of_reports ?_
          rw [Reports, run_bind, run_closesEnclosing, isOuter]
          exact (reports_statement isName known).bind

/-- A turn whose tag no body waits for is a statement. -/
theorem follows_nextNode (reserves : lane.like.waits = Unreserved)
    (left : lane.Outside (limit + 1) tape other)
    (same : lane.like.token tape.current other.current)
    (sameEnd : tape.current.kind = .text → other.trimsEnd = tape.trimsEnd)
    {next : Region} (isNext : Region.outside.next? tape.current.kind = some next)
    (moved : Grammar.Beside lane.like lane.margin limit next tape.advance other.advance) :
    Follows tape other (nextNode .empty reader endings body) (nextNode .empty twin others twinBody)
      (lane.bodyEnds limit before endings) := by
  refine .seeing (run_peek tape) (run_peek other) ?_
  rw [Likeness.kind same]
  split
  · rename_i isEnd
    rw [isEnd] at isNext
    cases isNext
  · rename_i isText
    rw [isText] at isNext
    cases isNext
    exact (follows_text left same sameEnd isText moved).bind fun _ _ _ _ ended =>
      .pure ⟨sameBody.add ended.1, ended.2⟩
  · rename_i isComment
    rw [isComment] at isNext
    cases isNext
    exact (follows_comment _ _ same moved).bind fun _ _ _ _ ended =>
      .pure ⟨sameBody.add (congrArg some ended.1), ended.2⟩
  · rename_i isStart
    rw [isStart] at isNext
    cases isNext
    have inside : Lane.Beside ⟨lane.like, lane.margin, .output⟩ limit tape.advance other.advance :=
      moved
    exact (follows_output inside).bind fun _ _ _ _ ended =>
      .pure ⟨sameBody.add (congrArg some ended.1), ended.2⟩
  · rename_i trim isStart
    rw [isStart] at isNext
    cases isNext
    have inside : lane.Beside limit tape.advance other.advance := by
      rw [Lane.Beside, isBlock]
      exact moved
    have goesOn : Follows tape other _ _ (lane.bodyEnds limit before endings) :=
      follows_statementTurn isBlock final tracks sameBody inside
    refine .seeing (run_peekAhead 1 tape) (run_peekAhead 1 other) ?_
    rw [Tape.ahead_one, Tape.ahead_one]
    refine .ite (by rw [Likeness.kind inside.current]) (fun isName => ?_) fun _ => goesOn
    rw [Likeness.lexeme inside.current]
    have isName := beq_iff_eq.mp isName
    have otherWaiting : Unreserved other.enclosing := reserves ▸ left.otherWaiting
    exact follows_tagTurn isBlock final tracks awaits sameBody otherWaiting inside isName
  · rename_i notEnd notText notComment notVariable notBlock
    exfalso
    revert isNext
    cases isKind : tape.current.kind <;> simp_all [Region.next?]

end Turns

/-! ### Bodies that run into the end of a template -/

/-- What a body does at a tag: it stops there, or a body around it does, or it reads a statement. -/
theorem run_nextNode_at_tag {trim : Bool} (opens : tape.current.kind = .blockStart trim)
    {word : String} (isWord : wordOf tape.advance.current = .name word) :
    (nextNode .empty reader endings body).run tape =
      if endings.contains word then (.done { body with found := some word }, tape)
      else if tape.enclosing.tail.any (·.contains word) then (.done body, tape)
      else (do return Turn.again (body.add (← statement .empty reader))).run tape := by
  have isName : tape.advance.current.kind = .name := congrArg Word.kind isWord
  have isLexeme : tape.advance.current.lexeme = word := congrArg Word.lexeme isWord
  simp only [nextNode, run_bind, run_peek, opens, run_peekAhead, Tape.ahead_one, isName, isLexeme,
    beq_self_eq_true, if_true, run_ite, run_closesEnclosing, run_pure]

theorem run_nextNode_of_textKind {register : Register} (isText : tape.current.kind = .text) :
    (nextNode register reader endings body).run tape =
      (.again (body.add (text.run tape).1), tape.advance) := by
  simp only [nextNode, run_bind, run_peek, isText]
  rfl

variable [∀ endings, Steady (reader endings)]

omit [∀ endings, Steady (reader endings)] in
/-- The tag of a verbatim body that is never closed is reported. -/
theorem reports_unclosedVerbatim {opening name closing : Token} {rest : List Token}
    (isRemaining : tape.remaining = opening :: name :: closing :: rest)
    (isRaw : wordOf name = .name "raw") (closes : closing.kind.isTagEnd = true)
    (final : Final rest) : Reports tape (statement .empty reader) := by
  have afterStart : tape.advance.remaining = name :: closing :: rest := by
    rw [Tape.remaining_advance isRemaining]
    rfl
  have afterName : tape.advance.advance.remaining = closing :: rest := by
    rw [Tape.remaining_advance afterStart]
    rfl
  have afterTag : tape.advance.advance.advance.remaining = rest := by
    rw [Tape.remaining_advance_of_more ((List.cons.inj afterName).2 ▸ final.ne_nil)]
    exact (List.cons.inj afterName).2
  have isName : wordOf tape.advance.current = .name "raw" := by
    rw [Tape.current_of_remaining afterStart, isRaw]
  have isEnd : tape.advance.advance.current.kind.isTagEnd = true := by
    rw [Tape.current_of_remaining afterName, closes]
  have reports : Reports tape.advance.advance
      (expectBlockEnd >>= fun _ => verbatimRest tape.current.span) := by
    refine Reports.behind ?_
    rw [run_expectBlockEnd_of_present isEnd]
    show Reports _ (verbatimRest _)
    exact reports_verbatimRest (afterTag ▸ final)
  rw [Reports, Tape.problems_advance, Tape.problems_advance] at reports
  have isNameKind : tape.advance.current.kind = .name := congrArg Word.kind isName
  have isLexeme : tape.advance.current.lexeme = "raw" := congrArg Word.lexeme isName
  rw [Reports, statement_empty]
  simp only [run_bind, run_advance, run_atKind, isNameKind, isLexeme, beq_self_eq_true, if_true]
  exact reports

/-- A body that runs into the end of a template finds no closing tag, or something is reported. -/
theorem unfound_of_final {tokens : List Token} (final : Final tokens)
    (isRemaining : tape.remaining = tokens) (unreserved : Unreserved [endings])
    (unfound : body.found = none) {most : Nat}
    (quiet : ((turns (nextNode .empty reader endings) most body).run tape).2.problems =
      tape.problems) :
    ((turns (nextNode .empty reader endings) most body).run tape).1.found = none := by
  induction most generalizing body tape tokens with
  | zero => exact unfound
  | succ fewer inductionHypothesis =>
      cases final with
      | ending isEnd =>
          have atEnd : tape.current.kind = .endOfInput := by
            rw [Tape.current_of_remaining isRemaining, isEnd]
          rw [turns, run_bind, run_nextNode_of_end atEnd]
          exact unfound
      | text isText final =>
          have atText : tape.current.kind = .text := by
            rw [Tape.current_of_remaining isRemaining, isText]
          have isRest : tape.advance.remaining = _ :=
            (Tape.remaining_advance_of_more ((List.cons.inj isRemaining).2 ▸ final.ne_nil)).trans
              (List.cons.inj isRemaining).2
          rw [turns, run_bind, run_nextNode_of_textKind atText] at quiet ⊢
          exact inductionHypothesis final isRest unfound
            (quiet.trans (Tape.problems_advance tape).symm)
      | @verbatim opening name closing trim rest opens isRaw closes final =>
          have atStart : tape.current.kind = .blockStart trim := by
            rw [Tape.current_of_remaining isRemaining, opens]
          have atRaw : wordOf tape.advance.current = .name "raw" := by
            rw [Tape.remaining_advance isRemaining]
            exact isRaw
          have notOwn : "raw" ∉ endings := fun isOwn =>
            unreserved endings List.mem_cons_self "raw" isOwn (by decide)
          have turn := @run_nextNode_at_tag tape reader endings body trim atStart "raw" atRaw
          rw [if_neg (mt List.contains_iff_mem.mp notOwn)] at turn
          split at turn
          · rw [turns, run_bind, turn]
            exact unfound
          · have statementReports : Reports tape (statement .empty reader) :=
              reports_unclosedVerbatim isRemaining isRaw closes final
            have quietTurn := (quiet_of_turns quiet).1
            rw [turn] at quietTurn
            exact absurd quietTurn statementReports.bind

/-! ### Bodies of any depth -/

/-- What holds of two bodies that are read alike: if the first one finds a closing tag, so does the
second one. -/
def Lane.closes (lane : Lane) (bound : Nat) (before : List Node × List Node) (result same : Body)
    (here there : Tape) : Prop :=
  ∀ name, result.found = some name →
    same.found = some name ∧ GoOn before result.nodes.toList same.nodes.toList ∧
      lane.AtTag bound name here there

theorem follows_bodyTurns (isBlock : lane.delimiter = .block) (final : Final lane.margin.behind)
    (reserves : lane.like.waits = Unreserved) (tracks : lane.Tracks bound reader twin) (unreserved : Unreserved [endings])
    {most otherMost : Nat} (isFewer : limit ≤ bound + 1) (enough : limit ≤ most)
    (otherEnough : limit ≤ otherMost) (sameBody : SameBody before body twinBody)
    (left : lane.Outside limit tape other) :
    Follows tape other (turns (nextNode .empty reader endings) most body)
      (turns (nextNode .empty twin endings) otherMost twinBody) (lane.closes limit before) := by
  induction limit generalizing most otherMost body twinBody tape other with
  | zero =>
      obtain ⟨_, isZero⟩ := left.exists_succ
      cases isZero
  | succ limit inductionHypothesis =>
      rcases left.step with ⟨atMargin, _⟩ | ⟨same, sameEnd, next, isNext, moved⟩
      · refine ⟨fun quiet name isFound => ?_⟩
        rw [unfound_of_final final atMargin unreserved sameBody.unfound quiet] at isFound
        cases isFound
      · obtain ⟨most, rfl⟩ := Nat.exists_eq_add_of_le' (Nat.le_trans (Nat.succ_pos limit) enough)
        obtain ⟨otherMost, rfl⟩ :=
          Nat.exists_eq_add_of_le' (Nat.le_trans (Nat.succ_pos limit) otherEnough)
        have awaits : Awaits endings endings :=
          ⟨fun _ isOwn => isOwn, unreserved endings List.mem_cons_self⟩
        have turn := follows_nextNode isBlock final (tracks.mono (Nat.le_of_succ_le_succ isFewer))
          awaits sameBody reserves left same sameEnd isNext moved
        refine Follows.bind_of_steady inferInstance (fun result => ?_) turn
          fun result twinResult here there ended => ?_
        · cases result <;> infer_instance
        match result, twinResult, ended with
        | .again body, .again twinBody, ended =>
            refine (inductionHypothesis (Nat.le_of_lt isFewer) (Nat.le_of_succ_le_succ enough)
              (Nat.le_of_succ_le_succ otherEnough) ended.1 ended.2).weaken ?_
            intro result same here there closes name isFound
            obtain ⟨twinFound, sameNodes, atTag⟩ := closes name isFound
            exact ⟨twinFound, sameNodes, atTag.mono (Nat.le_succ limit)⟩
        | .done body, twinResult, ended =>
            refine ⟨fun _ name isFound => ?_⟩
            have isFound : body.found = some name := isFound
            simp only [Lane.bodyEnds, isFound] at ended
            obtain ⟨_, twinBody, rfl, twinFound, sameNodes, atTag⟩ := ended
            exact ⟨twinFound, sameNodes, atTag⟩

theorem Lane.AtTag.surrounded {name : String} (atTag : lane.AtTag bound name tape other)
    {enclosing otherEnclosing : List (List String)} (waiting : lane.like.waits enclosing)
    (otherWaiting : lane.like.waits otherEnclosing) :
    lane.AtTag bound name { tape with enclosing := enclosing }
      { other with enclosing := otherEnclosing } := by
  refine ⟨?_, ?_⟩
  · rw [Tape.advance_surrounded tape, Tape.advance_surrounded other]
    exact atTag.inside.surrounded waiting otherWaiting
  · rw [Tape.advance_surrounded tape]
    exact atTag.named

omit [∀ endings, Steady (reader endings)] in
theorem Unreserved.cons {enclosing : List (List String)} (unreserved : Unreserved [endings])
    (waiting : Unreserved enclosing) : Unreserved (endings :: enclosing) := by
  intro names member
  rcases List.mem_cons.mp member with isOwn | isOuter
  · exact unreserved names (List.mem_singleton.mpr isOwn)
  · exact waiting names isOuter

/-- Bodies nested deeply enough for the shared tokens are read alike, however many tokens follow
those. -/
theorem tracks_nestedBody (isBlock : lane.delimiter = .block) (final : Final lane.margin.behind)
    (reserves : lane.like.waits = Unreserved) {depth otherDepth : Nat} (enough : bound ≤ depth) (otherEnough : bound ≤ otherDepth) :
    lane.Tracks bound (nestedBody .empty depth) (nestedBody .empty otherDepth) := by
  induction bound generalizing depth otherDepth with
  | zero =>
      intro endings _ fewer isFewer tape other left
      obtain ⟨_, isPositive⟩ := left.exists_succ
      omega
  | succ bound inductionHypothesis =>
      intro endings unreserved fewer isFewer tape other left
      obtain ⟨depth, rfl⟩ := Nat.exists_eq_add_of_le' (Nat.le_trans (Nat.succ_pos bound) enough)
      obtain ⟨otherDepth, rfl⟩ :=
        Nat.exists_eq_add_of_le' (Nat.le_trans (Nat.succ_pos bound) otherEnough)
      have tracks := inductionHypothesis (Nat.le_of_succ_le_succ enough)
        (Nat.le_of_succ_le_succ otherEnough)
      have waits {tape : Tape} (waiting : lane.like.waits tape.enclosing) :
          lane.like.waits (endings :: tape.enclosing) := by
        rw [reserves] at waiting ⊢
        exact unreserved.cons waiting
      have inside := left.surrounded (waits left.waiting) (waits left.otherWaiting)
      obtain ⟨least, inside, isLeast, enough, otherEnough⟩ := inside.least
      have empty : SameBody ([], []) ⟨#[], none⟩ ⟨#[], none⟩ :=
        ⟨⟨[], [], rfl, rfl, rfl⟩, rfl, rfl⟩
      have turns := follows_bodyTurns isBlock final reserves tracks unreserved
        (Nat.le_trans isLeast isFewer) enough otherEnough empty inside
      refine ⟨fun quiet name isFound => ?_⟩
      obtain ⟨twinFound, sameNodes, atTag⟩ := turns.twin_of_quiet quiet name isFound
      exact ⟨twinFound, sameNodes.same,
        (atTag.mono isLeast).surrounded left.waiting left.otherWaiting⟩

end Stencil.Grammar
