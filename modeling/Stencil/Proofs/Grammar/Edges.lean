import Stencil.Proofs.Grammar.Trimming

/-!
Contract: a template between two tags.

Owns:
- what turns of a body add, at their beginning and at their end;
- a template that reads without a report reads the same in the midst of other tokens, but for the
  blanks that these take off its ends.

Does not own: which tags stand around a template (`Stencil.Proofs.Grammar.Unclosed`).
-/

set_option autoImplicit false

-- The readers of tags are long chains of actions, each of which counts.
set_option synthInstance.maxSize 1024

namespace Stencil.Grammar

open Stencil.Syntax
open Stencil.Token (Kind Region)
open Read Statement

/-! ### What turns add -/

theorem Tape.Passes.quiet_of_trans {tape middle final : Tape} (first : tape.Onward middle)
    (second : middle.Onward final) (quiet : final.problems = tape.problems) :
    middle.problems = tape.problems ∧ final.problems = middle.problems := by
  obtain ⟨more, isMore⟩ := first.reported
  obtain ⟨further, isFurther⟩ := second.reported
  have noneReported : more = #[] ∧ further = #[] := by
    rw [isFurther, isMore, Array.append_assoc] at quiet
    exact Array.append_eq_empty_iff.mp (Array.self_eq_append_right.mp quiet.symm)
  rw [isFurther, isMore, noneReported.1, noneReported.2, Array.append_empty, Array.append_empty]
  exact ⟨rfl, rfl⟩

theorem Tape.trims_advance_of_text {tape : Tape} {token next : Token} {rest : List Token}
    (isRemaining : tape.remaining = token :: next :: rest) (isText : token.kind = .text) :
    tape.advance.trims = false := by
  rw [Tape.remaining_advance isRemaining, Tape.trims, Option.any_some, isText]
  rfl

section Turns

variable {reader : BodyReader} [∀ endings, Steady (reader endings)] {endings : List String}
  {body result next : Body} {tape final middle : Tape}

omit [∀ endings, Steady (reader endings)] in
/-- A turn at a text, which loses blanks to the tokens in front of it and behind it. -/
theorem goes_text {token : Token} {rest : List Token} (isText : token.kind = .text)
    (isRemaining : tape.remaining = token :: rest) (more : rest ≠ []) :
    Goes (nextNode .empty reader endings) body tape
        (body.add (textNode tape.trims (rest.head more).kind.trimsBefore token)) tape.advance ∧
      tape.advance.remaining = rest := by
  have isToken : tape.current = token := Tape.current_of_remaining isRemaining
  have isRest : tape.following = rest := (List.cons.inj isRemaining).2
  have trimsEnd : tape.trimsEnd = (rest.head more).kind.trimsBefore := by
    rw [Tape.trimsEnd, isRest, List.head?_eq_some_head more, Option.any_some]
  have currentText : tape.current.kind = .text := by rw [isToken, isText]
  have turn : (nextNode .empty reader endings body).run tape = _ :=
    run_nextNode_of_textKind currentText
  rw [run_text, isToken, trimsEnd] at turn
  have moreTokens : tape.following ≠ [] := by rwa [isRest]
  refine ⟨.step turn ?_ (.refl _ _), (Tape.remaining_advance_of_more moreTokens).trans isRest⟩
  rw [Tape.length_following_advance]
  have positive := List.length_pos_iff.mpr moreTokens
  omega

/-- A turn that goes on, and the turns behind it, report nothing if all of them do not. -/
theorem quiet_of_step
    (goesOn : (nextNode .empty reader endings body).run tape = (.again next, middle))
    (rest : Goes (nextNode .empty reader endings) next middle result final)
    (quiet : final.problems = tape.problems) :
    middle.problems = tape.problems ∧ final.problems = middle.problems := by
  have steady : Steady (nextNode .empty reader endings body) := inferInstance
  have first := steady.onward tape
  rw [goesOn] at first
  exact first.quiet_of_trans rest.onward quiet

theorem Goes.extends (goes : Goes (nextNode .empty reader endings) body tape result final)
    (quiet : final.problems = tape.problems) :
    ∃ added, result.nodes.toList = body.nodes.toList ++ added := by
  induction goes with
  | refl => exact ⟨[], (List.append_nil _).symm⟩
  | @step body next _ tape middle _ goesOn _ rest inductionHypothesis =>
      obtain ⟨quietTurn, quietRest⟩ := quiet_of_step goesOn rest quiet
      obtain ⟨added, isAdded⟩ := inductionHypothesis quietRest
      rcases again_nextNode quietTurn goesOn with ⟨_, _, rfl⟩ | ⟨_, node, _, rfl⟩ <;>
        exact ⟨_, by rw [isAdded, Body.toList_add, List.append_assoc]⟩

/-- Turns that do not begin at a text begin with a statement that is no text. -/
theorem Goes.begins (goes : Goes (nextNode .empty reader endings) body tape result final)
    (quiet : final.problems = tape.problems) (notText : tape.current.kind ≠ .text) :
    (final = tape ∧ result = body) ∨ ∃ node rest, NotText node ∧
      result.nodes.toList = body.nodes.toList ++ node :: rest := by
  cases goes with
  | refl => exact .inl ⟨rfl, rfl⟩
  | step goesOn _ rest =>
      obtain ⟨quietTurn, quietRest⟩ := quiet_of_step goesOn rest quiet
      obtain ⟨added, isAdded⟩ := rest.extends quietRest
      rcases again_nextNode quietTurn goesOn with ⟨isText, _⟩ | ⟨_, node, isNode, rfl⟩
      · exact absurd isText notText
      · refine .inr ⟨node, added, isNode, ?_⟩
        rw [isAdded, Body.toList_add, List.append_assoc]
        rfl

/-- Turns end behind a text, or with a statement that is no text. -/
theorem Goes.ends (goes : Goes (nextNode .empty reader endings) body tape result final)
    (quiet : final.problems = tape.problems) :
    (final = tape ∧ result = body) ∨
      (∃ passed token, tape.remaining = passed ++ token :: final.remaining ∧ token.kind = .text ∧
        final.trims = false) ∨
      ∃ init node, NotText node ∧ result.nodes.toList = body.nodes.toList ++ init ++ [node] := by
  induction goes with
  | refl => exact .inl ⟨rfl, rfl⟩
  | @step body next _ tape middle final goesOn shorter rest inductionHypothesis =>
      obtain ⟨quietTurn, quietRest⟩ := quiet_of_step goesOn rest quiet
      obtain ⟨following, others, isFollowing⟩ : ∃ next rest, tape.following = next :: rest :=
        List.exists_cons_of_length_pos (Nat.zero_lt_of_lt shorter)
      have isRemaining : tape.remaining = tape.current :: following :: others :=
        congrArg (tape.current :: ·) isFollowing
      have steady : Steady (nextNode .empty reader endings body) := inferInstance
      have first := steady.onward tape
      rw [goesOn] at first
      obtain ⟨passed, isPassed, _⟩ := first.moved
      refine .inr ?_
      rcases inductionHypothesis quietRest with ⟨rfl, rfl⟩ |
        ⟨others, token, areOthers, isText, notTrimmed⟩ | ⟨init, node, notText, isLast⟩
      · rcases again_nextNode quietTurn goesOn with ⟨isText, rfl, _⟩ | ⟨_, node, notText, rfl⟩
        · refine .inl ⟨[], tape.current, ?_, isText,
            Tape.trims_advance_of_text isRemaining isText⟩
          rw [Tape.remaining_advance isRemaining, isRemaining]
          rfl
        · refine .inr ⟨[], node, notText, ?_⟩
          rw [Body.toList_add, List.append_nil]
          rfl
      · refine .inl ⟨passed ++ others, token, ?_, isText, notTrimmed⟩
        rw [isPassed, areOthers, List.append_assoc]
      · refine .inr ?_
        rcases again_nextNode quietTurn goesOn with ⟨_, _, rfl⟩ | ⟨_, added, _, rfl⟩ <;>
          exact ⟨_, node, notText, by rw [isLast, Body.toList_add, List.append_assoc _ _ init]⟩

end Turns

/-! ### Statements at the edges -/

/-- Whether statements do not begin with text. -/
def StartsApart (nodes : List Node) : Prop :=
  nodes = [] ∨ ∃ node rest, NotText node ∧ nodes = node :: rest

/-- Whether statements do not end with text. -/
def EndsApart (nodes : List Node) : Prop :=
  nodes = [] ∨ ∃ init node, NotText node ∧ nodes = init ++ [node]

theorem trimFirst_of_startsApart {nodes : List Node} (apart : StartsApart nodes) :
    trimFirst nodes = nodes := by
  rcases apart with rfl | ⟨node, rest, notText, rfl⟩
  · rfl
  · rw [trimFirst, trimText_of_notText notText]
    rfl

theorem trimLast_of_endsApart {nodes : List Node} (apart : EndsApart nodes) :
    trimLast nodes = nodes := by
  rcases apart with rfl | ⟨init, node, notText, rfl⟩
  · rfl
  · rw [trimLast_concat, trimText_of_notText notText]

theorem trimFirst_toList (node : Option Node) :
    trimFirst node.toList = node.toList.flatMap (trimText true false) := by
  cases node with
  | none => rfl
  | some node => simp [trimFirst]

theorem trimLast_toList (node : Option Node) :
    trimLast node.toList = node.toList.flatMap (trimText false true) := by
  cases node with
  | none => rfl
  | some node => simp [trimLast]

/-- Statements that are one text lose the blanks that the text loses. -/
theorem between_textNode (front back : Bool) (token : Token) :
    between front back (textNode false false token).toList = (textNode front back token).toList := by
  have atFront : (if front then trimFirst (textNode false false token).toList
      else (textNode false false token).toList) = (textNode front false token).toList := by
    cases front with
    | false => rfl
    | true => rw [if_pos rfl, trimFirst_toList, textNode_front]
  rw [between, atFront]
  cases back with
  | false => rfl
  | true => rw [if_pos rfl, trimLast_toList, textNode_back]

/-- The texts at both edges are all that loses blanks. Where there is no text, nothing else stands
in its place. -/
theorem between_edges {front back : Bool} {first last : Option Node} {nodes : List Node}
    (starts : first = none → StartsApart (nodes ++ last.toList))
    (ends : last = none →
      EndsApart
        ((if front then first.toList.flatMap (trimText true false) else first.toList) ++ nodes)) :
    between front back (first.toList ++ nodes ++ last.toList) =
      (if front then first.toList.flatMap (trimText true false) else first.toList) ++ nodes ++
        (if back then last.toList.flatMap (trimText false true) else last.toList) := by
  have atFront : (if front then trimFirst (first.toList ++ nodes ++ last.toList)
      else first.toList ++ nodes ++ last.toList) =
      (if front then first.toList.flatMap (trimText true false) else first.toList) ++ nodes ++
        last.toList := by
    cases front with
    | false => rfl
    | true =>
        cases first with
        | none => exact trimFirst_of_startsApart (starts rfl)
        | some node => simp [trimFirst]
  rw [between, atFront]
  cases back with
  | false => rfl
  | true =>
      cases last with
      | none =>
          simp only [Option.toList_none, List.append_nil, List.flatMap_nil, if_true]
          exact trimLast_of_endsApart (ends rfl)
      | some node =>
          simp only [Option.toList_some, List.flatMap_singleton, if_true]
          exact trimLast_concat _ _

/-! ### A template between two tags -/

theorem sameNodes_textNode {first second : Token} (same : sameWords.token first second)
    (front back : Bool) :
    SameNodes (textNode front back first).toList (textNode front back second).toList := by
  rw [textNode, textNode, Likeness.lexeme same, textOf, textOf]
  split <;> rfl

/-- What stands in front of text outside tags leads out of all tags. -/
theorem after?_of_concat_text {tokens : List Token} {last : Token} (isText : last.kind = .text)
    (leads : Region.outside.after? (tokens ++ [last]) = some .outside) :
    Region.outside.after? tokens = some .outside := by
  cases led : Region.outside.after? tokens with
  | none =>
      rw [Region.after?, List.foldlM_append, ← Region.after?, led] at leads
      cases leads
  | some region =>
      rw [Region.after?_append [last] led, Region.after?_cons, isText] at leads
      cases region with
      | outside => rfl
      | inside delimiter => cases delimiter <;> cases leads

theorem sameNodes_back {first second : Token} (same : sameWords.token first second)
    (front back : Bool) :
    SameNodes
      (if back then (textNode front false first).toList.flatMap (trimText false true)
        else (textNode front false first).toList)
      (textNode front back second).toList := by
  cases back with
  | false => exact sameNodes_textNode same _ _
  | true =>
      rw [if_pos rfl, ← textNode_back]
      exact sameNodes_textNode same _ _

theorem sameNodes_front {first second : Token} (same : sameWords.token first second)
    (front back : Bool) :
    SameNodes
      (if front then (textNode false back first).toList.flatMap (trimText true false)
        else (textNode false back first).toList)
      (textNode front back second).toList := by
  cases front with
  | false => exact sameNodes_textNode same _ _
  | true =>
      rw [if_pos rfl, ← textNode_front]
      exact sameNodes_textNode same _ _

section Between

variable {own tape : Tape} {ownBehind behind shared others : List Token}
  {depth otherDepth most : Nat} {ownBody body : Body} {endings : List String} {ending : Token}

/-- What two tapes share is read alike on both, as long as its edges lose the same blanks. -/
theorem goes_shared (final : Final ownBehind) (more : behind ≠ [])
    (isOwn : own.remaining = shared ++ ownBehind) (isTape : tape.remaining = others ++ behind)
    (same : List.Forall₂ sameWords.token shared others)
    (leads : Region.outside.after? shared = some .outside)
    (trims : own.current.kind = .text → tape.trims = own.trims)
    (sameTrim : ∀ last ∈ shared.getLast?, last.kind = .text →
      (behind.head more).kind.trimsBefore = (ownBehind.head final.ne_nil).kind.trimsBefore)
    (outermost : own.enclosing = [[]]) (waiting : Unreserved tape.enclosing)
    (unreserved : ∀ name ∈ endings, name ∉ builtinTags) (enough : shared.length ≤ depth)
    (otherEnough : shared.length ≤ otherDepth) (enoughTurns : shared.length < most)
    (quiet :
      ((turns (nextNode .empty (nestedBody .empty depth) []) most ownBody).run own).2.problems =
        own.problems) (ownUnfound : ownBody.found = none) (unfound : body.found = none) :
    ∃ ownResult result here there,
      Goes (nextNode .empty (nestedBody .empty depth) []) ownBody own ownResult here ∧
        Goes (nextNode .empty (nestedBody .empty otherDepth) endings) body tape result there ∧
        SameBody (ownBody.nodes.toList, body.nodes.toList) ownResult result ∧
        here.remaining = ownBehind ∧ there.remaining = behind ∧
        (here.current.kind = .text → there.trims = here.trims) ∧
        (here.problems = own.problems → there.problems = tape.problems) := by
  let margin : Margin := ⟨ownBehind, behind, own.problems, tape.problems, final.ne_nil, more⟩
  let lane : Lane := ⟨sameWords, margin, .block⟩
  have atEnd (init : List Token) (last : Token) (isInit : own.remaining = init ++ last :: ownBehind)
      (isText : last.kind = .text) : margin.SameTrim := by
    have isShared : shared = init ++ [last] := by
      rw [isOwn] at isInit
      have split : shared ++ ownBehind = (init ++ [last]) ++ ownBehind := by simpa using isInit
      exact List.append_cancel_right split
    exact sameTrim last (by simp [isShared]) isText
  have ownWaiting : Unreserved own.enclosing := by
    rw [outermost]
    decide
  have left : lane.Outside (shared.length + 1) own tape :=
    ⟨⟨shared, others, isOwn, isTape, same, leads, Nat.lt_succ_self _⟩, trims, atEnd,
      ⟨[], [], Array.append_empty.symm, Array.append_empty.symm, .nil⟩, ownWaiting, waiting⟩
  have sameBody : SameBody (ownBody.nodes.toList, body.nodes.toList) ownBody body :=
    ⟨⟨[], [], (List.append_nil _).symm, (List.append_nil _).symm, rfl⟩, ownUnfound, unfound⟩
  have outside : own.enclosing.tail = [] := by
    rw [outermost]
    rfl
  have tracks : lane.Tracks shared.length (nestedBody .empty depth) (nestedBody .empty otherDepth) :=
    tracks_nestedBody rfl final rfl enough otherEnough
  obtain ⟨ownResult, result, here, there, ownGoes, goes, sameResult, left, atBehind, otherAtBehind⟩ :=
    goes_abreast rfl final rfl tracks ⟨nofun, unreserved⟩ (Nat.le_refl _) enoughTurns sameBody outside
      left quiet
  exact ⟨ownResult, result, here, there, ownGoes, goes, sameResult, atBehind, otherAtBehind,
    left.trims, left.quiet⟩

/-- What reads up to the end of the input without a report reports nothing on the way there. -/
theorem quiet_of_goes {here : Tape} {ownResult : Body} (isEnd : ending.kind = .endOfInput)
    (goes : Goes (nextNode .empty (nestedBody .empty depth) []) ownBody own ownResult here)
    (atEnd : here.remaining = [ending]) (enoughTurns : own.following.length < most)
    (quiet :
      ((turns (nextNode .empty (nestedBody .empty depth) []) most ownBody).run own).2.problems =
        own.problems) : here.problems = own.problems := by
  have stops : here.current.kind = .endOfInput := by
    rw [Tape.current_of_remaining atEnd, isEnd]
  rw [run_turns_of_settles (goes.settles (.done (run_nextNode_of_end stops _))) most enoughTurns]
    at quiet
  exact quiet

/-- Whether two tapes hold the tokens of a template, or those behind its first text: one tape holds
them alone, and on the other one other tokens stand behind them. -/
structure Shares (own tape : Tape) (tail others behind : List Token) (ending : Token) : Prop where
  isEnd : ending.kind = .endOfInput
  isOwn : own.remaining = tail ++ [ending]
  isTape : tape.remaining = others ++ behind
  same : List.Forall₂ sameWords.token tail others
  leads : Region.outside.after? tail = some .outside
  filled : Token.Filled tail
  outermost : own.enclosing = [[]]
  waiting : Unreserved tape.enclosing

/-- What the tail of a template comes to: its own statements, of which the last one loses its
trailing blanks to the tokens behind them. -/
structure TailRead (own : Tape) (ownBody body : Body) (back : Bool) (added : List Node)
    (last : Option Node) (ownResult result : Body) : Prop where
  ownNodes : ownResult.nodes.toList = ownBody.nodes.toList ++ (added ++ last.toList)
  nodes : ∃ twins, result.nodes.toList = body.nodes.toList ++ twins ∧
    SameNodes (added ++ if back then last.toList.flatMap (trimText false true) else last.toList) twins
  unfound : result.found = none
  ends : last = none → ∃ init node, NotText node ∧ added = init ++ [node]
  starts : own.current.kind ≠ .text → StartsApart (added ++ last.toList)

/-- Whether the turns of two bodies lead past a tail on both tapes. -/
def ReadsTail (own tape : Tape) (ownBody body : Body) (depth otherDepth : Nat)
    (endings : List String) (ending : Token) (more : behind ≠ []) : Prop :=
  ∃ ownResult result here there added last,
    Goes (nextNode .empty (nestedBody .empty depth) []) ownBody own ownResult here ∧
      Goes (nextNode .empty (nestedBody .empty otherDepth) endings) body tape result there ∧
      TailRead own ownBody body (behind.head more).kind.trimsBefore added last ownResult result ∧
      here.remaining = [ending] ∧ there.remaining = behind ∧ there.problems = tape.problems

namespace Shares

variable {tail : List Token}

/-- Where a tail does not end with text, the tokens behind it take nothing off it. -/
theorem goes_of_apart (is : Shares own tape tail others behind ending) (nonempty : tail ≠ [])
    (untrimmed : own.current.kind = .text → own.trims = false ∧ tape.trims = false)
    (more : behind ≠ [])
    (unreserved : ∀ name ∈ endings, name ∉ builtinTags) (enough : tail.length ≤ depth)
    (otherEnough : tail.length ≤ otherDepth) (enoughTurns : own.following.length < most)
    (quiet :
      ((turns (nextNode .empty (nestedBody .empty depth) []) most ownBody).run own).2.problems =
        own.problems) (ownUnfound : ownBody.found = none) (unfound : body.found = none)
    (apart : ∀ last ∈ tail.getLast?, last.kind ≠ .text) :
    ReadsTail own tape ownBody body depth otherDepth endings ending more := by
  have length : own.following.length = tail.length := by
    simpa [Tape.remaining] using congrArg List.length is.isOwn
  have notTrimmed : own.current.kind = .text → tape.trims = own.trims := fun isText =>
    (untrimmed isText).2.trans (untrimmed isText).1.symm
  have lastApart : ∀ last ∈ tail.getLast?, last.kind = .text →
      (behind.head more).kind.trimsBefore =
        ([ending].head (Final.ending is.isEnd).ne_nil).kind.trimsBefore :=
    fun last isLast isText => absurd isText (apart last isLast)
  obtain ⟨ownResult, result, here, there, ownGoes, goes, ⟨⟨added, twins, areOwn, areTwins, sameNodes⟩,
    _, resultUnfound⟩, atEnd, atBehind, _, quietThere⟩ :=
    goes_shared (.ending is.isEnd) more is.isOwn is.isTape is.same is.leads notTrimmed lastApart
      is.outermost is.waiting unreserved enough otherEnough (length ▸ enoughTurns) quiet ownUnfound
      unfound
  have quietHere := quiet_of_goes is.isEnd ownGoes atEnd enoughTurns quiet
  have moved : here ≠ own := by
    rintro rfl
    have isTail : tail ++ [ending] = [] ++ [ending] := is.isOwn.symm.trans atEnd
    exact nonempty (List.append_cancel_right isTail)
  refine ⟨ownResult, result, here, there, added, none, ownGoes, goes, ⟨?_, ⟨twins, areTwins, ?_⟩,
    resultUnfound, fun _ => ?_, fun notText => ?_⟩, atEnd, atBehind, quietThere quietHere⟩
  · rw [Option.toList_none, List.append_nil]
    exact areOwn
  · rw [Option.toList_none, List.flatMap_nil, ite_self, List.append_nil]
    exact sameNodes
  · rcases ownGoes.ends quietHere with ⟨isOwn, _⟩ | ⟨passed, token, isPassed, isText, _⟩ |
      ⟨init, node, notText, isLast⟩
    · exact absurd isOwn moved
    · rw [atEnd, is.isOwn] at isPassed
      have isSplit : tail ++ [ending] = (passed ++ [token]) ++ [ending] := by
        rw [isPassed, List.append_assoc]
        rfl
      have isTail := List.append_cancel_right isSplit
      exact absurd isText (apart token (by simp [isTail]))
    · rw [areOwn, List.append_assoc] at isLast
      exact ⟨init, node, notText, List.append_cancel_left isLast⟩
  · rcases ownGoes.begins quietHere notText with ⟨isOwn, _⟩ | ⟨node, rest, notText, areNodes⟩
    · exact absurd isOwn moved
    · rw [areOwn] at areNodes
      rw [Option.toList_none, List.append_nil]
      exact .inr ⟨node, rest, notText, List.append_cancel_left areNodes⟩

/-- Where a tail ends with text, the tokens behind it may take blanks off the end of that text. -/
theorem goes_of_text {middle : List Token} {last : Token}
    (is : Shares own tape (middle ++ [last]) others behind ending) (isText : last.kind = .text)
    (untrimmed : own.current.kind = .text → own.trims = false ∧ tape.trims = false)
    (more : behind ≠ []) (unreserved : ∀ name ∈ endings, name ∉ builtinTags)
    (enough : middle.length ≤ depth) (otherEnough : middle.length ≤ otherDepth)
    (enoughTurns : own.following.length < most)
    (quiet :
      ((turns (nextNode .empty (nestedBody .empty depth) []) most ownBody).run own).2.problems =
        own.problems) (ownUnfound : ownBody.found = none) (unfound : body.found = none) :
    ReadsTail own tape ownBody body depth otherDepth endings ending more := by
  obtain ⟨others, twin, rfl, sameMiddle, sameLast⟩ : ∃ init twin, others = init ++ [twin] ∧
      List.Forall₂ sameWords.token middle init ∧ sameWords.token last twin := by
    have atMiddle := (List.forall₂_take_append others middle [last] is.same.flip).flip
    have atLast := (List.forall₂_drop_append others middle [last] is.same.flip).flip
    obtain ⟨twin, _, sameLast, nothing, isDrop⟩ := List.forall₂_cons_left_iff.mp atLast
    rw [List.forall₂_nil_left_iff.mp nothing] at isDrop
    exact ⟨_, twin, isDrop ▸ (List.take_append_drop _ others).symm, atMiddle, sameLast⟩
  have isOwn : own.remaining = middle ++ [last, ending] := by
    rw [is.isOwn, List.append_assoc]
    rfl
  have isTape : tape.remaining = others ++ (twin :: behind) := by
    rw [is.isTape, List.append_assoc]
    rfl
  have length : own.following.length = middle.length + 1 := by
    simpa [Tape.remaining] using congrArg List.length isOwn
  have notTrimmed : own.current.kind = .text → tape.trims = own.trims := fun isText =>
    (untrimmed isText).2.trans (untrimmed isText).1.symm
  have isFinal : Final [last, ending] := .text isText (.ending is.isEnd)
  have sameKind : twin.kind = last.kind := Likeness.kind sameLast
  obtain ⟨ownResult, result, here, there, ownGoes, goes, ⟨⟨added, twins, areOwn, areTwins, sameNodes⟩,
    ownFound, resultUnfound⟩, atLast, atTwin, sameTrims, quietThere⟩ :=
    goes_shared isFinal (List.cons_ne_nil twin behind) isOwn isTape sameMiddle
      (after?_of_concat_text isText is.leads) notTrimmed
      (fun _ _ _ => congrArg Kind.trimsBefore sameKind) is.outermost is.waiting unreserved enough
      otherEnough (by omega) quiet ownUnfound unfound
  -- The text is one more turn on each tape.
  have hereText : here.current.kind = .text := by rw [Tape.current_of_remaining atLast, isText]
  obtain ⟨ownTurn, atEnd⟩ :
      Goes (nextNode .empty (nestedBody .empty depth) []) ownResult here _ _ ∧ _ :=
    goes_text isText atLast (List.cons_ne_nil ending [])
  obtain ⟨turn, atBehind⟩ :
      Goes (nextNode .empty (nestedBody .empty otherDepth) endings) result there _ _ ∧ _ :=
    goes_text (sameKind.trans isText) atTwin more
  rw [List.head_cons, is.isEnd] at ownTurn
  rw [sameTrims hereText] at turn
  have allGoes := ownGoes.trans ownTurn
  have quietEnd := quiet_of_goes is.isEnd allGoes atEnd enoughTurns quiet
  have quietHere : here.problems = own.problems := by
    rwa [Tape.problems_advance] at quietEnd
  have areAll (node : Option Node) :
      (result.add node).nodes.toList = body.nodes.toList ++ (twins ++ node.toList) := by
    rw [Body.toList_add, areTwins, List.append_assoc]
  refine ⟨_, _, here.advance, there.advance, added, textNode here.trims false last, allGoes,
    goes.trans turn, ⟨?_, ⟨_, areAll _, sameNodes.append (sameNodes_back sameLast _ _)⟩,
      resultUnfound, fun noText => ?_, fun notText => ?_⟩, atEnd, atBehind, ?_⟩
  · rw [Body.toList_add, areOwn, List.append_assoc]
    rfl
  · -- A text of which nothing is left has lost blanks to what stands in front of it.
    have trimmed : here.trims = true := by
      by_contra notTrimmed
      have filled := is.filled last (by simp) isText
      rw [Bool.eq_false_iff.mpr notTrimmed] at noText
      exact absurd (isSome_textNode filled) (by simp [noText])
    rcases ownGoes.ends quietHere with ⟨rfl, _⟩ | ⟨_, _, _, _, notTrimmed⟩ |
      ⟨init, node, notText, areLast⟩
    · exact absurd (untrimmed hereText).1 (by simp [trimmed])
    · exact absurd notTrimmed (by simp [trimmed])
    · rw [areOwn, List.append_assoc] at areLast
      exact ⟨init, node, notText, List.append_cancel_left areLast⟩
  · rcases ownGoes.begins quietHere notText with ⟨rfl, _⟩ | ⟨node, rest, notText, areNodes⟩
    · exact absurd hereText notText
    · rw [areOwn] at areNodes
      rw [List.append_cancel_left areNodes]
      exact .inr ⟨node, rest ++ _, notText, rfl⟩
  · rw [Tape.problems_advance]
    exact quietThere quietHere

theorem goes (is : Shares own tape tail others behind ending) (nonempty : tail ≠ [])
    (untrimmed : own.current.kind = .text → own.trims = false ∧ tape.trims = false)
    (more : behind ≠ [])
    (unreserved : ∀ name ∈ endings, name ∉ builtinTags) (enough : tail.length ≤ depth)
    (otherEnough : tail.length ≤ otherDepth) (enoughTurns : own.following.length < most)
    (quiet :
      ((turns (nextNode .empty (nestedBody .empty depth) []) most ownBody).run own).2.problems =
        own.problems) (ownUnfound : ownBody.found = none) (unfound : body.found = none) :
    ReadsTail own tape ownBody body depth otherDepth endings ending more := by
  rcases List.eq_nil_or_concat tail with isEmpty | ⟨middle, last, isConcat⟩
  · exact absurd isEmpty nonempty
  · rw [List.concat_eq_append] at isConcat
    by_cases isText : last.kind = .text
    · subst isConcat
      have shorter : middle.length ≤ (middle ++ [last]).length :=
        (List.sublist_append_left _ _).length_le
      exact is.goes_of_text isText untrimmed more unreserved (Nat.le_trans shorter enough)
        (Nat.le_trans shorter otherEnough) enoughTurns quiet ownUnfound unfound
    · have apart : ∀ last ∈ tail.getLast?, last.kind ≠ .text := by simpa [isConcat] using isText
      exact is.goes_of_apart nonempty untrimmed more unreserved enough otherEnough enoughTurns quiet
        ownUnfound unfound apart

end Shares

end Between

section Whole

variable {own tape : Tape} {tokens others behind : List Token} {nodes : List Node} {body : Body}
  {endings : List String} {depth otherDepth most : Nat} {ending : Token}

/-- A text, or no text, and the tail behind it, which begins with no text if there is none. -/
theorem adds_of_tail {ownBody before ownResult result : Body} {front back : Bool}
    {last : Option Node} {added : List Node} (first : Option Node) (twins : List Node)
    (read : TailRead own ownBody body back added last ownResult result)
    (isFirst : ownBody.nodes.toList = first.toList)
    (isBefore : body.nodes.toList = before.nodes.toList ++ twins)
    (sameFirst : SameNodes
      (if front then first.toList.flatMap (trimText true false) else first.toList) twins)
    (apart : first = none → own.current.kind ≠ .text)
    (areNodes : ownResult.nodes.toList = nodes) :
    before.Adds (between front back nodes) result := by
  obtain ⟨others, areOthers, sameOthers⟩ := read.nodes
  have starts : first = none → StartsApart (added ++ last.toList) :=
    fun isNone => read.starts (apart isNone)
  have isWhole : nodes = first.toList ++ added ++ last.toList := by
    rw [← areNodes, read.ownNodes, isFirst, List.append_assoc]
  refine ⟨⟨twins ++ others, ?_, ?_⟩, read.unfound⟩
  · rw [areOthers, isBefore, List.append_assoc]
  · rw [isWhole, between_edges starts, List.append_assoc]
    · exact sameFirst.append sameOthers
    · intro isNone
      obtain ⟨init, node, notText, rfl⟩ := read.ends isNone
      exact .inr ⟨_ ++ init, node, notText, by rw [List.append_assoc]⟩

/-- Whether turns lead past the tokens of a template on both tapes, and read the same there but for
the blanks at the ends. -/
def ReadsBetween (own tape : Tape) (body : Body) (depth otherDepth : Nat) (endings : List String)
    (ending : Token) (more : behind ≠ []) : Prop :=
  ∃ ownResult result here there,
    Goes (nextNode .empty (nestedBody .empty depth) []) ⟨#[], none⟩ own ownResult here ∧
      Goes (nextNode .empty (nestedBody .empty otherDepth) endings) body tape result there ∧
      body.Adds (between tape.trims (behind.head more).kind.trimsBefore ownResult.nodes.toList)
        result ∧
      here.remaining = [ending] ∧ there.remaining = behind ∧ there.problems = tape.problems

namespace Shares

section Cases

variable (more : behind ≠ []) (unfound : body.found = none)
include unfound

/-- A template that is one text. -/
theorem between_of_text {token : Token} (is : Shares own tape [token] others behind ending)
    (ownTrims : own.trims = false) (isText : token.kind = .text) :
    ReadsBetween own tape body depth otherDepth endings ending more := by
  obtain ⟨twin, _, sameToken, nothing, rfl⟩ := List.forall₂_cons_left_iff.mp is.same
  obtain rfl := List.forall₂_nil_left_iff.mp nothing
  have twinText : twin.kind = .text := (Likeness.kind sameToken).trans isText
  have isOwn : own.remaining = token :: [ending] := is.isOwn
  have isTape : tape.remaining = twin :: behind := is.isTape
  obtain ⟨ownTurn, atEnd⟩ :
      Goes (nextNode .empty (nestedBody .empty depth) []) ⟨#[], none⟩ own _ _ ∧ _ :=
    goes_text isText isOwn (List.cons_ne_nil ending [])
  obtain ⟨turn, atBehind⟩ :
      Goes (nextNode .empty (nestedBody .empty otherDepth) endings) body tape _ _ ∧ _ :=
    goes_text twinText isTape more
  refine ⟨_, _, own.advance, tape.advance, ownTurn, turn, ⟨⟨_, Body.toList_add _ _, ?_⟩, unfound⟩,
    atEnd, atBehind, Tape.problems_advance tape⟩
  have isNodes :
      (Body.add ⟨#[], none⟩ (textNode own.trims
        ([ending].head (List.cons_ne_nil _ _)).kind.trimsBefore token)).nodes.toList =
        (textNode false false token).toList := by
    rw [Body.toList_add, ownTrims, List.head_cons, is.isEnd]
    rfl
  rw [isNodes, between_textNode]
  exact sameNodes_textNode sameToken _ _

variable (unreserved : ∀ name ∈ endings, name ∉ builtinTags)
  (quiet : ((turns (nextNode .empty (nestedBody .empty depth) []) (own.following.length + 1)
    ⟨#[], none⟩).run own).2.problems = own.problems)
include unreserved quiet

/-- A template that begins with text, and goes on behind it. -/
theorem between_of_first {token next : Token} {tail : List Token}
    (is : Shares own tape (token :: next :: tail) others behind ending)
    (ownTrims : own.trims = false) (isText : token.kind = .text)
    (enough : (token :: next :: tail).length ≤ depth)
    (otherEnough : (token :: next :: tail).length ≤ otherDepth) :
    ReadsBetween own tape body depth otherDepth endings ending more := by
  obtain ⟨twin, _, sameToken, same, rfl⟩ := List.forall₂_cons_left_iff.mp is.same
  obtain ⟨nextTwin, others, sameNext, _, rfl⟩ := List.forall₂_cons_left_iff.mp same
  have twinText : twin.kind = .text := (Likeness.kind sameToken).trans isText
  have sameKind : nextTwin.kind = next.kind := Likeness.kind sameNext
  have isOwn : own.remaining = token :: next :: (tail ++ [ending]) := is.isOwn
  have isTape : tape.remaining = twin :: nextTwin :: (others ++ behind) := is.isTape
  obtain ⟨ownTurn, atTail⟩ :
      Goes (nextNode .empty (nestedBody .empty depth) []) ⟨#[], none⟩ own _ _ ∧ _ :=
    goes_text isText isOwn (List.cons_ne_nil _ _)
  obtain ⟨turn, atTwins⟩ :
      Goes (nextNode .empty (nestedBody .empty otherDepth) endings) body tape _ _ ∧ _ :=
    goes_text twinText isTape (List.cons_ne_nil _ _)
  rw [ownTrims, List.head_cons] at ownTurn
  rw [List.head_cons, sameKind] at turn
  have leads : Region.outside.after? (next :: tail) = some .outside := by
    have leads := is.leads
    rwa [Region.after?_cons, isText] at leads
  have shares : Shares own.advance tape.advance (next :: tail) (nextTwin :: others) behind ending :=
    ⟨is.isEnd, atTail, atTwins, same, leads,
      fun token member => is.filled token (List.mem_cons_of_mem _ member),
      (Tape.enclosing_advance own).trans is.outermost, by
        rw [Tape.enclosing_advance]
        exact is.waiting⟩
  have untrimmed : own.advance.trims = false ∧ tape.advance.trims = false :=
    ⟨Tape.trims_advance_of_text isOwn isText, Tape.trims_advance_of_text isTape twinText⟩
  obtain ⟨fewer, enoughTurns, quietTail⟩ := ownTurn.quiet_turns (Nat.lt_succ_self _) quiet
  have unfoundNext :
      (body.add (textNode tape.trims next.kind.trimsBefore twin)).found = none := unfound
  obtain ⟨ownResult, result, here, there, added, last, ownGoes, goes, read, atEnd, atBehind,
    quietThere⟩ := shares.goes (List.cons_ne_nil _ _) (fun _ => untrimmed) more unreserved
      (Nat.le_of_succ_le enough) (Nat.le_of_succ_le otherEnough) (Nat.lt_succ_of_le enoughTurns)
      quietTail rfl unfoundNext
  refine ⟨ownResult, result, here, there, ownTurn.trans ownGoes, turn.trans goes, ?_, atEnd, atBehind,
    quietThere.trans (Tape.problems_advance tape)⟩
  refine adds_of_tail (textNode false next.kind.trimsBefore token) _ read (Body.toList_add _ _)
    (Body.toList_add _ _) (sameNodes_front sameToken _ _) (fun nothing nextText => ?_) rfl
  -- Without blanks taken off, something would be left of the text.
  rw [Tape.current_of_remaining atTail] at nextText
  rw [nextText] at nothing
  have filled := isSome_textNode (is.filled token List.mem_cons_self isText)
  exact absurd filled (by rw [show textNode false false token = none from nothing]; nofun)

/-- A template that does not begin with text. -/
theorem between_of_apart (is : Shares own tape tokens others behind ending) (nonempty : tokens ≠ [])
    (apart : own.current.kind ≠ .text) (enough : tokens.length ≤ depth)
    (otherEnough : tokens.length ≤ otherDepth) :
    ReadsBetween own tape body depth otherDepth endings ending more := by
  obtain ⟨ownResult, result, here, there, added, last, ownGoes, goes, read, atEnd, atBehind, quiet⟩ :=
    is.goes nonempty (fun isText => absurd isText apart) more unreserved enough otherEnough
      (Nat.lt_succ_self _) quiet rfl unfound
  refine ⟨ownResult, result, here, there, ownGoes, goes, ?_, atEnd, atBehind, quiet⟩
  refine adds_of_tail none [] read rfl (List.append_nil _).symm ?_ (fun _ => apart) rfl
  rw [Option.toList_none, List.flatMap_nil, ite_self]
  rfl

end Cases

end Shares

/-- A template that reads without a report reads the same between two tags, but for the blanks that
these take off its ends. -/
theorem Clean.goes_between (clean : Clean tokens nodes)
    (filled : Token.Filled tokens)
    (isTape : tape.remaining = others ++ behind)
    (same : List.Forall₂ sameWords.token tokens others) (more : behind ≠ [])
    (waiting : Unreserved tape.enclosing) (unreserved : ∀ name ∈ endings, name ∉ builtinTags)
    (enough : tokens.length ≤ depth) (unfound : body.found = none) :
    ∃ result final, Goes (nextNode .empty (nestedBody .empty depth) endings) body tape result final ∧
      body.Adds (between tape.trims (behind.head more).kind.trimsBefore nodes) result ∧
        final.remaining = behind ∧ final.problems = tape.problems ∧
          final.enclosing = tape.enclosing := by
  obtain ⟨own, ending, isEnd, ownTrims, isOwn, outermost, quiet, areNodes⟩ := clean.reads
  have shares : Shares own tape tokens others behind ending :=
    ⟨isEnd, isOwn, isTape, same, clean.leads, filled, outermost, waiting⟩
  have quietTurns := quiet
  rw [loop, run_bind, run_get] at quietTurns
  have reads : ReadsBetween own tape body tokens.length depth endings ending more := by
    match tokens with
    | [] =>
        obtain rfl := List.forall₂_nil_left_iff.mp same
        refine ⟨⟨#[], none⟩, body, own, tape, .refl _ _, .refl _ _,
          ⟨⟨[], (List.append_nil _).symm, ?_⟩, unfound⟩, isOwn, isTape, rfl⟩
        cases tape.trims <;> cases (behind.head more).kind.trimsBefore <;> rfl
    | token :: tail =>
        by_cases isText : token.kind = .text
        · match tail with
          | [] => exact shares.between_of_text more unfound ownTrims isText
          | _ :: _ =>
              exact shares.between_of_first more unfound unreserved quietTurns ownTrims isText
                (Nat.le_refl _) enough
        · have apart : own.current.kind ≠ .text := by
            rwa [Tape.current_of_remaining isOwn]
          exact shares.between_of_apart more unfound unreserved quietTurns (List.cons_ne_nil _ _)
            apart (Nat.le_refl _) enough
  obtain ⟨ownResult, result, here, there, ownGoes, goes, adds, atEnd, atBehind, quietThere⟩ := reads
  have stops : here.current.kind = .endOfInput := by
    rw [Tape.current_of_remaining atEnd, isEnd]
  rw [run_loop_of_settles (ownGoes.settles (.done (run_nextNode_of_end stops _)))] at areNodes
  rw [← areNodes]
  exact ⟨result, there, goes, adds, atBehind, quietThere, goes.onward.enclosing⟩

end Whole

end Stencil.Grammar
