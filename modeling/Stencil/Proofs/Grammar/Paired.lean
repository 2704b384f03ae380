import Stencil.Proofs.Grammar.Opening
import Stencil.Proofs.Token.Whole

/-!
Contract: an opening tag and its closing tag, which read without a report by themselves, read the
same with anything between them and around them.

Owns:
- texts that are such an opening tag and such a closing tag;
- what the opening tag says wherever it stands, and where it leads;
- the closing tag is passed over wherever it stands.

Does not own: what stands between the two (`Stencil.Proofs.Grammar.Unclosed`).
-/

set_option autoImplicit false

-- The readers of tags are long chains of actions, each of which counts.
set_option synthInstance.maxSize 1024

namespace Stencil.Grammar

open Stencil.Report (Diagnostic)
open Stencil.Syntax
open Stencil.Text (Span)
open Stencil.Token (Kind Region TagTokens IsTag Cursor)
open Read Statement

/-! ### The tokens of one tag on two tapes -/

section Tags

variable {name source : String} {tag twin : TagTokens} {tape other : Tape}
  {behind otherBehind : List Token}

theorem remaining_advance_of_tag (isRemaining : tape.remaining = tag.all ++ behind) :
    tape.advance.remaining = tag.title :: (tag.inners ++ tag.closing :: behind) := by
  have isRemaining : tape.remaining =
      tag.opening :: tag.title :: (tag.inners ++ tag.closing :: behind) := by
    rw [isRemaining, TagTokens.all, List.cons_append, List.cons_append, List.append_assoc]
    rfl
  rw [Tape.remaining_advance isRemaining]
  rfl

theorem inTag_of_tag (isTag : tag.Of name source) (isRemaining : tape.remaining = tag.all ++ behind)
    (more : behind ≠ []) : tape.advance.advance.InTag tag.closing behind := by
  have atTitle := remaining_advance_of_tag isRemaining
  obtain ⟨trim, closes⟩ := isTag.closes
  have inner : tag.title.kind.isInner = true := by
    rw [show tag.title.kind = .name from congrArg Word.kind isTag.named]
    rfl
  have inTag : tape.advance.InTag tag.closing behind := by
    refine ⟨⟨tag.title :: tag.inners, atTitle, ?_⟩, by rw [closes]; rfl, more⟩
    intro token member
    rcases List.mem_cons.mp member with rfl | member
    · exact inner
    · exact isTag.inner token member
  apply inTag.inside
  apply Tape.passes_advance
  rw [Tape.current_of_remaining atTitle]
  exact inner

/-- The lane of a tag that stands before other tokens on each of two tapes. -/
def tagLane (tape other : Tape) (more : behind ≠ []) (otherMore : otherBehind ≠ []) : Lane :=
  ⟨sameWords, ⟨behind, otherBehind, tape.problems, other.problems, more, otherMore⟩, .block⟩

theorem atTag_of_tags (isTag : tag.Of name source) (isTwin : twin.Of name source)
    (isRemaining : tape.remaining = tag.all ++ behind)
    (isOther : other.remaining = twin.all ++ otherBehind) (more : behind ≠ [])
    (otherMore : otherBehind ≠ []) (waiting : Unreserved tape.enclosing)
    (otherWaiting : Unreserved other.enclosing) :
    (tagLane tape other more otherMore).AtTag tag.all.length name tape other := by
  have atTitle := remaining_advance_of_tag isRemaining
  have atTwin := remaining_advance_of_tag isOther
  obtain ⟨trim, closes⟩ := isTag.closes
  have isTitle : tag.title.kind = .name := congrArg Word.kind isTag.named
  have same : List.Forall₂ sameWords.token tag.all twin.all :=
    sameWords_of_map (isTwin.words.trans isTag.words.symm)
  have leads : (Region.inside .block).after? (tag.title :: (tag.inners ++ [tag.closing])) =
      some .outside := by
    rw [Region.after?_cons, isTitle, Region.next?_of_isInner _ rfl, Option.bind_some,
      Region.after?_append _ (Region.after?_of_isInner _ isTag.inner), Region.after?_cons, closes]
    rfl
  refine ⟨⟨⟨tag.title :: (tag.inners ++ [tag.closing]), twin.title :: (twin.inners ++ [twin.closing]),
    by simp [atTitle, tagLane], by simp [atTwin, tagLane], ?_, leads, ?_⟩, ?_, ?_, ?_, ?_, ?_⟩, ?_⟩
  · cases same with
    | cons _ same => exact same
  · simp [TagTokens.all]
  · rw [Tape.current_of_remaining atTitle, isTitle]
    intro isText
    cases isText
  · intro init last isInit isText
    have isLast : tag.closing = last := by
      have isSplit : (tag.title :: tag.inners ++ [tag.closing]) ++ behind =
          (init ++ [last]) ++ behind := by
        have isInit : tape.advance.remaining = init ++ last :: behind := isInit
        rw [atTitle] at isInit
        simpa using isInit
      exact (List.append_inj' (List.append_cancel_right isSplit) rfl).2 |> List.singleton_inj.mp
    rw [← isLast, closes] at isText
    cases isText
  · refine ⟨[], [], ?_, ?_, .nil⟩
    · rw [Tape.problems_advance]
      exact Array.append_empty.symm
    · rw [Tape.problems_advance]
      exact Array.append_empty.symm
  · rw [Tape.enclosing_advance]
    exact waiting
  · rw [Tape.enclosing_advance]
    exact otherWaiting
  · rw [Tape.current_of_remaining atTitle]
    have isName : tag.title.lexeme = name := congrArg Word.lexeme isTag.named
    rw [Token.isName, isTitle, isName, beq_self_eq_true, beq_self_eq_true]
    rfl

end Tags

/-! ### An opening tag and its closing tag -/

theorem BlockKind.keyword_ne_raw (kind : BlockKind) : kind.keyword ≠ "raw" := by
  cases kind <;> decide

theorem BlockKind.ending_ne_raw (kind : BlockKind) : kind.ending ≠ "raw" := by
  cases kind <;> decide

/-- Whether texts are an opening tag of a kind and its closing tag, which together read without a
report. -/
structure Paired (kind : BlockKind) (source closing : String) : Prop where
  tag : IsTag kind.keyword source
  ends : IsTag kind.ending closing
  quiet : (parse .empty "" (source ++ closing)).problems = []

instance (kind : BlockKind) (source closing : String) : Decidable (Paired kind source closing) :=
  decidable_of_iff (IsTag kind.keyword source ∧ IsTag kind.ending closing ∧
      (parse .empty "" (source ++ closing)).problems = [])
    ⟨fun ⟨tag, ends, quiet⟩ => ⟨tag, ends, quiet⟩,
      fun paired => ⟨paired.tag, paired.ends, paired.quiet⟩⟩

section Paired

variable {kind : BlockKind} {source closing : String}

/-- The tokens of an opening tag and its closing tag. -/
theorem Paired.scan (paired : Paired kind source closing) :
    ∃ (tag ending : TagTokens) (last : Token), tag.Of kind.keyword source ∧
      ending.Of kind.ending closing ∧ last.kind = .endOfInput ∧
        kept (Token.scan (source ++ closing)).tokens = (tag.all ++ ending.all) ++ [last] := by
  have isRest : (Cursor.ofText (source ++ closing)).rest = source.toList ++ closing.toList := by
    simp [Cursor.ofText]
  obtain ⟨tag, tokens, areTokens, isTag, _, isScan⟩ :=
    paired.tag.scanFrom_eq kind.keyword_ne_raw isRest
  let atEnding : Cursor :=
    ⟨(Cursor.ofText (source ++ closing)).position.advanceAll source.toList, closing.toList⟩
  have isRestBehind : atEnding.rest = closing.toList ++ [] := (List.append_nil _).symm
  obtain ⟨ending, others, areOthers, isEnding, _, isScanBehind⟩ :=
    paired.ends.scanFrom_eq kind.ending_ne_raw isRestBehind
  let stop : Cursor := ⟨atEnding.position.advanceAll closing.toList, []⟩
  have isStop : Token.scanFrom stop = ⟨[stop.mark .endOfInput], []⟩ := by
    rw [Token.scanFrom, dif_pos rfl]
    rfl
  refine ⟨tag, ending, stop.mark .endOfInput, isTag, isEnding, rfl, ?_⟩
  rw [Token.scan, isScan, isScanBehind, isStop, Token.Scan.tokens_append,
    Token.Scan.tokens_append, kept_append, kept_append, areTokens, areOthers, kept_of_end rfl,
    List.append_assoc]

section Turns

variable {tape : Tape} {trim : Bool} {reader : BodyReader} {endings : List String} {body : Body}
  (isStart : tape.current.kind = .blockStart trim)
include isStart

/-- A tag that opens a body is a statement of the body it stands in. -/
theorem run_nextNode_of_keyword (isWord : wordOf tape.advance.current = .name kind.keyword)
    (unreserved : ∀ name ∈ endings, name ∉ builtinTags) (waiting : Unreserved tape.enclosing) :
    let read := (builtin reader kind.keyword tape.current.span).run tape.advance.advance
    (nextNode .empty reader endings body).run tape = (.again (body.add read.1), read.2) := by
  have notOwn : ¬endings.contains kind.keyword = true := fun isOwn =>
    unreserved _ (List.contains_iff_mem.mp isOwn) kind.keyword_mem_builtinTags
  have notOuter : ¬tape.enclosing.tail.any (·.contains kind.keyword) = true := by
    intro isOuter
    obtain ⟨names, member, isName⟩ := List.any_eq_true.mp isOuter
    exact waiting names (List.mem_of_mem_tail member) _ (List.contains_iff_mem.mp isName)
      kind.keyword_mem_builtinTags
  rw [run_nextNode_at_tag isStart isWord, if_neg notOwn, if_neg notOuter, run_bind,
    run_statement_of_name isWord]
  rfl

/-- A closing tag outside all bodies is reported. -/
theorem reports_nextNode_of_ending [∀ endings, Steady (reader endings)]
    (isWord : wordOf tape.advance.current = .name kind.ending) (outside : tape.enclosing.tail = []) :
    Reports tape (nextNode .empty reader [] body) := by
  have isName : tape.advance.current.lexeme = kind.ending := congrArg Word.lexeme isWord
  have unknown : tape.advance.current.lexeme ∉ builtinTags := by
    rw [isName]
    exact BlockKind.not_builtin_of_mem_endings kind.ending_mem_endings
  have reports : Reports tape (statement .empty reader) :=
    reports_statement (congrArg Word.kind isWord) unknown
  rw [Reports, run_nextNode_at_tag isStart isWord, if_neg (by simp), outside, if_neg (by simp)]
  exact reports.bind

/-- A body that its closing tag follows at once. -/
theorem run_nestedBody_of_ending (isWord : wordOf tape.advance.current = .name kind.ending)
    (depth : Nat) :
    (nestedBody .empty (depth + 1) kind.endings).run tape = (([], some kind.ending), tape) := by
  let inside : Tape := { tape with enclosing := kind.endings :: tape.enclosing }
  have isWordInside : wordOf inside.advance.current = .name kind.ending := by
    rw [Tape.advance_surrounded tape]
    exact isWord
  have isStartInside : inside.current.kind = .blockStart trim := isStart
  have turn : (nextNode .empty (nestedBody .empty depth) kind.endings ⟨#[], none⟩).run inside = _ :=
    run_nextNode_at_tag isStartInside isWordInside
  rw [if_pos (List.contains_iff_mem.mpr kind.ending_mem_endings)] at turn
  rw [nestedBody, run_bodyAround, run_loop_of_settles (.done turn)]

end Turns

/-- What is known of a tape that holds an opening tag and its closing tag, and nothing else. -/
structure Paired.Alone (kind : BlockKind) (source closing : String) (tag ending : TagTokens)
    (last : Token) (depth : Nat) (tape : Tape) : Prop where
  isTag : tag.Of kind.keyword source
  isEnding : ending.Of kind.ending closing
  isEnd : last.kind = .endOfInput
  remaining : tape.remaining = tag.all ++ (ending.all ++ [last])
  outermost : tape.enclosing = [[]]
  quiet : ((loop (nextNode .empty (nestedBody .empty (depth + 1)) []) ⟨#[], none⟩).run
    tape).2.problems = tape.problems
  nodes : (parse .empty "" (source ++ closing)).template.body =
    ((loop (nextNode .empty (nestedBody .empty (depth + 1)) []) ⟨#[], none⟩).run
      tape).1.nodes.toList

theorem Paired.exists_alone (paired : Paired kind source closing) :
    ∃ tag ending last depth tape, Alone kind source closing tag ending last depth tape := by
  obtain ⟨tag, ending, last, isTag, isEnding, isEnd, isKept⟩ := paired.scan
  obtain ⟨tape, _, isRemaining, outermost, noReports, areNodes, areProblems⟩ :=
    parseTokens_of_kept isKept isEnd
  obtain ⟨depth, isDepth⟩ : ∃ depth, (tag.all ++ ending.all).length = depth + 1 :=
    ⟨_, List.length_cons⟩
  rw [isDepth] at areNodes areProblems
  rw [List.append_assoc] at isRemaining
  refine ⟨tag, ending, last, depth, tape, isTag, isEnding, isEnd, isRemaining, outermost, ?_,
    areNodes⟩
  have quietRead := (List.append_eq_nil_iff.mp paired.quiet).2
  rw [noReports]
  exact Array.toList_eq_nil_iff.mp (areProblems.symm.trans quietRead)

namespace Paired.Alone

variable {tag ending : TagTokens} {last : Token} {depth : Nat} {tape : Tape}

theorem waiting (alone : Alone kind source closing tag ending last depth tape) :
    Unreserved tape.enclosing := by
  rw [alone.outermost]
  decide

theorem inTag (alone : Alone kind source closing tag ending last depth tape) :
    tape.advance.advance.InTag tag.closing (ending.all ++ [last]) :=
  inTag_of_tag alone.isTag alone.remaining (List.append_ne_nil_of_right_ne_nil _ (by simp))

/-- The opening tag is the first turn of the loop, which reports nothing, and neither do the turns
behind it. -/
theorem turn (alone : Alone kind source closing tag ending last depth tape) :
    let turn := nextNode .empty (nestedBody .empty (depth + 1)) []
    let read := (builtin (nestedBody .empty (depth + 1)) kind.keyword tape.current.span).run
      tape.advance.advance
    (turn ⟨#[], none⟩).run tape = (.again (Body.add ⟨#[], none⟩ read.1), read.2) ∧
      read.2.problems = tape.problems ∧
        ((turns turn tape.following.length (Body.add ⟨#[], none⟩ read.1)).run read.2).2.problems =
          read.2.problems := by
  obtain ⟨trim, opens⟩ := alone.isTag.opens
  have isStart : tape.current.kind = .blockStart trim := by
    rw [Tape.current_of_remaining alone.remaining, opens]
  have isWord : wordOf tape.advance.current = .name kind.keyword := by
    rw [Tape.current_of_remaining (remaining_advance_of_tag alone.remaining), alone.isTag.named]
  have turn : (nextNode .empty (nestedBody .empty (depth + 1)) [] ⟨#[], none⟩).run tape = _ :=
    run_nextNode_of_keyword isStart isWord (by simp) alone.waiting
  have quiet := alone.quiet
  rw [loop, run_bind, run_get] at quiet
  obtain ⟨quietTurn, quietRest⟩ := quiet_of_turns quiet
  rw [turn] at quietTurn quietRest
  exact ⟨turn, quietTurn, quietRest _ rfl⟩

theorem quiet_head (alone : Alone kind source closing tag ending last depth tape) :
    (kind.head.run tape.advance.advance).2.problems = tape.problems := by
  by_contra reports
  rw [← Tape.problems_advance tape, ← Tape.problems_advance tape.advance] at reports
  have reportsTag : Reports tape.advance.advance
      (builtin (nestedBody .empty (depth + 1)) kind.keyword tape.current.span) :=
    reports_builtin_of_head reports
  apply reportsTag
  rw [alone.turn.2.1, Tape.problems_advance, Tape.problems_advance]

/-- A tag that its closing tag follows does not assign a value: the closing tag would be reported. -/
theorem exists_head (alone : Alone kind source closing tag ending last depth tape) :
    ∃ node here, kind.head.run tape.advance.advance = (some node, here) := by
  obtain ⟨_, _, quietRest⟩ := alone.turn
  rcases isHead : kind.head.run tape.advance.advance with ⟨head, here⟩
  cases head with
  | some node => exact ⟨node, here, rfl⟩
  | none =>
      exfalso
      have noHead : (kind.head.run tape.advance.advance).1 = none := by rw [isHead]
      have hasLeft : ((builtin (nestedBody .empty (depth + 1)) kind.keyword tape.current.span).run
          tape.advance.advance).2.HasLeft _ _ :=
        BlockKind.hasLeft_of_no_head alone.inTag noHead
      have steady : Steady (builtin (nestedBody .empty (depth + 1)) kind.keyword
        tape.current.span) := inferInstance
      have sameEnclosing := (steady.onward tape.advance.advance).enclosing
      rw [Tape.enclosing_advance, Tape.enclosing_advance, alone.outermost] at sameEnclosing
      generalize (builtin (nestedBody .empty (depth + 1)) kind.keyword tape.current.span).run
        tape.advance.advance = read at quietRest hasLeft sameEnclosing
      obtain ⟨trim, opens⟩ := alone.isEnding.opens
      have isStart : read.2.current.kind = .blockStart trim := by
        rw [Tape.current_of_remaining hasLeft.remaining, opens]
      have isWord : wordOf read.2.advance.current = .name kind.ending := by
        rw [Tape.current_of_remaining (remaining_advance_of_tag hasLeft.remaining),
          alone.isEnding.named]
      have outside : read.2.enclosing.tail = [] := by
        rw [sameEnclosing]
        rfl
      obtain ⟨most, isMost⟩ : ∃ most, tape.following.length = most + 1 :=
        ⟨_, congrArg List.length (List.cons.inj alone.remaining).2⟩
      rw [isMost] at quietRest
      exact reports_nextNode_of_ending isStart isWord outside (quiet_of_turns quietRest).1

/-- What the opening tag says is the whole statement, which the closing tag ends without a report. -/
theorem statement_eq (alone : Alone kind source closing tag ending last depth tape) {node : Node}
    {here : Tape} (isHead : kind.head.run tape.advance.advance = (some node, here)) :
    here.remaining = ending.all ++ [last] ∧ here.enclosing = tape.enclosing ∧
      here.problems = tape.problems ∧ (finishTag.run here).2.problems = tape.problems ∧
        SameNodes (parse .empty "" (source ++ closing)).template.body [node.withBody []] := by
  have hasLeft := BlockKind.hasLeft_of_head alone.inTag isHead
  have quietHead := alone.quiet_head
  have steady : Steady kind.head := inferInstance
  have sameEnclosing := (steady.onward tape.advance.advance).enclosing
  rw [isHead] at quietHead
  rw [isHead, Tape.enclosing_advance, Tape.enclosing_advance] at sameEnclosing
  obtain ⟨trim, opens⟩ := alone.isEnding.opens
  have isStart : here.current.kind = .blockStart trim := by
    rw [Tape.current_of_remaining hasLeft.remaining, opens]
  have isWord : wordOf here.advance.current = .name kind.ending := by
    rw [Tape.current_of_remaining (remaining_advance_of_tag hasLeft.remaining), alone.isEnding.named]
  have whole : ∃ result, (builtin (nestedBody .empty (depth + 1)) kind.keyword
      tape.current.span).run tape.advance.advance = (some result, _) ∧ _ :=
    run_builtin_of_head isHead (run_nestedBody_of_ending isStart isWord depth)
      (fun _ isEnding => (Option.mem_some.mp isEnding).symm)
  obtain ⟨result, isRun, sameNode⟩ := whole
  obtain ⟨turn, quietTurn, _⟩ := alone.turn
  rw [isRun] at turn quietTurn
  have left := hasLeft_finishTag (inTag_of_tag alone.isEnding hasLeft.remaining (by simp))
  have stops : (finishTag.run here).2.current.kind = .endOfInput := by
    rw [Tape.current_of_remaining left.remaining, alone.isEnd]
  have shorter : (finishTag.run here).2.following.length < tape.following.length := by
    have lengths := congrArg List.length alone.remaining
    have lengthsLeft := congrArg List.length left.remaining
    simp only [Tape.remaining, TagTokens.all, List.length_cons, List.length_append,
      List.length_nil] at lengths lengthsLeft
    omega
  have loops := run_loop_of_settles (.again turn shorter (.done (run_nextNode_of_end stops _)))
  refine ⟨hasLeft.remaining, sameEnclosing, quietHead, quietTurn, ?_⟩
  rw [alone.nodes, loops]
  exact congrArg (fun node => [node]) sameNode.symm

end Paired.Alone

/-- What an opening tag and its closing tag do wherever they stand: the one says the same, and
neither reports anything. -/
structure ReadsAnywhere (kind : BlockKind) (source closing : String) (node : Node) : Prop where
  head : ∀ {tag : TagTokens} {behind : List Token} {tape : Tape}, tag.Of kind.keyword source →
    tape.remaining = tag.all ++ behind → behind ≠ [] → Unreserved tape.enclosing →
      ∃ twin here, kind.head.run tape.advance.advance = (some twin, here) ∧ SameNode node twin ∧
        here.HasLeft tag.closing behind ∧ here.enclosing = tape.enclosing ∧
          here.problems = tape.problems
  finish : ∀ {ending : TagTokens} {behind : List Token} {tape : Tape},
    ending.Of kind.ending closing → tape.remaining = ending.all ++ behind → behind ≠ [] →
      Unreserved tape.enclosing → (finishTag.run tape).2.HasLeft ending.closing behind ∧
        (finishTag.run tape).2.enclosing = tape.enclosing ∧
          (finishTag.run tape).2.problems = tape.problems

theorem Paired.reads (paired : Paired kind source closing) :
    ∃ node, SameNodes (parse .empty "" (source ++ closing)).template.body [node.withBody []] ∧
      ReadsAnywhere kind source closing node := by
  obtain ⟨own, ownEnding, last, depth, alone, isAlone⟩ := paired.exists_alone
  obtain ⟨node, atEnding, isHead⟩ := isAlone.exists_head
  obtain ⟨remaining, sameEnclosing, quietHead, quietFinish, sameNodes⟩ := isAlone.statement_eq isHead
  refine ⟨node, sameNodes, fun {tag behind tape} isTag isRemaining more waiting => ?_,
    fun {ending behind tape} isEnding isRemaining more waiting => ?_⟩
  · have atTag := atTag_of_tags isAlone.isTag isTag isAlone.remaining isRemaining
      (List.append_ne_nil_of_right_ne_nil _ (by simp)) more isAlone.waiting waiting
    have beside := atTag.inside.pass (isInner_of_isName atTag.named)
    have quiet : (kind.head.run alone.advance.advance).2.problems =
        alone.advance.advance.problems := by
      rw [isAlone.quiet_head, Tape.problems_advance, Tape.problems_advance]
    have twins := (kind.follows_head beside).twin_of_quiet quiet
    rw [Twin, isHead] at twins
    rcases isTwin : kind.head.run tape.advance.advance with ⟨twin, here⟩
    rw [isTwin] at twins
    obtain ⟨sameHead, left⟩ := twins
    cases twin with
    | none => cases sameHead
    | some twin =>
        have steady : Steady kind.head := inferInstance
        have same := (steady.onward tape.advance.advance).enclosing
        rw [isTwin, Tape.enclosing_advance, Tape.enclosing_advance] at same
        exact ⟨twin, here, rfl, Option.some.inj sameHead,
          BlockKind.hasLeft_of_head (inTag_of_tag isTag isRemaining more) isTwin, same,
          (left rfl).quiet quietHead⟩
  · have waitingEnding : Unreserved atEnding.enclosing := by
      rw [sameEnclosing]
      exact isAlone.waiting
    have atTag := atTag_of_tags isAlone.isEnding isEnding remaining isRemaining
      (List.cons_ne_nil last []) more waitingEnding waiting
    have left := (follows_finishTag atTag).twin_of_quiet (quietFinish.trans quietHead.symm)
    have steady : Steady finishTag := inferInstance
    exact ⟨hasLeft_finishTag (inTag_of_tag isEnding isRemaining more),
      (steady.onward tape).enclosing, left.quiet (quietFinish.trans quietHead.symm)⟩

end Paired

end Stencil.Grammar
