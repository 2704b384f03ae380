import Stencil.Proofs.Grammar.Lone
import Stencil.Proofs.Grammar.Segment

/-!
Contract: the tags of the language that open bodies, all of them in one way.

Owns:
- the kinds of such tags, their names and their closing tags;
- what such a tag says, as its statement without the body;
- the statement of such a tag, given what its body comes to and whether it is closed.

Does not own: where bodies end (`Stencil.Proofs.Grammar.Unclosed`).
-/

set_option autoImplicit false

-- The readers of tags are long chains of actions, each of which counts.
set_option synthInstance.maxSize 1024

namespace Stencil.Syntax

/-! ### Statements with other bodies -/

def Branch.withBody (body : List Node) : Branch → Branch
  | .mk test _ span => .mk test body span

/-- A statement with another body in the place of its own. -/
def Node.withBody (body : List Node) : Node → Node
  | .choose branches otherwise span =>
      .choose (branches.map (Branch.withBody body)) otherwise span
  | .each target items condition _ otherwise span =>
      .each target items condition body otherwise span
  | .capture target filters _ span => .capture target filters body span
  | .block name _ span => .block name body span
  | .define name params _ span => .define name params body span
  | .callBlock call params _ span => .callBlock call params body span
  | .withBlock bindings _ span => .withBlock bindings body span
  | .filterBlock filters _ span => .filterBlock filters body span
  | node => node

theorem Branch.withBody_withBody (body other : List Node) (branch : Branch) :
    (branch.withBody other).withBody body = branch.withBody body := by
  cases branch
  rfl

theorem Node.withBody_withBody (body other : List Node) (node : Node) :
    (node.withBody other).withBody body = node.withBody body := by
  cases node <;> simp [withBody, Branch.withBody_withBody]

theorem Branch.unplaced_withBody (body : List Node) (branch : Branch) :
    (branch.withBody body).unplaced = branch.unplaced.withBody (unplacedBody body) := by
  cases branch
  rfl

/-- Where a statement stands makes no difference to what its body is replaced by. -/
theorem Node.unplaced_withBody (body : List Node) (node : Node) :
    (node.withBody body).unplaced = node.unplaced.withBody (unplacedBody body) := by
  cases node <;> simp [withBody, unplaced, unplacedBranches_eq_map, Branch.unplaced_withBody]

end Stencil.Syntax

namespace Stencil.Grammar

open Stencil.Syntax
open Stencil.Text (Span)
open Stencil.Token (Kind Region)
open Read Statement

variable {α β : Type}

/-! ### Out of a tag -/

/-- Whether the head of a tape stands inside the tag with such an end, and with such tokens behind
it. -/
structure Tape.InTag (closing : Token) (behind : List Token) (tape : Tape) : Prop where
  remaining : ∃ inners, tape.remaining = inners ++ closing :: behind ∧
    ∀ token ∈ inners, token.kind.isInner = true
  closes : closing.kind.isTagEnd = true
  more : behind ≠ []

/-- Whether the head of a tape has just left the tag with such an end. -/
structure Tape.HasLeft (closing : Token) (behind : List Token) (tape : Tape) : Prop where
  remaining : tape.remaining = behind
  previous : tape.previous = some closing

/-- Whether an action that begins inside a tag leads out of it, whatever the tag holds. -/
def Exits (action : Read α) : Prop :=
  ∀ (closing : Token) (behind : List Token) (tape : Tape), tape.InTag closing behind →
    (action.run tape).2.HasLeft closing behind

namespace Tape.InTag

variable {closing : Token} {behind : List Token} {tape : Tape}

theorem inside {final : Tape} (inTag : tape.InTag closing behind) (inside : tape.Inside final) :
    final.InTag closing behind := by
  obtain ⟨inners, isRemaining, inner⟩ := inTag.remaining
  obtain ⟨fewer, isSuffix, isFinal⟩ := inside.remaining_of_end isRemaining inTag.closes
  exact ⟨⟨fewer, isFinal, fun token member => inner token (isSuffix.subset member)⟩, inTag.closes,
    inTag.more⟩

theorem hasLeft_advance (inTag : tape.InTag closing behind)
    (isRemaining : tape.remaining = closing :: behind) : tape.advance.HasLeft closing behind := by
  obtain ⟨next, rest, isRest⟩ := List.exists_cons_of_ne_nil inTag.more
  rw [isRest] at isRemaining ⊢
  rw [Tape.remaining_advance isRemaining]
  exact ⟨rfl, rfl⟩

end Tape.InTag

theorem exits_skipTag : Exits skipTag := by
  intro closing behind tape inTag
  obtain ⟨inners, isRemaining, inner⟩ := inTag.remaining
  obtain ⟨before, sought⟩ :=
    seek_resumes_of_inner tape.previous isRemaining inner inTag.closes inTag.more
  have isPlace : tape.skipTo resumes = ⟨before, closing, behind, tape.enclosing, tape.problems⟩ := by
    rw [Tape.skipTo, sought]
  have atEnd : (tape.skipTo resumes).InTag closing behind := by
    rw [isPlace]
    exact ⟨⟨[], rfl, fun _ impossible => by cases impossible⟩, inTag.closes, inTag.more⟩
  have isRun : (skipTag.run tape).2 = (tape.skipTo resumes).advance := by
    have closes : (tape.skipTo resumes).current.kind.isTagEnd = true := by
      rw [isPlace]
      exact inTag.closes
    simp only [skipTag, run_bind, run_modify, run_atTagEnd, closes, if_true]
    rfl
  rw [isRun]
  apply atEnd.hasLeft_advance
  rw [isPlace]
  rfl

theorem exits_expectTagEnd (what : Kind) : Exits (expectTagEnd what) := by
  intro closing behind tape inTag
  rw [expectTagEnd, run_bind, run_atTagEnd, run_ite]
  split
  · rename_i ends
    obtain ⟨inners, isRemaining, inner⟩ := inTag.remaining
    cases inners with
    | nil => exact inTag.hasLeft_advance isRemaining
    | cons token inners =>
        have notEnd := isTagEnd_of_isInner (inner token List.mem_cons_self)
        rw [Tape.current_of_remaining isRemaining, notEnd] at ends
        cases ends
  · exact exits_skipTag closing behind _ (inTag.inside (confined_expected _ tape))

theorem exits_expectBlockEnd : Exits expectBlockEnd := exits_expectTagEnd _

theorem exits_ended (value : α) : Exits (do expectBlockEnd; return value) := exits_expectBlockEnd

theorem Confined.exits {first : Read α} {next : α → Read β} (confined : Confined first)
    (rest : ∀ value, Exits (next value)) : Exits (first >>= next) :=
  fun closing behind tape inTag => rest _ closing behind _ (inTag.inside (confined tape))

theorem Exits.map {action : Read α} (exits : Exits action) (f : α → β) : Exits (f <$> action) := exits

theorem exits_chooseHead : Exits chooseHead := confined_expression.exits fun _ => exits_ended _

theorem exits_eachHead : Exits eachHead :=
  (confined_assignTarget _).exits fun _ => (confined_expectWord _).exits fun _ =>
    confined_disjunction.exits fun _ => confined_loopCondition?.exits fun _ => exits_ended _

theorem exits_blockHead : Exits blockHead :=
  (confined_expectName _).exits fun _ => (confined_loop confined_blockWordTurn _).exits fun _ =>
    exits_ended _

theorem exits_defineHead : Exits defineHead := by
  refine (confined_expectName _).exits fun name => fun closing behind tape inTag => ?_
  rw [run_bind, run_atSymbol, run_ite]
  split
  · rename_i isParen
    have opens : tape.current.kind.isInner = true := by
      rw [beq_iff_eq.mp isParen]
      rfl
    exact exits_ended _ closing behind _ (inTag.inside (inside_params opens))
  · exact (confined_expected _).exits (fun _ => exits_ended _) closing behind tape inTag

theorem exits_callHead : Exits callHead :=
  confined_callerParams.exits fun _ => confined_expression.exits fun _ => exits_ended _

theorem exits_withHead : Exits withHead :=
  (confined_loop confined_bindingTurn _).exits fun _ => exits_ended _

theorem exits_filterHead : Exits filterHead :=
  confined_filter.exits fun _ => (confined_furtherFilters _).exits fun _ => exits_ended _

/-- A closing tag, perhaps with a label, is passed over as a whole. -/
theorem hasLeft_finishTag {tape : Tape} {closing : Token} {behind : List Token}
    (inTag : tape.advance.advance.InTag closing behind) :
    (finishTag.run tape).2.HasLeft closing behind := by
  have guarded : Exits (do
      let next ← peekAhead 1
      if (← atKind .name) && next.kind.isTagEnd then
        let _ ← advance
      expectBlockEnd) := by
    refine (confined_peekAhead 1).exits fun next => fun closing behind tape inTag => ?_
    rw [run_bind, run_atKind, run_ite]
    split
    · rename_i isLabel
      rw [Bool.and_eq_true, beq_iff_eq] at isLabel
      have inner : tape.current.kind.isInner = true := by
        rw [isLabel.1]
        rfl
      exact exits_expectBlockEnd closing behind _ (inTag.inside (inside_advance inner))
    · exact exits_expectBlockEnd closing behind tape inTag
  exact guarded closing behind _ inTag

/-! ### Tags that open bodies -/

/-- What an assignment says before its body or its value: its target, and the filters of a body. -/
structure AssignHead where
  target : Target
  filters? : Option (List FilterCall)

def assignHead : Read AssignHead := do
  let target ← assignTarget "set"
  if ← takeSymbol .assign then return ⟨target, none⟩
  else
    let filters ← furtherFilters []
    expectBlockEnd
    return ⟨target, some filters⟩

instance : Steady assignHead := by
  unfold assignHead
  infer_instance

/-- An assignment of a value goes on inside the tag; one of a body has come to the end of it. -/
theorem assignHead_exits {tape : Tape} {closing : Token} {behind : List Token}
    (inTag : tape.InTag closing behind) :
    ((assignHead.run tape).1.filters? = none →
        (assignHead.run tape).2.InTag closing behind) ∧
      ((assignHead.run tape).1.filters?.isSome = true →
        (assignHead.run tape).2.HasLeft closing behind) := by
  have atTarget := inTag.inside (confined_assignTarget "set" tape)
  have atValue := atTarget.inside (confined_takeSymbol .assign _)
  rw [assignHead, run_bind, run_bind]
  by_cases isValue : ((takeSymbol .assign).run ((assignTarget "set").run tape).2).1 = true
  · rw [if_pos isValue]
    exact ⟨fun _ => atValue, fun isBody => absurd isBody Bool.false_ne_true⟩
  · rw [if_neg isValue]
    refine ⟨fun isNone => absurd isNone (Option.some_ne_none _), fun _ => ?_⟩
    exact (confined_furtherFilters _).exits (fun _ => exits_ended _) closing behind _ atValue

/-- What follows the head of an assignment. -/
def assignRest (reader : BodyReader) (start : Span) (head : AssignHead) : Read Node :=
  match head.filters? with
  | none => do
      let value ← expressionList
      expectBlockEnd
      return .assign head.target value (← spanFrom start)
  | some filters => do
      let nodes ← closedBody reader "endset" "set" start
      return .capture head.target filters nodes (← spanFrom start)

instance (reader : BodyReader) (start : Span) (head : AssignHead)
    [∀ endings, Steady (reader endings)] : Steady (assignRest reader start head) := by
  unfold assignRest
  split <;> infer_instance

theorem assign_eq (reader : BodyReader) (start : Span) :
    assign reader start = assignHead >>= assignRest reader start := by
  simp only [assign, assignHead, bind_assoc]
  refine bind_congr fun target => bind_congr fun taken => ?_
  split <;> simp only [bind_assoc, pure_bind, assignRest]

/-- The tags of the language that open bodies. -/
inductive BlockKind where
  | choose
  | each
  | capture
  | block
  | define
  | callBlock
  | withBlock
  | filterBlock
deriving DecidableEq, Repr

namespace BlockKind

/-- The name of the tag. -/
def keyword : BlockKind → String
  | .choose => "if"
  | .each => "for"
  | .capture => "set"
  | .block => "block"
  | .define => "macro"
  | .callBlock => "call"
  | .withBlock => "with"
  | .filterBlock => "filter"

/-- The name of the tag that closes the statement. -/
def ending : BlockKind → String
  | .choose => "endif"
  | .each => "endfor"
  | .capture => "endset"
  | .block => "endblock"
  | .define => "endmacro"
  | .callBlock => "endcall"
  | .withBlock => "endwith"
  | .filterBlock => "endfilter"

/-- The tags that the body behind the tag ends at. -/
def endings : BlockKind → List String
  | .choose => ["elif", "else", "endif"]
  | .each => ["else", "endfor"]
  | kind => [kind.ending]

/-- What the tag says, as its statement without the body. An assignment of a value opens no
body. -/
def head : BlockKind → Read (Option Node)
  | .choose => (fun test => some (.choose [.mk test [] default] none default)) <$> chooseHead
  | .each =>
      (fun head => some (.each head.target head.items head.condition [] none default)) <$> eachHead
  | .capture =>
      (fun head => head.filters?.map (.capture head.target · [] default)) <$> assignHead
  | .block => (fun name => some (.block name [] default)) <$> blockHead
  | .define => (fun head => some (.define head.name head.params [] default)) <$> defineHead
  | .callBlock => (fun head => some (.callBlock head.call head.params [] default)) <$> callHead
  | .withBlock => (fun bindings => some (.withBlock bindings [] default)) <$> withHead
  | .filterBlock => (fun filters => some (.filterBlock filters [] default)) <$> filterHead

instance (kind : BlockKind) : Steady kind.head := by
  cases kind <;> unfold head <;> infer_instance

/-- The tag and what belongs to it. -/
def statement (kind : BlockKind) (reader : BodyReader) (start : Span) : Read Node :=
  match kind with
  | .choose => Statement.choose reader start
  | .each => Statement.each reader start
  | .capture => assign reader start
  | .block => Statement.block reader start
  | .define => Statement.define reader start
  | .callBlock => Statement.callBlock reader start
  | .withBlock => Statement.withBlock reader start
  | .filterBlock => Statement.filterBlock reader start

theorem builtin_keyword (kind : BlockKind) (reader : BodyReader) (start : Span) :
    builtin reader kind.keyword start = some <$> kind.statement reader start := by
  cases kind <;> rfl

/-- What is done at the end of a body: its closing tag is passed over, or reported as missing. -/
def finish (kind : BlockKind) (found : Option String) (start : Span) : Read Unit :=
  if found.isSome then finishTag else missingEnd kind.keyword kind.ending start

theorem ending_mem_endings (kind : BlockKind) : kind.ending ∈ kind.endings := by
  cases kind <;> decide

theorem keyword_mem_builtinTags (kind : BlockKind) : kind.keyword ∈ builtinTags := by
  cases kind <;> decide

theorem not_builtin_of_mem_endings {kind : BlockKind} {name : String}
    (isEnding : name ∈ kind.endings) : name ∉ builtinTags := by
  revert name
  cases kind <;> decide

/-- The closing tag of one kind ends no body of another kind. -/
theorem ending_notMem_endings {kind other : BlockKind} (isOther : other ≠ kind) :
    kind.ending ∉ other.endings := by
  revert isOther
  cases kind <;> cases other <;> decide

end BlockKind

/-- A tag that opens a body has been left behind once it is read. -/
theorem BlockKind.hasLeft_of_head {kind : BlockKind} {tape here : Tape} {node : Node}
    {closing : Token} {behind : List Token} (inTag : tape.InTag closing behind)
    (isHead : kind.head.run tape = (some node, here)) : here.HasLeft closing behind := by
  have isHere : here = (kind.head.run tape).2 := by rw [isHead]
  rw [isHere]
  cases kind with
  | choose => exact exits_chooseHead.map _ closing behind tape inTag
  | each => exact exits_eachHead.map _ closing behind tape inTag
  | capture =>
      have isSome : (BlockKind.capture.head.run tape).1.isSome = true := by
        rw [isHead]
        rfl
      rw [BlockKind.head, run_map, Option.isSome_map] at isSome
      exact (assignHead_exits inTag).2 isSome
  | block => exact exits_blockHead.map _ closing behind tape inTag
  | define => exact exits_defineHead.map _ closing behind tape inTag
  | callBlock => exact exits_callHead.map _ closing behind tape inTag
  | withBlock => exact exits_withHead.map _ closing behind tape inTag
  | filterBlock => exact exits_filterHead.map _ closing behind tape inTag

/-- So has the tag of an assignment of a value, once its statement is read. -/
theorem BlockKind.hasLeft_of_no_head {kind : BlockKind} {tape : Tape} {closing : Token}
    {behind : List Token} {reader : BodyReader} {start : Span} (inTag : tape.InTag closing behind)
    (noHead : (kind.head.run tape).1 = none) :
    ((builtin reader kind.keyword start).run tape).2.HasLeft closing behind := by
  cases kind with
  | capture =>
      rw [BlockKind.head, run_map, Option.map_eq_none_iff] at noHead
      have atValue := (assignHead_exits inTag).1 noHead
      have exits : Exits (assignRest reader start (assignHead.run tape).1) := by
        rw [assignRest, noHead]
        exact confined_expressionList.exits fun _ => exits_expectBlockEnd
      rw [BlockKind.builtin_keyword, BlockKind.statement, assign_eq]
      exact exits closing behind _ atValue
  | choose | each | block | define | callBlock | withBlock | filterBlock =>
      rw [BlockKind.head, run_map] at noHead
      cases noHead

theorem SameNode.withBody {node twin : Node} {nodes twins : List Node} (same : SameNode node twin)
    (sameBody : SameNodes nodes twins) : SameNode (node.withBody nodes) (twin.withBody twins) := by
  rw [SameNode, Upto, Node.unplaced_withBody, Node.unplaced_withBody, same, sameBody.body]

section Bodies

variable {reader : BodyReader} {start : Span} {tape here there : Tape} {node : Node}
  {nodes : List Node} {found : Option String} {kind : BlockKind}

theorem run_of_map {f : β → Option Node} {action : Read β}
    (isHead : (f <$> action).run tape = (some node, here)) :
    ∃ value, action.run tape = (value, here) ∧ f value = some node := by
  rw [run_map] at isHead
  obtain ⟨isNode, isHere⟩ := Prod.ext_iff.mp isHead
  exact ⟨_, Prod.ext rfl isHere, isNode⟩

theorem run_closedBody_of_reads {ending : String} (tag : String)
    (reads : (reader [ending]).run here = ((nodes, found), there)) :
    (closedBody reader ending tag start).run here =
      (nodes, ((if found.isSome then finishTag else missingEnd tag ending start : Read Unit).run
        there).2) := by
  rw [closedBody, run_bind, reads]
  cases found <;> rfl

/-- A closed body is the last thing that most tags have. -/
theorem run_closedHead {ending tag : String} {action : Read β} {value : β}
    (isValue : action.run tape = (value, here))
    (reads : (reader [ending]).run here = ((nodes, found), there))
    (build : β → List Node → Span → Node) {final : Tape}
    (isFinal : final = ((if found.isSome then finishTag else missingEnd tag ending start :
      Read Unit).run there).2) :
    (some <$> (do
        let value ← action
        let nodes ← closedBody reader ending tag start
        return build value nodes (← spanFrom start))).run tape =
      (some (build value nodes (start.cover final.previousSpan)), final) := by
  have isBody : (closedBody reader ending tag start).run here = _ := run_closedBody_of_reads tag reads
  rw [← isFinal] at isBody
  rw [run_map, run_bind, isValue]
  dsimp only
  rw [run_bind, isBody]
  rfl

/-- What the last branch of a choice comes to. -/
theorem run_nextBranch_of_last {choice : Choice}
    (reads : (reader BlockKind.choose.endings).run here = ((nodes, found), there))
    (ends : ∀ name ∈ found, name = BlockKind.choose.ending) :
    (nextBranch reader start choice).run here =
      (.done { choice with
          branches := choice.branches ++
            [.mk choice.test nodes (choice.start.cover there.previousSpan)] },
        ((BlockKind.choose.finish found start).run there).2) := by
  rw [nextBranch, run_bind, show reader ["elif", "else", "endif"] = reader BlockKind.choose.endings
    from rfl, reads]
  cases found with
  | none => rfl
  | some name =>
      obtain rfl := ends name rfl
      rfl

theorem run_loopOtherwise?_of_last (ends : ∀ name ∈ found, name = BlockKind.each.ending) :
    (loopOtherwise? reader found start).run there =
      (none, ((BlockKind.each.finish found start).run there).2) := by
  cases found with
  | none => rfl
  | some name =>
      obtain rfl := ends name rfl
      rfl

/-- The statement of a tag that opens a body, given what it says and what its body comes to: the
body ends at the closing tag of the statement, or nothing closes the statement. -/
theorem run_builtin_of_head (isHead : kind.head.run tape = (some node, here))
    (reads : (reader kind.endings).run here = ((nodes, found), there))
    (ends : ∀ name ∈ found, name = kind.ending) :
    ∃ result, (builtin reader kind.keyword start).run tape =
        (some result, ((kind.finish found start).run there).2) ∧
      SameNode (node.withBody nodes) result := by
  let final := ((kind.finish found start).run there).2
  rw [BlockKind.builtin_keyword]
  -- The places of the statement and of a choice's branch make no difference.
  cases kind with
  | choose =>
      obtain ⟨test, isValue, isNode⟩ := run_of_map isHead
      cases isNode
      have last : (nextBranch reader start ⟨[], none, test, start⟩).run here = _ :=
        run_nextBranch_of_last reads ends
      refine ⟨.choose [.mk test nodes (start.cover there.previousSpan)] none
        (start.cover final.previousSpan), ?_, rfl⟩
      show (some <$> choose reader start).run tape = _
      rw [run_map, choose_eq, run_bind, isValue, run_bind, run_loop_of_settles (.done last)]
      rfl
  | each =>
      obtain ⟨head, isValue, isNode⟩ := run_of_map isHead
      cases isNode
      have last : (loopOtherwise? reader found start).run there = _ := run_loopOtherwise?_of_last ends
      refine ⟨.each head.target head.items head.condition nodes none
        (start.cover final.previousSpan), ?_, rfl⟩
      show (some <$> each reader start).run tape = _
      rw [run_map, each_eq, run_bind, isValue, run_bind,
        show reader ["else", "endfor"] = reader BlockKind.each.endings from rfl, reads]
      dsimp only
      rw [run_bind, last]
      rfl
  | capture =>
      obtain ⟨head, isValue, isNode⟩ := run_of_map isHead
      obtain ⟨filters, areFilters, rfl⟩ := Option.map_eq_some_iff.mp isNode
      refine ⟨.capture head.target filters nodes (start.cover final.previousSpan), ?_, rfl⟩
      show (some <$> assign reader start).run tape = _
      have isRest : (assignHead >>= assignRest reader start).run tape =
          (assignHead >>= fun head => do
            let nodes ← closedBody reader "endset" "set" start
            return Node.capture head.target filters nodes (← spanFrom start)).run tape := by
        rw [run_bind, run_bind, isValue, assignRest, areFilters]
      rw [run_map, assign_eq, isRest]
      exact run_closedHead isValue reads
        (fun head nodes span => .capture head.target filters nodes span) rfl
  | block =>
      obtain ⟨name, isValue, isNode⟩ := run_of_map isHead
      cases isNode
      refine ⟨.block name nodes (start.cover final.previousSpan), ?_, rfl⟩
      show (some <$> block reader start).run tape = _
      rw [block_eq]
      exact run_closedHead isValue reads (fun name nodes span => .block name nodes span) rfl
  | define =>
      obtain ⟨head, isValue, isNode⟩ := run_of_map isHead
      cases isNode
      refine ⟨.define head.name head.params nodes (start.cover final.previousSpan), ?_, rfl⟩
      show (some <$> define reader start).run tape = _
      rw [define_eq]
      exact run_closedHead isValue reads
        (fun head nodes span => .define head.name head.params nodes span) rfl
  | callBlock =>
      obtain ⟨head, isValue, isNode⟩ := run_of_map isHead
      cases isNode
      refine ⟨.callBlock head.call head.params nodes (start.cover final.previousSpan), ?_, rfl⟩
      show (some <$> callBlock reader start).run tape = _
      rw [callBlock_eq]
      exact run_closedHead isValue reads
        (fun head nodes span => .callBlock head.call head.params nodes span) rfl
  | withBlock =>
      obtain ⟨bindings, isValue, isNode⟩ := run_of_map isHead
      cases isNode
      refine ⟨.withBlock bindings nodes (start.cover final.previousSpan), ?_, rfl⟩
      show (some <$> withBlock reader start).run tape = _
      rw [withBlock_eq]
      exact run_closedHead isValue reads
        (fun bindings nodes span => .withBlock bindings nodes span) rfl
  | filterBlock =>
      obtain ⟨filters, isValue, isNode⟩ := run_of_map isHead
      cases isNode
      refine ⟨.filterBlock filters nodes (start.cover final.previousSpan), ?_, rfl⟩
      show (some <$> filterBlock reader start).run tape = _
      rw [filterBlock_eq]
      exact run_closedHead isValue reads
        (fun filters nodes span => .filterBlock filters nodes span) rfl

theorem reports_of_map {f : β → α} {action : Read β} (reports : Reports tape (f <$> action)) :
    Reports tape action := reports

/-- What is reported in a tag is reported by its statement. -/
theorem reports_builtin_of_head [∀ endings, Steady (reader endings)]
    (reports : Reports tape kind.head) : Reports tape (builtin reader kind.keyword start) := by
  rw [BlockKind.builtin_keyword]
  show Reports tape (kind.statement reader start)
  cases kind with
  | choose =>
      rw [BlockKind.statement, choose_eq]
      have reportsHead : Reports tape chooseHead := reports_of_map reports
      exact reportsHead.bind
  | each =>
      rw [BlockKind.statement, each_eq]
      have reportsHead : Reports tape eachHead := reports_of_map reports
      exact reportsHead.bind
  | capture =>
      rw [BlockKind.statement, assign_eq]
      have reportsHead : Reports tape assignHead := reports_of_map reports
      exact reportsHead.bind
  | block =>
      rw [BlockKind.statement, block_eq]
      have reportsHead : Reports tape blockHead := reports_of_map reports
      exact reportsHead.bind
  | define =>
      rw [BlockKind.statement, define_eq]
      have reportsHead : Reports tape defineHead := reports_of_map reports
      exact reportsHead.bind
  | callBlock =>
      rw [BlockKind.statement, callBlock_eq]
      have reportsHead : Reports tape callHead := reports_of_map reports
      exact reportsHead.bind
  | withBlock =>
      rw [BlockKind.statement, withBlock_eq]
      have reportsHead : Reports tape withHead := reports_of_map reports
      exact reportsHead.bind
  | filterBlock =>
      rw [BlockKind.statement, filterBlock_eq]
      have reportsHead : Reports tape filterHead := reports_of_map reports
      exact reportsHead.bind

end Bodies

/-! ### The same tag twice -/

section Twice

variable {lane : Lane} {bound : Nat} {tape other : Tape}

structure AssignHead.Same (head twin : AssignHead) : Prop where
  target : Upto Target.unplaced head.target twin.target
  filters : Upto (Option.map (List.map FilterCall.unplaced)) head.filters? twin.filters?

theorem follows_assignHead (beside : lane.Beside bound tape other) :
    Follows tape other assignHead assignHead fun head twin here there =>
      head.Same twin ∧ (head.filters?.isSome = true → lane.Outside bound here there) := by
  refine (follows_assignTarget "set" beside).bind fun target twinTarget _ _ ended => ?_
  obtain ⟨sameTarget, beside⟩ := ended
  refine (Follows.of_twin ((likewise_takeSymbol _).on beside)).bind fun taken _ _ _ ended => ?_
  obtain ⟨sameTaken, beside⟩ := ended
  rw [sameTaken]
  refine .ite Iff.rfl (fun _ => ?_) fun _ => ?_
  · exact .pure ⟨⟨sameTarget, rfl⟩, fun isBody => absurd isBody Bool.false_ne_true⟩
  · refine (Follows.of_twin ((likewise_furtherFilters rfl).on beside)).bind fun _ _ _ _ ended => ?_
    refine (follows_expectBlockEnd ended.2).bind fun _ _ _ _ left => ?_
    exact .pure ⟨⟨sameTarget, congrArg some ended.1⟩, fun _ => left⟩

/-- What is known of two readings of the same tag. -/
def Lane.headsEnd (lane : Lane) (bound : Nat) (node twin : Option Node) (here there : Tape) : Prop :=
  Upto (Option.map Node.unplaced) node twin ∧ (node.isSome = true → lane.Outside bound here there)

/-- What a tag says depends on nothing but its words. -/
theorem BlockKind.follows_head (kind : BlockKind) (beside : lane.Beside bound tape other) :
    Follows tape other kind.head kind.head (lane.headsEnd bound) := by
  cases kind with
  | choose =>
      refine .map ((follows_chooseHead beside).weaken fun test twin _ _ ended => ?_)
      refine ⟨?_, fun _ => ended.2⟩
      exact congrArg (fun test => some (Node.choose [.mk test [] default] none default)) ended.1
  | each =>
      refine .map ((follows_eachHead beside).weaken fun head twin _ _ ended => ⟨?_, fun _ => ended.2⟩)
      obtain ⟨sameTarget, sameItems, sameCondition⟩ := ended.1
      rw [Upto, Option.map_some, Option.map_some, Node.unplaced, Node.unplaced, sameTarget, sameItems,
        sameCondition]
  | capture =>
      refine .map ((follows_assignHead beside).weaken
        fun head twin _ _ ended => ⟨?_, fun isBody => ?_⟩)
      · have built (head : AssignHead) :
            (head.filters?.map (.capture head.target · [] default)).map Node.unplaced =
              (head.filters?.map (List.map FilterCall.unplaced)).map
                (.capture head.target.unplaced · [] default) := by
          rw [Option.map_map, Option.map_map]
          rfl
        obtain ⟨sameTarget, sameFilters⟩ := ended.1
        rw [Upto, built, built, sameTarget, sameFilters]
      · exact ended.2 (by simpa using isBody)
  | block =>
      refine .map ((follows_blockHead beside).weaken fun name _ _ _ ended => ⟨?_, fun _ => ended.2⟩)
      rw [ended.1]
      rfl
  | define =>
      refine .map ((follows_defineHead beside).weaken
        fun head twin _ _ ended => ⟨?_, fun _ => ended.2⟩)
      obtain ⟨sameName, sameParams⟩ := ended.1
      rw [Upto, Option.map_some, Option.map_some, Node.unplaced, Node.unplaced, sameName, sameParams]
  | callBlock =>
      refine .map ((follows_callHead beside).weaken fun head twin _ _ ended => ⟨?_, fun _ => ended.2⟩)
      obtain ⟨sameParams, sameCall⟩ := ended.1
      rw [Upto, Option.map_some, Option.map_some, Node.unplaced, Node.unplaced, sameParams, sameCall]
  | withBlock =>
      refine .map ((follows_withHead beside).weaken
        fun bindings twin _ _ ended => ⟨?_, fun _ => ended.2⟩)
      exact congrArg (fun bindings => some (Node.withBlock bindings [] default)) ended.1
  | filterBlock =>
      refine .map ((follows_filterHead beside).weaken
        fun filters twin _ _ ended => ⟨?_, fun _ => ended.2⟩)
      exact congrArg (fun filters => some (Node.filterBlock filters [] default)) ended.1

end Twice

end Stencil.Grammar
