import Stencil.Proofs.Grammar.Gathering
import Stencil.Proofs.Grammar.Lodging

/-!
Contract: statements and bodies are read one after another in the order of the text.

Owns:
- every statement of the language, and every tag of a host that needs no hook of its own, begins
  with its opening delimiter and holds parts that begin one after another;
- bodies of all depths.

Does not own: what is read inside a tag (`Stencil.Proofs.Grammar.Gathering`).
-/

set_option autoImplicit false

namespace Stencil.Grammar

open Stencil.Syntax
open Stencil.Text (Span)
open Stencil.Token (Kind)
open Read Statement

variable {tape : Tape} {start : Span} {row : List Part} {reader : BodyReader}

/-! ### Tags -/

/-- Whether the head is behind a row of parts since the opening delimiter of a tag, which has been
passed over. -/
abbrev Tape.Since (start : Span) (row : List Part) (tape : Tape) : Prop :=
  tape.Behind start.start.offset start.start.offset row

/-- Whether a reader of bodies reads statements one after another. -/
def GathersBody (reader : BodyReader) : Prop :=
  ∀ endings, Gathers (reader endings) fun result => result.1.map Part.node

theorem moves_openTag : Moves openTag :=
  moves_advance.bind fun _ => moves_advance.bind fun _ => moves_pure _

theorem moves_expectBlockEnd : Moves expectBlockEnd := moves_expectTagEnd _

theorem moves_finishTag : Moves finishTag :=
  moves_openTag.bind fun _ => (moves_peekAhead 1).bind fun _ => (moves_atKind _).bind fun _ =>
    .ite (moves_advance.bind fun _ => moves_expectBlockEnd) moves_expectBlockEnd

/-- A body that is never closed is reported late, at the opening delimiter of its tag. -/
theorem timely_missingEnd (tag ending : String) (since : tape.Since start row) :
    Timely tape (missingEnd tag ending start) fun _ final => final.Since start row :=
  timely_mistake since (.inl (.tail _ (.tail _ (.head _)))) since.inRow.forward

theorem timely_closedBody (gathers : GathersBody reader) (ending tag : String)
    (since : tape.Since start row) :
    Timely tape (closedBody reader ending tag start) fun nodes final =>
      final.Since start (row ++ nodes.map .node) := by
  refine ((gathers [ending]).on since).bind fun result here since => ?_
  have ends {action : Read Unit}
      (timely : Timely here action fun _ final => final.Since start (row ++ result.1.map .node)) :
      Timely here (do let _ ← action; return result.1) fun nodes final =>
        final.Since start (row ++ nodes.map .node) :=
    timely.bind fun _ _ since => .pure since.inOrder since
  refine .ite (fun _ => ?_) fun _ => ?_
  · exact ends (moves_finishTag.on since)
  · exact ends (timely_missingEnd tag ending since)

/-- A statement that begins with its tag and holds the row behind it. -/
theorem timely_finish {make : Span → Node} (since : tape.Since start row)
    (areInside : ∀ span, (Part.node (make span)).visited = row)
    (isSpan : ∀ span, (make span).span = span) :
    Timely tape (do return make (← spanFrom start)) fun node final =>
      final.Since start [.node node] := by
  refine (timely_spanFrom since (Nat.le_refl _)).bind fun span here passed => ?_
  obtain ⟨isStart, since⟩ := passed
  refine .pure since.inOrder (since.whole (areInside span) ?_ (Nat.le_refl _) (Nat.le_refl _))
  show (make span).span.start.offset = start.start.offset
  rw [isSpan, isStart]

/-- The statement of a tag that has a single body. -/
theorem timely_closed {make : List Node → Span → Node} (gathers : GathersBody reader)
    (ending tag : String) (since : tape.Since start row)
    (areInside : ∀ nodes span, (Part.node (make nodes span)).visited = row ++ nodes.map .node)
    (isSpan : ∀ nodes span, (make nodes span).span = span) :
    Timely tape (do
      expectBlockEnd
      let nodes ← closedBody reader ending tag start
      return make nodes (← spanFrom start)) fun node final => final.Since start [.node node] := by
  refine (moves_expectBlockEnd.on since).bind fun _ here since => ?_
  refine (timely_closedBody gathers ending tag since).bind fun nodes here since => ?_
  exact timely_finish since (areInside nodes) (isSpan nodes)

/-! ### Choices and loops -/

/-- The tests and the bodies of several branches. -/
def branchParts (branches : List Branch) : List Part :=
  branches.flatMap fun branch => .expr branch.test :: branch.body.map .node

/-- Whether the head is behind the branches of a choice, and the test of the next one. -/
structure AtBranch (start : Span) (choice : Choice) (tape : Tape) : Prop where
  since : tape.Since start (branchParts choice.branches ++ [.expr choice.test])
  otherwise : choice.otherwise = none

/-- Whether the head is behind a whole choice. -/
def BehindChoice (start : Span) (choice : Choice) (tape : Tape) : Prop :=
  tape.Since start (branchParts choice.branches ++ (choice.otherwise.getD []).map .node)

theorem timely_nextBranch (gathers : GathersBody reader) (choice : Choice) (tape : Tape)
    (atBranch : AtBranch start choice tape) :
    Timely tape (nextBranch reader start choice)
      (turnEnds (AtBranch start) (BehindChoice start)) := by
  obtain ⟨since, noOther⟩ := atBranch
  refine ((gathers _).on since).bind fun result here since => .seeing (run_spanFrom _ here) ?_
  obtain ⟨nodes, found⟩ := result
  have longer : here.Since start (branchParts (choice.branches ++
      [.mk choice.test nodes (choice.start.cover here.previousSpan)])) := by
    simpa [branchParts, Branch.test, Branch.body] using since
  have ends {action : Read Unit} (timely : Timely here action fun _ final =>
      final.Since start (branchParts (choice.branches ++
        [.mk choice.test nodes (choice.start.cover here.previousSpan)]))) :
      Timely here (do
        let _ ← action
        return Turn.done { choice with branches := choice.branches ++
          [.mk choice.test nodes (choice.start.cover here.previousSpan)] })
        (turnEnds (AtBranch start) (BehindChoice start)) := by
    refine timely.bind fun _ there since => .pure since.inOrder ?_
    show there.Since start (_ ++ _)
    rw [noOther]
    simpa using since
  split
  · refine (moves_openTag.on longer).bind fun branchStart here since => ?_
    refine (gathers_expression.on since).bind fun test here since => ?_
    exact (moves_expectBlockEnd.on since).bind fun _ here since =>
      .pure since.inOrder ⟨since, noOther⟩
  · refine (moves_finishTag.on longer).bind fun _ here since => ?_
    exact (timely_closedBody gathers "endif" "if" since).bind fun nodes here since =>
      .pure since.inOrder since
  · exact ends (moves_finishTag.on longer)
  · exact ends (timely_missingEnd "if" "endif" longer)

theorem timely_choose (gathers : GathersBody reader) (since : tape.Since start []) :
    Timely tape (choose reader start) fun node final => final.Since start [.node node] := by
  refine (gathers_expression.on since).bind fun test here since => ?_
  refine (moves_expectBlockEnd.on since).bind fun _ here since => ?_
  have atFirst : AtBranch start ⟨[], none, test, start⟩ here := ⟨since, rfl⟩
  have settled (choice : Choice) (here : Tape) (atBranch : AtBranch start choice here) :
      here.InOrder ∧ BehindChoice start choice here := by
    refine ⟨atBranch.since.inOrder, ?_⟩
    have noTest := atBranch.since.left
    rw [BehindChoice, atBranch.otherwise]
    simpa using noTest
  have choices := TimelyFrom.loop (timely_nextBranch gathers) settled atFirst
  refine choices.bind fun choice here read => ?_
  exact timely_finish read (fun _ => rfl) fun _ => rfl

theorem timely_loopOtherwise? (gathers : GathersBody reader) (found : Option String)
    (since : tape.Since start row) :
    Timely tape (loopOtherwise? reader found start) fun otherwise final =>
      final.Since start (row ++ (otherwise.getD []).map .node) := by
  have noOther (here : Tape) (since : here.Since start row) :
      here.Since start (row ++ ((none : Option (List Node)).getD []).map .node) := by
    simpa using since
  unfold loopOtherwise?
  split
  · refine (moves_finishTag.on since).bind fun _ here since => ?_
    exact .map (timely_closedBody gathers "endfor" "for" since)
  · exact (moves_finishTag.on since).bind fun _ here since =>
      .pure since.inOrder (noOther here since)
  · exact (timely_missingEnd "for" "endfor" since).bind fun _ here since =>
      .pure since.inOrder (noOther here since)

theorem timely_each (gathers : GathersBody reader) (since : tape.Since start []) :
    Timely tape (each reader start) fun node final => final.Since start [.node node] := by
  refine ((gathers_assignTarget "for").on since).bind fun target here since => ?_
  refine ((moves_expectWord "in").on since).bind fun _ here since => ?_
  refine (gathers_disjunction.on since).bind fun items here since => ?_
  refine (gathers_loopCondition?.on since).bind fun condition here since => ?_
  refine (moves_expectBlockEnd.on since).bind fun _ here since => ?_
  refine ((gathers ["else", "endfor"]).on since).bind fun result here since => ?_
  refine (timely_loopOtherwise? gathers result.2 since).bind fun otherwise here since => ?_
  refine timely_finish since (fun span => ?_) fun _ => rfl
  simp [Part.visited, Part.inner, Part.overlooked, Node.innerParts]

/-! ### Assignments and blocks -/

theorem timely_assign (gathers : GathersBody reader) (since : tape.Since start []) :
    Timely tape (assign reader start) fun node final => final.Since start [.node node] := by
  refine ((gathers_assignTarget "set").on since).bind fun target here since => ?_
  refine ((moves_takeSymbol _).on since).bind fun _ here since => .ite (fun _ => ?_) fun _ => ?_
  · refine (gathers_expressionList.on since).bind fun value here since => ?_
    refine (moves_expectBlockEnd.on since).bind fun _ here since => ?_
    exact timely_finish since (fun _ => rfl) fun _ => rfl
  · have further : Gathers (furtherFilters []) filterParts := extends_filterTurn.gathers rfl
    refine (further.on since).bind fun filters here since => ?_
    refine timely_closed gathers "endset" "set" since (fun nodes span => ?_) fun _ _ => rfl
    simp [Part.visited, Part.inner, Part.overlooked, Node.innerParts, filterParts]

theorem timely_block (gathers : GathersBody reader) (since : tape.Since start []) :
    Timely tape (block reader start) fun node final => final.Since start [.node node] := by
  refine ((moves_expectName _).on since).bind fun name here since => ?_
  refine (moves_blockWords.on since).bind fun _ here since => ?_
  exact timely_closed gathers "endblock" "block" since (fun _ _ => rfl) fun _ _ => rfl

/-! ### Other templates -/

theorem timely_inherit (since : tape.Since start []) :
    Timely tape (inherit start) fun node final => final.Since start [.node node] := by
  refine (gathers_expression.on since).bind fun template here since => ?_
  refine (moves_expectBlockEnd.on since).bind fun _ here since => ?_
  exact timely_finish since (fun _ => rfl) fun _ => rfl

theorem timely_embed (since : tape.Since start []) :
    Timely tape (embed start) fun node final => final.Since start [.node node] := by
  refine (gathers_expression.on since).bind fun template here since => ?_
  refine ((moves_loop moves_clauseTurn _).on since).bind fun clauses here since => ?_
  refine (moves_expectBlockEnd.on since).bind fun _ here since => ?_
  exact timely_finish since (fun _ => rfl) fun _ => rfl

theorem timely_importAs (since : tape.Since start []) :
    Timely tape (importAs start) fun node final => final.Since start [.node node] := by
  refine (gathers_expression.on since).bind fun template here since => ?_
  refine ((moves_expectWord "as").on since).bind fun _ here since => ?_
  refine ((moves_expectName _).on since).bind fun boundAs here since => ?_
  refine (moves_contextClause?.on since).bind fun context here since => ?_
  refine (moves_expectBlockEnd.on since).bind fun _ here since => ?_
  exact timely_finish since (fun _ => rfl) fun _ => rfl

theorem timely_importNames (since : tape.Since start []) :
    Timely tape (importNames start) fun node final => final.Since start [.node node] := by
  refine (gathers_expression.on since).bind fun template here since => ?_
  refine ((moves_expectWord "import").on since).bind fun _ here since => ?_
  refine ((moves_loop moves_importTurn _).on since).bind fun names here since => ?_
  have ends (here : Tape) (since : here.Since start [.expr template]) :
      Timely here (do
        let withContext := (← contextClause?).getD false
        expectBlockEnd
        return Node.importNames template names withContext (← spanFrom start)) fun node final =>
          final.Since start [.node node] := by
    refine (moves_contextClause?.on since).bind fun context here since => ?_
    refine (moves_expectBlockEnd.on since).bind fun _ here since => ?_
    exact timely_finish since (fun _ => rfl) fun _ => rfl
  refine .ite (fun _ => ?_) fun _ => ?_
  · exact ((moves_expected _).on since).bind fun _ here since => ends here since
  · exact ends here since

/-! ### Macros, bindings and filters -/

theorem timely_define (gathers : GathersBody reader) (since : tape.Since start []) :
    Timely tape (define reader start) fun node final => final.Since start [.node node] := by
  have ends (name : String) (params : List Param) (here : Tape)
      (since : here.Since start (defaultParts params)) :
      Timely here (do
        expectBlockEnd
        let nodes ← closedBody reader "endmacro" "macro" start
        return Node.define name params nodes (← spanFrom start)) fun node final =>
          final.Since start [.node node] :=
    timely_closed gathers "endmacro" "macro" since (fun _ _ => rfl) fun _ _ => rfl
  refine ((moves_expectName _).on since).bind fun name here since => ?_
  refine .seeing (run_atSymbol .leftParen here) (.ite (fun _ => ?_) fun _ => ?_)
  · exact (gathers_params.on since).bind fun params here since => ends _ params here since
  · exact ((moves_expected _).on since).bind fun _ here since => ends _ [] here since

/-- The walk leaves out the defaults of a call block's parameters, which come before the call. -/
theorem timely_callBlock (gathers : GathersBody reader) (since : tape.Since start []) :
    Timely tape (callBlock reader start) fun node final => final.Since start [.node node] := by
  refine (gathers_callerParams.on since).bind fun params here since => ?_
  refine (gathers_expression.on since).bind fun call here since => ?_
  refine timely_closed gathers "endcall" "call" since.right (fun nodes span => ?_) fun _ _ => rfl
  simp [Part.visited, Part.inner, Part.overlooked, Node.innerParts]

theorem timely_withBlock (gathers : GathersBody reader) (since : tape.Since start []) :
    Timely tape (withBlock reader start) fun node final => final.Since start [.node node] := by
  have bindings : Gathers (loop bindingTurn []) bindingParts := extends_bindingTurn.gathers rfl
  refine (bindings.on since).bind fun bindings here since => ?_
  exact timely_closed gathers "endwith" "with" since (fun _ _ => rfl) fun _ _ => rfl

theorem timely_filterBlock (gathers : GathersBody reader) (since : tape.Since start []) :
    Timely tape (filterBlock reader start) fun node final => final.Since start [.node node] := by
  refine (gathers_filter.on since).bind fun call here since => ?_
  have one : here.Since start (filterParts [call]) := by simpa [filterParts] using since
  refine (extends_filterTurn.loop one).bind fun filters here since => ?_
  exact timely_closed gathers "endfilter" "filter" since (fun _ _ => rfl) fun _ _ => rfl

theorem timely_verbatim (since : tape.Since start []) :
    Timely tape (verbatim start) fun node final => final.Since start [.node node] := by
  have closes (content : String) (here : Tape) {action : Read Unit}
      (timely : Timely here action fun _ final => final.Since start []) :
      Timely here (do
        let _ ← action
        return Node.verbatim content (← spanFrom start)) fun node final =>
          final.Since start [.node node] :=
    timely.bind fun _ there since => timely_finish since (fun _ => rfl) fun _ => rfl
  have ends (content : String) (here : Tape) (since : here.Since start []) :
      Timely here (verbatimEnd content start) fun node final =>
        final.Since start [.node node] := by
    refine .seeing (run_peek here) (.seeing (run_peekAhead 1 here) (.ite (fun _ => ?_) fun _ => ?_))
    · exact closes content here (moves_finishTag.on since)
    · exact closes content here (timely_missingEnd "raw" "endraw" since)
  refine (moves_expectBlockEnd.on since).bind fun _ here since => ?_
  refine .seeing (run_atKind .text here) (.ite (fun _ => ?_) fun _ => ends "" here since)
  refine .seeing (run_trimmedText here) ?_
  exact (moves_advance.on since).bind fun _ here since => ends _ here since

/-! ### Tags of a host -/

theorem timely_custom {extension : Extension} (generic : extension.IsGeneric)
    (gathers : GathersBody reader) (name : String) (since : tape.Since start []) :
    Timely tape (custom reader extension name start) fun made final =>
      final.Since start (made.toList.map .node) := by
  have args := (gathers_expressionsUntil []).on since
  rcases generic with rfl | ⟨ending, rfl⟩
  · rw [custom_inline]
    refine args.bind fun args here since => ?_
    refine (moves_expectBlockEnd.on since).bind fun _ here since => .map ?_
    refine timely_finish since (fun span => ?_) fun _ => rfl
    simp [Part.visited, Part.inner, Part.overlooked, Node.innerParts]
  · rw [custom_enclosing]
    refine args.bind fun args here since => ?_
    refine (moves_expectBlockEnd.on since).bind fun _ here since => .map ?_
    refine (timely_closedBody gathers ending name since).bind fun nodes here since => ?_
    exact timely_finish since (fun _ => rfl) fun _ => rfl

/-! ### Statements -/

/-- A statement of the language. A name that is none is reported at the opening delimiter, which is
why nothing may have been reported since. -/
theorem timely_builtin {origin : Tape} (gathers : GathersBody reader) (name : String)
    (course : origin.Course tape) (silent : tape.problems = origin.problems)
    (begins : start.start.offset = origin.here) (since : tape.Since start []) :
    TimelyFrom origin tape (builtin reader name start) fun made final =>
      final.Since start (made.toList.map .node) := by
  unfold builtin
  split
  · exact .after course (.map (timely_choose gathers since))
  · exact .after course (.map (timely_each gathers since))
  · exact .after course (.map (timely_assign gathers since))
  · exact .after course (.map (timely_block gathers since))
  · exact .after course (.map (timely_inherit since))
  · exact .after course (.map (timely_embed since))
  · exact .after course (.map (timely_importAs since))
  · exact .after course (.map (timely_importNames since))
  · exact .after course (.map (timely_define gathers since))
  · exact .after course (.map (timely_callBlock gathers since))
  · exact .after course (.map (timely_withBlock gathers since))
  · exact .after course (.map (timely_filterBlock gathers since))
  · exact .after course (.map (timely_verbatim since))
  · refine .seeing (run_spanFrom start tape) ?_
    have isStart : (start.cover tape.previousSpan).start.offset = origin.here :=
      (start_cover since.since).trans begins
    have isHigh : (start.cover tape.previousSpan).start.offset ≤ tape.here := by
      rw [isStart]
      exact course.here
    have reported (cause : Mistake) :
        TimelyFrom origin tape (mistake cause (start.cover tape.previousSpan)) fun _ final =>
          final.Since start [] := by
      have stays : origin.Course
          (tape.report (cause.toDiagnostic (start.cover tape.previousSpan))) :=
        course.report silent (.inr (Nat.le_of_eq isStart.symm)) isHigh
      exact ⟨stays, stays.inOrder, since.inRow, since.since⟩
    refine (reported _).bind fun _ here since => ?_
    exact (moves_skipTag.on since).bind fun _ here since => .pure since.inOrder since

/-- A statement does not begin before its opening delimiter. -/
theorem timely_statement {register : Register} (generic : register.IsGeneric)
    (gathers : GathersBody reader) (inOrder : tape.InOrder)
    (goesOn : tape.current.kind ≠ .endOfInput) :
    Timely tape (statement register reader) fun made final =>
      InRow tape.here final.here (made.toList.map .node) := by
  have passed := inOrder.advance
  have since : tape.advance.Since tape.current.span [] := inOrder.behind.pass goesOn
  refine .passing (.seeing (run_atKind .name _) (.ite (fun _ => .passing ?_) fun _ => ?_))
  · have silent : tape.advance.advance.problems = tape.problems := by
      rw [Tape.problems_advance, Tape.problems_advance]
    have course := passed.trans passed.inOrder.advance
    dsimp only
    split
    · rename_i extension isExtension
      have read := timely_custom (generic.of_extensionFor? isExtension) gathers
        tape.advance.current.lexeme since.advance
      exact .after course (read.weaken fun _ _ _ since => since.inRow)
    · have read := timely_builtin gathers tape.advance.current.lexeme course silent rfl since.advance
      exact read.weaken fun _ _ _ since => since.inRow
  · refine .after passed (((moves_expected "tag name").on since).bind fun _ here since => ?_)
    exact (moves_expectBlockEnd.on since).bind fun _ here since => .pure since.inOrder since.inRow

/-! ### Bodies -/

theorem gathers_text : Gathers text fun made => made.toList.map Part.node := by
  intro tape inOrder
  have passed := inOrder.advance
  refine .seeing (run_trimmedText tape) (.passing (.after passed (.pure passed.inOrder ?_)))
  split
  · exact .nil passed.here
  · exact .alone (Nat.le_refl _) passed.here rfl

theorem gathers_comment (trimBefore trimAfter : Bool) :
    Gathers (comment trimBefore trimAfter) fun node => [.node node] := by
  intro tape inOrder
  have passed := inOrder.advance
  exact .passing (.after passed (.pure passed.inOrder (.alone (Nat.le_refl _) passed.here rfl)))

theorem timely_output (inOrder : tape.InOrder) (goesOn : tape.current.kind ≠ .endOfInput) :
    Timely tape output fun node final => InRow tape.here final.here [.node node] := by
  have since : tape.advance.Since tape.current.span [] := inOrder.behind.pass goesOn
  refine .passing (.after inOrder.advance ?_)
  refine (gathers_expression.on since).bind fun value here since => ?_
  refine ((moves_expectTagEnd _).on since).bind fun _ here since => ?_
  exact (timely_finish since (fun _ => rfl) fun _ => rfl).weaken fun _ _ _ since => since.inRow

/-- The statements of a body so far. -/
def bodyParts (body : Body) : List Part := body.nodes.toList.map .node

/-- A body with one more statement, if there is one. -/
theorem timely_again {α : Type} {low since : Nat} {body : Body} {action : Read α}
    (made : α → Option Node) (behind : tape.Behind low since (bodyParts body))
    (timely : Timely tape action fun value final =>
      InRow tape.here final.here ((made value).toList.map .node)) :
    Timely tape (do return Turn.again (body.add (made (← action))))
      (EndsBehind low since bodyParts) := by
  have adds := timely.weaken fun _ _ course inRow => behind.append course inRow
  refine adds.bind fun value here behind => .pure behind.inOrder ?_
  simpa [EndsBehind, turnEnds, bodyParts, Body.add] using behind

theorem extends_nextNode {register : Register} (generic : register.IsGeneric)
    (gathers : GathersBody reader) (endings : List String) :
    Extends (nextNode register reader endings) bodyParts := by
  intro low since body tape behind
  have inOrder := behind.inOrder
  refine .seeing (run_peek tape) ?_
  split
  · exact .pure inOrder behind
  · exact timely_again id behind (gathers_text tape inOrder)
  · exact timely_again some behind (gathers_comment _ _ tape inOrder)
  · rename_i isStart
    have goesOn : tape.current.kind ≠ .endOfInput := fun isEnd =>
      Kind.noConfusion (isStart.symm.trans isEnd)
    exact timely_again some behind (timely_output inOrder goesOn)
  · rename_i isStart
    have goesOn : tape.current.kind ≠ .endOfInput := fun isEnd =>
      Kind.noConfusion (isStart.symm.trans isEnd)
    have read := timely_again id behind (timely_statement generic gathers inOrder goesOn)
    refine .seeing (run_peekAhead 1 tape) (.ite (fun _ => ?_) fun _ => read)
    refine .ite (fun _ => .pure inOrder behind) fun _ => ?_
    refine .seeing (run_closesEnclosing _ tape) ?_
    exact .ite (fun _ => .pure inOrder behind) fun _ => read
  · refine (timely_mistake behind (.inr (Nat.le_refl _)) (Nat.le_refl _)).bind
      fun _ here behind => ?_
    exact (moves_advance.on behind).bind fun _ here behind => .pure behind.inOrder behind

theorem gathers_within {α : Type} {action : Read α} {parts : α → List Part}
    (gathers : Gathers action parts) (endings : List String) :
    Gathers (within endings action) parts := by
  intro tape inOrder
  obtain ⟨⟨further, here, last, told⟩, inRow⟩ :=
    gathers { tape with enclosing := endings :: tape.enclosing } ⟨inOrder.starts, inOrder.ended⟩
  exact ⟨⟨⟨further.starts, further.ended⟩, here, last, told⟩, inRow⟩

theorem gathers_nestedBody {register : Register} (generic : register.IsGeneric) (depth : Nat) :
    GathersBody (nestedBody register depth) := by
  induction depth with
  | zero => exact fun _ _ inOrder => .pure inOrder inOrder.behind.inRow
  | succ fewer inductionHypothesis =>
      intro endings
      have turns : Gathers
          (loop (nextNode register (nestedBody register fewer) endings) ⟨#[], none⟩) bodyParts :=
        (extends_nextNode generic inductionHypothesis endings).gathers rfl
      refine .of_behind fun tape behind => ?_
      exact ((gathers_within turns endings).on behind).bind fun body here behind =>
        .pure behind.inOrder behind

theorem gathers_body {register : Register} (generic : register.IsGeneric) :
    GathersBody (body register) := fun endings tape inOrder =>
  .seeing (run_get tape) (gathers_nestedBody generic _ endings tape inOrder)

end Stencil.Grammar
