import Stencil.Proofs.Grammar.Lockstep
import Stencil.Proofs.Report.Course
import Stencil.Proofs.Syntax.Succession

/-!
Contract: actions that report, and read parts of trees, in the order of the text.

Owns:
- tapes whose tokens begin one after another, and where the tokens around the head begin;
- the way from a tape to a later one, on which reports are made in order;
- tapes behind a row of parts, and actions that add to the row what they read;
- looking at tokens, passing over them and demanding them, and loops.

Does not own: the readers of the grammar (`Stencil.Proofs.Grammar.Gathering`).
-/

set_option autoImplicit false

namespace Stencil.Grammar

open Stencil.Report (Diagnostic InCourse)
open Stencil.Syntax (Part InRow)
open Stencil.Text (Span)
open Stencil.Token (Kind Symbol)
open Read

theorem start_cover {span other : Span} (isFirst : span.start.offset ≤ other.start.offset) :
    (span.cover other).start.offset = span.start.offset := by
  unfold Span.cover
  dsimp only
  rw [if_neg (Nat.not_lt.mpr isFirst)]

/-! ### Tapes and ways -/

namespace Tape

/-- Where the token under the head begins. -/
def here (tape : Tape) : Nat := tape.current.span.start.offset

/-- Where the token passed over last begins. -/
def last (tape : Tape) : Nat := tape.previousSpan.start.offset

/-- Whether tokens begin one after another, the one passed over last as well, up to the end of the
input. -/
structure InOrder (tape : Tape) : Prop where
  starts : (tape.previous.toList ++ tape.remaining).Pairwise fun first second =>
    first.span.start.offset ≤ second.span.start.offset
  ended : ∃ before closing, tape.remaining = before ++ [closing] ∧ closing.kind = .endOfInput

/-- Whether the second tape is further on than the first one, and what has been reported on the way
is in order. -/
structure Course (tape final : Tape) : Prop where
  inOrder : final.InOrder
  here : tape.here ≤ final.here
  last : tape.last ≤ final.last
  told : ∃ more, final.problems.toList = tape.problems.toList ++ more ∧
    InCourse tape.here final.here more

variable {tape middle final : Tape}

theorem InOrder.last_le (inOrder : tape.InOrder) : tape.last ≤ tape.here := by
  obtain ⟨previous, current, following, enclosing, problems⟩ := tape
  cases previous with
  | none => exact Nat.le_refl _
  | some token => exact List.rel_of_pairwise_cons inOrder.starts List.mem_cons_self

/-- Another token follows one that is not the end of the input. -/
theorem InOrder.follows (inOrder : tape.InOrder) (goesOn : tape.current.kind ≠ .endOfInput) :
    ∃ next rest, tape.following = next :: rest := by
  obtain ⟨previous, current, following, enclosing, problems⟩ := tape
  cases following with
  | nil =>
      obtain ⟨before, closing, isRemaining, isEnd⟩ := inOrder.ended
      cases before with
      | nil =>
          obtain rfl : current = closing := (List.cons.inj isRemaining).1
          exact absurd isEnd goesOn
      | cons token before =>
          have noMore := (List.cons.inj isRemaining).2
          simp at noMore
  | cons next rest => exact ⟨next, rest, rfl⟩

namespace Course

theorem refl (inOrder : tape.InOrder) : tape.Course tape :=
  ⟨inOrder, Nat.le_refl _, Nat.le_refl _, [], (List.append_nil _).symm, .none (Nat.le_refl _)⟩

theorem trans (first : tape.Course middle) (second : middle.Course final) : tape.Course final := by
  obtain ⟨-, here, last, more, isMore, inCourse⟩ := first
  obtain ⟨inOrder, furtherHere, furtherLast, others, areOthers, othersInCourse⟩ := second
  refine ⟨inOrder, Nat.le_trans here furtherHere, Nat.le_trans last furtherLast, more ++ others, ?_,
    inCourse.append othersInCourse⟩
  rw [areOthers, isMore, List.append_assoc]

/-- A report about what has been read since, where nothing has been reported since. -/
theorem report (course : tape.Course final) (silent : final.problems = tape.problems)
    {diagnostic : Diagnostic} (isLow : diagnostic.IsLate ∨ tape.here ≤ diagnostic.span.start.offset)
    (isHigh : diagnostic.span.start.offset ≤ final.here) :
    tape.Course (final.report diagnostic) := by
  refine ⟨⟨course.inOrder.starts, course.inOrder.ended⟩, course.here, course.last, [diagnostic], ?_,
    .one course.here isLow isHigh⟩
  rw [Tape.report, Array.toList_push, silent]

end Course

theorem InOrder.advance (inOrder : tape.InOrder) : tape.Course tape.advance := by
  obtain ⟨previous, current, following, enclosing, problems⟩ := tape
  cases following with
  | nil => exact .refl inOrder
  | cons next rest =>
      obtain ⟨starts, before, closing, isRemaining, isEnd⟩ := inOrder
      have fromCurrent := starts.sublist (List.sublist_append_right _ _)
      have forward : current.span.start.offset ≤ next.span.start.offset :=
        List.rel_of_pairwise_cons fromCurrent List.mem_cons_self
      refine ⟨⟨fromCurrent, ?_⟩, forward, ?_, [], (List.append_nil _).symm, .none forward⟩
      · cases before with
        | nil => cases (List.cons.inj isRemaining).2
        | cons token before => exact ⟨before, closing, (List.cons.inj isRemaining).2, isEnd⟩
      · cases previous with
        | none => exact Nat.le_refl _
        | some token => exact List.rel_of_pairwise_cons starts List.mem_cons_self

theorem InOrder.last_advance (inOrder : tape.InOrder) (goesOn : tape.current.kind ≠ .endOfInput) :
    tape.advance.last = tape.here := by
  obtain ⟨next, rest, isNext⟩ := inOrder.follows goesOn
  rw [Tape.last, Tape.here, Tape.previousSpan, Tape.advance, isNext]

theorem InOrder.skipTo (inOrder : tape.InOrder) (stop : Kind → Bool) :
    tape.Course (tape.skipTo stop) := by
  obtain ⟨previous, current, following, enclosing, problems⟩ := tape
  induction following generalizing previous current with
  | nil => exact .refl inOrder
  | cons next rest inductionHypothesis =>
      rw [Tape.skipTo, seek]
      split
      · exact .refl inOrder
      · have passed := inOrder.advance
        exact passed.trans (inductionHypothesis (some current) next passed.inOrder)

end Tape

/-! ### Actions -/

variable {α β : Type} {tape : Tape}

/-- Whether an action, done behind an earlier tape, leads on a way in order from that tape to where
the condition holds. -/
structure TimelyFrom (origin tape : Tape) (action : Read α) (ends : α → Tape → Prop) : Prop where
  course : origin.Course (action.run tape).2
  arrives : ends (action.run tape).1 (action.run tape).2

/-- Whether an action leads on a way in order to where the condition holds. -/
abbrev Timely (tape : Tape) (action : Read α) (ends : α → Tape → Prop) : Prop :=
  TimelyFrom tape tape action ends

namespace TimelyFrom

variable {origin : Tape} {action : Read α} {middle : α → Tape → Prop} {ends : β → Tape → Prop}

theorem bind {next : α → Read β} (first : TimelyFrom origin tape action middle)
    (rest : ∀ value here, middle value here → Timely here (next value) ends) :
    TimelyFrom origin tape (action >>= next) ends := by
  have second := rest _ _ first.arrives
  exact ⟨first.course.trans second.course, second.arrives⟩

/-- What comes after an action that only looks at the tape. -/
theorem seeing {next : α → Read β} {value : α} (looks : action.run tape = (value, tape))
    (rest : TimelyFrom origin tape (next value) ends) :
    TimelyFrom origin tape (action >>= next) ends := by
  obtain ⟨course, arrives⟩ := rest
  refine ⟨?_, ?_⟩ <;> rw [run_bind, looks]
  · exact course
  · exact arrives

/-- What comes after passing over a token. -/
theorem passing {next : Token → Read β}
    (rest : TimelyFrom origin tape.advance (next tape.current) ends) :
    TimelyFrom origin tape (advance >>= next) ends :=
  ⟨rest.course, rest.arrives⟩

theorem weaken {weaker : α → Tape → Prop} (timely : TimelyFrom origin tape action middle)
    (weakens : ∀ value final, origin.Course final → middle value final → weaker value final) :
    TimelyFrom origin tape action weaker :=
  ⟨timely.course, weakens _ _ timely.course timely.arrives⟩

theorem map {f : α → β} (timely : TimelyFrom origin tape action fun value => ends (f value)) :
    TimelyFrom origin tape (f <$> action) ends :=
  ⟨timely.course, timely.arrives⟩

theorem ite {condition : Prop} {_ : Decidable condition} {yes no : Read α}
    (left : condition → TimelyFrom origin tape yes middle)
    (right : ¬condition → TimelyFrom origin tape no middle) :
    TimelyFrom origin tape (if condition then yes else no) middle := by
  by_cases holds : condition
  · rw [if_pos holds]
    exact left holds
  · rw [if_neg holds]
    exact right holds

/-- The way to an action, and then the action. -/
theorem after (course : origin.Course tape) (timely : Timely tape action middle) :
    TimelyFrom origin tape action middle :=
  ⟨course.trans timely.course, timely.arrives⟩

theorem pure {value : α} (inOrder : tape.InOrder) (holds : middle value tape) :
    Timely tape (Pure.pure value) middle :=
  ⟨.refl inOrder, holds⟩

section Loops

variable {turn : α → Read (Turn α)} {again done : α → Tape → Prop}
  (each : ∀ value here, again value here → Timely here (turn value) (turnEnds again done))
  (settled : ∀ value here, again value here → here.InOrder ∧ done value here)
include each settled

/-- Turns that keep a condition, and what follows from it when the last one is over. -/
theorem turns (limit : Nat) {value : α} (holds : again value tape) :
    Timely tape (Read.turns turn limit value) done := by
  induction limit generalizing value tape with
  | zero =>
      obtain ⟨inOrder, isDone⟩ := settled value tape holds
      exact .pure inOrder isDone
  | succ fewer inductionHypothesis =>
      have first := (each value tape holds).weaken fun _ _ course ended =>
        And.intro course.inOrder ended
      refine first.bind fun result there ended => ?_
      cases result with
      | again next => exact inductionHypothesis ended.2
      | done result => exact .pure ended.1 ended.2

/-- A loop, the first turn of which may lead to a condition that the others keep. -/
theorem loopFrom {value : α} (first : Timely tape (turn value) (turnEnds again done)) :
    Timely tape (Read.loop turn value) done := by
  have ended := first.weaken fun _ _ course ended => And.intro course.inOrder ended
  refine .seeing (run_get tape) (ended.bind fun result there ended => ?_)
  cases result with
  | again next => exact turns each settled _ ended.2
  | done result => exact .pure ended.1 ended.2

theorem loop {value : α} (holds : again value tape) : Timely tape (Read.loop turn value) done :=
  loopFrom each settled (each value tape holds)

end Loops

end TimelyFrom

/-! ### Tapes behind a row -/

/-- Whether the head is behind a row of parts, and the token passed over last begins no earlier than
at an offset. -/
structure Tape.Behind (low since : Nat) (row : List Part) (tape : Tape) : Prop where
  inOrder : tape.InOrder
  inRow : InRow low tape.here row
  since : since ≤ tape.last

namespace Tape

variable {low since : Nat} {row : List Part} {final : Tape}

theorem InOrder.behind (inOrder : tape.InOrder) : tape.Behind tape.here tape.last [] :=
  ⟨inOrder, .nil (Nat.le_refl _), Nat.le_refl _⟩

namespace Behind

theorem course (behind : tape.Behind low since row) (course : tape.Course final) :
    final.Behind low since row :=
  ⟨course.inOrder, behind.inRow.widen (Nat.le_refl _) course.here,
    Nat.le_trans behind.since course.last⟩

theorem advance (behind : tape.Behind low since row) : tape.advance.Behind low since row :=
  behind.course behind.inOrder.advance

/-- A token that is passed over begins where it stood under the head. -/
theorem pass (behind : tape.Behind low since row) (goesOn : tape.current.kind ≠ .endOfInput) :
    tape.advance.Behind low tape.here row := by
  obtain ⟨inOrder, inRow, -⟩ := behind.advance
  exact ⟨inOrder, inRow, Nat.le_of_eq (behind.inOrder.last_advance goesOn).symm⟩

/-- More parts behind the row. -/
theorem append {others : List Part} (behind : tape.Behind low since row)
    (course : tape.Course final) (inRow : InRow tape.here final.here others) :
    final.Behind low since (row ++ others) :=
  ⟨course.inOrder, behind.inRow.append inRow, Nat.le_trans behind.since course.last⟩

theorem lower {before : Nat} (behind : tape.Behind low since row) (isBefore : before ≤ since) :
    tape.Behind low before row :=
  ⟨behind.inOrder, behind.inRow, Nat.le_trans isBefore behind.since⟩

/-- The first parts of the row. -/
theorem left {others : List Part} (behind : tape.Behind low since (row ++ others)) :
    tape.Behind low since row :=
  ⟨behind.inOrder, behind.inRow.left, behind.since⟩

/-- The last parts of the row. -/
theorem right {others : List Part} (behind : tape.Behind low since (row ++ others)) :
    tape.Behind low since others :=
  ⟨behind.inOrder, behind.inRow.right, behind.since⟩

/-- The token passed over last begins no later than the one under the head. -/
theorem since_le (behind : tape.Behind low since row) : since ≤ tape.here :=
  Nat.le_trans behind.since behind.inOrder.last_le

/-- A whole that begins where the first part of the row does. -/
theorem headed {first part : Part} {others : List Part}
    (behind : tape.Behind low since (first :: others)) (areInside : part.visited = first :: others)
    (begins : part.start = first.start) : tape.Behind low since [part] :=
  ⟨behind.inOrder, behind.inRow.headed areInside begins, behind.since⟩

/-- A whole that begins where the row may begin at the earliest. -/
theorem whole {part : Part} {start before : Nat} (behind : tape.Behind start since row)
    (areInside : part.visited = row) (begins : part.start = start) (isLow : low ≤ start)
    (isBefore : before ≤ since) : tape.Behind low before [part] := by
  refine ⟨behind.inOrder, .whole ?_ ?_, Nat.le_trans isBefore behind.since⟩
  · rw [begins]
    exact isLow
  · rw [begins, areInside]
    exact behind.inRow

theorem fromFirst {first : Part} {others : List Part}
    (behind : tape.Behind low since (first :: others)) :
    tape.Behind first.start since (first :: others) :=
  ⟨behind.inOrder, behind.inRow.fromFirst, behind.since⟩

end Behind

end Tape

/-! ### Actions that move on -/

/-- Whether an action moves on and reports in order. -/
def Moves (action : Read α) : Prop := ∀ tape : Tape, tape.InOrder → tape.Course (action.run tape).2

section Moving

variable {low since : Nat} {row : List Part}

theorem moves_of_looks {action : Read α} (looks : ∀ tape, (action.run tape).2 = tape) :
    Moves action :=
  fun tape inOrder => (looks tape).symm ▸ .refl inOrder

theorem moves_pure (value : α) : Moves (pure value : Read α) := moves_of_looks fun _ => rfl

theorem Moves.bind {first : Read α} {next : α → Read β} (here : Moves first)
    (rest : ∀ value, Moves (next value)) : Moves (first >>= next) := by
  intro tape inOrder
  have course := here tape inOrder
  exact course.trans (rest _ _ course.inOrder)

theorem Moves.ite {condition : Prop} {_ : Decidable condition} {yes no : Read α}
    (left : Moves yes) (right : Moves no) : Moves (if condition then yes else no) := by
  split
  · exact left
  · exact right

theorem Moves.on {action : Read α} (moves : Moves action) (behind : tape.Behind low since row) :
    Timely tape action fun _ final => final.Behind low since row :=
  ⟨moves tape behind.inOrder, behind.course (moves tape behind.inOrder)⟩

theorem moves_advance : Moves advance := fun _ inOrder => inOrder.advance

theorem moves_peekAhead (distance : Nat) : Moves (peekAhead distance) := moves_of_looks fun _ => rfl

theorem moves_atKind (kind : Kind) : Moves (atKind kind) := moves_of_looks fun _ => rfl

theorem moves_atWord (word : String) : Moves (atWord word) := moves_of_looks fun _ => rfl

theorem moves_atTagEnd : Moves atTagEnd := moves_of_looks fun _ => rfl

theorem moves_take? (kind : Kind) : Moves (take? kind) :=
  (moves_atKind kind).bind fun _ =>
    .ite (moves_advance.bind fun _ => moves_pure _) (moves_pure _)

theorem moves_takeSymbol (symbol : Symbol) : Moves (takeSymbol symbol) :=
  (moves_take? _).bind fun _ => moves_pure _

theorem moves_takeWord (word : String) : Moves (takeWord word) :=
  (moves_atWord word).bind fun _ =>
    .ite (moves_advance.bind fun _ => moves_pure _) (moves_pure _)

/-- A report about the token under the head, or a late one about something before it. -/
theorem moves_mistake {cause : Mistake} {span : Span} (inOrder : tape.InOrder)
    (isLow : (cause.toDiagnostic span).IsLate ∨ tape.here ≤ span.start.offset)
    (isHigh : span.start.offset ≤ tape.here) :
    tape.Course ((mistake cause span).run tape).2 :=
  (Tape.Course.refl inOrder).report rfl isLow isHigh

theorem timely_mistake {cause : Mistake} {span : Span} (behind : tape.Behind low since row)
    (isLow : (cause.toDiagnostic span).IsLate ∨ tape.here ≤ span.start.offset)
    (isHigh : span.start.offset ≤ tape.here) :
    Timely tape (mistake cause span) fun _ final => final.Behind low since row := by
  have course := moves_mistake behind.inOrder isLow isHigh
  exact ⟨course, behind.course course⟩

theorem moves_expected (what : String) : Moves (expected what) := by
  intro tape inOrder
  have isHere : tape.here ≤ tape.current.span.start.offset := Nat.le_refl _
  rw [expected, run_bind, run_peek]
  exact moves_mistake inOrder (.inr isHere) isHere

theorem moves_expectSymbol (symbol : Symbol) : Moves (expectSymbol symbol) :=
  (moves_takeSymbol symbol).bind fun _ =>
    .ite (moves_pure _) ((moves_expected _).bind fun _ => moves_pure _)

theorem moves_expectWord (word : String) : Moves (expectWord word) :=
  (moves_takeWord word).bind fun _ => .ite (moves_pure _) (moves_expected _)

theorem moves_expectName (what : String) : Moves (expectName what) := by
  refine (moves_take? _).bind fun found => ?_
  cases found with
  | none => exact (moves_expected _).bind fun _ => moves_pure _
  | some token => exact moves_pure _

theorem moves_loop {turn : α → Read (Turn α)} (each : ∀ value, Moves (turn value)) (value : α) :
    Moves (loop turn value) := by
  intro tape inOrder
  have turns (value : α) (here : Tape) (inOrder : here.InOrder) :
      Timely here (turn value) (turnEnds (fun _ final => final.InOrder) fun _ _ => True) := by
    have course := each value here inOrder
    refine ⟨course, ?_⟩
    cases ((turn value).run here).1 with
    | again next => exact course.inOrder
    | done result => trivial
  exact (TimelyFrom.loop turns (fun _ _ inOrder => ⟨inOrder, trivial⟩) inOrder).course

theorem moves_skipTag : Moves skipTag := by
  have moves : Moves (modify fun tape => tape.skipTo resumes) := fun _ inOrder => inOrder.skipTo _
  exact moves.bind fun _ => moves_atTagEnd.bind fun _ =>
    .ite (moves_advance.bind fun _ => moves_pure _) (moves_pure _)

theorem moves_expectTagEnd (what : Kind) : Moves (expectTagEnd what) :=
  moves_atTagEnd.bind fun _ =>
    .ite (moves_advance.bind fun _ => moves_pure _)
      ((moves_expected _).bind fun _ => moves_skipTag)

end Moving

/-! ### Actions that read parts -/

/-- Whether an action reads parts that begin one after another, none of them before the head. -/
def Gathers (action : Read α) (parts : α → List Part) : Prop :=
  ∀ tape : Tape, tape.InOrder →
    Timely tape action fun value final => InRow tape.here final.here (parts value)

namespace Gathers

variable {action : Read α} {parts : α → List Part} {low since : Nat} {row : List Part}

/-- What is read behind a row makes the row longer. -/
theorem on (gathers : Gathers action parts) (behind : tape.Behind low since row) :
    Timely tape action fun value final => final.Behind low since (row ++ parts value) :=
  (gathers tape behind.inOrder).weaken fun _ _ course inRow => behind.append course inRow

theorem of_behind
    (reads : ∀ tape : Tape, tape.Behind tape.here tape.last [] →
      Timely tape action fun value final => final.Behind tape.here tape.last (parts value)) :
    Gathers action parts :=
  fun tape inOrder => (reads tape inOrder.behind).weaken fun _ _ _ behind => behind.inRow

end Gathers

/-- Whether the head is behind the row of what a turn gives, be it the last one or not. -/
abbrev EndsBehind (low since : Nat) (row : α → List Part) : Turn α → Tape → Prop :=
  turnEnds (fun next final => final.Behind low since (row next))
    fun result final => final.Behind low since (row result)

/-- Whether each turn of a loop makes the row longer that has been read, or ends it. -/
def Extends (turn : α → Read (Turn α)) (row : α → List Part) : Prop :=
  ∀ (low since : Nat) (value : α) (tape : Tape), tape.Behind low since (row value) →
    Timely tape (turn value) (EndsBehind low since row)

section Rows

variable {low since : Nat} {row : List Part}

theorem Extends.loop {turn : α → Read (Turn α)} {rows : α → List Part}
    (turnExtends : Extends turn rows) {value : α} (behind : tape.Behind low since (rows value)) :
    Timely tape (Read.loop turn value) fun result final => final.Behind low since (rows result) :=
  .loop (turnExtends low since) (fun _ _ behind => ⟨behind.inOrder, behind⟩) behind

/-- What a loop reads that begins with nothing. -/
theorem Extends.gathers {turn : α → Read (Turn α)} {rows : α → List Part}
    (turnExtends : Extends turn rows) {value : α} (isEmpty : rows value = []) :
    Gathers (Read.loop turn value) rows := by
  refine .of_behind fun tape behind => turnExtends.loop ?_
  rw [isEmpty]
  exact behind

/-- A loop, the first turn of which passes over a token. -/
theorem Extends.loopFrom {turn : α → Read (Turn α)} {rows : α → List Part}
    (turnExtends : Extends turn rows) {value : α}
    (first : Timely tape (turn value) (EndsBehind low since rows)) :
    Timely tape (Read.loop turn value) fun result final => final.Behind low since (rows result) :=
  .loopFrom (turnExtends low since) (fun _ _ behind => ⟨behind.inOrder, behind⟩) first

theorem timely_pass (behind : tape.Behind low since row)
    (goesOn : tape.current.kind ≠ .endOfInput) :
    Timely tape advance fun token final =>
      token = tape.current ∧ final.Behind low tape.here row :=
  ⟨behind.inOrder.advance, rfl, behind.pass goesOn⟩

/-- A token is passed over if it is of the kind asked for; otherwise nothing is. -/
theorem timely_take? (inOrder : tape.InOrder) (kind : Kind) :
    Timely tape (take? kind) fun found final =>
      (found = none ∧ final = tape) ∨ (found = some tape.current ∧ final = tape.advance) := by
  refine .seeing (run_atKind kind tape) (.ite (fun _ => ?_) fun _ => ?_)
  · exact ⟨inOrder.advance, .inr ⟨rfl, rfl⟩⟩
  · exact .pure inOrder (.inl ⟨rfl, rfl⟩)

/-- A symbol that is passed over begins where it stood under the head. -/
theorem timely_takeSymbol (symbol : Symbol) (behind : tape.Behind low since row) :
    Timely tape (takeSymbol symbol) fun taken final =>
      (taken = true ∧ final.Behind low tape.here row) ∨
        (taken = false ∧ tape.current.kind ≠ .symbol symbol ∧ final.Behind low since row) := by
  have runs := run_takeSymbol symbol tape
  by_cases isSymbol : tape.current.kind = .symbol symbol
  · rw [if_pos isSymbol] at runs
    have passed := behind.pass (by rw [isSymbol]; nofun)
    refine ⟨?_, ?_⟩ <;> rw [runs]
    · exact behind.inOrder.advance
    · exact .inl ⟨rfl, passed⟩
  · rw [if_neg isSymbol] at runs
    refine ⟨?_, ?_⟩ <;> rw [runs]
    · exact .refl behind.inOrder
    · exact .inr ⟨rfl, isSymbol, behind⟩

/-- A list goes on behind a comma, and ends where there is none. -/
theorem timely_pastComma {rows : α → List Part} {value : α}
    (behind : tape.Behind low since (rows value)) :
    Timely tape (do if ← takeSymbol .comma then return Turn.again value else return Turn.done value)
      (EndsBehind low since rows) := by
  refine ((moves_takeSymbol .comma).on behind).bind fun _ here behind =>
    .ite (fun _ => ?_) fun _ => ?_
  · exact .pure behind.inOrder behind
  · exact .pure behind.inOrder behind

theorem timely_previousSpan (behind : tape.Behind low since row) :
    Timely tape previousSpan fun span final =>
      since ≤ span.start.offset ∧ final.Behind low since row :=
  ⟨.refl behind.inOrder, behind.since, behind⟩

/-- A span begins where its start does if the token passed over last is behind that. -/
theorem timely_spanFrom {start : Span} (behind : tape.Behind low since row)
    (isStart : start.start.offset ≤ since) :
    Timely tape (spanFrom start) fun span final =>
      span.start.offset = start.start.offset ∧ final.Behind low since row :=
  ⟨.refl behind.inOrder, start_cover (Nat.le_trans isStart behind.since), behind⟩

end Rows

end Stencil.Grammar
