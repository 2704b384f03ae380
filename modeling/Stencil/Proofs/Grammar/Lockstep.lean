import Stencil.Proofs.Grammar.Body
import Stencil.Proofs.Grammar.Onward

/-!
Contract: two actions that do the same from a tape on, and where they lead.

Owns:
- the comparison of two actions, with what holds where they end, and how comparisons are put
  together;
- readers of bodies that do the same from outside tags on;
- how tags end, whether they are closed or not.

Does not own: the statements of the grammar (`Stencil.Proofs.Grammar.Synchrony`).
-/

set_option autoImplicit false

namespace Stencil.Grammar

open Stencil.Syntax (Node)
open Stencil.Token (Kind Region Delimiter)
open Read Statement

variable {α β : Type}

/-- Whether two actions do the same from a tape on. They lead further on, to a value and a tape of
which the condition holds. -/
structure Lockstep (tape : Tape) (action other : Read α) (ends : α → Tape → Prop) : Prop where
  same : other.run tape = action.run tape
  onward : tape.Onward (action.run tape).2
  arrives : ends (action.run tape).1 (action.run tape).2

/-- What holds where a turn ends that is not the last one, and where the last one does. -/
def turnEnds (again done : α → Tape → Prop) : Turn α → Tape → Prop
  | .again next, final => again next final
  | .done result, final => done result final

namespace Lockstep

variable {tape : Tape} {action other : Read α} {middle : α → Tape → Prop} {ends : β → Tape → Prop}
  {bound : Nat} {region : Region}

theorem bind {next otherNext : α → Read β} (first : Lockstep tape action other middle)
    (rest : ∀ value here, middle value here → Lockstep here (next value) (otherNext value) ends) :
    Lockstep tape (action >>= next) (other >>= otherNext) ends := by
  have second := rest _ _ first.arrives
  refine ⟨?_, first.onward.trans second.onward, second.arrives⟩
  rw [run_bind, run_bind, first.same]
  exact second.same

theorem weaken {weaker : α → Tape → Prop} (lockstep : Lockstep tape action other middle)
    (weakens : ∀ value final, tape.Onward final → middle value final → weaker value final) :
    Lockstep tape action other weaker :=
  ⟨lockstep.same, lockstep.onward, weakens _ _ lockstep.onward lockstep.arrives⟩

theorem map {f : α → β} (lockstep : Lockstep tape action other fun value => ends (f value)) :
    Lockstep tape (f <$> action) (f <$> other) ends where
  same := by rw [run_map, run_map, lockstep.same]
  onward := lockstep.onward
  arrives := lockstep.arrives

theorem pure {value : α} (holds : middle value tape) :
    Lockstep tape (Pure.pure value) (Pure.pure value) middle :=
  ⟨rfl, .refl _, holds⟩

theorem ite {condition : Prop} {_ : Decidable condition} {yes no otherYes otherNo : Read α}
    (left : condition → Lockstep tape yes otherYes middle)
    (right : ¬condition → Lockstep tape no otherNo middle) :
    Lockstep tape (if condition then yes else no) (if condition then otherYes else otherNo)
      middle := by
  by_cases holds : condition
  · rw [if_pos holds, if_pos holds]
    exact left holds
  · rw [if_neg holds, if_neg holds]
    exact right holds

/-- Actions that do the same from the tape on may take the place of the two. -/
theorem of_runs {plain plainOther : Read α} (lockstep : Lockstep tape action other middle)
    (runs : plain.run tape = action.run tape)
    (otherRuns : plainOther.run tape = other.run tape) :
    Lockstep tape plain plainOther middle := by
  refine ⟨?_, ?_, ?_⟩
  · rw [runs, otherRuns, lockstep.same]
  · rw [runs]
    exact lockstep.onward
  · rw [runs]
    exact lockstep.arrives

/-- What comes after an action that only looks at the tape. -/
theorem seeing {value : α} {next otherNext : α → Read β} (looks : action.run tape = (value, tape))
    (rest : Lockstep tape (next value) (otherNext value) ends) :
    Lockstep tape (action >>= next) (action >>= otherNext) ends := by
  refine rest.of_runs ?_ ?_
  · rw [run_bind, looks]
  · rw [run_bind, looks]

/-- An action within a tag stays in the region that it starts in. -/
theorem inside (inside : tape.Inside (action.run tape).2) (stands : tape.Stands bound region) :
    Lockstep tape action action fun _ => Tape.Stands bound region :=
  ⟨rfl, inside.onward, inside.stands stands⟩

theorem confined (confined : Confined action) (stands : tape.Stands bound region) :
    Lockstep tape action action fun _ => Tape.Stands bound region :=
  inside (confined tape) stands

/-- Passing over a token leads to the region that it leads to. -/
theorem advance {next : Region} (stands : tape.Stands (bound + 1) region)
    (isNext : region.next? tape.current.kind = some next) :
    Lockstep tape Read.advance Read.advance fun token final =>
      token = tape.current ∧ final = tape.advance ∧ final.Stands bound next :=
  ⟨rfl, Tape.passes_advance trivial, rfl, rfl, stands.advance isNext⟩

/-- Turns that each pass over a token, before which fewer tokens than `bound` follow. There are
always enough of them. -/
theorem turns {turn otherTurn : α → Read (Turn α)} (kept : α → Prop)
    (each : ∀ limit value here, limit < bound → kept value → here.Stands (limit + 1) region →
      Lockstep here (turn value) (otherTurn value)
        (turnEnds (fun next final => kept next ∧ final.Stands limit region) middle))
    {limit : Nat} (isFewer : limit ≤ bound) {value : α} (holds : kept value)
    (stands : tape.Stands limit region) :
    Lockstep tape (Read.turns turn limit value) (Read.turns otherTurn limit value) middle := by
  induction limit generalizing value tape with
  | zero => exact absurd stands.short (Nat.not_lt_zero _)
  | succ fewer inductionHypothesis =>
      refine (each fewer value tape isFewer holds stands).bind fun result here ended => ?_
      cases result with
      | again next => exact inductionHypothesis (Nat.le_of_lt isFewer) ended.1 ended.2
      | done result => exact .pure ended

theorem loop {turn otherTurn : α → Read (Turn α)} (kept : α → Prop)
    (each : ∀ limit value here, limit < bound → kept value → here.Stands (limit + 1) region →
      Lockstep here (turn value) (otherTurn value)
        (turnEnds (fun next final => kept next ∧ final.Stands limit region) middle))
    {value : α} (holds : kept value) (stands : tape.Stands bound region) :
    Lockstep tape (Read.loop turn value) (Read.loop otherTurn value) middle := by
  have settled := turns kept each stands.short holds ⟨stands.leads, Nat.lt_succ_self _⟩
  refine settled.of_runs ?_ ?_
  · rw [Read.loop, run_bind, run_get]
  · rw [Read.loop, run_bind, run_get]

end Lockstep

/-! ### Ends of tags -/

variable {tape : Tape} {bound : Nat} {delimiter : Delimiter}

theorem stands_past_tagEnd (stands : tape.Stands bound (.inside delimiter))
    (ends : tape.current.kind.isTagEnd = true) : tape.advance.Stands bound .outside := by
  obtain ⟨fewer, rfl⟩ := stands.exists_succ
  have isNext : (Region.inside delimiter).next? tape.current.kind = some .outside := by
    rcases stands.leads.of_cons with ⟨_, isOutside⟩ | ⟨next, isNext, _⟩
    · cases isOutside
    · rcases Region.inner_or_tagEnd isNext with ⟨inner, _⟩ | ⟨_, isOutside⟩
      · revert inner ends
        cases tape.current.kind <;> simp [Kind.isTagEnd, Kind.isInner]
      · rw [isNext, isOutside]
  exact (stands.advance isNext).mono (Nat.le_succ fewer)

theorem lockstep_skipTag (stands : tape.Stands bound (.inside delimiter)) :
    Lockstep tape skipTag skipTag fun _ => Tape.Stands bound .outside := by
  obtain ⟨onward, skipped, ends⟩ := Tape.skipTo_resumes stands
  have leads : skipTag.run tape = ((), (tape.skipTo resumes).advance) := by
    simp only [skipTag, run_bind, run_modify, run_atTagEnd, if_pos ends, run_advance, run_pure]
  refine ⟨rfl, ?_, ?_⟩
  · rw [leads]
    exact onward.trans (Tape.passes_advance trivial)
  · rw [leads]
    exact stands_past_tagEnd skipped ends

/-- The end of a tag leads out of it, whatever stands before it. -/
theorem lockstep_expectTagEnd (what : Kind) (stands : tape.Stands bound (.inside delimiter)) :
    Lockstep tape (expectTagEnd what) (expectTagEnd what) fun _ =>
      Tape.Stands bound .outside := by
  by_cases ends : tape.current.kind.isTagEnd = true
  · refine ⟨rfl, ?_, ?_⟩
    · rw [run_expectTagEnd_of_present ends]
      exact Tape.passes_advance trivial
    · rw [run_expectTagEnd_of_present ends]
      exact stands_past_tagEnd stands ends
  · refine .seeing (run_atTagEnd tape) ?_
    refine .ite (fun isEnd => absurd isEnd ends) fun _ => ?_
    exact (Lockstep.confined (confined_expected _) stands).bind fun _ _ => lockstep_skipTag

theorem lockstep_expectBlockEnd (stands : tape.Stands bound (.inside .block)) :
    Lockstep tape expectBlockEnd expectBlockEnd fun _ => Tape.Stands bound .outside :=
  lockstep_expectTagEnd _ stands

/-! ### Where bodies stop -/

/-- Whether a tag of the name opens under the head. -/
structure Tape.AtTag (tape : Tape) (name : String) : Prop where
  opens : ∃ trim, tape.current.kind = .blockStart trim
  named : tape.advance.current.isName name = true

theorem Tape.AtTag.surrounded {name : String} (atTag : tape.AtTag name)
    (enclosing : List (List String)) : Tape.AtTag { tape with enclosing := enclosing } name := by
  obtain ⟨previous, current, following, _, problems⟩ := tape
  cases following <;> exact ⟨atTag.opens, atTag.named⟩

theorem Tape.atTag_of_closesVerbatim (closes : tape.closesVerbatim = true) :
    tape.AtTag "endraw" := by
  rw [closesVerbatim, Bool.and_eq_true] at closes
  obtain ⟨isStart, isName⟩ := closes
  refine ⟨?_, isName⟩
  split at isStart
  · rename_i trim isKind
    exact ⟨trim, isKind⟩
  · cases isStart

/-- Whether a body stopped where bodies stop: at one of its own closing tags, which it tells, or at
a closing tag of a body around it, or at the end of the input. -/
structure Stops (bound : Nat) (endings : List String) (outer : List (List String))
    (found : Option String) (tape : Tape) : Prop where
  stands : tape.Stands bound .outside
  reason : match found with
    | some name => name ∈ endings ∧ tape.AtTag name
    | none => tape.current.kind = .endOfInput ∨
        ∃ name, tape.AtTag name ∧ outer.any (·.contains name) = true

theorem Stops.mono {fewer : Nat} {endings : List String} {outer : List (List String)}
    {found : Option String} (stops : Stops fewer endings outer found tape)
    (isFewer : fewer ≤ bound) : Stops bound endings outer found tape :=
  ⟨stops.stands.mono isFewer, stops.reason⟩

/-- What is waited for around a place is not part of the place. -/
theorem Stops.waiting {endings : List String} {outer : List (List String)} {found : Option String}
    (stops : Stops bound endings outer found tape) (waiting : List (List String)) :
    Stops bound endings outer found { tape with enclosing := waiting } := by
  refine ⟨⟨stops.stands.leads, stops.stands.short⟩, ?_⟩
  have reason := stops.reason
  cases found with
  | some name => exact ⟨reason.1, reason.2.surrounded waiting⟩
  | none =>
      rcases reason with isEnd | ⟨name, atTag, isOuter⟩
      · exact .inl isEnd
      · exact .inr ⟨name, atTag.surrounded waiting, isOuter⟩

/-- Acting inside a body keeps what is waited for around it. -/
theorem Lockstep.within {action other : Read α} {ends : α → Tape → Prop} {endings : List String}
    (inside : Lockstep { tape with enclosing := endings :: tape.enclosing } action other ends) :
    Lockstep tape (within endings action) (within endings other) fun value final =>
      ∃ last : Tape, ends value last ∧ last.enclosing.tail = tape.enclosing ∧
        final = { last with enclosing := tape.enclosing } := by
  refine ⟨?_, ⟨inside.onward.moved, rfl, inside.onward.reported⟩,
    ⟨_, inside.arrives, congrArg List.tail inside.onward.enclosing, rfl⟩⟩
  rw [run_within, run_within, inside.same]

/-- Whether two readers of bodies do the same from every tape outside tags with fewer tokens behind
its head than `bound`, and stop where bodies stop. -/
def Alike (bound : Nat) (reader other : BodyReader) : Prop :=
  ∀ (endings : List String) (tape : Tape), tape.Stands bound .outside →
    Lockstep tape (reader endings) (other endings) fun result final =>
      Stops bound endings final.enclosing result.2 final

theorem Alike.mono {fewer : Nat} {reader other : BodyReader} (alike : Alike bound reader other)
    (isFewer : fewer ≤ bound) : Alike fewer reader other := by
  intro endings tape stands
  refine (alike endings tape (stands.mono isFewer)).weaken fun result final onward stops => ?_
  have short := Nat.lt_of_le_of_lt onward.length_le stands.short
  exact ⟨⟨stops.stands.leads, short⟩, stops.reason⟩

/-- The opening delimiter of a tag and the name behind it lead into the tag. -/
theorem lockstep_openTag {name : String} (stands : tape.Stands (bound + 1) .outside)
    (atTag : tape.AtTag name) :
    Lockstep tape openTag openTag fun _ => Tape.Stands bound (.inside .block) := by
  obtain ⟨trim, isStart⟩ := atTag.opens
  refine (Lockstep.advance stands (by rw [isStart]; rfl)).bind fun _ here opened => ?_
  obtain ⟨rfl, rfl, standsIn⟩ := opened
  have passesName : tape.advance.Inside (advance.run tape.advance).2 :=
    inside_advance (isInner_of_isName atTag.named)
  exact (Lockstep.inside passesName standsIn).bind fun _ _ left => .pure left

/-- A closing tag leads out of itself, with a label or without one. -/
theorem lockstep_finishTag {name : String} (stands : tape.Stands bound .outside)
    (atTag : tape.AtTag name) :
    Lockstep tape finishTag finishTag fun _ => Tape.Stands bound .outside := by
  obtain ⟨fewer, rfl⟩ := stands.exists_succ
  refine (lockstep_openTag stands atTag).bind fun _ here standsIn => ?_
  have leaves : ∀ final : Tape, final.Stands fewer (.inside .block) →
      Lockstep final expectBlockEnd expectBlockEnd fun _ => Tape.Stands (fewer + 1) .outside :=
    fun final standsThere => (lockstep_expectBlockEnd standsThere).weaken fun _ _ _ left =>
      left.mono (Nat.le_succ fewer)
  refine (Lockstep.confined (confined_peekAhead 1) standsIn).bind fun next there standsThere => ?_
  refine .seeing (run_atKind .name there) ?_
  refine .ite (fun isLabel => ?_) fun _ => leaves _ standsThere
  rw [Bool.and_eq_true, beq_iff_eq] at isLabel
  have passesLabel : there.Inside (advance.run there).2 :=
    inside_advance (by rw [isLabel.1]; rfl)
  exact (Lockstep.inside passesLabel standsThere).bind fun _ final => leaves final

variable {reader other : BodyReader}

/-- A body with one closing tag leads out of that tag, or stops where the body stops. -/
theorem lockstep_closedBody (alike : Alike bound reader other) (ending tag : String)
    (start : Text.Span) (stands : tape.Stands bound .outside) :
    Lockstep tape (closedBody reader ending tag start) (closedBody other ending tag start) fun _ =>
      Tape.Stands bound .outside := by
  refine (alike [ending] tape stands).bind fun result here stops => ?_
  obtain ⟨nodes, found⟩ := result
  cases found with
  | none =>
      exact (Lockstep.confined (confined_mistake _ _) stops.stands).bind fun _ _ left => .pure left
  | some name =>
      exact (lockstep_finishTag stops.stands stops.reason.2).bind fun _ _ left => .pure left

end Stencil.Grammar
