import Stencil.Proofs.Grammar.Run
import Stencil.Proofs.Token.Region

/-!
Contract: how far reading moves the head, and over what.

Owns:
- tapes that are further on: behind tokens of given kinds, with the same bodies open and nothing
  reported taken back;
- actions that pass over nothing but tokens from the inside of tags, and how they are put together;
- the region that a tape's head stands in.

Does not own: which parts of the grammar are such actions (`Stencil.Proofs.Grammar.Confined`).
-/

set_option autoImplicit false

namespace Stencil.Grammar

open Stencil.Report (Diagnostic)
open Stencil.Text (Span)
open Stencil.Token (Kind Symbol Region Delimiter)

namespace Tape

def remaining (tape : Tape) : List Token := tape.current :: tape.following

/-- Whether the second tape is the first one further on: behind tokens of such kinds only, with the
same bodies open, and with all reports of the first one. -/
structure Passes (test : Kind → Prop) (tape final : Tape) : Prop where
  moved : ∃ passed, tape.remaining = passed ++ final.remaining ∧ ∀ token ∈ passed, test token.kind
  enclosing : final.enclosing = tape.enclosing
  reported : ∃ more : Array Diagnostic, final.problems = tape.problems ++ more

abbrev Inside (tape final : Tape) : Prop := tape.Passes (fun kind => kind.isInner = true) final

abbrev Onward (tape final : Tape) : Prop := tape.Passes (fun _ => True) final

variable {test : Kind → Prop} {tape middle final : Tape}

theorem Passes.refl (tape : Tape) : tape.Passes test tape where
  moved := ⟨[], rfl, fun _ member => nomatch member⟩
  enclosing := rfl
  reported := ⟨#[], Array.append_empty.symm⟩

theorem Passes.trans (first : tape.Passes test middle) (second : middle.Passes test final) :
    tape.Passes test final := by
  obtain ⟨⟨passed, isPassed, each⟩, sameFirst, ⟨more, isMore⟩⟩ := first
  obtain ⟨⟨others, areOthers, eachOther⟩, sameSecond, ⟨further, isFurther⟩⟩ := second
  refine ⟨⟨passed ++ others, ?_, fun token member => ?_⟩, sameSecond.trans sameFirst,
    ⟨more ++ further, ?_⟩⟩
  · rw [isPassed, areOthers, List.append_assoc]
  · rcases List.mem_append.mp member with memberPassed | memberOthers
    · exact each token memberPassed
    · exact eachOther token memberOthers
  · rw [isFurther, isMore, Array.append_assoc]

theorem Passes.onward (passes : tape.Passes test final) : tape.Onward final := by
  obtain ⟨passed, isPassed, _⟩ := passes.moved
  exact ⟨⟨passed, isPassed, fun _ _ => trivial⟩, passes.enclosing, passes.reported⟩

theorem passes_advance (here : test tape.current.kind) : tape.Passes test tape.advance := by
  obtain ⟨previous, current, following, enclosing, problems⟩ := tape
  cases following with
  | nil => exact .refl _
  | cons next rest =>
      refine ⟨⟨[current], rfl, fun token member => ?_⟩, rfl, ⟨#[], Array.append_empty.symm⟩⟩
      rw [List.mem_singleton.mp member]
      exact here

theorem passes_report (diagnostic : Diagnostic) : tape.Passes test (tape.report diagnostic) where
  moved := ⟨[], rfl, fun _ member => nomatch member⟩
  enclosing := rfl
  reported := ⟨#[diagnostic], Array.push_eq_append⟩

theorem Passes.length_le (passes : tape.Passes test final) :
    final.following.length ≤ tape.following.length := by
  obtain ⟨passed, isPassed, _⟩ := passes.moved
  have lengths := congrArg List.length isPassed
  simp only [remaining, List.length_cons, List.length_append] at lengths
  omega

/-- Passing over tokens from the inside of tags does not pass over the end of a tag. -/
theorem Inside.remaining_of_end (inside : tape.Inside final) {inners behind : List Token}
    {closing : Token} (isRemaining : tape.remaining = inners ++ closing :: behind)
    (closes : closing.kind.isTagEnd = true) :
    ∃ fewer, fewer <:+ inners ∧ final.remaining = fewer ++ closing :: behind := by
  obtain ⟨passed, isPassed, inner⟩ := inside.moved
  rw [isRemaining] at isPassed
  rcases List.append_eq_append_iff.mp isPassed.symm with ⟨fewer, isInners, isFinal⟩ |
    ⟨rest, areAllPassed, isBehind⟩
  · exact ⟨fewer, ⟨passed, isInners.symm⟩, isFinal⟩
  · cases rest with
    | nil => exact ⟨[], List.nil_suffix, isBehind.symm⟩
    | cons token rest =>
        have isClosing : closing = token := (List.cons.inj isBehind).1
        have isInner := inner token (by simp [areAllPassed])
        rw [← isClosing] at isInner
        revert isInner closes
        cases closing.kind <;> simp [Kind.isTagEnd, Kind.isInner]

/-! ### The region of the head -/

/-- Whether the head stands in the region, and fewer tokens than `bound` follow it. What it reads
from there on leads to the end of the input. -/
structure Stands (bound : Nat) (region : Region) (tape : Tape) : Prop where
  leads : region.Leads tape.remaining
  short : tape.following.length < bound

variable {bound fewer : Nat} {region next : Region} {delimiter : Delimiter}

theorem Stands.mono (stands : tape.Stands fewer region) (isFewer : fewer ≤ bound) :
    tape.Stands bound region :=
  ⟨stands.leads, Nat.lt_of_lt_of_le stands.short isFewer⟩

theorem Stands.exists_succ (stands : tape.Stands bound region) : ∃ fewer, bound = fewer + 1 :=
  Nat.exists_eq_add_one_of_ne_zero (Nat.ne_zero_of_lt stands.short)

/-- Passing over tokens from the inside of tags changes no region. -/
theorem Inside.stands (inside : tape.Inside final) (stands : tape.Stands bound region) :
    final.Stands bound region := by
  have shorter := inside.length_le
  obtain ⟨passed, isPassed, inner⟩ := inside.moved
  refine ⟨Region.Leads.of_inner (isPassed ▸ stands.leads) inner, ?_⟩
  exact Nat.lt_of_le_of_lt shorter stands.short

/-- Passing over a token leads to the region that it leads to, with one token less behind. -/
theorem Stands.advance (stands : tape.Stands (bound + 1) region)
    (isNext : region.next? tape.current.kind = some next) : tape.advance.Stands bound next := by
  obtain ⟨previous, current, following, enclosing, problems⟩ := tape
  obtain ⟨leads, short⟩ := stands
  rcases leads.of_cons with ⟨isEnd, _⟩ | ⟨other, isOther, restLeads⟩
  · rw [isEnd, Region.next?_endOfInput] at isNext
    cases isNext
  · cases following with
    | nil => exact absurd rfl restLeads.ne_nil
    | cons head rest =>
        rw [isNext] at isOther
        cases isOther
        exact ⟨restLeads, Nat.lt_of_succ_lt_succ short⟩

theorem Stands.isOuter (stands : tape.Stands bound .outside) : tape.current.kind.isOuter = true :=
  stands.leads.isOuter

/-- Skipping from inside a tag stops at the tag's own end. -/
theorem seek_resumes (previous : Option Token) {current : Token} {following : List Token}
    (leads : (Region.inside delimiter).Leads (current :: following)) :
    ∃ passed before here rest,
      seek Read.resumes previous current following = (before, here, rest) ∧
        current :: following = passed ++ here :: rest ∧ here.kind.isTagEnd = true ∧
          (Region.inside delimiter).Leads (here :: rest) := by
  induction following generalizing previous current with
  | nil =>
      rcases leads.of_cons with ⟨_, isOutside⟩ | ⟨_, _, restLeads⟩
      · cases isOutside
      · exact absurd rfl restLeads.ne_nil
  | cons head rest inductionHypothesis =>
      rcases leads.of_cons with ⟨_, isOutside⟩ | ⟨next, isNext, restLeads⟩
      · cases isOutside
      · rcases Region.inner_or_tagEnd isNext with ⟨inner, isInside⟩ | ⟨ends, _⟩
        · have passesOn : Read.resumes current.kind = false := by
            revert inner
            cases current.kind <;> simp [Read.resumes, Kind.isInner]
          obtain ⟨passed, before, here, after, sought, split, ends, hereLeads⟩ :=
            inductionHypothesis (some current) (isInside ▸ restLeads)
          refine ⟨current :: passed, before, here, after, ?_, ?_, ends, hereLeads⟩
          · rw [seek, passesOn]
            exact sought
          · rw [split, List.cons_append]
        · have stops : Read.resumes current.kind = true := by
            revert ends
            cases current.kind <;> simp [Read.resumes, Kind.isTagEnd]
          refine ⟨[], previous, current, head :: rest, ?_, rfl, ends, leads⟩
          rw [seek, stops]
          rfl

theorem onward_skipTo (stop : Kind → Bool) : tape.Onward (tape.skipTo stop) := by
  obtain ⟨previous, current, following, enclosing, problems⟩ := tape
  have moved : ∃ passed, current :: following =
      passed ++ (seek stop previous current following).2.1 ::
        (seek stop previous current following).2.2 := by
    induction following generalizing previous current with
    | nil => exact ⟨[], rfl⟩
    | cons next rest inductionHypothesis =>
        rw [seek]
        split
        · exact ⟨[], rfl⟩
        · obtain ⟨passed, isPassed⟩ := inductionHypothesis (some current) next
          exact ⟨current :: passed, congrArg (current :: ·) isPassed⟩
  obtain ⟨passed, isPassed⟩ := moved
  exact ⟨⟨passed, isPassed, fun _ _ => trivial⟩, rfl, ⟨#[], Array.append_empty.symm⟩⟩

theorem skipTo_resumes (stands : tape.Stands bound (.inside delimiter)) :
    tape.Onward (tape.skipTo Read.resumes) ∧
      (tape.skipTo Read.resumes).Stands bound (.inside delimiter) ∧
        (tape.skipTo Read.resumes).current.kind.isTagEnd = true := by
  obtain ⟨previous, current, following, enclosing, problems⟩ := tape
  obtain ⟨passed, before, here, rest, sought, split, ends, leads⟩ :=
    seek_resumes previous stands.leads
  have isPlace : skipTo ⟨previous, current, following, enclosing, problems⟩ Read.resumes =
      ⟨before, here, rest, enclosing, problems⟩ := by
    simp only [skipTo, sought]
  have onward : Onward ⟨previous, current, following, enclosing, problems⟩
      ⟨before, here, rest, enclosing, problems⟩ :=
    ⟨⟨passed, split, fun _ _ => trivial⟩, rfl, ⟨#[], Array.append_empty.symm⟩⟩
  rw [isPlace]
  exact ⟨onward, ⟨leads, Nat.lt_of_le_of_lt onward.length_le stands.short⟩, ends⟩

end Tape

open Read

/-! ### Actions within tags -/

variable {α β : Type}

/-- Whether an action passes over nothing but tokens from the inside of tags. -/
def Confined (action : Read α) : Prop := ∀ tape : Tape, tape.Inside (action.run tape).2

/-- One action after another, the first of which depends on the tape it starts from. -/
theorem Tape.Inside.bind {tape : Tape} {first : Read α} {next : α → Read β}
    (here : tape.Inside (first.run tape).2) (rest : ∀ value, Confined (next value)) :
    tape.Inside ((first >>= next).run tape).2 :=
  here.trans (rest _ _)

theorem confined_pure (value : α) : Confined (pure value : Read α) := fun _ => .refl _

theorem Confined.bind {first : Read α} {next : α → Read β} (here : Confined first)
    (rest : ∀ value, Confined (next value)) : Confined (first >>= next) :=
  fun tape => (here tape).bind rest

theorem Confined.map {action : Read α} (confined : Confined action) (f : α → β) :
    Confined (f <$> action) := confined

theorem Confined.ite {condition : Prop} {_ : Decidable condition} {yes no : Read α}
    (left : Confined yes) (right : Confined no) : Confined (if condition then yes else no) := by
  split
  · exact left
  · exact right

theorem confined_get : Confined (get : Read Tape) := fun _ => .refl _

theorem confined_peek : Confined peek := fun _ => .refl _

theorem confined_peekAhead (distance : Nat) : Confined (peekAhead distance) := fun _ => .refl _

theorem confined_atKind (kind : Kind) : Confined (atKind kind) := fun _ => .refl _

theorem confined_atWord (word : String) : Confined (atWord word) := fun _ => .refl _

theorem confined_atTagEnd : Confined atTagEnd := fun _ => .refl _

theorem confined_atClose : Confined atClose := fun _ => .refl _

theorem confined_previousSpan : Confined previousSpan := fun _ => .refl _

theorem confined_spanFrom (start : Span) : Confined (spanFrom start) := fun _ => .refl _

theorem confined_report (diagnostic : Diagnostic) : Confined (report diagnostic) :=
  fun _ => Tape.passes_report diagnostic

theorem confined_mistake (cause : Mistake) (span : Span) : Confined (mistake cause span) :=
  confined_report _

theorem confined_expected (what : String) : Confined (expected what) :=
  fun _ => Tape.passes_report _

theorem inside_advance {tape : Tape} (inner : tape.current.kind.isInner = true) :
    tape.Inside (advance.run tape).2 :=
  Tape.passes_advance inner

theorem isInner_of_isName {token : Token} {word : String} (isWord : token.isName word = true) :
    token.kind.isInner = true := by
  simp only [Token.isName, Bool.and_eq_true, beq_iff_eq] at isWord
  rw [isWord.1]
  rfl

/-- What is done only where a token from the inside of a tag is under the head may begin with
passing over it. -/
theorem confined_guarded {kind : Kind} (inner : kind.isInner = true) {condition : Bool}
    {yes no : Read α}
    (left : ∀ tape : Tape, tape.current.kind.isInner = true → tape.Inside (yes.run tape).2)
    (right : Confined no) :
    Confined (atKind kind >>= fun here => if (here && condition) = true then yes else no) := by
  intro tape
  rw [run_bind, run_atKind, run_ite]
  split
  · rename_i isHere
    rw [Bool.and_eq_true, beq_iff_eq] at isHere
    exact left tape (by rw [isHere.1]; exact inner)
  · exact right tape

theorem confined_take? {kind : Kind} (inner : kind.isInner = true) : Confined (take? kind) := by
  intro tape
  rw [run_take?]
  split
  · rename_i isKind
    exact Tape.passes_advance (isKind ▸ inner)
  · exact .refl _

theorem confined_takeSymbol (symbol : Symbol) : Confined (takeSymbol symbol) :=
  (confined_take? rfl).bind fun _ => confined_pure _

theorem confined_takeWord (word : String) : Confined (takeWord word) := by
  intro tape
  rw [run_takeWord]
  split
  · rename_i isWord
    exact Tape.passes_advance (isInner_of_isName isWord)
  · exact .refl _

theorem confined_expectSymbol (symbol : Symbol) : Confined (expectSymbol symbol) :=
  (confined_takeSymbol symbol).bind fun _ =>
    .ite (confined_pure _) ((confined_expected _).bind fun _ => confined_pure _)

theorem confined_expectWord (word : String) : Confined (expectWord word) :=
  (confined_takeWord word).bind fun _ => .ite (confined_pure _) (confined_expected _)

theorem confined_expectName (what : String) : Confined (expectName what) := by
  refine (confined_take? rfl).bind fun found => ?_
  cases found with
  | none => exact (confined_expected _).bind fun _ => confined_pure _
  | some token => exact confined_pure _

theorem confined_turns {turn : α → Read (Turn α)} (each : ∀ value, Confined (turn value))
    (limit : Nat) (value : α) : Confined (turns turn limit value) := by
  induction limit generalizing value with
  | zero => exact confined_pure value
  | succ fewer inductionHypothesis =>
      refine (each value).bind fun result => ?_
      cases result with
      | again next => exact inductionHypothesis next
      | done result => exact confined_pure result

theorem confined_loop {turn : α → Read (Turn α)} (each : ∀ value, Confined (turn value))
    (value : α) : Confined (loop turn value) :=
  fun tape => confined_turns each (tape.following.length + 1) value tape

end Stencil.Grammar
