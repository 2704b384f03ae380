import Mathlib.Data.List.Forall2
import Stencil.Grammar.Statement
import Stencil.Proofs.Grammar.Onward
import Stencil.Proofs.Grammar.Shown

/-!
Contract: two tapes that share tokens from their heads on, and what the same action does on both.

Owns:
- which tokens and which reports of two tapes stand for each other;
- tapes whose heads stand side by side in tokens that they share, up to a margin behind which each
  of them goes on by itself;
- the comparison of two actions on such tapes, and how comparisons are put together.

Does not own: the readers of the grammar (`Stencil.Proofs.Grammar.Likewise`).
-/

set_option autoImplicit false

namespace Stencil.Grammar

open Stencil.Report (Diagnostic)
open Stencil.Text (Span)
open Stencil.Token (Kind Symbol Region Delimiter)
open Read

variable {α β : Type}

/-! ### Tapes side by side -/

/-- Which tokens of two tapes stand for each other, and which reports. Such tokens are the same
words, and what is wrong at one of them is told like what is wrong at the other. -/
structure Likeness where
  token : Token → Token → Prop
  told : Diagnostic → Diagnostic → Prop
  /-- Which closing tags the bodies around the heads may wait for. -/
  waits : List (List String) → Prop
  word : ∀ {first second : Token}, token first second → wordOf second = wordOf first
  mistake : ∀ {first second : Token}, token first second → ∀ cause : Mistake,
    told (cause.toDiagnostic first.span) (cause.toDiagnostic second.span)

/-- What two tapes do not share: the tokens behind the shared ones, of which there is at least one,
and what was reported before. -/
structure Margin where
  behind : List Token
  otherBehind : List Token
  reports : Array Diagnostic
  otherReports : Array Diagnostic
  more : behind ≠ []
  otherMore : otherBehind ≠ []

/-- Whether what both tapes do not share takes blanks off the end of a shared text on both of them
or on none. -/
def Margin.SameTrim (margin : Margin) : Prop :=
  (margin.otherBehind.head margin.otherMore).kind.trimsBefore =
    (margin.behind.head margin.more).kind.trimsBefore

/-- Whether no tag of the language is waited for as a closing tag. -/
def Unreserved (enclosing : List (List String)) : Prop :=
  ∀ endings ∈ enclosing, ∀ name ∈ endings, name ∉ builtinTags

instance (enclosing : List (List String)) : Decidable (Unreserved enclosing) :=
  inferInstanceAs (Decidable (∀ endings ∈ enclosing, ∀ name ∈ endings, name ∉ builtinTags))

/-- Whether text under the head loses its leading blanks. -/
def Tape.trims (tape : Tape) : Bool := tape.previous.any (·.kind.trimsAfter)

/-- Whether text under the head loses its trailing blanks. -/
def Tape.trimsEnd (tape : Tape) : Bool := tape.following.head?.any (·.kind.trimsBefore)

/-- Whether the heads of two tapes stand in the same region side by side: before tokens that stand
for each other, fewer than `bound`, and lead out of the region. Shared text loses the same blanks.
What was reported on the way was reported on both tapes. -/
structure Beside (like : Likeness) (margin : Margin) (bound : Nat) (region : Region)
    (tape other : Tape) : Prop where
  shared : ∃ first second : List Token, tape.remaining = first ++ margin.behind ∧
    other.remaining = second ++ margin.otherBehind ∧ List.Forall₂ like.token first second ∧
      region.after? first = some .outside ∧ first.length < bound
  trims : tape.current.kind = .text → other.trims = tape.trims
  sameTrim : ∀ (init : List Token) (last : Token), tape.remaining = init ++ last :: margin.behind →
    last.kind = .text → margin.SameTrim
  reported : ∃ more others : List Diagnostic, tape.problems = margin.reports ++ more.toArray ∧
    other.problems = margin.otherReports ++ others.toArray ∧ List.Forall₂ like.told more others
  waiting : like.waits tape.enclosing
  otherWaiting : like.waits other.enclosing

namespace Likeness

variable {like : Likeness} {first second : Token}

theorem kind (same : like.token first second) : second.kind = first.kind :=
  congrArg Word.kind (like.word same)

theorem lexeme (same : like.token first second) : second.lexeme = first.lexeme :=
  congrArg Word.lexeme (like.word same)

theorem isSymbol (same : like.token first second) (symbol : Symbol) :
    second.isSymbol symbol = first.isSymbol symbol := by
  rw [Token.isSymbol, Token.isSymbol, kind same]

theorem isName (same : like.token first second) (word : String) :
    second.isName word = first.isName word := by
  rw [Token.isName, Token.isName, kind same, lexeme same]

theorem describe (same : like.token first second) : second.describe = first.describe := by
  simp only [Token.describe, kind same, lexeme same]

end Likeness

namespace Tape

theorem remaining_advance {tape : Tape} {token next : Token} {rest : List Token}
    (isRemaining : tape.remaining = token :: next :: rest) :
    tape.advance = ⟨some token, next, rest, tape.enclosing, tape.problems⟩ := by
  obtain ⟨previous, current, following, enclosing, problems⟩ := tape
  obtain ⟨rfl, rfl⟩ := List.cons.inj isRemaining
  rfl

theorem remaining_advance_of_more {tape : Tape} (more : tape.following ≠ []) :
    tape.advance.remaining = tape.following := by
  obtain ⟨next, rest, isRest⟩ := List.exists_cons_of_ne_nil more
  rw [remaining_advance (show tape.remaining = tape.current :: next :: rest from isRest ▸ rfl),
    isRest]
  rfl

theorem advance_surrounded (tape : Tape) (enclosing : List (List String)) :
    Tape.advance { tape with enclosing := enclosing } =
      { tape.advance with enclosing := enclosing } := by
  obtain ⟨previous, current, following, _, problems⟩ := tape
  cases following <;> rfl

theorem current_of_remaining {tape : Tape} {token : Token} {rest : List Token}
    (isRemaining : tape.remaining = token :: rest) : tape.current = token :=
  (List.cons.inj isRemaining).1

end Tape

namespace Beside

variable {like : Likeness} {margin : Margin} {bound fewer : Nat} {region next : Region}
  {delimiter : Delimiter} {tape other : Tape}

theorem mono (beside : Beside like margin fewer region tape other) (isFewer : fewer ≤ bound) :
    Beside like margin bound region tape other := by
  obtain ⟨first, second, isFirst, isSecond, each, leads, short⟩ := beside.shared
  exact { beside with
    shared := ⟨first, second, isFirst, isSecond, each, leads, Nat.lt_of_lt_of_le short isFewer⟩ }

theorem exists_succ (beside : Beside like margin bound region tape other) :
    ∃ fewer, bound = fewer + 1 := by
  obtain ⟨_, _, _, _, _, _, short⟩ := beside.shared
  exact Nat.exists_eq_add_one_of_ne_zero (Nat.ne_zero_of_lt short)

/-- The shared tokens in numbers. -/
theorem exact (beside : Beside like margin bound region tape other) :
    ∃ shared, Beside like margin (shared + 1) region tape other ∧ shared < bound ∧
      tape.following.length + 1 = shared + margin.behind.length ∧
        other.following.length + 1 = shared + margin.otherBehind.length := by
  obtain ⟨first, second, isFirst, isSecond, each, leads, short⟩ := beside.shared
  have lengths := congrArg List.length isFirst
  have otherLengths := congrArg List.length isSecond
  have sameLength := each.length_eq
  simp only [Tape.remaining, List.length_cons, List.length_append] at lengths otherLengths
  refine ⟨first.length, ?_, short, by omega, by omega⟩
  exact { beside with
    shared := ⟨first, second, isFirst, isSecond, each, leads, Nat.lt_succ_self _⟩ }

/-- The least bound is one that the turns of every loop on the tapes reach. -/
theorem least (beside : Beside like margin bound region tape other) :
    ∃ least, Beside like margin least region tape other ∧ least ≤ bound ∧
      least ≤ tape.following.length + 1 ∧ least ≤ other.following.length + 1 := by
  obtain ⟨shared, beside, isLess, length, otherLength⟩ := beside.exact
  have positive := List.length_pos_iff.mpr margin.more
  have otherPositive := List.length_pos_iff.mpr margin.otherMore
  exact ⟨shared + 1, beside, isLess, by omega, by omega⟩

/-- Fewer tokens than the bound stand between the heads and the margin. -/
theorem length_lt (beside : Beside like margin bound region tape other) :
    tape.following.length + 1 < bound + margin.behind.length ∧
      other.following.length + 1 < bound + margin.otherBehind.length := by
  obtain ⟨shared, _, isLess, length, otherLength⟩ := beside.exact
  omega

/-- Both heads stand at the margin, or on tokens that stand for each other. From such tokens both
heads move on side by side. -/
theorem step (beside : Beside like margin bound region tape other) :
    (region = .outside ∧ tape.remaining = margin.behind ∧ other.remaining = margin.otherBehind) ∨
      (like.token tape.current other.current ∧
        (tape.current.kind = .text → other.trimsEnd = tape.trimsEnd) ∧
          ∃ next, region.next? tape.current.kind = some next ∧
          ∀ fewer, bound ≤ fewer + 1 → Beside like margin fewer next tape.advance other.advance) := by
  obtain ⟨first, second, isFirst, isSecond, each, leads, short⟩ := beside.shared
  cases each with
  | nil => exact .inl ⟨Option.some.inj leads, isFirst, isSecond⟩
  | @cons token twin first second same each =>
      refine .inr ?_
      have isCurrent := Tape.current_of_remaining isFirst
      have isOther := Tape.current_of_remaining isSecond
      rw [Region.after?_cons, Option.bind_eq_some_iff] at leads
      obtain ⟨next, isNext, leads⟩ := leads
      obtain ⟨here, rest, isRest⟩ : ∃ here rest, first ++ margin.behind = here :: rest :=
        List.exists_cons_of_ne_nil (List.append_ne_nil_of_right_ne_nil _ margin.more)
      obtain ⟨there, others, areOthers⟩ : ∃ there others,
          second ++ margin.otherBehind = there :: others :=
        List.exists_cons_of_ne_nil (List.append_ne_nil_of_right_ne_nil _ margin.otherMore)
      have sameTrim : token.kind = .text → there.kind.trimsBefore = here.kind.trimsBefore := by
        intro isText
        cases each with
        | nil =>
            have same := beside.sameTrim [] token isFirst isText
            rw [List.nil_append] at isRest areOthers
            simp only [Margin.SameTrim, isRest, areOthers, List.head_cons] at same
            exact same
        | cons same _ =>
            rw [← (List.cons.inj isRest).1, ← (List.cons.inj areOthers).1, Likeness.kind same]
      rw [List.cons_append, isRest] at isFirst
      rw [List.cons_append, areOthers] at isSecond
      have sameEnd : token.kind = .text → other.trimsEnd = tape.trimsEnd := by
        rw [Tape.trimsEnd, Tape.trimsEnd, (List.cons.inj isFirst).2, (List.cons.inj isSecond).2]
        exact sameTrim
      have atEnd : ∀ (init : List Token) (last : Token), here :: rest = init ++ last :: margin.behind →
          last.kind = .text → margin.SameTrim := fun init last isInit =>
        beside.sameTrim (token :: init) last (isFirst.trans (congrArg (token :: ·) isInit))
      rw [Tape.remaining_advance isFirst, Tape.remaining_advance isSecond, isCurrent, isOther]
      refine ⟨same, sameEnd, next, isNext, fun fewer isFewer => ?_⟩
      refine ⟨⟨first, second, isRest.symm, areOthers.symm, each, leads, ?_⟩, fun _ => ?_, atEnd,
        beside.reported, beside.waiting, beside.otherWaiting⟩
      · rw [List.length_cons] at short
        omega
      · exact congrArg Kind.trimsAfter (Likeness.kind same)

/-- Inside a tag both heads stand on tokens that stand for each other. -/
theorem current (beside : Beside like margin bound (.inside delimiter) tape other) :
    like.token tape.current other.current := by
  rcases beside.step with ⟨isOutside, _⟩ | ⟨same, _⟩
  · cases isOutside
  · exact same

theorem advance (beside : Beside like margin (bound + 1) (.inside delimiter) tape other)
    (inner : tape.current.kind.isInner = true) :
    Beside like margin bound (.inside delimiter) tape.advance other.advance := by
  rcases beside.step with ⟨isOutside, _⟩ | ⟨_, _, next, isNext, moves⟩
  · cases isOutside
  · rw [Region.eq_of_next?_isInner isNext inner] at moves
    exact moves bound (Nat.le_refl _)

theorem pass (beside : Beside like margin bound (.inside delimiter) tape other)
    (inner : tape.current.kind.isInner = true) :
    Beside like margin bound (.inside delimiter) tape.advance other.advance :=
  (beside.mono (Nat.le_succ bound)).advance inner

/-- The end of the tag leads out of it. -/
theorem leave (beside : Beside like margin (bound + 1) (.inside delimiter) tape other)
    (ends : tape.current.kind.isTagEnd = true) :
    Beside like margin bound .outside tape.advance other.advance := by
  rcases beside.step with ⟨isOutside, _⟩ | ⟨_, _, next, isNext, moves⟩
  · cases isOutside
  · rcases Region.inner_or_tagEnd isNext with ⟨inner, _⟩ | ⟨_, rfl⟩
    · revert inner ends
      cases tape.current.kind <;> simp [Kind.isTagEnd, Kind.isInner]
    · exact moves bound (Nat.le_refl _)

/-- What depends on what is behind a token from the inside of a tag is the same for both tapes. -/
theorem guarded (guard : Token → Bool) {value twin : Bool}
    (beside : Beside like margin bound (.inside delimiter) tape other)
    (inner : ∀ token, guard token = true → token.kind.isInner = true)
    (sameGuard : ∀ {first second}, like.token first second → guard second = guard first)
    (behind : Beside like margin bound (.inside delimiter) tape.advance other.advance →
      twin = value) :
    (guard other.current && twin) = (guard tape.current && value) := by
  rw [sameGuard beside.current]
  cases holds : guard tape.current with
  | false => rfl
  | true => rw [behind (beside.pass (inner _ holds))]

/-- What depends on the token behind one of a kind from the inside of tags. -/
theorem guardedKind {kind : Kind} (inner : kind.isInner = true) (test : Token → Bool)
    (beside : Beside like margin bound (.inside delimiter) tape other)
    (sameTest : ∀ {first second}, like.token first second → test second = test first) :
    (other.current.kind == kind && test other.advance.current) =
      (tape.current.kind == kind && test tape.advance.current) :=
  beside.guarded (fun token => token.kind == kind)
    (fun _ isKind => by rw [beq_iff_eq.mp isKind]; exact inner)
    (fun same => by rw [Likeness.kind same]) fun moved => sameTest moved.current

/-- What depends on the token behind a word. -/
theorem guardedWord (word : String) (test : Token → Bool)
    (beside : Beside like margin bound (.inside delimiter) tape other)
    (sameTest : ∀ {first second}, like.token first second → test second = test first) :
    (other.current.isName word && test other.advance.current) =
      (tape.current.isName word && test tape.advance.current) :=
  beside.guarded (·.isName word) (fun _ => isInner_of_isName)
    (fun same => Likeness.isName same word) fun moved => sameTest moved.current

theorem report (beside : Beside like margin bound region tape other)
    {diagnostic twin : Diagnostic} (told : like.told diagnostic twin) :
    Beside like margin bound region (tape.report diagnostic) (other.report twin) := by
  obtain ⟨more, others, isMore, areOthers, each⟩ := beside.reported
  refine ⟨beside.shared, beside.trims, beside.sameTrim,
    ⟨more ++ [diagnostic], others ++ [twin], ?_, ?_, ?_⟩,
    beside.waiting, beside.otherWaiting⟩
  · simp [Tape.report, isMore]
  · simp [Tape.report, areOthers]
  · exact List.rel_append each (.cons told .nil)

/-- Which closing tags are waited for around two places is not part of the places. -/
theorem surrounded (beside : Beside like margin bound region tape other)
    {enclosing otherEnclosing : List (List String)} (waiting : like.waits enclosing)
    (otherWaiting : like.waits otherEnclosing) :
    Beside like margin bound region { tape with enclosing := enclosing }
      { other with enclosing := otherEnclosing } :=
  ⟨beside.shared, beside.trims, beside.sameTrim, beside.reported, waiting, otherWaiting⟩

/-- Where nothing was reported on one tape, nothing was on the other. -/
theorem quiet (beside : Beside like margin bound region tape other)
    (isQuiet : tape.problems = margin.reports) : other.problems = margin.otherReports := by
  obtain ⟨more, others, isMore, areOthers, each⟩ := beside.reported
  have isEmpty : more = [] := by
    rw [isQuiet] at isMore
    have sizes := congrArg Array.size isMore
    simp only [Array.size_append, List.size_toArray] at sizes
    exact List.length_eq_zero_iff.mp (by omega)
  rw [isEmpty] at each
  cases each
  rw [areOthers]
  exact Array.append_empty

end Beside

/-! ### Two actions -/

/-- Whether a condition holds of what two actions give and where they lead, each on its own tape. -/
def Twin (tape other : Tape) (action twin : Read α) (ends : α → α → Tape → Tape → Prop) : Prop :=
  ends (action.run tape).1 (twin.run other).1 (action.run tape).2 (twin.run other).2

namespace Twin

variable {tape other : Tape} {action twin : Read α} {middle : α → α → Tape → Tape → Prop}
  {ends : β → β → Tape → Tape → Prop}

theorem bind {next others : α → Read β} (first : Twin tape other action twin middle)
    (rest : ∀ value same here there, middle value same here there →
      Twin here there (next value) (others same) ends) :
    Twin tape other (action >>= next) (twin >>= others) ends :=
  rest _ _ _ _ first

theorem weaken {weaker : α → α → Tape → Tape → Prop} (holds : Twin tape other action twin middle)
    (weakens : ∀ value same here there, middle value same here there →
      weaker value same here there) :
    Twin tape other action twin weaker :=
  weakens _ _ _ _ holds

theorem map {f g : α → β}
    (holds : Twin tape other action twin fun value same => ends (f value) (g same)) :
    Twin tape other (f <$> action) (g <$> twin) ends := holds

theorem pure {value same : α} (holds : middle value same tape other) :
    Twin tape other (Pure.pure value) (Pure.pure same) middle := holds

theorem ite {condition twinCondition : Prop} {_ : Decidable condition}
    {_ : Decidable twinCondition} {yes no otherYes otherNo : Read α}
    (same : twinCondition ↔ condition) (left : condition → Twin tape other yes otherYes middle)
    (right : ¬condition → Twin tape other no otherNo middle) :
    Twin tape other (if condition then yes else no) (if twinCondition then otherYes else otherNo)
      middle := by
  by_cases holds : condition
  · rw [if_pos holds, if_pos (same.mpr holds)]
    exact left holds
  · rw [if_neg holds, if_neg (mt same.mp holds)]
    exact right holds

/-- What comes after two actions that only look at their tapes. -/
theorem seeing {value same : α} {next others : α → Read β}
    (looks : action.run tape = (value, tape)) (alsoLooks : twin.run other = (same, other))
    (rest : Twin tape other (next value) (others same) ends) :
    Twin tape other (action >>= next) (twin >>= others) ends := by
  unfold Twin
  rw [run_bind, run_bind, looks, alsoLooks]
  exact rest

/-- Actions that do the same from the tapes on may take the place of the two. -/
theorem of_runs {plain plainTwin : Read α} (holds : Twin tape other action twin middle)
    (runs : plain.run tape = action.run tape) (twinRuns : plainTwin.run other = twin.run other) :
    Twin tape other plain plainTwin middle := by
  unfold Twin
  rw [runs, twinRuns]
  exact holds

theorem advances : Twin tape other Read.advance Read.advance fun token twin here there =>
    token = tape.current ∧ twin = other.current ∧ here = tape.advance ∧ there = other.advance :=
  ⟨rfl, rfl, rfl, rfl⟩

end Twin

/-- What holds of two turns that both go on or are both the last. -/
def turnsEnd (again done : α → α → Tape → Tape → Prop) : Turn α → Turn α → Tape → Tape → Prop
  | .again value, .again same => again value same
  | .done value, .done same => done value same
  | _, _ => fun _ _ => False

section Stays

variable {like : Likeness} {margin : Margin} {bound fewer : Nat} {region : Region}
  {delimiter : Delimiter} {tape other : Tape}

/-- Turns side by side, each of which passes over a shared token unless it is the last. Both loops
allow themselves enough of them. -/
theorem twin_turns {turn others : α → Read (Turn α)} {kept : α → α → Prop}
    {ends : α → α → Tape → Tape → Prop}
    (each : ∀ (limit : Nat) (value same : α) (here there : Tape), limit < bound → kept value same →
      Beside like margin (limit + 1) region here there →
      Twin here there (turn value) (others same)
        (turnsEnd (fun value same here there =>
          kept value same ∧ Beside like margin limit region here there) ends))
    {limit most otherMost : Nat} (isFewer : limit ≤ bound) (enough : limit ≤ most)
    (otherEnough : limit ≤ otherMost) {value same : α} (holds : kept value same)
    (beside : Beside like margin limit region tape other) :
    Twin tape other (turns turn most value) (turns others otherMost same) ends := by
  induction limit generalizing most otherMost value same tape other with
  | zero =>
      obtain ⟨_, isZero⟩ := beside.exists_succ
      cases isZero
  | succ limit inductionHypothesis =>
      obtain ⟨most, rfl⟩ := Nat.exists_eq_add_of_le' (Nat.le_trans (Nat.succ_pos limit) enough)
      obtain ⟨otherMost, rfl⟩ :=
        Nat.exists_eq_add_of_le' (Nat.le_trans (Nat.succ_pos limit) otherEnough)
      refine (each limit value same tape other isFewer holds beside).bind
        fun result twin here there ended => ?_
      match result, twin, ended with
      | .again next, .again other, ended =>
          exact inductionHypothesis (Nat.le_of_lt isFewer) (Nat.le_of_succ_le_succ enough)
            (Nat.le_of_succ_le_succ otherEnough) ended.1 ended.2
      | .done result, .done twin, ended => exact .pure ended

theorem twin_loop {turn others : α → Read (Turn α)} {kept : α → α → Prop}
    {ends : α → α → Tape → Tape → Prop}
    (each : ∀ (limit : Nat) (value same : α) (here there : Tape), limit < bound → kept value same →
      Beside like margin (limit + 1) region here there →
      Twin here there (turn value) (others same)
        (turnsEnd (fun value same here there =>
          kept value same ∧ Beside like margin limit region here there) ends))
    {value same : α} (holds : kept value same) (beside : Beside like margin bound region tape other) :
    Twin tape other (loop turn value) (loop others same) ends := by
  obtain ⟨least, beside, isLeast, enough, otherEnough⟩ := beside.least
  exact twin_turns each isLeast enough otherEnough holds beside

end Stays

end Stencil.Grammar
