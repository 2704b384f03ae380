import Stencil.Proofs.Grammar.Bodies
import Stencil.Proofs.Grammar.Opening

/-!
Contract: two tapes that match, and what is read inside their tags.

Owns:
- sequences of tokens that match: they have the same words, but for texts of which nothing is left
  in the first one;
- tapes that match from their heads on, outside tags and inside;
- what is read inside a tag of both, with everything that is reported.

Does not own: statements and bodies (`Stencil.Proofs.Grammar.Matching`).
-/

set_option autoImplicit false

namespace Stencil.Grammar

open Stencil.Report (Diagnostic)
open Stencil.Syntax
open Stencil.Text (Span)
open Stencil.Token (Kind Symbol Delimiter)
open Read Statement

variable {α β : Type}

/-! ### Tokens that match -/

/-- Tokens are compared by their words, and reports by what they say. Bodies may wait for any closing
tags. -/
def sameSaid : Likeness where
  token first second := wordOf second = wordOf first
  told first second := second.unplaced = first.unplaced
  waits _ := True
  word same := same
  mistake _ _ := rfl

/-- Whether two sequences of tokens without marks have the same words, but for texts of which
nothing is left in the first one. No verbatim body is among them. -/
inductive Matching : List Token → List Token → Prop where
  | ending {first second : Token} (isEnd : first.kind = .endOfInput)
      (same : sameSaid.token first second) : Matching [first] [second]
  | nothing {token : Token} {rest others : List Token} (isNothing : wordOf token = ⟨.text, ""⟩)
      (matching : Matching rest others) : Matching (token :: rest) others
  | text {first second : Token} {rest others : List Token} (isText : first.kind = .text)
      (same : sameSaid.token first second) (matching : Matching rest others) :
      Matching (first :: rest) (second :: others)
  | comment {first second : Token} {rest others : List Token}
      (isComment : first.kind = .comment false false) (same : sameSaid.token first second)
      (matching : Matching rest others) : Matching (first :: rest) (second :: others)
  | tag {delimiter : Delimiter} {opening otherOpening closing otherClosing : Token}
      {inner otherInner rest others : List Token} (opens : opening.kind = delimiter.startKind false)
      (same : sameSaid.token opening otherOpening)
      (isInner : ∀ token ∈ inner, token.kind.isInner = true)
      (each : List.Forall₂ sameSaid.token inner otherInner)
      (plain : delimiter = .block → ∀ token ∈ inner.head?, token.isName "raw" = false)
      (closes : closing.kind = delimiter.endKind false)
      (sameEnd : sameSaid.token closing otherClosing) (matching : Matching rest others) :
      Matching (opening :: (inner ++ closing :: rest))
        (otherOpening :: (otherInner ++ otherClosing :: others))

variable {rest others : List Token}

theorem Matching.ne_nil (matching : Matching rest others) : rest ≠ [] := by
  cases matching <;> exact List.cons_ne_nil _ _

theorem Matching.other_ne_nil (matching : Matching rest others) : others ≠ [] := by
  induction matching with
  | nothing _ _ inductionHypothesis => exact inductionHypothesis
  | _ => exact List.cons_ne_nil _ _

/-- What is true of no text, comment or opening delimiter without marks, and not of the end of the
input, is true of no token at the heads of tokens that match. -/
theorem Matching.heads {test : Kind → Bool} (ending : test .endOfInput = false)
    (text : test .text = false) (comment : test (.comment false false) = false)
    (opening : ∀ delimiter : Delimiter, test (delimiter.startKind false) = false)
    (matching : Matching rest others) :
    rest.head?.any (test ·.kind) = false ∧ others.head?.any (test ·.kind) = false := by
  induction matching with
  | ending isEnd same => simp [Likeness.kind same, isEnd, ending]
  | nothing isNothing _ inductionHypothesis =>
      have isText := congrArg Word.kind isNothing
      rw [kind_wordOf] at isText
      refine ⟨?_, inductionHypothesis.2⟩
      simp [isText, text]
  | text isText same => simp [Likeness.kind same, isText, text]
  | comment isComment same => simp [Likeness.kind same, isComment, comment]
  | tag opens same => simp [Likeness.kind same, opens, opening]

/-- No marks stand at the heads of tokens that match. -/
theorem Matching.unmarked (matching : Matching rest others) :
    rest.head?.any (·.kind.trimsBefore) = false ∧ others.head?.any (·.kind.trimsBefore) = false :=
  matching.heads rfl rfl rfl (Delimiter.rec rfl rfl)

/-! ### Tapes that match -/

/-- Whether the heads of two tapes stand outside tags before tokens that match, with fewer tokens
behind each of them than a bound. The same was reported on both, apart from places. -/
structure Parallel (bound otherBound : Nat) (tape other : Tape) : Prop where
  matching : Matching tape.remaining other.remaining
  trims : tape.trims = false
  otherTrims : other.trims = false
  enclosing : other.enclosing = tape.enclosing
  told : other.problems.toList.map Diagnostic.unplaced =
    tape.problems.toList.map Diagnostic.unplaced
  short : tape.following.length < bound
  otherShort : other.following.length < otherBound

section Parallel

variable {bound otherBound fewer otherFewer : Nat} {tape other : Tape}

theorem Parallel.mono (parallel : Parallel fewer otherFewer tape other) (isFewer : fewer ≤ bound)
    (otherIsFewer : otherFewer ≤ otherBound) : Parallel bound otherBound tape other :=
  { parallel with
    short := Nat.lt_of_lt_of_le parallel.short isFewer
    otherShort := Nat.lt_of_lt_of_le parallel.otherShort otherIsFewer }

/-- The least bounds are those that loops on the tapes allow themselves. -/
theorem Parallel.least (parallel : Parallel bound otherBound tape other) :
    Parallel (tape.following.length + 1) (other.following.length + 1) tape other :=
  { parallel with
    short := Nat.lt_succ_self _
    otherShort := Nat.lt_succ_self _ }

theorem Parallel.exists_succ (parallel : Parallel bound otherBound tape other) :
    ∃ fewer otherFewer, bound = fewer + 1 ∧ otherBound = otherFewer + 1 := by
  obtain ⟨fewer, rfl⟩ := Nat.exists_eq_add_one_of_ne_zero (Nat.ne_zero_of_lt parallel.short)
  obtain ⟨otherFewer, rfl⟩ :=
    Nat.exists_eq_add_one_of_ne_zero (Nat.ne_zero_of_lt parallel.otherShort)
  exact ⟨fewer, otherFewer, rfl, rfl⟩

/-- Which closing tags are waited for is the same for both tapes, whatever they are. -/
theorem Parallel.surrounded (parallel : Parallel bound otherBound tape other)
    (enclosing : List (List String)) :
    Parallel bound otherBound { tape with enclosing := enclosing }
      { other with enclosing := enclosing } :=
  ⟨parallel.matching, parallel.trims, parallel.otherTrims, rfl, parallel.told,
    parallel.short, parallel.otherShort⟩

/-- Outside tags there is no word under the heads. -/
theorem Parallel.not_isName (parallel : Parallel bound otherBound tape other) (word : String) :
    tape.current.isName word = false ∧ other.current.isName word = false := by
  have outside := parallel.matching.heads (show Kind.isInner .endOfInput = false from rfl) rfl rfl (Delimiter.rec rfl rfl)
  have outer (token : Token) (notInner : token.kind.isInner = false) : token.isName word = false :=
    Bool.eq_false_iff.mpr fun isName => Bool.eq_false_iff.mp notInner (isInner_of_isName isName)
  exact ⟨outer _ outside.1, outer _ outside.2⟩

theorem Parallel.report (parallel : Parallel bound otherBound tape other)
    {diagnostic twin : Diagnostic} (same : sameSaid.told diagnostic twin) :
    Parallel bound otherBound (tape.report diagnostic) (other.report twin) := by
  refine { parallel with told := ?_ }
  have same : twin.unplaced = diagnostic.unplaced := same
  simp [Tape.report, parallel.told, same]

end Parallel

/-- The lane of a tag, with the tokens behind it as the margin. -/
def Matching.lane (matching : Matching rest others) (delimiter : Delimiter) : Lane :=
  ⟨sameSaid, ⟨rest, others, #[], #[], matching.ne_nil, matching.other_ne_nil⟩, delimiter⟩

/-- Whether the heads of two tapes stand inside the same tag, with such an end and such tokens
behind it. -/
structure Matching.InTags (matching : Matching rest others) (delimiter : Delimiter)
    (closing twin : Token) (tape other : Tape) : Prop where
  beside : ∃ shared, (matching.lane delimiter).Beside shared tape other
  inTag : tape.InTag closing rest
  otherInTag : other.InTag twin others
  closes : closing.kind = delimiter.endKind false
  otherCloses : twin.kind = delimiter.endKind false
  enclosing : other.enclosing = tape.enclosing

/-- Whether the heads of two tapes stand inside the same tag, with tokens behind its end that match,
and of which there are not more than a bound. -/
def ParallelInside (bound otherBound : Nat) (delimiter : Delimiter) (tape other : Tape) : Prop :=
  ∃ (rest others : List Token) (matching : Matching rest others) (closing twin : Token),
    matching.InTags delimiter closing twin tape other ∧ rest.length ≤ bound ∧
      others.length ≤ otherBound

variable {bound otherBound : Nat} {delimiter : Delimiter} {tape other : Tape} {rel : α → α → Prop}
  {action twin : Read α}

/-- Whether two actions stay inside the tag they begin in, give values that are related, and report
the same, apart from places. -/
structure ReadsInside (rel : α → α → Prop) (action twin : Read α) : Prop where
  likewise : ∀ (margin : Margin) (delimiter : Delimiter) (shared : Nat),
    Lane.Likewise ⟨sameSaid, margin, delimiter⟩ shared rel action twin
  confined : Confined action
  otherConfined : Confined twin

/-- What is the same inside of all tags is the same inside of one. -/
theorem ReadsInside.of_likewise {action : Read α}
    (likewise : ∀ {lane : Lane} {shared : Nat}, lane.Likewise shared rel action action)
    (confined : Confined action) : ReadsInside rel action action :=
  ⟨fun _ _ _ => likewise, confined, confined⟩

/-- What two actions do that stay inside a tag: they stay inside the same tag on both tapes. -/
theorem ParallelInside.along (inside : ParallelInside bound otherBound delimiter tape other)
    (own : tape.Inside (action.run tape).2) (others : other.Inside (twin.run other).2)
    (likewise : ∀ (margin : Margin) (shared : Nat),
      Lane.Beside ⟨sameSaid, margin, delimiter⟩ shared tape other →
        Twin tape other action twin fun value same here there =>
          rel value same ∧ Lane.Beside ⟨sameSaid, margin, delimiter⟩ shared here there) :
    Twin tape other action twin fun value same here there =>
      rel value same ∧ ParallelInside bound otherBound delimiter here there := by
  obtain ⟨rest, behind, matching, closing, otherClosing, inTags, short, otherShort⟩ := inside
  obtain ⟨shared, beside⟩ := inTags.beside
  obtain ⟨holds, moved⟩ := likewise _ shared beside
  refine ⟨holds, _, _, matching, closing, otherClosing, ⟨⟨shared, moved⟩, inTags.inTag.inside own,
    inTags.otherInTag.inside others, inTags.closes, inTags.otherCloses, ?_⟩, short, otherShort⟩
  rw [others.enclosing, own.enclosing, inTags.enclosing]

theorem ParallelInside.read (inside : ParallelInside bound otherBound delimiter tape other)
    (reads : ReadsInside rel action twin) :
    Twin tape other action twin fun value same here there =>
      rel value same ∧ ParallelInside bound otherBound delimiter here there :=
  inside.along (reads.confined tape) (reads.otherConfined other) fun margin shared beside =>
    (reads.likewise margin delimiter shared).on beside

/-- What was said inside tags. -/
theorem told_of_reported {tape other : Tape}
    (reported : ∃ more others : List Diagnostic, tape.problems = #[] ++ more.toArray ∧
      other.problems = #[] ++ others.toArray ∧ List.Forall₂ sameSaid.told more others) :
    other.problems.toList.map Diagnostic.unplaced =
      tape.problems.toList.map Diagnostic.unplaced := by
  obtain ⟨more, others, isMore, areOthers, each⟩ := reported
  rw [isMore, areOthers, Array.empty_append, Array.empty_append]
  clear isMore areOthers
  induction each with
  | nil => rfl
  | @cons diagnostic twin _ _ same _ inductionHypothesis =>
      have same : twin.unplaced = diagnostic.unplaced := same
      rw [List.map_cons, List.map_cons, same, inductionHypothesis]

theorem reported_of_told {tape other : Tape}
    (told : other.problems.toList.map Diagnostic.unplaced =
      tape.problems.toList.map Diagnostic.unplaced) :
    ∃ more others : List Diagnostic, tape.problems = #[] ++ more.toArray ∧
      other.problems = #[] ++ others.toArray ∧ List.Forall₂ sameSaid.told more others := by
  refine ⟨tape.problems.toList, other.problems.toList, by simp, by simp, ?_⟩
  have each := List.forall₂_eq_eq_eq (α := Diagnostic) ▸ told.symm
  rw [List.forall₂_map_left_iff, List.forall₂_map_right_iff] at each
  exact each.imp fun _ _ same => same.symm

/-! ### Into tags and out of them -/

theorem problems_expectTagEnd (what : Kind) (tape : Tape) :
    ((expectTagEnd what).run tape).2.problems =
      if tape.current.kind.isTagEnd = true then tape.problems
      else tape.problems.push
        ((Mistake.expected what.describe tape.current.describe).toDiagnostic
          tape.current.span) := by
  rw [expectTagEnd, run_bind, run_atTagEnd, run_ite]
  split
  · exact Tape.problems_advance tape
  · rw [run_bind, problems_skipTag]
    rfl

/-- An action that leads out of a tag and reports the same on both tapes leads to tapes that
match. -/
theorem ParallelInside.left {action : Read α} [steady : Steady action]
    (inside : ParallelInside bound otherBound delimiter tape other) (exits : Exits action)
    (told : (action.run other).2.problems.toList.map Diagnostic.unplaced =
      (action.run tape).2.problems.toList.map Diagnostic.unplaced) :
    Parallel bound otherBound (action.run tape).2 (action.run other).2 := by
  obtain ⟨rest, others, matching, closing, otherClosing, inTags, short, otherShort⟩ := inside
  obtain ⟨shared, beside⟩ := inTags.beside
  have left := exits closing rest tape inTags.inTag
  have otherLeft := exits otherClosing others other inTags.otherInTag
  have notTrims {token : Token} (closes : token.kind = delimiter.endKind false) :
      token.kind.trimsAfter = false := by
    rw [closes]
    cases delimiter <;> rfl
  have length {tape : Tape} {rest : List Token} {bound : Nat} (isRemaining : tape.remaining = rest)
      (short : rest.length ≤ bound) : tape.following.length < bound := by
    rw [← isRemaining] at short
    exact short
  refine ⟨?_, ?_, ?_, ?_, told, length left.remaining short,
    length otherLeft.remaining otherShort⟩
  · rw [left.remaining, otherLeft.remaining]
    exact matching
  · rw [Tape.trims, left.previous]
    exact notTrims inTags.closes
  · rw [Tape.trims, otherLeft.previous]
    exact notTrims inTags.otherCloses
  · rw [(steady.onward tape).enclosing, (steady.onward other).enclosing, inTags.enclosing]

/-- Inside a tag both heads stand in a lane. -/
theorem ParallelInside.exists_beside
    (inside : ParallelInside bound otherBound delimiter tape other) :
    ∃ margin shared, Lane.Beside ⟨sameSaid, margin, delimiter⟩ shared tape other := by
  obtain ⟨rest, others, matching, closing, otherClosing, inTags, short, otherShort⟩ := inside
  obtain ⟨shared, beside⟩ := inTags.beside
  exact ⟨_, shared, beside⟩

theorem ParallelInside.told (inside : ParallelInside bound otherBound delimiter tape other) :
    other.problems.toList.map Diagnostic.unplaced =
      tape.problems.toList.map Diagnostic.unplaced := by
  obtain ⟨rest, others, matching, closing, otherClosing, inTags, short, otherShort⟩ := inside
  obtain ⟨shared, beside⟩ := inTags.beside
  exact told_of_reported beside.reported

/-- A token of a kind from the inside of tags is passed over on both tapes. -/
theorem ParallelInside.pass (inside : ParallelInside bound otherBound delimiter tape other)
    (inner : tape.current.kind.isInner = true) :
    Twin tape other advance advance fun token twin here there =>
      sameSaid.token token twin ∧ ParallelInside bound otherBound delimiter here there := by
  obtain ⟨margin, shared, beside⟩ := inside.exists_beside
  have same : sameSaid.token tape.current other.current := beside.current
  have otherInner : other.current.kind.isInner = true := by rw [Likeness.kind same, inner]
  exact inside.along (inside_advance inner) (inside_advance otherInner) fun margin shared beside =>
    twin_pass beside inner

theorem twin_skipTag (inside : ParallelInside bound otherBound delimiter tape other) :
    Twin tape other skipTag skipTag fun _ _ here there => Parallel bound otherBound here there := by
  refine inside.left exits_skipTag ?_
  rw [problems_skipTag, problems_skipTag, inside.told]

/-- The end of a tag leads out of it on both tapes, whatever stands before it. -/
theorem twin_expectTagEnd (what : Kind)
    (inside : ParallelInside bound otherBound delimiter tape other) :
    Twin tape other (expectTagEnd what) (expectTagEnd what) fun _ _ here there =>
      Parallel bound otherBound here there := by
  obtain ⟨margin, shared, beside⟩ := inside.exists_beside
  have same : sameSaid.token tape.current other.current := beside.current
  have told := inside.told
  refine inside.left (exits_expectTagEnd what) ?_
  rw [problems_expectTagEnd, problems_expectTagEnd, Likeness.kind same, Likeness.describe same]
  split
  · exact told
  · rw [Array.toList_push, Array.toList_push, List.map_append, List.map_append, told]
    rfl

theorem twin_expectBlockEnd (inside : ParallelInside bound otherBound delimiter tape other) :
    Twin tape other expectBlockEnd expectBlockEnd fun _ _ here there =>
      Parallel bound otherBound here there :=
  twin_expectTagEnd _ inside

theorem Tape.remaining_advance_tag {tape : Tape} {opening closing : Token} {inner rest : List Token}
    (isRemaining : tape.remaining = opening :: (inner ++ closing :: rest)) :
    tape.advance.remaining = inner ++ closing :: rest := by
  have isFollowing : tape.following = inner ++ closing :: rest := (List.cons.inj isRemaining).2
  rw [Tape.remaining_advance_of_more (by simp [isFollowing]), isFollowing]

theorem isInner_of_same {inner otherInner : List Token}
    (each : List.Forall₂ sameSaid.token inner otherInner)
    (isInner : ∀ token ∈ inner, token.kind.isInner = true) :
    ∀ token ∈ otherInner, token.kind.isInner = true := by
  induction each with
  | nil => exact isInner
  | cons same _ inductionHypothesis =>
      intro token member
      rcases List.mem_cons.mp member with rfl | member
      · rw [Likeness.kind same]
        exact isInner _ List.mem_cons_self
      · exact inductionHypothesis
          (fun other isOther => isInner other (List.mem_cons_of_mem _ isOther)) token member

theorem not_text_of_tag {inner rest : List Token} {closing : Token}
    (isRemaining : tape.remaining = inner ++ closing :: rest)
    (isInner : ∀ token ∈ inner, token.kind.isInner = true)
    (closes : closing.kind = delimiter.endKind false) : tape.current.kind ≠ .text := by
  intro isText
  cases inner with
  | nil =>
      rw [Tape.current_of_remaining isRemaining, closes] at isText
      cases delimiter <;> cases isText
  | cons token inner =>
      have inner := isInner token List.mem_cons_self
      rw [← Tape.current_of_remaining isRemaining, isText] at inner
      cases inner

/-- Heads that stand inside the same tag stand side by side. -/
theorem Matching.beside (matching : Matching rest others) {inner otherInner : List Token}
    {closing otherClosing : Token} (isRemaining : tape.remaining = inner ++ closing :: rest)
    (isOther : other.remaining = otherInner ++ otherClosing :: others)
    (isInner : ∀ token ∈ inner, token.kind.isInner = true)
    (each : List.Forall₂ sameSaid.token inner otherInner)
    (closes : closing.kind = delimiter.endKind false)
    (sameEnd : sameSaid.token closing otherClosing)
    (told : other.problems.toList.map Diagnostic.unplaced =
      tape.problems.toList.map Diagnostic.unplaced) :
    ∃ shared, (matching.lane delimiter).Beside shared tape other := by
  have leads : (Token.Region.inside delimiter).after? (inner ++ [closing]) = some .outside := by
    rw [Token.Region.after?_append _ (Token.Region.after?_of_isInner delimiter isInner)]
    simp [closes]
  refine ⟨(inner ++ [closing]).length + 1,
    ⟨inner ++ [closing], otherInner ++ [otherClosing], ?_, ?_,
    List.rel_append each (.cons sameEnd .nil), leads, Nat.lt_succ_self _⟩,
    fun isText => absurd isText (not_text_of_tag isRemaining isInner closes),
    fun init last isInit isText => ?_, reported_of_told told, trivial, trivial⟩
  · rw [isRemaining, List.append_assoc]
    rfl
  · rw [isOther, List.append_assoc]
    rfl
  · rw [isRemaining, List.append_cons, List.append_cons init] at isInit
    obtain ⟨_, isLast⟩ := List.append_inj' (List.append_cancel_right isInit) rfl
    rw [← List.singleton_inj.mp isLast, closes] at isText
    cases delimiter <;> cases isText

/-- The opening delimiter leads into the tag on both tapes. -/
theorem Parallel.enter {trim : Bool} (parallel : Parallel (bound + 1) (otherBound + 1) tape other)
    (opens : tape.current.kind = delimiter.startKind trim) :
    sameSaid.token tape.current other.current ∧
      ParallelInside bound otherBound delimiter tape.advance other.advance ∧
        (delimiter = .block → tape.advance.current.isName "raw" = false) := by
  have matching := parallel.matching
  generalize isRemaining : tape.remaining = tokens at matching
  generalize isOther : other.remaining = otherTokens at matching
  cases matching with
  | ending isEnd =>
      rw [Tape.current_of_remaining isRemaining, isEnd] at opens
      cases delimiter <;> cases opens
  | nothing isNothing =>
      have isText := congrArg Word.kind isNothing
      rw [kind_wordOf, ← Tape.current_of_remaining isRemaining, opens] at isText
      cases delimiter <;> cases isText
  | text isText =>
      rw [Tape.current_of_remaining isRemaining, isText] at opens
      cases delimiter <;> cases opens
  | comment isComment =>
      rw [Tape.current_of_remaining isRemaining, isComment] at opens
      cases delimiter <;> cases opens
  | @tag region opening otherOpening closing otherClosing inner otherInner rest others isOpening
      same isInner each plain closes sameEnd matching =>
      obtain rfl : region = delimiter := by
        rw [Tape.current_of_remaining isRemaining, isOpening] at opens
        revert opens
        cases region <;> cases delimiter <;> simp [Delimiter.startKind]
      have isAdvance := Tape.remaining_advance_tag isRemaining
      have isOtherAdvance := Tape.remaining_advance_tag isOther
      have isTagEnd {token : Token} (ends : token.kind = region.endKind false) :
          token.kind.isTagEnd = true := by
        rw [ends]
        cases region <;> rfl
      have otherCloses := (Likeness.kind sameEnd).trans closes
      have enclosing : other.advance.enclosing = tape.advance.enclosing := by
        rw [Tape.enclosing_advance, Tape.enclosing_advance, parallel.enclosing]
      have told : other.advance.problems.toList.map Diagnostic.unplaced =
          tape.advance.problems.toList.map Diagnostic.unplaced := by
        rw [Tape.problems_advance, Tape.problems_advance, parallel.told]
      have lengths := congrArg List.length isRemaining
      have otherLengths := congrArg List.length isOther
      simp only [Tape.remaining, List.length_cons, List.length_append] at lengths otherLengths
      have short := parallel.short
      have otherShort := parallel.otherShort
      have beside := matching.beside isAdvance isOtherAdvance isInner each closes sameEnd told
      rw [Tape.current_of_remaining isRemaining, Tape.current_of_remaining isOther]
      refine ⟨same, ⟨rest, others, matching, closing, otherClosing, ⟨beside,
        ⟨⟨inner, isAdvance, isInner⟩, isTagEnd closes, matching.ne_nil⟩,
        ⟨⟨otherInner, isOtherAdvance, isInner_of_same each isInner⟩, isTagEnd otherCloses,
          matching.other_ne_nil⟩, closes, otherCloses, enclosing⟩, by omega, by omega⟩,
        fun isBlock => ?_⟩
      cases inner with
      | nil =>
          rw [Tape.current_of_remaining isAdvance, Token.isName, closes]
          cases region <;> rfl
      | cons token inner =>
          rw [Tape.current_of_remaining isAdvance]
          exact plain isBlock token rfl

/-! ### Outside tags -/

/-- Both heads move on past tokens that have no marks. -/
theorem Parallel.moved {token otherToken : Token}
    (parallel : Parallel (bound + 1) (otherBound + 1) tape other)
    (isRemaining : tape.remaining = token :: rest)
    (isOther : other.remaining = otherToken :: others)
    (matching : Matching rest others) (unmarked : token.kind.trimsAfter = false)
    (otherUnmarked : otherToken.kind.trimsAfter = false) :
    Parallel bound otherBound tape.advance other.advance := by
  obtain ⟨next, behind, isNext⟩ := List.exists_cons_of_ne_nil matching.ne_nil
  obtain ⟨otherNext, otherBehind, isOtherNext⟩ := List.exists_cons_of_ne_nil matching.other_ne_nil
  have short := parallel.short
  have otherShort := parallel.otherShort
  rw [show tape.following = next :: behind from isNext ▸ (List.cons.inj isRemaining).2] at short
  rw [show other.following = otherNext :: otherBehind from
    isOtherNext ▸ (List.cons.inj isOther).2] at otherShort
  rw [Tape.remaining_advance (isNext ▸ isRemaining), Tape.remaining_advance (isOtherNext ▸ isOther)]
  refine ⟨?_, unmarked, otherUnmarked, parallel.enclosing, parallel.told,
    Nat.lt_of_succ_lt_succ short, Nat.lt_of_succ_lt_succ otherShort⟩
  rw [isNext, isOtherNext] at matching
  exact matching

/-- A text of which nothing is left is passed over on the first tape. -/
theorem Parallel.skip {token : Token} (parallel : Parallel (bound + 1) otherBound tape other)
    (isRemaining : tape.remaining = token :: rest) (isText : token.kind = .text)
    (matching : Matching rest other.remaining) : Parallel bound otherBound tape.advance other := by
  obtain ⟨next, behind, isNext⟩ := List.exists_cons_of_ne_nil matching.ne_nil
  have short := parallel.short
  rw [show tape.following = next :: behind from isNext ▸ (List.cons.inj isRemaining).2] at short
  rw [Tape.remaining_advance (isNext ▸ isRemaining)]
  refine ⟨?_, ?_, parallel.otherTrims, parallel.enclosing, parallel.told,
    Nat.lt_of_succ_lt_succ short, parallel.otherShort⟩
  · rw [isNext] at matching
    exact matching
  · simp [Tape.trims, isText, Kind.trimsAfter]

/-- Where the heads of two tapes stand that match: at the end of the input, before a text of which
nothing is left, before the same text or comment, or before the same tag. -/
theorem Parallel.stands (parallel : Parallel (bound + 1) (otherBound + 1) tape other) :
    (tape.current.kind = .endOfInput ∧ other.current.kind = .endOfInput) ∨
      (wordOf tape.current = ⟨.text, ""⟩ ∧ tape.following ≠ [] ∧
        Parallel bound (otherBound + 1) tape.advance other) ∨
      ((tape.current.kind = .text ∨ tape.current.kind = .comment false false) ∧
        sameSaid.token tape.current other.current ∧ tape.following ≠ [] ∧ other.following ≠ [] ∧
          Parallel bound otherBound tape.advance other.advance) ∨
      ∃ delimiter : Delimiter, tape.current.kind = delimiter.startKind false ∧
        tape.following ≠ [] ∧ other.following ≠ [] := by
  have matching := parallel.matching
  generalize isRemaining : tape.remaining = tokens at matching
  generalize isOther : other.remaining = otherTokens at matching
  have following := fun {token : Token} {rest : List Token}
    (isTokens : tape.remaining = token :: rest) => (List.cons.inj isTokens).2
  have otherFollowing := fun {token : Token} {rest : List Token}
    (isTokens : other.remaining = token :: rest) => (List.cons.inj isTokens).2
  cases matching with
  | ending isEnd same =>
      refine .inl ⟨?_, ?_⟩
      · rw [Tape.current_of_remaining isRemaining, isEnd]
      · rw [Tape.current_of_remaining isOther, Likeness.kind same, isEnd]
  | nothing isNothing matching =>
      have isText := congrArg Word.kind isNothing
      refine .inr (.inl ⟨?_, ?_, ?_⟩)
      · rw [Tape.current_of_remaining isRemaining, isNothing]
      · rw [following isRemaining]
        exact matching.ne_nil
      · exact parallel.skip isRemaining isText (isOther ▸ matching)
  | text isText same matching =>
      have otherText := (Likeness.kind same).trans isText
      refine .inr (.inr (.inl ⟨.inl ?_, ?_, ?_, ?_, ?_⟩))
      · rw [Tape.current_of_remaining isRemaining, isText]
      · rw [Tape.current_of_remaining isRemaining, Tape.current_of_remaining isOther]
        exact same
      · exact following isRemaining ▸ matching.ne_nil
      · exact otherFollowing isOther ▸ matching.other_ne_nil
      · exact parallel.moved isRemaining isOther matching (by rw [isText]; rfl)
          (by rw [otherText]; rfl)
  | comment isComment same matching =>
      have otherComment := (Likeness.kind same).trans isComment
      refine .inr (.inr (.inl ⟨.inr ?_, ?_, ?_, ?_, ?_⟩))
      · rw [Tape.current_of_remaining isRemaining, isComment]
      · rw [Tape.current_of_remaining isRemaining, Tape.current_of_remaining isOther]
        exact same
      · exact following isRemaining ▸ matching.ne_nil
      · exact otherFollowing isOther ▸ matching.other_ne_nil
      · exact parallel.moved isRemaining isOther matching (by rw [isComment]; rfl)
          (by rw [otherComment]; rfl)
  | @tag delimiter _ _ _ _ _ _ _ _ isOpening _ _ _ _ _ _ matching =>
      refine .inr (.inr (.inr ⟨delimiter, ?_, ?_, ?_⟩))
      · rw [Tape.current_of_remaining isRemaining, isOpening]
      · rw [following isRemaining]
        simp
      · rw [otherFollowing isOther]
        simp

end Stencil.Grammar
