import Mathlib
import Stencil.Proofs.Token.Region

/-!
Contract: the grammar of scanned token sequences, and how they answer to the problems reported.

Owns:
- sequences of texts, comments and tags that are closed and do not nest;
- that no two texts follow one another, and which tokens may hold nothing;
- the pairing of the ends put in for missing ones, and of the tokens that are no pieces of the
  language, with the problems that were reported for them.

Does not own: the regions by which scanning is followed (`Stencil.Proofs.Token.Region`) and the
places of the tokens (`Stencil.Proofs.Token.Tiling`).
-/

set_option autoImplicit false

namespace Stencil.Token

open Stencil.Text
open Stencil.Report (Code Diagnostic)

/-! ### Sequences of texts, comments and tags -/

/-- Texts, comments and tags after one another. A tag is an opening delimiter, tokens from the
inside of tags, and the end of the same delimiter. -/
inductive Constructs : List Token → Prop where
  | nothing : Constructs []
  | text {token : Token} {rest : List Token} (isText : token.kind = .text)
      (further : Constructs rest) : Constructs (token :: rest)
  | comment {token : Token} {rest : List Token} {trimBefore trimAfter : Bool}
      (isComment : token.kind = .comment trimBefore trimAfter) (further : Constructs rest) :
      Constructs (token :: rest)
  | tag {opening closing : Token} {inner rest : List Token} (delimiter : Delimiter)
      {trimBefore trimAfter : Bool} (opens : opening.kind = delimiter.startKind trimBefore)
      (inside : ∀ token ∈ inner, token.kind.isInner = true)
      (closes : closing.kind = delimiter.endKind trimAfter) (further : Constructs rest) :
      Constructs (opening :: (inner ++ closing :: rest))

/-- Tokens of the inside of tags are just those that are no text, no comment, no delimiter and not
the end of the input. -/
theorem Kind.isInner_eq (kind : Kind) :
    kind.isInner = (!kind.isOuter && !kind.isTagEnd) := by
  cases kind <;> rfl

theorem endKind_of_isTagEnd {delimiter : Delimiter} {kind : Kind} {next : Region}
    (isNext : (Region.inside delimiter).next? kind = some next) (isEnd : kind.isTagEnd = true) :
    ∃ trim, kind = delimiter.endKind trim := by
  cases kind with
  | variableEnd trim =>
      cases delimiter with
      | output => exact ⟨trim, rfl⟩
      | block => simp [Region.next?, Kind.isInner] at isNext
  | blockEnd trim =>
      cases delimiter with
      | output => simp [Region.next?, Kind.isInner] at isNext
      | block => exact ⟨trim, rfl⟩
  | _ => cases isEnd

/-- Tokens that lead out of a tag begin with those up to its end. -/
theorem Region.exists_tagEnd {delimiter : Delimiter} {tokens : List Token}
    (led : (inside delimiter).after? tokens = some outside) :
    ∃ (inner : List Token) (closing : Token) (rest : List Token) (trim : Bool),
      tokens = inner ++ closing :: rest ∧ (∀ token ∈ inner, token.kind.isInner = true) ∧
        closing.kind = delimiter.endKind trim ∧ outside.after? rest = some outside := by
  induction tokens with
  | nil => cases led
  | cons head tail inductionHypothesis =>
      rw [after?_cons, Option.bind_eq_some_iff] at led
      obtain ⟨next, isNext, tailLed⟩ := led
      rcases inner_or_tagEnd isNext with ⟨isInner, rfl⟩ | ⟨isEnd, rfl⟩
      · obtain ⟨inner, closing, rest, trim, rfl, allInner, closes, restLed⟩ :=
          inductionHypothesis tailLed
        exact ⟨head :: inner, closing, rest, trim, rfl,
          List.forall_mem_cons.mpr ⟨isInner, allInner⟩, closes, restLed⟩
      · obtain ⟨trim, closes⟩ := endKind_of_isTagEnd isNext isEnd
        exact ⟨[], head, tail, trim, rfl, by simp, closes, tailLed⟩

theorem constructs_of_after? (tokens : List Token)
    (led : Region.outside.after? tokens = some .outside) : Constructs tokens := by
  match tokens with
  | [] => exact .nothing
  | head :: tail =>
      rw [Region.after?_cons, Option.bind_eq_some_iff] at led
      obtain ⟨next, isNext, tailLed⟩ := led
      have whole (delimiter : Delimiter) (trimBefore : Bool)
          (opens : head.kind = delimiter.startKind trimBefore) : Constructs (head :: tail) := by
        rw [opens, Region.next?_startKind, Option.some.injEq] at isNext
        rw [← isNext] at tailLed
        obtain ⟨inner, closing, rest, trimAfter, isTail, allInner, closes, restLed⟩ :=
          Region.exists_tagEnd tailLed
        have shorter : rest.length < tail.length := by
          rw [isTail, List.length_append, List.length_cons]
          omega
        have further : Constructs rest := constructs_of_after? rest restLed
        rw [isTail]
        exact .tag delimiter opens allInner closes further
      cases isKind : head.kind with
      | variableStart trim => exact whole .output trim isKind
      | blockStart trim => exact whole .block trim isKind
      | text =>
          rw [isKind] at isNext
          cases isNext
          exact .text isKind (constructs_of_after? tail tailLed)
      | comment trimBefore trimAfter =>
          rw [isKind] at isNext
          cases isNext
          exact .comment isKind (constructs_of_after? tail tailLed)
      | _ =>
          rw [isKind] at isNext
          cases isNext
termination_by tokens.length
decreasing_by all_goals simp_wf <;> omega

/-! ### Texts stand apart -/

def NotBothText (first second : Token) : Prop := first.kind = .text → second.kind ≠ .text

/-- Whether no text goes on at the cursor: the source ends there, or a tag or comment opens. -/
def Cursor.StopsText (cursor : Cursor) : Prop :=
  cursor.rest = [] ∨ opensConstruct cursor.rest = true

theorem opensConstruct_of_endsVerbatim {text : List Char} (ends : endsVerbatim text = true) :
    opensConstruct text = true := by
  unfold endsVerbatim at ends
  split at ends
  · cases ends
  · rename_i rest found
    rw [eq_append_of_after? found]
    simp [opensConstruct]

theorem Cursor.stopsText_verbatim (cursor : Cursor) :
    (cursor.skip (distanceTo endsVerbatim cursor.rest)).StopsText := by
  rcases drop_distanceTo endsVerbatim cursor.rest with atEnd | ends
  · exact .inl atEnd
  · exact .inr (opensConstruct_of_endsVerbatim ends)

theorem Cursor.stopsText_text (cursor : Cursor) :
    (cursor.skip (distanceTo opensConstruct cursor.rest)).StopsText :=
  drop_distanceTo opensConstruct cursor.rest

theorem notBothText_of_ne {tokens : List Token} (notText : ∀ token ∈ tokens, token.kind ≠ .text) :
    tokens.IsChain NotBothText := by
  refine List.Pairwise.isChain (List.pairwise_of_forall_mem_list ?_)
  intro first firstMember second secondMember isText
  exact absurd isText (notText first firstMember)

theorem scanTag_kind_ne_text (delimiter : Delimiter) (opened : Position) (brackets : List Symbol)
    (cursor : Cursor) :
    ∀ token ∈ (scanTag delimiter opened brackets cursor).scan.tokens, token.kind ≠ .text := by
  have ended (trim : Bool) : delimiter.endKind trim ≠ .text := by
    cases delimiter <;> exact nofun
  fun_induction scanTag delimiter opened brackets cursor with
  | case1 => simpa [abandonTag, Cursor.mark] using ended false
  | case2 => simpa [Scan.one, Cursor.cut] using ended _
  | case3 => simpa [abandonTag, Cursor.mark] using ended false
  | case4 brackets cursor c rest isRest notClosed notOpened piece problems inner
      inductionHypothesis =>
      have isInner : piece.kind.isInner = true := pieceAt_kind_isInner delimiter c rest
      have notText : piece.kind ≠ .text := by
        intro isText
        rw [isText] at isInner
        cases isInner
      rw [Scan.tokens_append]
      exact List.forall_mem_append.mpr ⟨by simpa [Cursor.cut] using notText, inductionHypothesis⟩

theorem scanText_apart (cursor : Cursor) (count : Nat) :
    (scanText cursor count).tokens.IsChain NotBothText := by
  unfold scanText
  split
  · exact .nil
  · exact .singleton _

/-- A whole tag holds no two texts that follow one another, and text stops behind it if it ends
with text. -/
theorem scanWholeTag_apart (delimiter : Delimiter) (cursor : Cursor) :
    (scanWholeTag delimiter cursor).1.tokens.IsChain NotBothText ∧
      ∀ last ∈ (scanWholeTag delimiter cursor).1.tokens.getLast?, last.kind = .text →
        (scanWholeTag delimiter cursor).2.StopsText := by
  have notText : ∀ token ∈ (Scan.one (cursor.cut (delimiter.startKind (hasMarker cursor))
      (openerLength cursor)) ++ (scanTag delimiter cursor.position []
        (cursor.skip (openerLength cursor))).scan).tokens, token.kind ≠ .text := by
    have opening : delimiter.startKind (hasMarker cursor) ≠ .text := by
      cases delimiter <;> exact nofun
    rw [Scan.tokens_append]
    exact List.forall_mem_append.mpr
      ⟨by simpa [Scan.one, Cursor.cut] using opening, scanTag_kind_ne_text _ _ _ _⟩
  unfold scanWholeTag
  dsimp only
  split
  · rw [Scan.tokens_append]
    refine ⟨List.isChain_append.mpr ⟨notBothText_of_ne notText, scanText_apart _ _, ?_⟩, ?_⟩
    · intro last isLast _ _ isText
      exact absurd isText (notText last (List.mem_of_getLast? isLast))
    · intro _ _ _
      exact Cursor.stopsText_verbatim _
  · refine ⟨notBothText_of_ne notText, ?_⟩
    intro last isLast isText
    exact absurd isText (notText last (List.mem_of_getLast? isLast))

theorem scanConstruct_apart (cursor : Cursor) :
    (scanConstruct cursor).1.tokens.IsChain NotBothText ∧
      ∀ last ∈ (scanConstruct cursor).1.tokens.getLast?, last.kind = .text →
        (scanConstruct cursor).2.StopsText := by
  unfold scanConstruct
  split
  · exact scanWholeTag_apart .output cursor
  · split
    · exact scanWholeTag_apart .block cursor
    · split
      · unfold scanComment
        dsimp only
        split <;> simp [Scan.one, Cursor.cut]
      · exact ⟨scanText_apart _ _, fun _ _ _ => cursor.stopsText_text⟩

/-- Where text stops, no text is scanned next. -/
theorem Cursor.StopsText.head_ne_text {cursor : Cursor} (stops : cursor.StopsText) :
    ∀ first ∈ (scanFrom cursor).tokens.head?, first.kind ≠ .text := by
  unfold scanFrom
  split
  · simp [Scan.one, Cursor.mark]
  · rename_i unfinished
    have opens : opensConstruct cursor.rest = true := stops.resolve_left unfinished
    have whole (delimiter : Delimiter) (rest : Scan) :
        ∀ first ∈ ((scanWholeTag delimiter cursor).1 ++ rest).tokens.head?,
          first.kind ≠ .text := by
      unfold scanWholeTag
      dsimp only
      split <;> cases delimiter <;> simp [Scan.one, Cursor.cut, Delimiter.startKind]
    unfold scanConstruct
    split
    · exact whole .output _
    · split
      · exact whole .block _
      · split
        · unfold scanComment
          dsimp only
          split <;> simp [Scan.one, Cursor.cut]
        · simp_all [opensConstruct]

theorem scanFrom_apart (cursor : Cursor) : (scanFrom cursor).tokens.IsChain NotBothText := by
  fun_induction scanFrom cursor with
  | case1 => exact .singleton _
  | case2 cursor unfinished inductionHypothesis =>
      obtain ⟨apart, stops⟩ := scanConstruct_apart cursor
      rw [Scan.tokens_append]
      refine List.isChain_append.mpr ⟨apart, inductionHypothesis, ?_⟩
      intro last isLast first isFirst isText
      exact (stops last isLast isText).head_ne_text first isFirst

/-! ### Tokens and the problems reported for them -/

/-- Whether the token is the end put in for a tag that is not closed. -/
def putIn (token : Token) : Bool := token.kind.isTagEnd && token.lexeme.isEmpty

/-- Whether the problem is that of a tag that is not closed. -/
def tellsUnclosed (problem : Diagnostic) : Bool :=
  problem.code == .unterminatedExpression || problem.code == .unterminatedBlock

/-- Whether the token is the end put in for the tag that the problem reports, from its opening up
to that end. -/
def Closes (token : Token) (problem : Diagnostic) : Prop :=
  ∃ (delimiter : Delimiter) (opened here : Position),
    token = ⟨delimiter.endKind false, "", Span.point here⟩ ∧
      problem = .new delimiter.unclosed.1 delimiter.unclosed.2 ⟨opened, here⟩

/-- Whether the problem is that the token is no piece of the language. -/
def Rejects (token : Token) (problem : Diagnostic) : Prop :=
  problem = .new .unexpectedCharacter ("unexpected character '" ++ token.lexeme ++ "'") token.span

/-- What every part of a scanned source keeps: only the ends of tags and of the input hold nothing,
and its tokens and problems answer to one another, in order. -/
structure Scan.Answers (scan : Scan) : Prop where
  holds : ∀ token ∈ scan.tokens, token.lexeme = "" →
    token.kind.isTagEnd = true ∨ token.kind = .endOfInput
  closes : List.Forall₂ Closes (scan.tokens.filter putIn) (scan.problems.filter tellsUnclosed)
  rejects : List.Forall₂ Rejects (scan.tokens.filter (·.kind == .invalid))
    (scan.problems.filter (·.code == .unexpectedCharacter))

theorem Scan.Answers.append {first second : Scan} (left : first.Answers) (right : second.Answers) :
    (first ++ second).Answers where
  holds := List.forall_mem_append.mpr ⟨left.holds, right.holds⟩
  closes := by
    rw [tokens_append, problems_append, List.filter_append, List.filter_append]
    exact List.rel_append left.closes right.closes
  rejects := by
    rw [tokens_append, problems_append, List.filter_append, List.filter_append]
    exact List.rel_append left.rejects right.rejects

theorem Cursor.cut_ne_empty {cursor : Cursor} {count : Nat} (kind : Kind)
    (more : cursor.rest ≠ []) (some : 0 < count) : (cursor.cut kind count).lexeme ≠ "" := by
  simpa [Cursor.cut, String.ofList_eq_empty_iff] using And.intro (Nat.ne_of_gt some) more

/-- A token that holds something and is a piece of the language needs no problem of either kind. -/
theorem Scan.answers_of_quiet {token : Token} {problems : List Diagnostic}
    (filled : token.lexeme ≠ "") (valid : token.kind ≠ .invalid)
    (closed : problems.filter tellsUnclosed = [])
    (accepted : problems.filter (·.code == .unexpectedCharacter) = []) :
    Scan.Answers ⟨[token], problems⟩ where
  holds := by
    intro other member isEmpty
    rw [List.mem_singleton.mp member] at isEmpty
    exact absurd isEmpty filled
  closes := by
    have notPutIn : putIn token = false := by simp [putIn, filled]
    simp [notPutIn, closed]
  rejects := by
    have notInvalid : (token.kind == .invalid) = false := by simpa using valid
    simp [notInvalid, accepted]

/-- A piece is either no piece of the language, and reported as such, or has no problem but a
literal that is not closed. -/
theorem pieceAt_problem (delimiter : Delimiter) (c : Char) (rest : List Char) :
    pieceAt delimiter c rest =
        ⟨.invalid, 1, some (.unexpectedCharacter, "unexpected character '" ++ c.toString ++ "'")⟩ ∨
      (pieceAt delimiter c rest).kind ≠ .invalid ∧
        ∀ problem ∈ (pieceAt delimiter c rest).problem, problem.1 = .unterminatedString := by
  unfold pieceAt
  split
  · exact .inr ⟨nofun, nofun⟩
  · split
    · exact .inr ⟨nofun, nofun⟩
    · split
      · refine .inr ⟨?_, nofun⟩
        unfold numberPiece
        dsimp only
        split <;> exact nofun
      · split
        · unfold stringPiece
          split
          · exact .inr ⟨nofun, nofun⟩
          · exact .inr ⟨nofun, by simp⟩
        · unfold symbolPiece
          split
          · exact .inr ⟨nofun, nofun⟩
          · split
            · exact .inr ⟨nofun, nofun⟩
            · exact .inl rfl

theorem answers_piece (delimiter : Delimiter) {cursor : Cursor} {c : Char} {rest : List Char}
    (isRest : cursor.rest = c :: rest) :
    Scan.Answers ⟨[cursor.cut (pieceAt delimiter c rest).kind (pieceAt delimiter c rest).length],
      (pieceAt delimiter c rest).problem.toList.map fun problem =>
        .new problem.1 problem.2 (cursor.spanOf (pieceAt delimiter c rest).length)⟩ := by
  have filled : (cursor.cut (pieceAt delimiter c rest).kind
      (pieceAt delimiter c rest).length).lexeme ≠ "" :=
    Cursor.cut_ne_empty _ (by simp [isRest]) (pieceAt_length_pos delimiter c rest)
  rcases pieceAt_problem delimiter c rest with invalid | ⟨valid, onlyLiteral⟩
  · have lexeme : (cursor.cut .invalid 1).lexeme = c.toString := by
      simp [Cursor.cut, isRest]
    have rejected : Rejects (cursor.cut .invalid 1) (.new .unexpectedCharacter
        ("unexpected character '" ++ c.toString ++ "'") (cursor.spanOf 1)) := by
      rw [Rejects, lexeme]
      rfl
    rw [invalid] at filled ⊢
    exact ⟨by simpa using fun isEmpty => absurd isEmpty filled,
      by simp [putIn, tellsUnclosed, Cursor.cut, Kind.isTagEnd, Diagnostic.new],
      by simpa [Cursor.cut, Diagnostic.new] using rejected⟩
  · refine Scan.answers_of_quiet filled valid ?_ ?_
    · cases isProblem : (pieceAt delimiter c rest).problem with
      | none => rfl
      | some problem =>
          simp [Diagnostic.new, tellsUnclosed, onlyLiteral problem isProblem]
    · cases isProblem : (pieceAt delimiter c rest).problem with
      | none => rfl
      | some problem =>
          simp [Diagnostic.new, onlyLiteral problem isProblem]

/-- The end put in for a missing one answers to the problem that is reported with it. -/
theorem answers_abandonTag (delimiter : Delimiter) {opened : Position} {cursor : Cursor}
    (behind : opened.offset ≤ cursor.position.offset) :
    (abandonTag delimiter opened cursor).scan.Answers := by
  have span : Span.between opened cursor.position = ⟨opened, cursor.position⟩ :=
    if_neg (Nat.not_lt.mpr behind)
  have closed : Closes (cursor.mark (delimiter.endKind false))
      (.new delimiter.unclosed.1 delimiter.unclosed.2 ⟨opened, cursor.position⟩) :=
    ⟨delimiter, opened, cursor.position, rfl, rfl⟩
  unfold abandonTag
  rw [span]
  cases delimiter with
  | output =>
      exact ⟨by simp [Cursor.mark, Delimiter.endKind, Kind.isTagEnd],
        .cons closed .nil, .nil⟩
  | block =>
      exact ⟨by simp [Cursor.mark, Delimiter.endKind, Kind.isTagEnd],
        .cons closed .nil, .nil⟩

theorem Cursor.offset_le_skip (cursor : Cursor) (count : Nat) :
    cursor.position.offset ≤ (cursor.skip count).position.offset := by
  simp [Cursor.skip]

theorem answers_scanTag (delimiter : Delimiter) {opened : Position} (brackets : List Symbol)
    {cursor : Cursor} (behind : opened.offset ≤ cursor.position.offset) :
    (scanTag delimiter opened brackets cursor).scan.Answers := by
  fun_induction scanTag delimiter opened brackets cursor with
  | case1 => exact answers_abandonTag delimiter behind
  | case2 brackets cursor c rest isRest length trim closes =>
      have some : 0 < length := by
        unfold closerAt? at closes
        split at closes
        · cases closes
        · split at closes
          · cases closes
            decide
          · split at closes
            · cases closes
              decide
            · cases closes
      have valid : delimiter.endKind trim ≠ .invalid := by cases delimiter <;> exact Kind.noConfusion
      exact Scan.answers_of_quiet (Cursor.cut_ne_empty _ (by simp [isRest]) some) valid rfl rfl
  | case3 => exact answers_abandonTag delimiter behind
  | case4 brackets cursor c rest isRest notClosed notOpened piece problems inner
      inductionHypothesis =>
      exact (answers_piece delimiter isRest).append
        (inductionHypothesis (Nat.le_trans behind (cursor.offset_le_skip piece.length)))

theorem answers_scanText (cursor : Cursor) (count : Nat)
    (more : 0 < count → cursor.rest ≠ []) : (scanText cursor count).Answers := by
  unfold scanText
  split
  · exact ⟨List.forall_mem_nil _, .nil, .nil⟩
  · rename_i notZero
    have some : 0 < count := Nat.pos_of_ne_zero notZero
    exact Scan.answers_of_quiet (Cursor.cut_ne_empty _ (more some) some) nofun rfl rfl

theorem rest_ne_nil_of_distance {here : List Char → Bool} {text : List Char}
    (some : 0 < distanceTo here text) : text ≠ [] := by
  rintro rfl
  exact absurd some (Nat.lt_irrefl 0)

theorem answers_scanWholeTag (delimiter : Delimiter) {cursor : Cursor} (more : cursor.rest ≠ []) :
    (scanWholeTag delimiter cursor).1.Answers := by
  have some : 0 < openerLength cursor := by
    unfold openerLength
    split <;> decide
  have valid : delimiter.startKind (hasMarker cursor) ≠ .invalid := by
    cases delimiter <;> exact nofun
  have opening : Scan.Answers (.one (cursor.cut (delimiter.startKind (hasMarker cursor))
      (openerLength cursor))) :=
    Scan.answers_of_quiet (Cursor.cut_ne_empty _ more some) valid rfl rfl
  have whole := opening.append (answers_scanTag delimiter []
    (cursor.offset_le_skip (openerLength cursor)))
  unfold scanWholeTag
  dsimp only
  split
  · exact whole.append (answers_scanText _ _ rest_ne_nil_of_distance)
  · exact whole

theorem answers_scanConstruct {cursor : Cursor} (more : cursor.rest ≠ []) :
    (scanConstruct cursor).1.Answers := by
  unfold scanConstruct
  split
  · exact answers_scanWholeTag .output more
  · split
    · exact answers_scanWholeTag .block more
    · split
      · unfold scanComment
        dsimp only
        split
        · exact Scan.answers_of_quiet (Cursor.cut_ne_empty _ more (List.length_pos_iff.mpr more))
            nofun rfl rfl
        · exact Scan.answers_of_quiet (Cursor.cut_ne_empty _ more (by omega)) nofun rfl rfl
      · exact answers_scanText _ _ rest_ne_nil_of_distance

theorem answers_scanFrom (cursor : Cursor) : (scanFrom cursor).Answers := by
  fun_induction scanFrom cursor with
  | case1 cursor => exact ⟨by simp [Scan.one, Cursor.mark], .nil, .nil⟩
  | case2 cursor unfinished inductionHypothesis =>
      exact (answers_scanConstruct unfinished).append inductionHypothesis

/-! ### Whole sources -/

structure Scan.WellFormed (scan : Scan) : Prop extends scan.Answers where
  constructs : ∃ (body : List Token) (last : Token), scan.tokens = body ++ [last] ∧
    last.kind = .endOfInput ∧ Constructs body
  apart : scan.tokens.IsChain NotBothText

/-- The tokens of every source are texts, comments and tags that are closed and do not nest, no two
texts follow one another, and its unclosed tags and invalid characters are those reported. -/
theorem scan_wellFormed (source : String) : (scan source).WellFormed := by
  obtain ⟨body, last, tokens, led, isEnd⟩ := scanFrom_regions (Cursor.ofText source)
  exact {
    toAnswers := answers_scanFrom (Cursor.ofText source)
    constructs := ⟨body, last, tokens, isEnd, constructs_of_after? body led⟩
    apart := scanFrom_apart (Cursor.ofText source) }

end Stencil.Token
