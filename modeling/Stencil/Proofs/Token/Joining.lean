import Stencil.Proofs.Grammar.Body
import Stencil.Proofs.Token.Apart
import Stencil.Proofs.Token.Tiling

/-!
Contract: texts that stand one behind another are scanned one by one.

Owns:
- a text in which nothing is wrong has the same tokens when a tag, a comment or nothing stands
  behind it, unless it ends with a verbatim body that is never closed;
- such a text has tokens of the same words wherever it stands;
- tokens of text hold at least one character.

Does not own: how the tokens are read (`Stencil.Proofs.Grammar.Segment`).
-/

set_option autoImplicit false

namespace Stencil.Token

open Stencil.Grammar
  (Word wordOf kept kept_append scanTag_of_closer scanTag_of_piece)
open Stencil.Text (Position isBlank distanceTo)

variable {delimiter : Delimiter} {c : Char} {text rest behind : List Char}

/-! ### Places with more text behind them -/

/-- The same place with a text behind what is still to be read. -/
def Cursor.followedBy (cursor : Cursor) (behind : List Char) : Cursor :=
  ⟨cursor.position, cursor.rest ++ behind⟩

variable {cursor : Cursor} {count : Nat}

theorem Cursor.skip_followedBy (short : count ≤ cursor.rest.length) (behind : List Char) :
    (cursor.followedBy behind).skip count =
      (cursor.skip count).followedBy behind := by
  simp only [Cursor.followedBy, Cursor.skip, List.take_append_of_le_length short,
    List.drop_append_of_le_length short]

theorem Cursor.spanOf_followedBy (short : count ≤ cursor.rest.length) (behind : List Char) :
    (cursor.followedBy behind).spanOf count = cursor.spanOf count := by
  rw [Cursor.spanOf, Cursor.skip_followedBy short]
  rfl

theorem Cursor.cut_followedBy (kind : Kind) (short : count ≤ cursor.rest.length)
    (behind : List Char) :
    (cursor.followedBy behind).cut kind count = cursor.cut kind count := by
  rw [Cursor.cut, Cursor.spanOf_followedBy short, Cursor.followedBy,
    List.take_append_of_le_length short]
  rfl

theorem getLast?_of_suffix (notBrace : text.getLast? ≠ some '{') (isSuffix : rest <:+ text) :
    rest.getLast? ≠ some '{' := by
  obtain ⟨before, rfl⟩ := isSuffix
  rw [List.getLast?_append] at notBrace
  intro isBrace
  rw [isBrace] at notBrace
  exact notBrace rfl

/-! ### Tags -/

/-- A tag in which nothing is wrong reads the same with a text behind it that resumes. -/
theorem scanTag_followedBy (resumes : Resumes behind) {opened : Position} {brackets : List Symbol}
    (notBrace : cursor.rest.getLast? ≠ some '{')
    (quiet : (scanTag delimiter opened brackets cursor).scan.problems = []) :
    let result := scanTag delimiter opened brackets cursor
    scanTag delimiter opened brackets (cursor.followedBy behind) =
      { result with cursor := result.cursor.followedBy behind } := by
  fun_induction scanTag delimiter opened brackets cursor with
  | case1 => cases quiet
  | case2 brackets cursor c rest isRest length trim closes =>
      have short := closerAt?_length_le closes
      rw [← isRest] at short
      rw [← closerAt?_append resumes] at closes
      have isLonger : (cursor.followedBy behind).rest = c :: (rest ++ behind) :=
        congrArg (· ++ behind) isRest
      rw [scanTag_of_closer isLonger closes, Cursor.cut_followedBy _ short,
        Cursor.skip_followedBy short]
  | case3 => cases quiet
  | case4 brackets cursor c rest isRest notClosed notOpened piece problems inner
      inductionHypothesis =>
      obtain ⟨noProblem, quietInner⟩ := List.append_eq_nil_iff.mp quiet
      have quietPiece : piece.problem = none :=
        Option.toList_eq_nil_iff.mp (List.map_eq_nil_iff.mp noProblem)
      have short : piece.length ≤ cursor.rest.length := by
        rw [isRest]
        exact pieceAt_length_le delimiter c rest
      have notBlank : isBlank c = true → ∀ next ∈ behind.head?, isBlank next = false := by
        intro _ next member
        rw [resumes.head next member]
        decide
      have isPiece : pieceAt delimiter c (rest ++ behind) = piece :=
        pieceAt_append resumes.apart notBlank quietPiece
      have isLonger : (cursor.followedBy behind).rest = c :: (rest ++ behind) :=
        congrArg (· ++ behind) isRest
      rw [← closerAt?_append resumes] at notClosed
      rw [isRest] at notBrace
      have notOpenedFirst : ¬ opensConstruct (c :: (rest ++ behind)) = true := by
        rw [← List.cons_append, opensConstruct_append (List.cons_ne_nil _ _) notBrace]
        exact notOpened
      have notBraceLater : (cursor.skip piece.length).rest.getLast? ≠ some '{' := by
        rw [← isRest] at notBrace
        exact getLast?_of_suffix notBrace (List.drop_suffix _ _)
      rw [scanTag_of_piece isLonger notClosed (Bool.eq_false_iff.mpr notOpenedFirst) isPiece
        quietPiece, Cursor.cut_followedBy _ short, Cursor.skip_followedBy short]
      simp only [inductionHypothesis notBraceLater quietInner]
      rw [show problems = [] from noProblem]

/-! ### Whole tags -/

theorem hasMarker_followedBy (resumes : Resumes behind) (long : 2 ≤ cursor.rest.length) :
    hasMarker (cursor.followedBy behind) = hasMarker cursor := by
  rw [hasMarker, hasMarker, Cursor.followedBy, List.drop_append_of_le_length long]
  cases cursor.rest.drop 2 with
  | cons c rest => rfl
  | nil =>
      cases isHead : behind.head? with
      | none =>
          rw [List.nil_append, isHead]
          rfl
      | some c =>
          rw [List.nil_append, isHead, resumes.head c isHead]
          rfl

theorem openerLength_le (long : 2 ≤ cursor.rest.length) :
    openerLength cursor ≤ cursor.rest.length := by
  unfold openerLength
  split
  · rename_i isMarked
    have positive : (cursor.rest.drop 2).length ≠ 0 := by
      intro isEmpty
      rw [hasMarker, List.length_eq_zero_iff.mp isEmpty] at isMarked
      cases isMarked
    rw [List.length_drop] at positive
    omega
  · exact long

theorem scanText_followedBy (short : count ≤ cursor.rest.length) :
    scanText (cursor.followedBy behind) count = scanText cursor count := by
  rw [scanText, scanText, Cursor.cut_followedBy _ short]

/-- The tokens of a tag behind its opening delimiter: those inside, and its end. -/
theorem tokens_scanTag (delimiter : Delimiter) (opened : Position) (brackets : List Symbol)
    (cursor : Cursor) :
    ∃ inners closing, (scanTag delimiter opened brackets cursor).scan.tokens = inners ++ [closing] ∧
      (∀ token ∈ inners, token.kind.isInner = true) ∧
        ∃ trim, closing.kind = delimiter.endKind trim := by
  have noneInside : ∀ token ∈ ([] : List Token), token.kind.isInner = true := fun _ member =>
    absurd member List.not_mem_nil
  fun_induction scanTag delimiter opened brackets cursor with
  | case1 => exact ⟨[], _, rfl, noneInside, false, rfl⟩
  | case2 _ _ _ _ _ _ trim => exact ⟨[], _, rfl, noneInside, trim, rfl⟩
  | case3 => exact ⟨[], _, rfl, noneInside, false, rfl⟩
  | case4 brackets cursor c rest _ _ _ piece problems inner inductionHypothesis =>
      obtain ⟨inners, closing, areTokens, areInner, closes⟩ := inductionHypothesis
      refine ⟨cursor.cut piece.kind piece.length :: inners, closing, ?_, ?_, closes⟩
      · rw [Scan.tokens_append, areTokens]
        rfl
      · intro token member
        rcases List.mem_cons.mp member with rfl | isLater
        · exact pieceAt_kind_isInner delimiter c rest
        · exact areInner token isLater

/-- Whether a construct is the tag of a verbatim body that is never closed, with the text that
follows up to the end. -/
structure Unclosed (result : Scan × Cursor) : Prop where
  tokens : ∃ opening name closing texts trim,
    kept result.1.tokens = opening :: name :: closing :: texts ∧
      opening.kind = .blockStart trim ∧ wordOf name = .name "raw" ∧
        closing.kind.isTagEnd = true ∧ ∀ token ∈ texts, token.kind = .text
  finished : result.2.rest = []

/-- The tokens that begin a verbatim body are its name and the end of its tag. -/
theorem kept_of_beginsVerbatim {inners : List Token} {closing : Token}
    (areInner : ∀ token ∈ inners, token.kind.isInner = true) (closes : closing.kind.isTagEnd = true)
    (begins : beginsVerbatim (inners ++ [closing]) = true) :
    ∃ name, kept (inners ++ [closing]) = [name, closing] ∧ wordOf name = .name "raw" := by
  have inside : ((inners ++ [closing]).filter fun token =>
      !token.kind.isTrivia && !token.kind.isTagEnd) = kept inners := by
    have keepsInners : (inners.filter fun token => !token.kind.isTrivia && !token.kind.isTagEnd) =
        kept inners :=
      List.filter_congr fun token member => by
        rw [Grammar.isTagEnd_of_isInner (areInner token member), Bool.not_false, Bool.and_true]
    rw [List.filter_append, keepsInners]
    simp [closes]
  unfold beginsVerbatim at begins
  rw [inside] at begins
  split at begins
  · rename_i name isSingle
    have isKept : kept [closing] = [closing] := by
      simp [kept, (Grammar.isTrivia_of_isTagEnd closes).1]
    refine ⟨name, ?_, ?_⟩
    · rw [kept_append, isSingle, isKept]
      rfl
    · simp only [Token.isName, Bool.and_eq_true, beq_iff_eq] at begins
      rw [wordOf, begins.1, begins.2]
      rfl
  · cases begins

/-- A verbatim body whose end is not found reaches to the end of the text. -/
theorem unclosed_of_not_found {opening : Token} {trim : Bool} {inside : TagScan}
    (opens : opening.kind = .blockStart trim) {inners : List Token} {closing : Token}
    (areTokens : inside.scan.tokens = inners ++ [closing])
    (areInner : ∀ token ∈ inners, token.kind.isInner = true) (closes : closing.kind.isTagEnd = true)
    (begins : beginsVerbatim inside.scan.tokens = true)
    (notFound : inside.cursor.rest.length ≤ count) :
    Unclosed (Scan.one opening ++ inside.scan ++ scanText inside.cursor count,
      inside.cursor.skip count) := by
  rw [areTokens] at begins
  obtain ⟨name, isKept, isRaw⟩ := kept_of_beginsVerbatim areInner closes begins
  have matters : kept [opening] = [opening] := by
    simp [kept, opens, Kind.isTrivia]
  refine ⟨⟨opening, name, closing, kept (scanText inside.cursor count).tokens, trim, ?_, opens, isRaw,
    closes, ?_⟩, List.drop_eq_nil_of_le notFound⟩
  · rw [Scan.tokens_append, Scan.tokens_append, kept_append, kept_append, areTokens, isKept,
      Scan.one, matters]
    rfl
  · intro token member
    have isText := (List.mem_filter.mp member).1
    unfold scanText at isText
    split at isText
    · cases isText
    · rw [List.mem_singleton.mp isText]
      rfl

/-- The inside of the tag at the cursor. -/
def insideTag (delimiter : Delimiter) (cursor : Cursor) : TagScan :=
  scanTag delimiter cursor.position [] (cursor.skip (openerLength cursor))

/-- The opening delimiter of the tag at the cursor. -/
def openingOf (delimiter : Delimiter) (cursor : Cursor) : Token :=
  cursor.cut (delimiter.startKind (hasMarker cursor)) (openerLength cursor)

/-- Whether the tag at the cursor begins a verbatim body. -/
def IsVerbatim (delimiter : Delimiter) (cursor : Cursor) : Prop :=
  delimiter = .block ∧ (insideTag delimiter cursor).closed = true ∧
    beginsVerbatim (insideTag delimiter cursor).scan.tokens = true

/-- How far the verbatim body behind the tag at the cursor reaches. -/
def verbatimLength (delimiter : Delimiter) (cursor : Cursor) : Nat :=
  distanceTo endsVerbatim (insideTag delimiter cursor).cursor.rest

theorem scanWholeTag_of_verbatim (verbatim : IsVerbatim delimiter cursor) :
    scanWholeTag delimiter cursor =
      (Scan.one (openingOf delimiter cursor) ++ (insideTag delimiter cursor).scan ++
        scanText (insideTag delimiter cursor).cursor (verbatimLength delimiter cursor),
        (insideTag delimiter cursor).cursor.skip (verbatimLength delimiter cursor)) :=
  if_pos verbatim

theorem scanWholeTag_of_not_verbatim (plain : ¬ IsVerbatim delimiter cursor) :
    scanWholeTag delimiter cursor =
      (Scan.one (openingOf delimiter cursor) ++ (insideTag delimiter cursor).scan,
        (insideTag delimiter cursor).cursor) :=
  if_neg plain

theorem insideTag_quiet (quiet : (scanWholeTag delimiter cursor).1.problems = []) :
    (insideTag delimiter cursor).scan.problems = [] := by
  by_cases verbatim : IsVerbatim delimiter cursor
  · rw [scanWholeTag_of_verbatim verbatim] at quiet
    exact (List.append_eq_nil_iff.mp (List.append_eq_nil_iff.mp quiet).1).2
  · rw [scanWholeTag_of_not_verbatim verbatim] at quiet
    exact (List.append_eq_nil_iff.mp quiet).2

/-- A whole tag in which nothing is wrong reads the same with a text behind it that resumes, unless
it begins a verbatim body that is never closed. -/
theorem scanWholeTag_followedBy (resumes : Resumes behind)
    (notBrace : cursor.rest.getLast? ≠ some '{') (long : 2 ≤ cursor.rest.length)
    (quiet : (scanWholeTag delimiter cursor).1.problems = []) :
    scanWholeTag delimiter (cursor.followedBy behind) =
        ((scanWholeTag delimiter cursor).1, (scanWholeTag delimiter cursor).2.followedBy behind) ∨
      Unclosed (scanWholeTag delimiter cursor) := by
  have short := openerLength_le long
  have sameMarker := hasMarker_followedBy resumes long
  have sameLength : openerLength (cursor.followedBy behind) = openerLength cursor := by
    rw [openerLength, openerLength, sameMarker]
  have sameOpening : openingOf delimiter (cursor.followedBy behind) = openingOf delimiter cursor := by
    rw [openingOf, sameLength, sameMarker, Cursor.cut_followedBy _ short]
    rfl
  have sameInside : insideTag delimiter (cursor.followedBy behind) =
      { insideTag delimiter cursor with
        cursor := (insideTag delimiter cursor).cursor.followedBy behind } := by
    rw [insideTag, sameLength, Cursor.skip_followedBy short]
    exact scanTag_followedBy resumes (getLast?_of_suffix notBrace (List.drop_suffix _ _))
      (insideTag_quiet quiet)
  have sameKind : IsVerbatim delimiter (cursor.followedBy behind) ↔ IsVerbatim delimiter cursor := by
    rw [IsVerbatim, IsVerbatim, sameInside]
  by_cases verbatim : IsVerbatim delimiter cursor
  · rw [scanWholeTag_of_verbatim verbatim, scanWholeTag_of_verbatim (sameKind.mpr verbatim)]
    by_cases found : verbatimLength delimiter cursor <
        (insideTag delimiter cursor).cursor.rest.length
    · have sameBody : verbatimLength delimiter (cursor.followedBy behind) =
          verbatimLength delimiter cursor := by
        rw [verbatimLength, sameInside]
        exact distanceTo_append (fun _ nonempty _ => endsVerbatim_append resumes nonempty)
          (.inl found)
      rw [sameBody, sameInside, sameOpening, scanText_followedBy (Nat.le_of_lt found),
        Cursor.skip_followedBy (Nat.le_of_lt found)]
      exact .inl rfl
    · obtain ⟨inners, closing, areTokens, areInner, trim, closes⟩ :=
        tokens_scanTag delimiter cursor.position [] (cursor.skip (openerLength cursor))
      obtain ⟨rfl, _, begins⟩ := verbatim
      have ends : closing.kind.isTagEnd = true := by
        rw [closes]
        rfl
      exact .inr (unclosed_of_not_found rfl areTokens areInner ends begins (Nat.not_lt.mp found))
  · rw [scanWholeTag_of_not_verbatim verbatim,
      scanWholeTag_of_not_verbatim (mt sameKind.mp verbatim), sameInside, sameOpening]
    exact .inl rfl

/-! ### Comments and text -/

/-- How far it is from the opener of the comment at the cursor to its closer. -/
def commentLength (cursor : Cursor) : Nat :=
  distanceTo commentCloser.isPrefixOf (cursor.rest.drop 2)

/-- A comment that is closed. -/
theorem scanComment_of_closed (closes : commentLength cursor < (cursor.rest.drop 2).length) :
    scanComment cursor =
      (.one (cursor.cut (.comment (hasMarker cursor)
          (((cursor.rest.drop 2).take (commentLength cursor)).getLast? == some '-'))
        (2 + commentLength cursor + 2)), cursor.skip (2 + commentLength cursor + 2)) :=
  if_neg (Nat.not_le.mpr closes)

theorem closed_of_quiet_comment (quiet : (scanComment cursor).1.problems = []) :
    commentLength cursor < (cursor.rest.drop 2).length := by
  refine Nat.not_le.mp fun unclosed => ?_
  rw [show scanComment cursor = _ from if_pos unclosed] at quiet
  cases quiet

theorem scanComment_followedBy (resumes : Resumes behind) (long : 2 ≤ cursor.rest.length)
    (quiet : (scanComment cursor).1.problems = []) :
    scanComment (cursor.followedBy behind) =
      ((scanComment cursor).1, (scanComment cursor).2.followedBy behind) := by
  have closes := closed_of_quiet_comment quiet
  have isInside : (cursor.followedBy behind).rest.drop 2 = cursor.rest.drop 2 ++ behind :=
    List.drop_append_of_le_length long
  have sameLength : commentLength (cursor.followedBy behind) = commentLength cursor := by
    rw [commentLength, isInside]
    exact distanceTo_append (fun _ _ _ => isPrefixOf_append (resumes.foreign (by decide)))
      (.inl closes)
  have stillCloses : commentLength (cursor.followedBy behind) <
      ((cursor.followedBy behind).rest.drop 2).length := by
    rw [sameLength, isInside, List.length_append]
    omega
  have short : 2 + commentLength cursor + 2 ≤ cursor.rest.length := by
    have isCloser : commentCloser.isPrefixOf
        ((cursor.rest.drop 2).drop (commentLength cursor)) = true := by
      rcases Text.drop_distanceTo commentCloser.isPrefixOf (cursor.rest.drop 2) with
        isEmpty | isCloser
      · exact absurd (List.drop_eq_nil_iff.mp isEmpty) (Nat.not_le.mpr closes)
      · exact isCloser
    have shorter := (List.isPrefixOf_iff_prefix.mp isCloser).length_le
    rw [List.length_drop, List.length_drop] at shorter
    have two : commentCloser.length = 2 := rfl
    omega
  rw [scanComment_of_closed closes, scanComment_of_closed stillCloses, sameLength, isInside,
    hasMarker_followedBy resumes long, List.take_append_of_le_length (Nat.le_of_lt closes),
    Cursor.cut_followedBy _ short, Cursor.skip_followedBy short]

/-! ### Texts -/

theorem length_of_opener {second : Char} (opens : ['{', second].isPrefixOf text = true) :
    2 ≤ text.length :=
  (List.isPrefixOf_iff_prefix.mp opens).length_le

/-- A construct in which nothing is wrong reads the same with a text behind it that resumes, unless
it begins a verbatim body that is never closed. -/
theorem scanConstruct_followedBy (resumes : Resumes behind) (nonempty : cursor.rest ≠ [])
    (notBrace : cursor.rest.getLast? ≠ some '{')
    (quiet : (scanConstruct cursor).1.problems = []) :
    let result := scanConstruct cursor
    scanConstruct (cursor.followedBy behind) = (result.1, result.2.followedBy behind) ∨
      Unclosed result := by
  have sameOutput : Delimiter.output.opener.isPrefixOf (cursor.followedBy behind).rest =
      Delimiter.output.opener.isPrefixOf cursor.rest :=
    isPrefixOf_opener_append nonempty notBrace '{' behind
  have sameBlock : Delimiter.block.opener.isPrefixOf (cursor.followedBy behind).rest =
      Delimiter.block.opener.isPrefixOf cursor.rest :=
    isPrefixOf_opener_append nonempty notBrace '%' behind
  have sameComment : commentOpener.isPrefixOf (cursor.followedBy behind).rest =
      commentOpener.isPrefixOf cursor.rest :=
    isPrefixOf_opener_append nonempty notBrace '#' behind
  rw [scanConstruct, scanConstruct, sameOutput, sameBlock, sameComment]
  rw [scanConstruct] at quiet
  by_cases isOutput : Delimiter.output.opener.isPrefixOf cursor.rest = true
  · rw [if_pos isOutput] at quiet
    simp only [if_pos isOutput]
    exact scanWholeTag_followedBy resumes notBrace (length_of_opener isOutput) quiet
  by_cases isBlock : Delimiter.block.opener.isPrefixOf cursor.rest = true
  · rw [if_neg isOutput, if_pos isBlock] at quiet
    simp only [if_neg isOutput, if_pos isBlock]
    exact scanWholeTag_followedBy resumes notBrace (length_of_opener isBlock) quiet
  by_cases isComment : commentOpener.isPrefixOf cursor.rest = true
  · rw [if_neg isOutput, if_neg isBlock, if_pos isComment] at quiet
    simp only [if_neg isOutput, if_neg isBlock, if_pos isComment]
    exact .inl (scanComment_followedBy resumes (length_of_opener isComment) quiet)
  have short := Text.distanceTo_le_length opensConstruct cursor.rest
  have sameLength : distanceTo opensConstruct (cursor.followedBy behind).rest =
      distanceTo opensConstruct cursor.rest :=
    distanceTo_append (fun rest nonempty isSuffix => opensConstruct_append nonempty
      (getLast?_of_suffix notBrace isSuffix) behind) (.inr resumes)
  simp only [if_neg isOutput, if_neg isBlock, if_neg isComment]
  rw [sameLength, scanText_followedBy short, Cursor.skip_followedBy short]
  exact .inl rfl

/-- Whether tokens end with a verbatim body that is never closed. -/
def EndsUnclosed (tokens : List Token) : Prop :=
  ∃ before opening name closing texts trim,
    kept tokens = before ++ opening :: name :: closing :: texts ∧
      Region.outside.after? before = some .outside ∧ opening.kind = .blockStart trim ∧
        wordOf name = .name "raw" ∧ closing.kind.isTagEnd = true ∧
          ∀ token ∈ texts, token.kind = .text

theorem EndsUnclosed.prepend {first tokens : List Token} (unclosed : EndsUnclosed tokens)
    (led : Region.outside.after? first = some .outside) : EndsUnclosed (first ++ tokens) := by
  obtain ⟨before, opening, name, closing, texts, trim, isKept, leads, rest⟩ := unclosed
  refine ⟨kept first ++ before, opening, name, closing, texts, trim, ?_, ?_, rest⟩
  · rw [kept_append, isKept, List.append_assoc]
  · rw [Region.after?_append _ (Grammar.after?_kept led), leads]

theorem Unclosed.ends {result : Scan × Cursor} (unclosed : Unclosed result) :
    EndsUnclosed result.1.tokens := by
  obtain ⟨opening, name, closing, texts, trim, isKept, rest⟩ := unclosed.tokens
  exact ⟨[], opening, name, closing, texts, trim, isKept, rfl, rest⟩

/-- The point behind all that is still to be read stays where it is. -/
theorem Covers.advanceAll_eq {start stop : Cursor} {tokens : List Token}
    (covers : Covers start tokens stop) :
    stop.position.advanceAll stop.rest = start.position.advanceAll start.rest := by
  induction covers with
  | nothing => rfl
  | @piece cursor _ _ _ count _ inductionHypothesis =>
      rw [inductionHypothesis, Cursor.skip, ← Position.advanceAll_append, List.take_append_drop]

theorem Scan.append_assoc (first second third : Scan) :
    first ++ second ++ third = first ++ (second ++ third) := by
  refine (Scan.mk.injEq _ _ _ _).mpr ⟨?_, ?_⟩
  · exact List.append_assoc _ _ _
  · exact List.append_assoc _ _ _

/-- The end of the input stands behind all that is to be read. -/
theorem scanFrom_stop (cursor : Cursor) :
    ∃ tokens, (scanFrom cursor).tokens = tokens ++
      [Cursor.mark ⟨cursor.position.advanceAll cursor.rest, []⟩ .endOfInput] := by
  fun_induction scanFrom cursor with
  | case1 cursor finished =>
      refine ⟨[], ?_⟩
      rw [finished]
      rfl
  | case2 cursor unfinished inductionHypothesis =>
      obtain ⟨tokens, areTokens⟩ := inductionHypothesis
      refine ⟨(scanConstruct cursor).1.tokens ++ tokens, ?_⟩
      rw [Scan.tokens_append, areTokens, (covers_scanConstruct cursor).advanceAll_eq,
        List.append_assoc]

/-- A text in which nothing is wrong keeps its tokens when another one resumes behind it, which has
its own tokens there, unless a verbatim body is never closed in the first one. -/
theorem scanFrom_followedBy (resumes : Resumes behind)
    (notBrace : cursor.rest.getLast? ≠ some '{') (quiet : (scanFrom cursor).problems = []) :
    ∃ tokens stop, (scanFrom cursor).tokens = tokens ++ [stop] ∧
      (scanFrom (cursor.followedBy behind) =
          ⟨tokens, []⟩ ++ scanFrom ⟨cursor.position.advanceAll cursor.rest, behind⟩ ∨
        EndsUnclosed tokens) := by
  fun_induction scanFrom cursor with
  | case1 cursor finished =>
      refine ⟨[], _, rfl, .inl ?_⟩
      rw [Cursor.followedBy, finished]
      rfl
  | case2 cursor unfinished inductionHypothesis =>
      obtain ⟨quietFirst, quietRest⟩ := List.append_eq_nil_iff.mp quiet
      have covers := covers_scanConstruct cursor
      have isSuffix : (scanConstruct cursor).2.rest <:+ cursor.rest := ⟨_, covers.lexemes⟩
      obtain ⟨tokens, stop, areTokens, reads⟩ :=
        inductionHypothesis (getLast?_of_suffix notBrace isSuffix) quietRest
      refine ⟨(scanConstruct cursor).1.tokens ++ tokens, stop, ?_, ?_⟩
      · rw [Scan.tokens_append, areTokens, List.append_assoc]
      · rcases scanConstruct_followedBy resumes unfinished notBrace quietFirst with same | unclosed
        · refine reads.imp (fun sameRest => ?_) fun unclosed =>
            unclosed.prepend (after?_scanConstruct cursor)
          have unfinishedLonger : (cursor.followedBy behind).rest ≠ [] :=
            List.append_ne_nil_of_left_ne_nil unfinished behind
          have isQuiet : (scanConstruct cursor).1 = ⟨(scanConstruct cursor).1.tokens, []⟩ := by
            rw [← quietFirst]
          rw [scanFrom, dif_neg unfinishedLonger, same, sameRest, covers.advanceAll_eq, isQuiet]
          exact (Scan.append_assoc _ _ _).symm
        · refine .inr ?_
          have isEmpty : tokens = [] := by
            rw [scanFrom, dif_pos unclosed.finished] at areTokens
            have isEnd : [] ++ [(scanConstruct cursor).2.mark .endOfInput] = tokens ++ [stop] :=
              areTokens
            exact (List.append_inj' isEnd rfl).1.symm
          rw [isEmpty, List.append_nil]
          exact unclosed.ends

/-! ### Other places -/

/-- Whether the second scan has the words of the first one, and nothing is wrong with it. -/
structure Scan.Moved (first second : Scan) : Prop where
  words : second.tokens.map wordOf = first.tokens.map wordOf
  quiet : second.problems = []

theorem Scan.Moved.append {first second third fourth : Scan} (left : first.Moved second)
    (right : third.Moved fourth) : (first ++ third).Moved (second ++ fourth) where
  words := by
    rw [tokens_append, tokens_append, List.map_append, List.map_append, left.words, right.words]
  quiet := List.append_eq_nil_iff.mpr ⟨left.quiet, right.quiet⟩

variable {other : Cursor}

theorem moved_cut (sameRest : other.rest = cursor.rest) (kind : Kind) (count : Nat) :
    (Scan.one (cursor.cut kind count)).Moved (.one (other.cut kind count)) := by
  refine ⟨?_, rfl⟩
  simp only [Scan.one, List.map_singleton, wordOf, Cursor.cut, sameRest]

theorem moved_scanText (sameRest : other.rest = cursor.rest) (count : Nat) :
    (scanText cursor count).Moved (scanText other count) := by
  unfold scanText
  split
  · exact ⟨rfl, rfl⟩
  · exact moved_cut sameRest _ _

theorem rest_skip (sameRest : other.rest = cursor.rest) (count : Nat) :
    (other.skip count).rest = (cursor.skip count).rest :=
  congrArg (List.drop count) sameRest

/-- Where a tag stands makes no difference for the words that it holds. -/
theorem moved_scanTag (sameRest : other.rest = cursor.rest) {opened : Position}
    (otherOpened : Position) {brackets : List Symbol}
    (quiet : (scanTag delimiter opened brackets cursor).scan.problems = []) :
    let result := scanTag delimiter opened brackets cursor
    let moved := scanTag delimiter otherOpened brackets other
    result.scan.Moved moved.scan ∧ moved.closed = result.closed ∧
      moved.cursor.rest = result.cursor.rest := by
  fun_induction scanTag delimiter opened brackets cursor generalizing other with
  | case1 => cases quiet
  | case2 brackets cursor c rest isRest length trim closes =>
      rw [scanTag_of_closer (sameRest.trans isRest) closes]
      exact ⟨moved_cut sameRest _ _, rfl, rest_skip sameRest _⟩
  | case3 => cases quiet
  | case4 brackets cursor c rest isRest notClosed notOpened piece problems inner =>
      rename_i inductionHypothesis
      obtain ⟨noProblem, quietInner⟩ := List.append_eq_nil_iff.mp quiet
      have quietPiece : piece.problem = none :=
        Option.toList_eq_nil_iff.mp (List.map_eq_nil_iff.mp noProblem)
      obtain ⟨moved, sameClosed, sameBehind⟩ :=
        inductionHypothesis (rest_skip sameRest piece.length) quietInner
      rw [scanTag_of_piece (sameRest.trans isRest) notClosed (Bool.eq_false_iff.mpr notOpened) rfl
        quietPiece]
      refine ⟨?_, sameClosed, sameBehind⟩
      rw [show problems = [] from noProblem]
      exact (moved_cut sameRest piece.kind piece.length).append moved

theorem hasMarker_moved (sameRest : other.rest = cursor.rest) :
    hasMarker other = hasMarker cursor := by
  rw [hasMarker, hasMarker, sameRest]

/-- Whether a tag begins a verbatim body depends on its words only. -/
theorem beginsVerbatim_eq (tokens : List Token) :
    beginsVerbatim tokens = decide (((tokens.map wordOf).filter fun word =>
      !word.kind.isTrivia && !word.kind.isTagEnd) = [.name "raw"]) := by
  have mapped : ((tokens.map wordOf).filter fun word =>
      !word.kind.isTrivia && !word.kind.isTagEnd) =
        (tokens.filter fun token => !token.kind.isTrivia && !token.kind.isTagEnd).map wordOf :=
    List.filter_map
  rw [mapped, beginsVerbatim]
  split
  · rename_i token isSingle
    rw [isSingle]
    simp [Token.isName, wordOf, Word.name, Bool.beq_eq_decide_eq]
  · rename_i notSingle
    refine (decide_eq_false fun isRaw => ?_).symm
    obtain ⟨token, isSingle, _⟩ := List.map_eq_singleton_iff.mp isRaw
    exact notSingle token isSingle

theorem moved_scanWholeTag (sameRest : other.rest = cursor.rest)
    (quiet : (scanWholeTag delimiter cursor).1.problems = []) :
    (scanWholeTag delimiter cursor).1.Moved (scanWholeTag delimiter other).1 ∧
      (scanWholeTag delimiter other).2.rest = (scanWholeTag delimiter cursor).2.rest := by
  have sameMarker := hasMarker_moved sameRest
  have sameLength : openerLength other = openerLength cursor := by
    rw [openerLength, openerLength, sameMarker]
  have movedOpening : (Scan.one (openingOf delimiter cursor)).Moved
      (.one (openingOf delimiter other)) := by
    rw [openingOf, openingOf, sameLength, sameMarker]
    exact moved_cut sameRest _ _
  obtain ⟨movedInside, sameClosed, sameBehind⟩ : (insideTag delimiter cursor).scan.Moved
      (insideTag delimiter other).scan ∧
        (insideTag delimiter other).closed = (insideTag delimiter cursor).closed ∧
          (insideTag delimiter other).cursor.rest = (insideTag delimiter cursor).cursor.rest := by
    rw [insideTag, insideTag, sameLength]
    exact moved_scanTag (rest_skip sameRest _) _ (insideTag_quiet quiet)
  have sameKind : IsVerbatim delimiter other ↔ IsVerbatim delimiter cursor := by
    rw [IsVerbatim, IsVerbatim, sameClosed, beginsVerbatim_eq, beginsVerbatim_eq,
      movedInside.words]
  by_cases verbatim : IsVerbatim delimiter cursor
  · have sameBody : verbatimLength delimiter other = verbatimLength delimiter cursor := by
      rw [verbatimLength, verbatimLength, sameBehind]
    rw [scanWholeTag_of_verbatim verbatim, scanWholeTag_of_verbatim (sameKind.mpr verbatim), sameBody]
    exact ⟨(movedOpening.append movedInside).append (moved_scanText sameBehind _),
      rest_skip sameBehind _⟩
  · rw [scanWholeTag_of_not_verbatim verbatim,
      scanWholeTag_of_not_verbatim (mt sameKind.mp verbatim)]
    exact ⟨movedOpening.append movedInside, sameBehind⟩

theorem moved_scanComment (sameRest : other.rest = cursor.rest)
    (quiet : (scanComment cursor).1.problems = []) :
    (scanComment cursor).1.Moved (scanComment other).1 ∧
      (scanComment other).2.rest = (scanComment cursor).2.rest := by
  have closes := closed_of_quiet_comment quiet
  have sameLength : commentLength other = commentLength cursor := by
    rw [commentLength, commentLength, sameRest]
  have otherCloses : commentLength other < (other.rest.drop 2).length := by
    rw [sameLength, sameRest]
    exact closes
  rw [scanComment_of_closed closes, scanComment_of_closed otherCloses, sameLength, sameRest,
    hasMarker_moved sameRest]
  exact ⟨moved_cut sameRest _ _, rest_skip sameRest _⟩

theorem moved_scanConstruct (sameRest : other.rest = cursor.rest)
    (quiet : (scanConstruct cursor).1.problems = []) :
    (scanConstruct cursor).1.Moved (scanConstruct other).1 ∧
      (scanConstruct other).2.rest = (scanConstruct cursor).2.rest := by
  unfold scanConstruct at quiet ⊢
  rw [sameRest]
  split
  · rename_i isOutput
    rw [if_pos isOutput] at quiet
    exact moved_scanWholeTag sameRest quiet
  · rename_i notOutput
    rw [if_neg notOutput] at quiet
    split
    · rename_i isBlock
      rw [if_pos isBlock] at quiet
      exact moved_scanWholeTag sameRest quiet
    · rename_i notBlock
      rw [if_neg notBlock] at quiet
      split
      · rename_i isComment
        rw [if_pos isComment] at quiet
        exact moved_scanComment sameRest quiet
      · exact ⟨moved_scanText sameRest _, rest_skip sameRest _⟩

/-- A text in which nothing is wrong has tokens of the same words wherever it stands. -/
theorem moved_scanFrom (sameRest : other.rest = cursor.rest)
    (quiet : (scanFrom cursor).problems = []) : (scanFrom cursor).Moved (scanFrom other) := by
  fun_induction scanFrom cursor generalizing other with
  | case1 cursor finished =>
      rw [scanFrom, dif_pos (sameRest.trans finished)]
      exact ⟨rfl, rfl⟩
  | case2 cursor unfinished inductionHypothesis =>
      obtain ⟨quietFirst, quietRest⟩ := List.append_eq_nil_iff.mp quiet
      obtain ⟨moved, sameBehind⟩ := moved_scanConstruct sameRest quietFirst
      have unfinishedOther : other.rest ≠ [] := by
        rw [sameRest]
        exact unfinished
      have isOther : scanFrom other = (scanConstruct other).1 ++ scanFrom (scanConstruct other).2 := by
        rw [scanFrom, dif_neg unfinishedOther]
      rw [isOther]
      exact moved.append (inductionHypothesis sameBehind quietRest)

/-! ### Tokens of text -/

/-- Whether each token of text holds at least one character. -/
def Filled (tokens : List Token) : Prop :=
  ∀ token ∈ tokens, token.kind = .text → token.lexeme ≠ ""

theorem Filled.append {first second : List Token} (left : Filled first) (right : Filled second) :
    Filled (first ++ second) := fun token member =>
  (List.mem_append.mp member).elim (left token) (right token)

theorem filled_of_no_text {tokens : List Token} (noText : ∀ token ∈ tokens, token.kind ≠ .text) :
    Filled tokens := fun token member isText => absurd isText (noText token member)

theorem filled_scanText (within : count ≤ cursor.rest.length) :
    Filled (scanText cursor count).tokens := by
  unfold scanText
  split
  · exact List.forall_mem_nil _
  · rename_i positive
    intro token member _ isEmpty
    rw [List.mem_singleton.mp member] at isEmpty
    have nothing : cursor.rest.take count = [] := by simpa [Cursor.cut] using isEmpty
    have lengths := congrArg List.length nothing
    rw [List.length_take, List.length_nil] at lengths
    omega

theorem filled_scanTag (delimiter : Delimiter) (opened : Position) (brackets : List Symbol)
    (cursor : Cursor) : Filled (scanTag delimiter opened brackets cursor).scan.tokens := by
  obtain ⟨inners, closing, areTokens, areInner, trim, closes⟩ :=
    tokens_scanTag delimiter opened brackets cursor
  rw [areTokens]
  refine filled_of_no_text fun token member isText => ?_
  rcases List.mem_append.mp member with isInner | isClosing
  · have inner := areInner token isInner
    rw [isText] at inner
    cases inner
  · rw [List.mem_singleton.mp isClosing, closes] at isText
    cases delimiter <;> cases isText

theorem filled_scanWholeTag (delimiter : Delimiter) (cursor : Cursor) :
    Filled (scanWholeTag delimiter cursor).1.tokens := by
  have opening : Filled [openingOf delimiter cursor] := filled_of_no_text fun token member isText => by
    rw [List.mem_singleton.mp member] at isText
    cases delimiter <;> cases isText
  have whole := opening.append
    (filled_scanTag delimiter cursor.position [] (cursor.skip (openerLength cursor)))
  by_cases verbatim : IsVerbatim delimiter cursor
  · rw [scanWholeTag_of_verbatim verbatim]
    exact whole.append (filled_scanText (Text.distanceTo_le_length _ _))
  · rw [scanWholeTag_of_not_verbatim verbatim]
    exact whole

theorem filled_scanComment (cursor : Cursor) : Filled (scanComment cursor).1.tokens := by
  refine filled_of_no_text fun token member isText => ?_
  unfold scanComment at member
  dsimp only at member
  split at member <;> (rw [List.mem_singleton.mp member] at isText; cases isText)

/-- No token of text is empty. -/
theorem filled_scanFrom (cursor : Cursor) : Filled (scanFrom cursor).tokens := by
  fun_induction scanFrom cursor with
  | case1 cursor =>
      refine filled_of_no_text fun token member isText => ?_
      rw [List.mem_singleton.mp member] at isText
      cases isText
  | case2 cursor unfinished inductionHypothesis =>
      refine Filled.append ?_ inductionHypothesis
      unfold scanConstruct
      split
      · exact filled_scanWholeTag .output cursor
      · split
        · exact filled_scanWholeTag .block cursor
        · split
          · exact filled_scanComment cursor
          · exact filled_scanText (Text.distanceTo_le_length _ _)

end Stencil.Token
