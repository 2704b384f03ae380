import Stencil.Proofs.Grammar.Lone
import Stencil.Proofs.Grammar.Segment

/-!
Contract: a broken tag costs at most its own statement.

Owns:
- the lexemes that stand in tags, and the texts of tags that hold any of them;
- the tokens of such a tag between two texts;
- the statements of both texts are kept, and everything that is reported lies in the tag.

Does not own: how the tag is read (`Stencil.Proofs.Grammar.Lone`).
-/

set_option autoImplicit false

namespace Stencil.Grammar

open Stencil.Report (Diagnostic)
open Stencil.Syntax
open Stencil.Text (Span byteLength isBlank)
open Stencil.Token
open Read Statement

/-! ### Lexemes -/

/-- Whether a text is one piece of a tag with which nothing is wrong, and no blank. -/
def isLexeme (text : String) : Bool :=
  match text.toList with
  | [] => false
  | first :: rest =>
      let piece := pieceAt .block first rest
      !isBlank first && piece.length == rest.length + 1 && piece.problem.isNone

/-- The word that a lexeme is read as. -/
def lexemeWord (text : String) : Word :=
  match text.toList with
  | [] => ⟨.invalid, text⟩
  | first :: rest => ⟨(pieceAt .block first rest).kind, text⟩

theorem lexeme_lexemeWord (text : String) : (lexemeWord text).lexeme = text := by
  unfold lexemeWord
  split <;> rfl

/-- The brackets that lexemes leave open, innermost first. -/
def openBrackets (lexemes : List String) : List Symbol := bracketsBehind [] (lexemes.map lexemeWord)

/-- The delimiter of a tag makes a difference only for literals that are never closed. -/
theorem pieceAt_of_quiet {c : Char} {rest : List Char}
    (quiet : (pieceAt .block c rest).problem = none) (delimiter : Delimiter) :
    pieceAt delimiter c rest = pieceAt .block c rest := by
  unfold pieceAt at quiet ⊢
  split
  · rfl
  · split
    · rfl
    · split
      · rfl
      · split
        · rename_i notBlank notName notDigit isQuote
          rw [if_neg notBlank, if_neg notName, if_neg notDigit, if_pos isQuote] at quiet
          unfold stringPiece at quiet ⊢
          split
          · rfl
          · rename_i notClosed
            rw [notClosed] at quiet
            cases quiet
        · rfl

theorem isTrivia_pieceAt {delimiter : Delimiter} {c : Char} {rest : List Char}
    (notBlank : isBlank c = false) (quiet : (pieceAt delimiter c rest).problem = none) :
    (pieceAt delimiter c rest).kind.isTrivia = false := by
  unfold pieceAt at quiet ⊢
  rw [notBlank, if_neg Bool.false_ne_true] at quiet ⊢
  split
  · rfl
  · rename_i notName
    rw [if_neg notName] at quiet
    split
    · unfold numberPiece
      dsimp only
      split <;> rfl
    · rename_i notDigit
      rw [if_neg notDigit] at quiet
      split
      · unfold stringPiece
        split <;> rfl
      · rename_i notQuote
        rw [if_neg notQuote] at quiet
        unfold symbolPiece at quiet ⊢
        split
        · rfl
        · rename_i notPair
          rw [notPair] at quiet
          split
          · rfl
          · rename_i notSingle
            rw [notSingle] at quiet
            cases quiet

/-- Lexemes are read back where blanks stand around them. -/
theorem isPiece_lexemeWord {text : String} (valid : isLexeme text = true) :
    (lexemeWord text).IsPiece := by
  unfold isLexeme at valid
  split at valid
  · cases valid
  · rename_i first rest isText
    simp only [Bool.and_eq_true, Bool.not_eq_true', beq_iff_eq, Option.isNone_iff_eq_none] at valid
    obtain ⟨⟨notBlank, isWhole⟩, quiet⟩ := valid
    have isWord : lexemeWord text = ⟨(pieceAt .block first rest).kind, text⟩ := by
      rw [lexemeWord, isText]
    rw [isWord]
    refine isPiece_of_pieceAt isText notBlank (isTrivia_pieceAt notBlank quiet) fun delimiter => ?_
    rw [pieceAt_of_quiet quiet delimiter, ← isWhole, ← quiet]

/-! ### Texts of tags -/

namespace Lone

/-- The text of the tag with lexemes in it, all of them with blanks between them. -/
def source (tag : Lone) (lexemes : List String) : String :=
  " ".intercalate (String.ofList tag.delimiter.opener ::
    (tag.keyword?.toList ++ [" ".intercalate lexemes, String.ofList tag.delimiter.closer]))

/-- The words that such a tag holds. -/
def words (tag : Lone) (lexemes : List String) : List Word :=
  tag.keyword?.toList.map Word.name ++ lexemes.map lexemeWord

variable {tag : Lone} {lexemes : List String}

theorem isPiece_words (proper : tag.Proper) (valid : ∀ text ∈ lexemes, isLexeme text = true) :
    ∀ word ∈ tag.words lexemes, word.IsPiece := by
  intro word member
  rcases List.mem_append.mp member with isKeyword | isInside
  · obtain ⟨text, isText, rfl⟩ := List.mem_map.mp isKeyword
    have named : isName text = true := by
      have isText := Option.mem_toList.mp isText
      cases tag <;> cases isText <;> first | decide | exact proper.1
    exact (standsAlone_name named).toIsPiece
  · obtain ⟨text, isText, rfl⟩ := List.mem_map.mp isInside
    exact isPiece_lexemeWord (valid text isText)

theorem words_ne_raw (proper : tag.Proper) (isBlock : tag.delimiter = .block) :
    tag.words lexemes ≠ [.name "raw"] := by
  intro isRaw
  cases tag with
  | output => cases isBlock
  | unknown name =>
      have isName : name = "raw" := congrArg Word.lexeme (List.cons.inj isRaw).1
      exact proper.2.1 (isName ▸ by decide)
  | _ => exact absurd (congrArg Word.lexeme (List.cons.inj isRaw).1) (by decide)

end Lone

/-- Texts with blanks between them, and one before them. -/
theorem toList_intercalate_blank {texts : List String} (nonempty : texts ≠ []) :
    ' ' :: (" ".intercalate texts).toList = texts.flatMap fun text => ' ' :: text.toList := by
  induction texts with
  | nil => contradiction
  | cons text texts inductionHypothesis =>
      cases texts with
      | nil => simp
      | cons next texts =>
          rw [List.flatMap_cons, ← inductionHypothesis (List.cons_ne_nil next texts),
            String.intercalate_cons_of_ne_nil (List.cons_ne_nil next texts)]
          simp

/-- The characters of a tag. Where no lexemes stand in it, there are two blanks before its end. -/
theorem Lone.toList_source (tag : Lone) (lexemes : List String) :
    ∃ blanks : List Char, blanks.all isBlank = true ∧
      (tag.source lexemes).toList = tag.delimiter.opener ++
        (Fragment.spaced (tag.words lexemes) ++ ' ' :: (blanks ++ tag.delimiter.closer)) := by
  have keywords : Fragment.spaced (tag.keyword?.toList.map Word.name) =
      tag.keyword?.toList.flatMap fun text => ' ' :: text.toList := by
    rw [Fragment.spaced, List.flatMap_map]
    rfl
  have insides : Fragment.spaced (lexemes.map lexemeWord) =
      lexemes.flatMap fun text => ' ' :: text.toList := by
    rw [Fragment.spaced, List.flatMap_map]
    simp only [lexeme_lexemeWord]
  have whole : ' ' :: (tag.source lexemes).toList = ' ' :: (tag.delimiter.opener ++
      (Fragment.spaced (tag.keyword?.toList.map Word.name) ++
        (' ' :: (" ".intercalate lexemes).toList ++ ' ' :: tag.delimiter.closer))) := by
    rw [source, toList_intercalate_blank (List.cons_ne_nil _ _), keywords]
    simp
  have separated : Fragment.spaced (tag.words lexemes) =
      Fragment.spaced (tag.keyword?.toList.map Word.name) ++
        Fragment.spaced (lexemes.map lexemeWord) := List.flatMap_append
  rw [(List.cons.inj whole).2, separated, insides]
  by_cases isEmpty : lexemes = []
  · exact ⟨[' '], by decide, by simp [isEmpty]⟩
  · refine ⟨[], rfl, ?_⟩
    rw [toList_intercalate_blank isEmpty, List.append_assoc]
    rfl

/-! ### Tokens -/

/-- The tokens of a run lie between its ends. -/
theorem liesIn_of_covers {start stop : Cursor} {tokens : List Token}
    (covers : Covers start tokens stop) : start.position.offset ≤ stop.position.offset ∧
      ∀ token ∈ tokens, LiesIn start.position.offset stop.position.offset token.span := by
  induction covers with
  | nothing => exact ⟨Nat.le_refl _, List.forall_mem_nil _⟩
  | @piece cursor stop tokens kind count _ inductionHypothesis =>
      obtain ⟨isLess, each⟩ := inductionHypothesis
      have advanced : cursor.position.offset ≤ (cursor.skip count).position.offset := by
        rw [Cursor.skip, Text.Position.offset_advanceAll]
        exact Nat.le_add_right _ _
      refine ⟨Nat.le_trans advanced isLess, fun token member => ?_⟩
      rcases List.mem_cons.mp member with rfl | member
      · exact ⟨Nat.le_refl _, isLess⟩
      · exact ⟨Nat.le_trans advanced (each token member).1, (each token member).2⟩

/-- Whether tokens are those of a tag with such words, between two offsets. -/
def AreTag (delimiter : Delimiter) (words : List Word) (start stop : Nat) (tokens : List Token) :
    Prop :=
  (∃ opening inners closing, tokens = opening :: (inners ++ [closing]) ∧
    opening.kind = delimiter.startKind false ∧ inners.map wordOf = words ∧
      closing.kind = delimiter.endKind false) ∧
  ∀ token ∈ tokens, LiesIn start stop token.span

/-- A tag with lexemes in it is scanned wherever it stands. -/
theorem scanConstruct_source {tag : Lone} {lexemes : List String} (proper : tag.Proper)
    (valid : ∀ text ∈ lexemes, isLexeme text = true)
    (noMap : tag = .output → (openBrackets lexemes).head? ≠ some .leftBrace) {cursor : Cursor}
    {behind : List Char} (isRest : cursor.rest = (tag.source lexemes).toList ++ behind) :
    ∃ tokens, (scanConstruct cursor).1 = ⟨tokens, []⟩ ∧
      (scanConstruct cursor).2.rest = behind ∧
        AreTag tag.delimiter (tag.words lexemes) cursor.position.offset
          (cursor.position.offset + byteLength (tag.source lexemes).toList) (kept tokens) := by
  obtain ⟨blanks, areBlank, isSource⟩ := tag.toList_source lexemes
  have noMapInside : ¬ (tag.delimiter = .output ∧
      (bracketsBehind [] (tag.words lexemes)).head? = some .leftBrace) := by
    rintro ⟨isOutput, isMap⟩
    have isTag : tag = .output := by
      cases tag <;> first | rfl | cases isOutput
    subst isTag
    exact noMap rfl isMap
  have isText : cursor.rest = tag.delimiter.opener ++ (Fragment.spaced (tag.words lexemes) ++
      ' ' :: (blanks ++ (tag.delimiter.closer ++ behind))) := by
    rw [isRest, isSource]
    simp
  have scans := scansTo_pieces (Lone.isPiece_words proper valid) areBlank noMapInside
    (Lone.words_ne_raw proper) isText
  have covers := covers_scanConstruct cursor
  refine ⟨(scanConstruct cursor).1.tokens, by rw [← scans.quiet], scans.rest, ?_, ?_⟩
  · obtain ⟨opening, others, isKept, isOpening, areOthers⟩ := List.map_eq_cons_iff.mp scans.words
    obtain ⟨inners, ends, rfl, areInners, areEnds⟩ := List.map_eq_append_iff.mp areOthers
    obtain ⟨closing, rfl, isClosing⟩ := List.map_eq_singleton_iff.mp areEnds
    exact ⟨opening, inners, closing, isKept, congrArg Word.kind isOpening, areInners,
      congrArg Word.kind isClosing⟩
  · have isStop : (scanConstruct cursor).2.position.offset =
        cursor.position.offset + byteLength (tag.source lexemes).toList := by
      have same := congrArg Text.Position.offset covers.advanceAll_eq
      rw [Text.Position.offset_advanceAll, Text.Position.offset_advanceAll, scans.rest, isRest,
        Text.byteLength_append] at same
      omega
    intro token member
    rw [← isStop]
    exact (liesIn_of_covers covers).2 token (List.mem_filter.mp member).1

/-! ### Statements -/

/-- The statements of tokens that read without a report, with a tag between them. -/
theorem run_loop_around {tag : Lone} (proper : tag.Proper) {lexemes : List String}
    (valid : ∀ text ∈ lexemes, isLexeme text = true) {start stop depth : Nat}
    {first own second : List Token} {last : Token}
    {nodes nodesBehind : List Node} {tape : Tape} (clean : Clean first nodes)
    (areTag : AreTag tag.delimiter (tag.words lexemes) start stop own)
    (cleanBehind : Clean second nodesBehind) (isEnd : last.kind = .endOfInput)
    (isRemaining : tape.remaining = (first ++ own ++ second) ++ [last])
    (notTrimmed : tape.trims = false) (outermost : tape.enclosing = [[]])
    (noReports : tape.problems = #[]) (enough : first.length ≤ depth)
    (enoughBehind : second.length ≤ depth) :
    ∃ added result final,
      (loop (nextNode .empty (nestedBody .empty depth) []) ⟨#[], none⟩).run tape =
          (result, final) ∧
        tag.Adds added ∧ SameNodes (nodes ++ added ++ nodesBehind) result.nodes.toList ∧
        (∀ diagnostic ∈ final.problems.toList, LiesIn start stop diagnostic.span) ∧
        ∀ unknown, tag = .unknown unknown →
          ∃ span, final.problems.toList = [(Mistake.unknownTag unknown).toDiagnostic span] := by
  obtain ⟨⟨opening, inners, closing, rfl, isOpening, areInners, isClosing⟩, lies⟩ := areTag
  have atTag : tape.remaining =
      first ++ (opening :: (inners ++ closing :: (second ++ [last]))) := by
    rw [isRemaining]
    simp
  have unreserved : ∀ name ∈ ([] : List String), name ∉ builtinTags := List.forall_mem_nil _
  have waiting : Unreserved tape.enclosing := by
    rw [outermost]
    decide
  have same (tokens : List Token) : List.Forall₂ sameWords.token tokens tokens :=
    List.forall₂_same.mpr fun _ _ => rfl
  have notTrimming : opening.kind.trimsBefore = false := by
    rw [isOpening]
    cases tag.delimiter <;> rfl
  obtain ⟨body, here, goes, ⟨⟨before, isBody, sameBefore⟩, unfound⟩, isHere, reportsHere,
      outermostHere⟩ :
      ∃ body here, Goes _ ⟨#[], none⟩ tape body here ∧ Body.Adds ⟨#[], none⟩ nodes body ∧ _ :=
    clean.goes atTag (same first) (List.cons_ne_nil _ _) notTrimming notTrimmed waiting unreserved
      enough rfl
  -- The tag is one turn of the loop.
  let site : Site := ⟨tag.delimiter, start, stop, closing, second ++ [last], #[], [[]], isClosing,
    lies closing (by simp), by simp, by decide⟩
  have isFollowing : here.following = inners ++ closing :: (second ++ [last]) :=
    (List.cons.inj isHere).2
  have more : here.following ≠ [] := by
    rw [isFollowing]
    exact List.append_ne_nil_of_right_ne_nil inners (List.cons_ne_nil _ _)
  have atInside : here.advance.remaining = inners ++ closing :: (second ++ [last]) :=
    (Tape.remaining_advance_of_more more).trans isFollowing
  have isInner : ∀ token ∈ inners, token.kind.isInner = true := by
    intro token member
    have isWord : wordOf token ∈ tag.words lexemes := areInners ▸ List.mem_map_of_mem member
    exact (Lone.isPiece_words proper valid _ isWord).isInner
  have holds : site.Holds here.advance := by
    refine ⟨⟨inners, atInside, fun token member => ⟨isInner token member, lies token ?_⟩⟩, ?_,
      [], ?_, List.forall_mem_nil _⟩
    · simp [member]
    · rw [Tape.enclosing_advance, outermostHere, outermost]
    · rw [Tape.problems_advance, reportsHere, noReports]
      rfl
  have startLies : LiesIn start stop here.current.span := by
    rw [Tape.current_of_remaining isHere]
    exact lies opening List.mem_cons_self
  have opens : here.current.kind = tag.delimiter.startKind false := by
    rw [Tape.current_of_remaining isHere, isOpening]
  have isKeyword : ∀ word ∈ tag.keyword?, wordOf here.advance.current = .name word := by
    intro word isWord
    have beginning : tag.words lexemes = .name word :: lexemes.map lexemeWord := by
      rw [Lone.words, Option.mem_def.mp isWord]
      rfl
    rw [beginning] at areInners
    obtain ⟨token, inners, rfl, isToken, _⟩ := List.map_eq_cons_iff.mp areInners
    rw [Tape.current_of_remaining atInside, isToken]
  have outermostTail : here.enclosing.tail = [] := by
    rw [outermostHere, outermost]
    rfl
  obtain ⟨node, left, turn, adds, isLeft, isTold⟩ : ∃ node left,
      (nextNode .empty (nestedBody .empty depth) [] body).run here =
        (.again (body.add node), left) ∧ _ :=
    run_nextNode_of_lone startLies outermostTail holds body proper opens isKeyword
  obtain ⟨told, areTold, eachLies⟩ := isLeft.reported
  have shorter : left.following.length < here.following.length := by
    have lengths := congrArg List.length isLeft.remaining
    rw [isFollowing]
    simp only [Tape.remaining, site, List.length_cons, List.length_append, List.length_nil]
      at lengths ⊢
    omega
  -- What stands behind the tag is read as it was.
  have notTrimmedLeft : left.trims = false := by
    rw [Tape.trims, isLeft.previous, Option.any_some, isClosing]
    cases tag.delimiter <;> rfl
  have notTrimmingEnd : ([last].head (List.cons_ne_nil _ _)).kind.trimsBefore = false := by
    rw [List.head_cons, isEnd]
    rfl
  have waitingLeft : Unreserved left.enclosing := by
    rw [isLeft.enclosing]
    exact site.waiting
  obtain ⟨result, final, goesOn, ⟨⟨behind, isResult, sameBehind⟩, _⟩, atEnd, reportsFinal, _⟩ :
      ∃ result final, Goes _ (body.add node) left result final ∧
        Body.Adds (body.add node) nodesBehind result ∧ _ :=
    cleanBehind.goes isLeft.remaining (same second) (List.cons_ne_nil _ _) notTrimmingEnd
      notTrimmedLeft waitingLeft unreserved enoughBehind unfound
  have stops : final.current.kind = .endOfInput := by
    rw [Tape.current_of_remaining atEnd, isEnd]
  refine ⟨node.toList, result, final, run_loop_of_settles (goes.settles (.again turn shorter
    (goesOn.settles (.done (run_nextNode_of_end stops result))))), adds, ?_, ?_, ?_⟩
  · rw [isResult, Body.add, Array.toList_append, isBody, Option.toList_toArray]
    exact (sameBefore.append rfl).append sameBehind
  · rw [reportsFinal, areTold]
    simpa [site] using eachLies
  · intro unknown isUnknown
    obtain ⟨span, isTold⟩ := isTold unknown isUnknown
    refine ⟨span, ?_⟩
    rw [reportsFinal, isTold, reportsHere, noReports]
    rfl

/-- Whether a tag between two templates costs at most its own statement. -/
structure Contained (tag : Lone) (start stop : Nat) (before after whole : Parsed) : Prop where
  /-- The statements of both templates are kept, up to places, with those of the tag between them. -/
  body : ∃ own, tag.Adds own ∧ whole.template.body.map Node.unplaced =
    (before.template.body ++ own ++ after.template.body).map Node.unplaced
  /-- Whatever is reported lies in the tag. -/
  within : ∀ diagnostic ∈ whole.problems, LiesIn start stop diagnostic.span
  /-- A tag of no known name is reported once. -/
  unknown : ∀ name, tag = .unknown name →
    ∃ span, whole.problems = [(Mistake.unknownTag name).toDiagnostic span]

section Around

variable {name before after : String} {tag : Lone} {lexemes : List String}
  (quietBefore : (parse .empty name before).problems = [])
  (quietAfter : (parse .empty name after).problems = [])
  (notBrace : before.toList.getLast? ≠ some '{') (proper : tag.Proper)
  (valid : ∀ text ∈ lexemes, isLexeme text = true)
  (noMap : tag = .output → (openBrackets lexemes).head? ≠ some .leftBrace)
include quietBefore quietAfter notBrace proper valid noMap

/-- A tag between two texts that read without a report takes no part in their tokens. -/
theorem scan_around :
    ∃ first firstNodes own second secondNodes last,
      Clean first firstNodes ∧ SameNodes (parse .empty name before).template.body firstNodes ∧
        AreTag tag.delimiter (tag.words lexemes) (byteLength before.toList)
          (byteLength (before ++ tag.source lexemes).toList) own ∧
        Clean second secondNodes ∧ SameNodes (parse .empty name after).template.body secondNodes ∧
        last.kind = .endOfInput ∧
        kept (Token.scan (before ++ tag.source lexemes ++ after)).tokens =
          (first ++ own ++ second) ++ [last] ∧
        (Token.scan (before ++ tag.source lexemes ++ after)).problems = [] := by
  let tagText := (tag.source lexemes).toList
  let start := Cursor.ofText (before ++ tag.source lexemes ++ after)
  have isRest : start.rest = before.toList ++ (tagText ++ after.toList) := by
    simp [start, tagText, Cursor.ofText]
  have opens : opensConstruct (tagText ++ after.toList) = true := by
    obtain ⟨blanks, _, isSource⟩ := tag.toList_source lexemes
    rw [show tagText = _ from isSource, List.append_assoc]
    exact opensConstruct_opener _ _
  obtain ⟨first, firstNodes, clean, sameNodes, isScan⟩ :=
    scanFrom_source quietBefore isRest (.inr ⟨notBrace, opens⟩)
  let atTag : Cursor := ⟨start.position.advanceAll before.toList, tagText ++ after.toList⟩
  obtain ⟨own, isOwn, isBehind, areTag⟩ : ∃ own, (scanConstruct atTag).1 = ⟨own, []⟩ ∧
      (scanConstruct atTag).2.rest = after.toList ∧ _ := scanConstruct_source proper valid noMap rfl
  have isRestBehind : (scanConstruct atTag).2.rest = after.toList ++ [] :=
    isBehind.trans (List.append_nil _).symm
  obtain ⟨second, secondNodes, cleanBehind, sameBehind, isScanBehind⟩ :=
    scanFrom_source quietAfter isRestBehind (.inl rfl)
  let stop : Cursor := ⟨(scanConstruct atTag).2.position.advanceAll after.toList, []⟩
  have isEnd : Token.scanFrom stop = ⟨[stop.mark .endOfInput], []⟩ := by
    rw [Token.scanFrom, dif_pos rfl]
    rfl
  have atTagScan : Token.scanFrom atTag = ⟨own ++ second ++ [stop.mark .endOfInput], []⟩ := by
    have unfinished : atTag.rest ≠ [] := by
      intro isEmpty
      rw [show tagText ++ after.toList = [] from isEmpty] at opens
      cases opens
    rw [Token.scanFrom, dif_neg unfinished, isOwn, isScanBehind, isEnd]
    exact congrArg (Scan.mk · []) (List.append_assoc _ _ _).symm
  have whole : Token.scan (before ++ tag.source lexemes ++ after) =
      ⟨first ++ (own ++ second ++ [stop.mark .endOfInput]), []⟩ := by
    rw [Token.scan, isScan, atTagScan]
    rfl
  refine ⟨kept first, firstNodes, kept own, kept second, secondNodes, stop.mark .endOfInput, clean,
    sameNodes, ?_, cleanBehind, sameBehind, rfl, ?_, ?_⟩
  · have isStart : atTag.position.offset = byteLength before.toList := by
      rw [Text.Position.offset_advanceAll]
      exact Nat.zero_add _
    have isStop : byteLength (before ++ tag.source lexemes).toList =
        atTag.position.offset + byteLength tagText := by
      rw [isStart, String.toList_append, Text.byteLength_append]
    rw [isStop, ← isStart]
    exact areTag
  · rw [whole, kept_append, kept_append, kept_append, kept_of_end rfl]
    simp
  · rw [whole]

/-- A broken tag between two texts that read without a report costs at most its own statement,
whatever lexemes it holds. -/
theorem contained_parse :
    Contained tag (byteLength before.toList) (byteLength (before ++ tag.source lexemes).toList)
      (parse .empty name before) (parse .empty name after)
      (parse .empty name (before ++ tag.source lexemes ++ after)) := by
  obtain ⟨first, firstNodes, own, second, secondNodes, last, clean, sameNodes, ⟨⟨opening, inners,
    closing, isOwn, isOpening, areInners, isClosing⟩, lies⟩, cleanBehind, sameBehind, isEnd, isKept,
    quietScan⟩ := scan_around quietBefore quietAfter notBrace proper valid noMap
  obtain ⟨tape, notTrimmed, isRemaining, outermost, noReports, areNodes, areProblems⟩ :=
    parseTokens_of_kept isKept isEnd
  let whole := parse .empty name (before ++ tag.source lexemes ++ after)
  have areTag := (⟨⟨opening, inners, closing, isOwn, isOpening, areInners, isClosing⟩, lies⟩ :
    AreTag _ _ _ _ own)
  have enough : first.length ≤ (first ++ own ++ second).length := by
    simp only [List.length_append]
    omega
  have enoughBehind : second.length ≤ (first ++ own ++ second).length := by
    simp only [List.length_append]
    omega
  obtain ⟨added, result, final, run, adds, sameResult, eachLies, isTold⟩ :=
    run_loop_around proper valid clean areTag cleanBehind isEnd isRemaining notTrimmed outermost
      noReports enough enoughBehind
  rw [run] at areNodes areProblems
  have isBody : whole.template.body = result.nodes.toList := areNodes
  have areReports : whole.problems = final.problems.toList := by
    rw [← areProblems, ← List.nil_append (parseTokens _ _).problems, ← quietScan]
    rfl
  refine ⟨⟨added, adds, ?_⟩, ?_, ?_⟩
  · rw [isBody]
    exact Eq.trans sameResult ((sameNodes.append rfl).append sameBehind)
  · rw [areReports]
    exact eachLies
  · rw [areReports]
    exact isTold

end Around

/-- An output that breaks off inside a bracket, behind a tag with a body. -/
theorem contained_parse_output :
    let before := "\x7b% if a %\x7db\x7b% endif %\x7d"
    let lexemes := ["a", "(", "%", "'\x7d\x7d'", "."]
    (parse .empty "page" before).problems = [] ∧ (parse .empty "page" "c").problems = [] ∧
      before.toList.getLast? ≠ some '{' ∧ Lone.output.Proper ∧
      (∀ text ∈ lexemes, isLexeme text = true) ∧ (openBrackets lexemes).head? ≠ some .leftBrace ∧
      Contained .output (byteLength before.toList)
        (byteLength (before ++ Lone.output.source lexemes).toList) (parse .empty "page" before)
        (parse .empty "page" "c")
        (parse .empty "page" (before ++ Lone.output.source lexemes ++ "c")) := by
  intro before lexemes
  have quietBefore : (parse .empty "page" before).problems = [] := by decide +kernel
  have quietAfter : (parse .empty "page" "c").problems = [] := by decide +kernel
  have notBrace : before.toList.getLast? ≠ some '{' := by decide
  have proper : Lone.output.Proper := trivial
  have valid : ∀ text ∈ lexemes, isLexeme text = true := by decide
  have noMap : (openBrackets lexemes).head? ≠ some .leftBrace := by decide
  exact ⟨quietBefore, quietAfter, notBrace, proper, valid, noMap,
    contained_parse quietBefore quietAfter notBrace proper valid fun _ => noMap⟩

end Stencil.Grammar
