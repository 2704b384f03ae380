import Stencil.Proofs.Token.Joining

/-!
Contract: a text that is one tag is scanned alone, whatever stands behind it.

Owns:
- texts that are one tag of a name, and the tokens of such a tag;
- inside a tag nothing is looked at beyond the tag's own end;
- the tokens of the tag where it stands in a longer text.

Does not own: texts that are more than one tag (`Stencil.Proofs.Token.Joining`).
-/

set_option autoImplicit false

namespace Stencil.Token

open Stencil.Grammar (Word wordOf kept kept_append scanConstruct_of_tag scanTag_of_closer
  scanTag_of_piece)
open Stencil.Text (Position Span isBlank)

variable {c : Char} {text rest behind : List Char} {cursor : Cursor}

/-! ### Beyond the end of a tag -/

/-- A pattern is found at the head of a text on its own, if the text ends with a character that
only the end of the pattern may be. -/
theorem isPrefixOf_append_of_last {pattern : List Char} (ends : text.getLast? = some c)
    (foreign : c ∉ pattern.dropLast) (behind : List Char) :
    pattern.isPrefixOf (text ++ behind) = pattern.isPrefixOf text := by
  induction pattern generalizing text with
  | nil => simp [List.isPrefixOf]
  | cons first pattern inductionHypothesis =>
      cases text with
      | nil => cases ends
      | cons head text =>
          cases text with
          | nil =>
              have isLast : head = c := Option.some.inj ends
              cases pattern with
              | nil => simp [List.isPrefixOf]
              | cons second pattern =>
                  have notHead : first ≠ head := by
                    rintro rfl
                    exact foreign (isLast ▸ List.mem_cons_self)
                  simp [List.isPrefixOf, notHead]
          | cons next text =>
              rw [List.getLast?_cons_cons] at ends
              have foreignLater : c ∉ pattern.dropLast := by
                intro member
                cases pattern with
                | nil => cases member
                | cons second pattern => exact foreign (List.mem_cons_of_mem _ member)
              have same := inductionHypothesis ends foreignLater
              rw [List.cons_append, List.isPrefixOf, List.isPrefixOf, same]

theorem opensConstruct_of_last (ends : text.getLast? = some '}') (behind : List Char) :
    opensConstruct (text ++ behind) = opensConstruct text := by
  rw [opensConstruct, opensConstruct, isPrefixOf_append_of_last ends (by decide),
    isPrefixOf_append_of_last ends (by decide), isPrefixOf_append_of_last ends (by decide)]

theorem closerAt?_of_last (ends : text.getLast? = some '}') (brackets : List Symbol)
    (behind : List Char) :
    closerAt? .block brackets (text ++ behind) = closerAt? .block brackets text := by
  rw [closerAt?, closerAt?, isPrefixOf_append_of_last ends (by decide),
    isPrefixOf_append_of_last ends (by decide)]

/-- A piece in front of the end of a tag ends there, if nothing is wrong with it. -/
theorem pieceAt_of_last {delimiter : Delimiter} (ends : rest.getLast? = some '}')
    (quiet : (pieceAt delimiter c rest).problem = none) (behind : List Char) :
    pieceAt delimiter c (rest ++ behind) = pieceAt delimiter c rest := by
  obtain ⟨before, rfl⟩ := List.getLast?_eq_some_iff.mp ends
  have apart (behind : List Char) : Apart ('}' :: behind) := by
    intro next member
    cases member
    decide
  have stops {test : Char → Bool} (isStop : test '}' = false) (behind : List Char) :
      ∀ next ∈ ('}' :: behind).head?, test next = false := by
    intro next member
    cases member
    exact isStop
  have isBehind : before ++ ['}'] ++ behind = before ++ '}' :: behind := by simp
  rw [isBehind]
  unfold pieceAt at quiet ⊢
  split
  · have blanks : isBlank '}' = false := by decide
    rw [takeWhile_append_of_stop (stops blanks _), takeWhile_append_of_stop (stops blanks _)]
  · split
    · have names : continuesName '}' = false := by decide
      rw [takeWhile_append_of_stop (stops names _), takeWhile_append_of_stop (stops names _)]
    · split
      · rw [← List.cons_append, ← List.cons_append, numberPiece_append (apart _),
          numberPiece_append (apart _)]
      · split
        · rename_i notBlank notName notDigit isQuote
          rw [if_neg notBlank, if_neg notName, if_neg notDigit, if_pos isQuote] at quiet
          unfold stringPiece at quiet ⊢
          cases isClosed : closedBodyLength? c (before ++ ['}']) with
          | none =>
              rw [isClosed] at quiet
              cases quiet
          | some length => rw [← isBehind, closedBodyLength?_append isClosed]
        · rw [symbolPiece_append (apart _), symbolPiece_append (apart _)]

theorem last_of_closerAt? {brackets : List Symbol} {length : Nat} {trim : Bool}
    (closes : closerAt? .block brackets text = some (length, trim))
    (nothing : text.drop length = []) : text.getLast? = some '}' := by
  unfold closerAt? at closes
  split at closes
  · cases closes
  · split at closes
    · rename_i isThere
      cases closes
      obtain ⟨others, rfl⟩ := List.isPrefixOf_iff_prefix.mp isThere
      have noOthers : others = [] := nothing
      rw [noOthers]
      rfl
    · split at closes
      · rename_i isThere
        cases closes
        obtain ⟨others, rfl⟩ := List.isPrefixOf_iff_prefix.mp isThere
        have noOthers : others = [] := nothing
        rw [noOthers]
        rfl
      · cases closes

/-- A tag that ends where its text does, and in which nothing is wrong, ends there with any text
behind it. -/
theorem scanTag_of_whole {opened : Position} {brackets : List Symbol}
    (quiet : (scanTag .block opened brackets cursor).scan.problems = [])
    (whole : (scanTag .block opened brackets cursor).cursor.rest = []) (behind : List Char) :
    cursor.rest.getLast? = some '}' ∧
      scanTag .block opened brackets (cursor.followedBy behind) =
        { scanTag .block opened brackets cursor with
          cursor := (scanTag .block opened brackets cursor).cursor.followedBy behind } := by
  generalize isBlock : Delimiter.block = delimiter at quiet whole ⊢
  fun_induction scanTag delimiter opened brackets cursor with
  | case1 => cases quiet
  | case2 brackets cursor c rest isRest length trim closes =>
      subst isBlock
      have short := closerAt?_length_le closes
      have ends : (c :: rest).getLast? = some '}' :=
        last_of_closerAt? closes (isRest ▸ whole)
      refine ⟨isRest ▸ ends, ?_⟩
      rw [← isRest] at short
      rw [← closerAt?_of_last ends brackets behind] at closes
      have isLonger : (cursor.followedBy behind).rest = c :: (rest ++ behind) :=
        congrArg (· ++ behind) isRest
      rw [scanTag_of_closer isLonger closes, Cursor.cut_followedBy _ short,
        Cursor.skip_followedBy short]
  | case3 => cases quiet
  | case4 brackets cursor c rest isRest notClosed notOpened piece problems inner
      inductionHypothesis =>
      obtain ⟨noProblem, quietInner⟩ := List.append_eq_nil_iff.mp quiet
      have quietPiece : piece.problem = none :=
        Option.toList_eq_nil_iff.mp (List.map_eq_nil_iff.mp noProblem)
      have short : piece.length ≤ cursor.rest.length := by
        rw [isRest]
        exact pieceAt_length_le delimiter c rest
      obtain ⟨endsLater, same⟩ := inductionHypothesis quietInner whole
      subst isBlock
      -- The piece leaves something of the text behind it, so it is not the end of the tag.
      have endsRest : rest.getLast? = some '}' := by
        obtain ⟨fewer, isLength⟩ := Nat.exists_eq_add_one_of_ne_zero
          (Nat.ne_of_gt (pieceAt_length_pos .block c rest))
        change (cursor.rest.drop (pieceAt .block c rest).length).getLast? = some '}' at endsLater
        rw [isLength, isRest, List.drop_succ_cons, List.getLast?_drop] at endsLater
        split at endsLater
        · cases endsLater
        · exact endsLater
      have ends : (c :: rest).getLast? = some '}' := by
        rw [List.getLast?_cons, endsRest]
        rfl
      have isPiece : pieceAt .block c (rest ++ behind) = piece :=
        pieceAt_of_last endsRest quietPiece behind
      have isLonger : (cursor.followedBy behind).rest = c :: (rest ++ behind) :=
        congrArg (· ++ behind) isRest
      rw [← closerAt?_of_last ends brackets behind] at notClosed
      have notOpenedLonger : opensConstruct (c :: rest ++ behind) = false := by
        rw [opensConstruct_of_last ends]
        exact Bool.eq_false_iff.mpr notOpened
      refine ⟨isRest ▸ ends, ?_⟩
      rw [scanTag_of_piece isLonger notClosed notOpenedLonger isPiece quietPiece,
        Cursor.cut_followedBy _ short, Cursor.skip_followedBy short]
      simp only [same]
      rw [show problems = [] from noProblem]

/-! ### Whole tags -/

theorem scanConstruct_of_block (opens : Delimiter.block.opener.isPrefixOf cursor.rest = true) :
    scanConstruct cursor = scanWholeTag .block cursor := by
  obtain ⟨others, isRest⟩ := List.isPrefixOf_iff_prefix.mp opens
  exact scanConstruct_of_tag isRest.symm

/-- A tag that is all of its text is scanned alone, whatever stands behind it. -/
theorem scanConstruct_of_whole (opens : Delimiter.block.opener.isPrefixOf cursor.rest = true)
    (quiet : (scanConstruct cursor).1.problems = []) (whole : (scanConstruct cursor).2.rest = [])
    (plain : ¬IsVerbatim .block cursor) (behind : List Char) :
    scanConstruct (cursor.followedBy behind) =
      ((scanConstruct cursor).1, (scanConstruct cursor).2.followedBy behind) := by
  have long := length_of_opener opens
  have opensLonger : Delimiter.block.opener.isPrefixOf (cursor.followedBy behind).rest = true := by
    obtain ⟨others, isRest⟩ := List.isPrefixOf_iff_prefix.mp opens
    apply List.isPrefixOf_iff_prefix.mpr
    exact ⟨others ++ behind, by rw [← List.append_assoc, isRest]; rfl⟩
  rw [scanConstruct_of_block opens, scanWholeTag_of_not_verbatim plain] at quiet whole ⊢
  rw [scanConstruct_of_block opensLonger]
  obtain ⟨ends, same⟩ := scanTag_of_whole (List.append_eq_nil_iff.mp quiet).2 whole behind
  have more : cursor.rest.drop 2 ≠ [] := by
    intro nothing
    have isLess : cursor.rest.length ≤ openerLength cursor := by
      have isTwo := List.drop_eq_nil_iff.mp nothing
      unfold openerLength
      split <;> omega
    change (cursor.rest.drop (openerLength cursor)).getLast? = some '}' at ends
    rw [List.drop_eq_nil_of_le isLess] at ends
    cases ends
  have sameMarker : hasMarker (cursor.followedBy behind) = hasMarker cursor := by
    rw [hasMarker, hasMarker, Cursor.followedBy, List.drop_append_of_le_length long,
      List.head?_append_of_ne_nil _ more]
  have sameLength : openerLength (cursor.followedBy behind) = openerLength cursor := by
    rw [openerLength, openerLength, sameMarker]
  have sameOpening : openingOf .block (cursor.followedBy behind) = openingOf .block cursor := by
    rw [openingOf, sameLength, sameMarker, Cursor.cut_followedBy _ (openerLength_le long)]
    rfl
  have sameInside : insideTag .block (cursor.followedBy behind) =
      { insideTag .block cursor with
        cursor := (insideTag .block cursor).cursor.followedBy behind } := by
    rw [insideTag, sameLength, Cursor.skip_followedBy (openerLength_le long)]
    exact same
  have plainLonger : ¬IsVerbatim .block (cursor.followedBy behind) := by
    rw [IsVerbatim, sameInside]
    exact plain
  rw [scanWholeTag_of_not_verbatim plainLonger, sameInside, sameOpening]

/-! ### Texts that are one tag -/

/-- The tokens that matter of the tag that a text begins with. -/
def tagTokens (source : String) : List Token := kept (scanConstruct (.ofText source)).1.tokens

/-- Whether a text is one tag of a name, in whose pieces nothing is wrong. -/
structure IsTag (name source : String) : Prop where
  opens : Delimiter.block.opener.isPrefixOf source.toList = true
  whole : (scanConstruct (.ofText source)).2.rest = []
  quiet : (scanConstruct (.ofText source)).1.problems = []
  named : ((tagTokens source).map wordOf)[1]? = some (.name name)

instance (name source : String) : Decidable (IsTag name source) :=
  decidable_of_iff
    (Delimiter.block.opener.isPrefixOf source.toList = true ∧
      (scanConstruct (.ofText source)).2.rest = [] ∧
      (scanConstruct (.ofText source)).1.problems = [] ∧
      ((tagTokens source).map wordOf)[1]? = some (.name name))
    ⟨fun ⟨opens, whole, quiet, named⟩ => ⟨opens, whole, quiet, named⟩,
      fun isTag => ⟨isTag.opens, isTag.whole, isTag.quiet, isTag.named⟩⟩

/-- Whether a tag takes blanks off the text in front of it. -/
def marksFront (source : String) : Bool := (tagTokens source).head?.any (·.kind.trimsBefore)

/-- Whether a tag takes blanks off the text behind it. -/
def marksBack (source : String) : Bool := (tagTokens source).getLast?.any (·.kind.trimsAfter)

/-- The opening delimiter of a tag that stands at a position. -/
def openerSpan (position : Position) (source : String) : Span :=
  Cursor.spanOf ⟨position, source.toList⟩ (openerLength ⟨position, source.toList⟩)

/-- The tokens of a tag. -/
structure TagTokens where
  opening : Token
  title : Token
  inners : List Token
  closing : Token

def TagTokens.all (tag : TagTokens) : List Token :=
  tag.opening :: tag.title :: (tag.inners ++ [tag.closing])

/-- Whether tokens are those of a text that is one tag, wherever it stands. -/
structure TagTokens.Of (name source : String) (tag : TagTokens) : Prop where
  words : tag.all.map wordOf = (tagTokens source).map wordOf
  opens : ∃ trim, tag.opening.kind = .blockStart trim
  named : wordOf tag.title = .name name
  inner : ∀ token ∈ tag.inners, token.kind.isInner = true
  closes : ∃ trim, tag.closing.kind = .blockEnd trim

section Of

variable {name source : String} {tag : TagTokens}

theorem TagTokens.Of.marksFront_eq (isOf : tag.Of name source) :
    tag.opening.kind.trimsBefore = marksFront source := by
  have heads := congrArg List.head? isOf.words
  rw [List.head?_map, List.head?_map] at heads
  obtain ⟨own, isOwn, sameWord⟩ := Option.map_eq_some_iff.mp heads.symm
  rw [marksFront, isOwn, Option.any_some]
  exact congrArg (·.kind.trimsBefore) sameWord.symm

theorem TagTokens.Of.marksBack_eq (isOf : tag.Of name source) :
    tag.closing.kind.trimsAfter = marksBack source := by
  have lasts := congrArg List.getLast? isOf.words
  have isLast : tag.all.getLast? = some tag.closing := by
    simp [TagTokens.all, List.getLast?_cons]
  rw [List.getLast?_map, List.getLast?_map, isLast] at lasts
  obtain ⟨own, isOwn, sameWord⟩ := Option.map_eq_some_iff.mp lasts.symm
  rw [marksBack, isOwn, Option.any_some]
  exact congrArg (·.kind.trimsAfter) sameWord.symm

theorem map_wordOf_kept (tokens : List Token) :
    (kept tokens).map wordOf = (tokens.map wordOf).filter fun word => !word.kind.isTrivia := by
  rw [List.filter_map]
  rfl

/-- The tokens of a tag that does not begin a verbatim body. -/
theorem tokens_of_plain (opens : Delimiter.block.opener.isPrefixOf cursor.rest = true)
    (plain : ¬IsVerbatim .block cursor)
    (named : ((kept (scanConstruct cursor).1.tokens).map wordOf)[1]? = some (.name name)) :
    ∃ tag : TagTokens, kept (scanConstruct cursor).1.tokens = tag.all ∧
      tag.opening = openingOf .block cursor ∧ wordOf tag.title = .name name ∧
        (∀ token ∈ tag.inners, token.kind.isInner = true) ∧
          ∃ trim, tag.closing.kind = .blockEnd trim := by
  obtain ⟨inners, closing, areTokens, areInner, trim, closes⟩ :=
    tokens_scanTag .block cursor.position [] (cursor.skip (openerLength cursor))
  have areKept : kept (scanConstruct cursor).1.tokens =
      openingOf .block cursor :: (kept inners ++ [closing]) := by
    have matters : kept [openingOf .block cursor] = [openingOf .block cursor] := by
      simp [kept, openingOf, Cursor.cut, Delimiter.startKind, Kind.isTrivia]
    have closingMatters : kept [closing] = [closing] := by
      simp [kept, closes, Delimiter.endKind, Kind.isTrivia]
    rw [scanConstruct_of_block opens, scanWholeTag_of_not_verbatim plain, Scan.tokens_append,
      kept_append, Scan.one, matters, insideTag, areTokens, kept_append, closingMatters]
    rfl
  rw [areKept] at named ⊢
  cases areInners : kept inners with
  | nil =>
      rw [areInners] at named
      have isClosing : wordOf closing = .name name := Option.some.inj named
      have isName : closing.kind = .name := congrArg Word.kind isClosing
      rw [closes] at isName
      cases isName
  | cons title others =>
      rw [areInners] at named
      refine ⟨⟨_, title, others, closing⟩, rfl, rfl, Option.some.inj named, ?_, trim, closes⟩
      intro token member
      have inKept : token ∈ kept inners := areInners ▸ List.mem_cons_of_mem _ member
      exact areInner token (List.mem_filter.mp inKept).1

/-- The first word of a tag that begins a verbatim body. -/
theorem named_of_verbatim (opens : Delimiter.block.opener.isPrefixOf cursor.rest = true)
    (verbatim : IsVerbatim .block cursor) :
    ((kept (scanConstruct cursor).1.tokens).map wordOf)[1]? = some (.name "raw") := by
  obtain ⟨inners, closing, areTokens, areInner, trim, closes⟩ :=
    tokens_scanTag .block cursor.position [] (cursor.skip (openerLength cursor))
  obtain ⟨_, _, begins⟩ := id verbatim
  have ends : closing.kind.isTagEnd = true := by
    rw [closes]
    rfl
  rw [insideTag, areTokens] at begins
  obtain ⟨title, isKept, isRaw⟩ := kept_of_beginsVerbatim areInner ends begins
  have matters : kept [openingOf .block cursor] = [openingOf .block cursor] := by
    simp [kept, openingOf, Cursor.cut, Delimiter.startKind, Kind.isTrivia]
  rw [scanConstruct_of_block opens, scanWholeTag_of_verbatim verbatim, Scan.tokens_append,
    Scan.tokens_append, kept_append, kept_append, Scan.one, matters, insideTag, areTokens, isKept]
  exact congrArg some isRaw

/-- A tag that begins a verbatim body has no other name. -/
theorem not_verbatim_of_named (opens : Delimiter.block.opener.isPrefixOf cursor.rest = true)
    (named : ((kept (scanConstruct cursor).1.tokens).map wordOf)[1]? = some (.name name))
    (notRaw : name ≠ "raw") : ¬IsVerbatim .block cursor := by
  intro verbatim
  rw [named_of_verbatim opens verbatim] at named
  exact notRaw (congrArg Word.lexeme (Option.some.inj named)).symm

end Of

/-- A text that is one tag has its own tokens wherever it stands. -/
theorem IsTag.scanFrom_eq {name source : String} (isTag : IsTag name source) (notRaw : name ≠ "raw")
    {cursor : Cursor} (isRest : cursor.rest = source.toList ++ behind) :
    ∃ (tag : TagTokens) (tokens : List Token), kept tokens = tag.all ∧ tag.Of name source ∧
      tag.opening.span = openerSpan cursor.position source ∧
        scanFrom cursor =
          ⟨tokens, []⟩ ++ scanFrom ⟨cursor.position.advanceAll source.toList, behind⟩ := by
  let here : Cursor := ⟨cursor.position, source.toList⟩
  have isCursor : cursor = here.followedBy behind := congrArg (Cursor.mk cursor.position) isRest
  obtain ⟨moved, sameRest⟩ : (scanConstruct (.ofText source)).1.Moved (scanConstruct here).1 ∧ _ :=
    moved_scanConstruct rfl isTag.quiet
  have words : (kept (scanConstruct here).1.tokens).map wordOf = (tagTokens source).map wordOf := by
    rw [tagTokens, map_wordOf_kept, map_wordOf_kept, moved.words]
  have named : ((kept (scanConstruct here).1.tokens).map wordOf)[1]? = some (.name name) := by
    rw [words]
    exact isTag.named
  have plain := not_verbatim_of_named isTag.opens named notRaw
  have whole : (scanConstruct here).2.rest = [] := sameRest.trans isTag.whole
  have same := scanConstruct_of_whole isTag.opens moved.quiet whole plain behind
  obtain ⟨tag, areTokens, isOpening, isTitle, inner, closes⟩ := tokens_of_plain isTag.opens plain named
  refine ⟨tag, _, areTokens, ⟨?_, ?_, isTitle, inner, closes⟩, ?_, ?_⟩
  · rw [← areTokens, words]
  · rw [isOpening]
    exact ⟨_, rfl⟩
  · rw [isOpening]
    rfl
  · have unfinished : cursor.rest ≠ [] := by
      intro isEmpty
      rw [isRest] at isEmpty
      have opens := isTag.opens
      rw [(List.append_eq_nil_iff.mp isEmpty).1] at opens
      cases opens
    have isQuiet : (scanConstruct here).1 = ⟨(scanConstruct here).1.tokens, []⟩ := by
      rw [← moved.quiet]
    have isStop : (scanConstruct here).2.followedBy behind =
        ⟨cursor.position.advanceAll source.toList, behind⟩ := by
      have stops := (covers_scanConstruct here).advanceAll_eq
      rw [whole] at stops
      exact congrArg₂ Cursor.mk stops (by rw [whole]; rfl)
    rw [scanFrom, dif_neg unfinished, ← isQuiet, ← isStop, isCursor, same]

end Stencil.Token
