import Stencil.Proofs.Token.Verbatim

/-!
Contract: tags and comments with blanks inside their delimiters, with and without marks.

Owns:
- such tags and comments, and when a text is exactly one of them;
- what is read between the delimiters, whatever marks they carry;
- the words of a tag or a comment wherever it stands.

Does not own: sources that hold several of them (`Stencil.Proofs.Grammar.Stripped`).
-/

set_option autoImplicit false

namespace Stencil.Token

open Stencil.Grammar (Inside ScansTo Word distanceTo_append_of_none distanceTo_of_here kept
  kept_append scanConstruct_of_tag scanTag_of_piece wordOf)
open Stencil.Text (Position isBlank distanceTo)

/-! ### Tags and comments -/

/-- What may stand between two texts of a source. -/
inductive Form where
  | tag (delimiter : Delimiter)
  | comment
deriving DecidableEq, Repr

namespace Form

def opener : Form → List Char
  | .tag delimiter => delimiter.opener
  | .comment => commentOpener

def closer : Form → List Char
  | .tag delimiter => delimiter.closer
  | .comment => commentCloser

/-- Whether the kinds of the tokens of a text are those of exactly one tag, or of one comment,
without marks. -/
def IsWhole (kinds : List Kind) : Form → Prop
  | .tag delimiter => kinds = delimiter.startKind false ::
      (kinds.filter Kind.isInner ++ [delimiter.endKind false, .endOfInput])
  | .comment => kinds = [.comment false false, .endOfInput]

instance (kinds : List Kind) : (form : Form) → Decidable (form.IsWhole kinds)
  | .tag _ => inferInstanceAs (Decidable (kinds = _))
  | .comment => inferInstanceAs (Decidable (kinds = _))

end Form

/-- A tag or a comment, by all that stands between its delimiters and their marks. -/
structure Construct where
  form : Form
  content : List Char
deriving DecidableEq, Repr

namespace Construct

/-- How a tag or a comment is written, with a mark at its front or its back. -/
def chars (construct : Construct) (front back : Bool) : List Char :=
  construct.form.opener ++ (marker front ++
    (construct.content ++ (marker back ++ construct.form.closer)))

/-- The text that is nothing but the tag or the comment, without marks. -/
def alone (construct : Construct) : String := String.ofList (construct.chars false false)

/-- The words that the tag or the comment is read as on its own, and the end of the input. -/
def aloneWords (construct : Construct) : List Word :=
  (kept (scan construct.alone).tokens).map wordOf

/-- Whether blanks stand inside the delimiters, and the text that is nothing but the tag or the
comment is scanned as exactly that, with nothing wrong in it. The tag that begins a verbatim body
is left out. -/
structure Sound (construct : Construct) : Prop where
  blankFirst : construct.content.head?.any isBlank = true
  blankLast : construct.content.getLast?.any isBlank = true
  quiet : (scan construct.alone).problems = []
  whole : construct.form.IsWhole ((scan construct.alone).tokens.map (·.kind))
  notRaw : construct.form = .tag .block → construct.aloneWords[1]? ≠ some (.name "raw")

instance (construct : Construct) : Decidable construct.Sound :=
  decidable_of_iff
    (construct.content.head?.any isBlank = true ∧ construct.content.getLast?.any isBlank = true ∧
      (scan construct.alone).problems = [] ∧
      construct.form.IsWhole ((scan construct.alone).tokens.map (·.kind)) ∧
      (construct.form = .tag .block → construct.aloneWords[1]? ≠ some (.name "raw")))
    ⟨fun ⟨blankFirst, blankLast, quiet, whole, notRaw⟩ =>
        ⟨blankFirst, blankLast, quiet, whole, notRaw⟩,
      fun sound => ⟨sound.blankFirst, sound.blankLast, sound.quiet, sound.whole, sound.notRaw⟩⟩

/-- The words of a tag between its delimiters. -/
def inner (construct : Construct) : List Word := construct.aloneWords.filter (·.kind.isInner)

/-- The words of a tag or a comment with the given marks. -/
def words (construct : Construct) (front back : Bool) : List Word :=
  match construct.form with
  | .tag delimiter =>
      ⟨delimiter.startKind front, String.ofList (delimiter.opener ++ marker front)⟩ ::
        (construct.inner ++
          [⟨delimiter.endKind back, String.ofList (marker back ++ delimiter.closer)⟩])
  | .comment => [⟨.comment front back, String.ofList (construct.chars front back)⟩]

end Construct

example : (Construct.mk (.tag .output) " 'a' ~ b ".toList).Sound := by decide +kernel

/-! ### In front of a blank -/

section Blank

variable {delimiter : Delimiter} {brackets : List Symbol} {blank c : Char}
  {text behind : List Char}

/-- Nothing that is free of blanks goes on with one. -/
theorem foreign_of_isBlank (isBlank : isBlank blank = true) {pattern : List Char}
    (solid : pattern.any Text.isBlank = false) (behind : List Char) :
    ∀ c ∈ (blank :: behind).head?, c ∉ pattern := by
  rintro c ⟨⟩ member
  have found := List.any_eq_true.mpr ⟨_, member, isBlank⟩
  rw [solid] at found
  cases found

theorem closerAt?_append_blank (isBlank : isBlank blank = true) (behind : List Char) :
    closerAt? delimiter brackets (text ++ blank :: behind) =
      closerAt? delimiter brackets text := by
  have marked : ('-' :: delimiter.closer).any Text.isBlank = false := by
    cases delimiter <;> decide
  have plain : delimiter.closer.any Text.isBlank = false := by
    cases delimiter <;> decide
  rw [closerAt?, closerAt?, isPrefixOf_append (foreign_of_isBlank isBlank marked behind),
    isPrefixOf_append (foreign_of_isBlank isBlank plain behind)]

theorem opensConstruct_append_blank (isBlank : isBlank blank = true) (behind : List Char) :
    opensConstruct (text ++ blank :: behind) = opensConstruct text := by
  have same (second : Char) (solid : ['{', second].any Text.isBlank = false) :
      ['{', second].isPrefixOf (text ++ blank :: behind) = ['{', second].isPrefixOf text :=
    isPrefixOf_append (foreign_of_isBlank isBlank solid behind)
  simp only [opensConstruct, Delimiter.opener, commentOpener, same '{' (by decide),
    same '%' (by decide), same '#' (by decide)]

theorem apart_of_isBlank (isBlank : isBlank blank = true) (behind : List Char) :
    Apart (blank :: behind) := by
  have solid : ['.', '+', '-', '*', '/', '='].any Text.isBlank = false := by decide
  intro c isHead
  refine ⟨?_, foreign_of_isBlank isBlank solid behind c isHead⟩
  cases isHead
  exact continuesName_of_isBlank isBlank

/-- Where no quote stands, no literal is closed. -/
theorem closedBodyLength?_eq_none {quote : Char} (absent : quote ∉ text) :
    closedBodyLength? quote text = none := by
  fun_induction closedBodyLength? quote text with
  | case1 => rfl
  | case2 => rfl
  | case3 second rest inductionHypothesis =>
      rw [inductionHypothesis fun member =>
        absent (List.mem_cons_of_mem _ (List.mem_cons_of_mem _ member))]
      rfl
  | case4 => exact absurd List.mem_cons_self absent
  | case5 first rest _ _ _ inductionHypothesis =>
      rw [inductionHypothesis fun member => absent (List.mem_cons_of_mem _ member)]
      rfl

/-- A literal is closed in front of a text that holds no quote, if it is closed at all. -/
theorem closedBodyLength?_of_append {quote : Char} {length : Nat} (absent : quote ∉ behind)
    (closed : closedBodyLength? quote (text ++ behind) = some length) :
    closedBodyLength? quote text = some length := by
  fun_induction closedBodyLength? quote text generalizing length with
  | case1 =>
      rw [List.nil_append, closedBodyLength?_eq_none absent] at closed
      cases closed
  | case2 =>
      cases behind with
      | nil => cases closed
      | cons first behind =>
          have absentLater : quote ∉ behind := fun member => absent (List.mem_cons_of_mem _ member)
          simp [closedBodyLength?, closedBodyLength?_eq_none absentLater] at closed
  | case3 second rest inductionHypothesis =>
      obtain ⟨inner, isInner, rfl⟩ := Option.map_eq_some_iff.mp closed
      rw [inductionHypothesis isInner]
      rfl
  | case4 rest notLast notPair =>
      have plain : quote ≠ '\\' := by
        intro isEscape
        cases rest with
        | nil => exact notLast isEscape rfl
        | cons head rest => exact notPair head rest isEscape rfl
      simpa [closedBodyLength?, plain] using closed
  | case5 first rest notLast notPair notQuote inductionHypothesis =>
      have plain : first ≠ '\\' := by
        intro isEscape
        cases rest with
        | nil => exact notLast isEscape rfl
        | cons head rest => exact notPair head rest isEscape rfl
      have closed : (closedBodyLength? quote (rest ++ behind)).map (· + 1) = some length := by
        simpa [closedBodyLength?, plain, notQuote] using closed
      obtain ⟨inner, isInner, rfl⟩ := Option.map_eq_some_iff.mp closed
      rw [inductionHypothesis isInner]
      rfl

/-- Nothing is wrong with a piece in front of a blank, if nothing is with what follows and no quote
is there. -/
theorem quiet_pieceAt_of_append (isBlank : isBlank blank = true)
    (noQuote : ∀ quote ∈ ['\'', '"'], quote ∉ blank :: behind)
    (quiet : (pieceAt delimiter c (text ++ blank :: behind)).problem = none) :
    (pieceAt delimiter c text).problem = none := by
  unfold pieceAt at quiet ⊢
  split
  · rfl
  · rename_i notBlank
    rw [if_neg notBlank] at quiet
    split
    · rfl
    · rename_i notName
      rw [if_neg notName] at quiet
      split
      · rfl
      · rename_i notDigit
        rw [if_neg notDigit] at quiet
        split
        · rename_i isQuote
          rw [if_pos isQuote] at quiet
          unfold stringPiece at quiet ⊢
          cases isClosed : closedBodyLength? c (text ++ blank :: behind) with
          | none =>
              rw [isClosed] at quiet
              cases quiet
          | some length =>
              rw [closedBodyLength?_of_append (noQuote c (by simpa using isQuote)) isClosed]
        · rename_i notQuote
          rw [if_neg notQuote, symbolPiece_append (apart_of_isBlank isBlank behind)] at quiet
          exact quiet

end Blank

/-! ### Between the delimiters -/

section Inside

variable {delimiter : Delimiter} {opened : Position} {brackets : List Symbol} {cursor : Cursor}
  {c : Char} {others : List Char}

theorem exists_blank_of_last {content : List Char} (nonempty : content ≠ [])
    (ends : ∀ c ∈ content.getLast?, isBlank c = true) :
    ∃ before blank, content = before ++ [blank] ∧ isBlank blank = true := by
  obtain ⟨before, blank, rfl⟩ := (List.eq_nil_or_concat content).resolve_left nonempty
  exact ⟨before, blank, List.concat_eq_append, ends blank (by simp)⟩

/-- What stands behind the content of a tag with marks. -/
theorem head_ending (delimiter : Delimiter) (isMarked : Bool) (rest : List Char) :
    ∀ c ∈ (marker isMarked ++ (delimiter.closer ++ rest)).head?, isBlank c = false := by
  intro c isHead
  cases isMarked <;> cases delimiter <;> cases isHead <;> decide

/-- A piece of a content that ends with a blank stays inside the content, whatever the delimiter
behind it is. -/
theorem pieceAt_spaced (ends : ∀ blank ∈ (c :: others).getLast?, isBlank blank = true)
    (quiet : (pieceAt delimiter c (others ++ delimiter.closer)).problem = none) :
    (pieceAt delimiter c (others ++ delimiter.closer)).length ≤ others.length + 1 ∧
      ∀ behind : List Char, (∀ c ∈ behind.head?, isBlank c = false) →
        pieceAt delimiter c (others ++ behind) =
          pieceAt delimiter c (others ++ delimiter.closer) := by
  have closerStops : ∀ c ∈ delimiter.closer.head?, isBlank c = false := by
    have stops := head_ending delimiter false []
    rwa [List.append_nil] at stops
  by_cases blank : isBlank c = true
  · have isPiece {behind : List Char} (stops : ∀ c ∈ behind.head?, isBlank c = false) :
        pieceAt delimiter c (others ++ behind) =
          ⟨.blank, 1 + (others.takeWhile isBlank).length, none⟩ := by
      rw [pieceAt, if_pos blank, takeWhile_append_of_stop stops]
    refine ⟨?_, fun behind stops => (isPiece stops).trans (isPiece closerStops).symm⟩
    have taken := (List.takeWhile_prefix isBlank (l := others)).length_le
    rw [isPiece closerStops]
    simp only
    omega
  · have more : others ≠ [] := by
      rintro rfl
      exact blank (ends c rfl)
    have endsLater : ∀ blank ∈ others.getLast?, isBlank blank = true := by
      obtain ⟨second, others, rfl⟩ := List.exists_cons_of_ne_nil more
      rwa [List.getLast?_cons_cons] at ends
    obtain ⟨before, last, rfl, lastBlank⟩ := exists_blank_of_last more endsLater
    have notBoth (behind : List Char) : isBlank c = true →
        ∀ next ∈ (last :: behind).head?, isBlank next = false := fun isBlank => absurd isBlank blank
    have noQuote : ∀ quote ∈ ['\'', '"'], quote ∉ last :: delimiter.closer := by
      have solid : ['\'', '"'].any isBlank = false := by decide
      have absent : '\'' ∉ delimiter.closer ∧ '"' ∉ delimiter.closer := by
        cases delimiter <;> decide
      intro quote isQuote member
      rcases List.mem_cons.mp member with rfl | isIn
      · exact foreign_of_isBlank lastBlank solid [] quote rfl isQuote
      · rcases (by simpa using isQuote : quote = '\'' ∨ quote = '"') with rfl | rfl
        · exact absent.1 isIn
        · exact absent.2 isIn
    simp only [List.append_assoc, List.singleton_append] at quiet ⊢
    have quietBefore := quiet_pieceAt_of_append lastBlank noQuote quiet
    have isPiece (behind : List Char) :
        pieceAt delimiter c (before ++ last :: behind) = pieceAt delimiter c before :=
      pieceAt_append (apart_of_isBlank lastBlank behind) (notBoth behind) quietBefore
    refine ⟨?_, fun behind _ => (isPiece behind).trans (isPiece _).symm⟩
    have short := pieceAt_length_le delimiter c before
    rw [isPiece, List.length_append]
    omega

/-- Nothing shorter than a delimiter ends a tag. -/
theorem two_le_of_quiet (quiet : (scanTag delimiter opened brackets cursor).scan.problems = []) :
    2 ≤ cursor.rest.length := by
  fun_induction scanTag delimiter opened brackets cursor with
  | case1 => cases quiet
  | case2 brackets cursor c rest isRest length trim closes =>
      rw [isRest]
      refine Nat.le_trans ?_ (closerAt?_length_le closes)
      unfold closerAt? at closes
      split at closes
      · cases closes
      · split at closes
        · cases closes
          decide
        · split at closes
          · cases closes
            decide
          · cases closes
  | case3 => cases quiet
  | case4 brackets cursor c rest _ _ _ piece problems inner inductionHypothesis =>
      have later := inductionHypothesis (List.append_eq_nil_iff.mp quiet).2
      rw [Cursor.skip_rest_length] at later
      exact Nat.le_trans later (Nat.sub_le _ _)

/-- A delimiter that ends a text is no more than that delimiter. -/
theorem eq_of_closerAt? {text : List Char} {length : Nat} {trim : Bool}
    (closes : closerAt? delimiter brackets text = some (length, trim))
    (nothing : text.drop length = []) :
    ¬ (delimiter = .output ∧ brackets.head? = some .leftBrace) ∧
      text = marker trim ++ delimiter.closer := by
  unfold closerAt? at closes
  split at closes
  · cases closes
  · rename_i noMap
    refine ⟨noMap, ?_⟩
    split at closes
    · rename_i isThere
      cases closes
      obtain ⟨others, rfl⟩ := List.isPrefixOf_iff_prefix.mp isThere
      have noOthers : others = [] := by
        cases delimiter <;> exact nothing
      rw [noOthers, List.append_nil]
      rfl
    · split at closes
      · rename_i isThere
        cases closes
        obtain ⟨others, rfl⟩ := List.isPrefixOf_iff_prefix.mp isThere
        have noOthers : others = [] := by
          cases delimiter <;> exact nothing
        rw [noOthers, List.append_nil]
        rfl
      · cases closes

/-- Between its delimiters a tag reads the same whatever marks they carry, if it does not end
earlier than its text. -/
theorem inside_spaced {content : List Char} (ends : ∀ c ∈ content.getLast?, isBlank c = true)
    (isRest : cursor.rest = content ++ delimiter.closer)
    (quiet : (scanTag delimiter opened brackets cursor).scan.problems = [])
    (whole : (scanTag delimiter opened brackets cursor).cursor.rest = []) :
    ∃ words : List Word, (∀ word ∈ words, word.kind.isInner = true) ∧
      ∀ (isMarked : Bool) (place : Position) (other : Cursor) (rest : List Char),
        other.rest = content ++ (marker isMarked ++ (delimiter.closer ++ rest)) →
          Inside (scanTag delimiter place brackets other)
            (words ++ [⟨delimiter.endKind isMarked,
              String.ofList (marker isMarked ++ delimiter.closer)⟩]) rest := by
  fun_induction scanTag delimiter opened brackets cursor generalizing content with
  | case1 => cases quiet
  | case2 brackets cursor c rest isText length trim closes =>
      have nothing : (c :: rest).drop length = [] := isText ▸ whole
      obtain ⟨noMap, isCloser⟩ := eq_of_closerAt? closes nothing
      have isEnding : content ++ delimiter.closer = marker trim ++ delimiter.closer := by
        rw [← isRest, isText, isCloser]
      -- A mark is no blank, so it is not what the content ends with.
      have isEmpty : content = [] := by
        rw [List.append_cancel_right isEnding] at ends ⊢
        cases trim with
        | false => rfl
        | true => exact absurd (ends '-' rfl) (by decide)
      subst isEmpty
      exact ⟨[], List.forall_mem_nil _,
        fun isMarked place other rest isOther => inside_of_closer noMap isOther⟩
  | case3 => cases quiet
  | case4 brackets cursor c rest isText notClosed notOpened piece problems inner =>
      rename_i inductionHypothesis
      obtain ⟨noProblem, quietInner⟩ := List.append_eq_nil_iff.mp quiet
      have quietPiece : piece.problem = none :=
        Option.toList_eq_nil_iff.mp (List.map_eq_nil_iff.mp noProblem)
      have more : content ≠ [] := by
        rintro rfl
        have later := two_le_of_quiet quietInner
        have positive : 0 < piece.length := pieceAt_length_pos delimiter c rest
        have two : delimiter.closer.length = 2 := by
          cases delimiter <;> rfl
        rw [Cursor.skip_rest_length, isRest, List.nil_append, two] at later
        omega
      obtain ⟨first, others, rfl⟩ := List.exists_cons_of_ne_nil more
      obtain ⟨rfl, rfl⟩ : c = first ∧ rest = others ++ delimiter.closer :=
        List.cons.inj (isText.symm.trans isRest)
      obtain ⟨short, samePiece⟩ := pieceAt_spaced ends quietPiece
      have isLonger (behind : List Char) : (c :: others ++ behind).drop piece.length =
          (c :: others).drop piece.length ++ behind :=
        List.drop_append_of_le_length short
      have endsLater : ∀ blank ∈ ((c :: others).drop piece.length).getLast?, isBlank blank = true := by
        intro blank isLast
        rw [List.getLast?_drop] at isLast
        split at isLast
        · cases isLast
        · exact ends blank isLast
      obtain ⟨words, areInner, reads⟩ := inductionHypothesis endsLater
        (by rw [Cursor.skip, isRest, isLonger]) quietInner whole
      obtain ⟨before, last, isContent, lastBlank⟩ := exists_blank_of_last more ends
      refine ⟨(kept [cursor.cut piece.kind piece.length]).map wordOf ++ words, ?_, ?_⟩
      · intro word member
        rcases List.mem_append.mp member with isHere | isLater
        · obtain ⟨token, isToken, rfl⟩ := List.mem_map.mp isHere
          rw [List.mem_singleton.mp (List.mem_filter.mp isToken).1]
          exact pieceAt_kind_isInner delimiter c _
        · exact areInner word isLater
      · intro isMarked place other behind isOther
        have stops := head_ending delimiter isMarked behind
        generalize isTail : marker isMarked ++ (delimiter.closer ++ behind) = tail at isOther stops
        have notClosedThere : closerAt? delimiter brackets (c :: (others ++ tail)) = none := by
          rw [← List.cons_append, isContent, List.append_assoc] at notClosed ⊢
          rw [List.singleton_append, closerAt?_append_blank lastBlank] at notClosed ⊢
          exact notClosed
        have notOpenedThere : opensConstruct (c :: (others ++ tail)) = false := by
          have notOpened := Bool.eq_false_iff.mpr notOpened
          rw [← List.cons_append, isContent, List.append_assoc] at notOpened ⊢
          rw [List.singleton_append, opensConstruct_append_blank lastBlank] at notOpened ⊢
          exact notOpened
        have isLater : (other.skip piece.length).rest = (c :: others).drop piece.length ++
            (marker isMarked ++ (delimiter.closer ++ behind)) := by
          rw [Cursor.skip, isOther, isLonger, isTail]
        have sameWord : (kept [other.cut piece.kind piece.length]).map wordOf =
            (kept [cursor.cut piece.kind piece.length]).map wordOf := by
          have sameText : other.rest.take piece.length = cursor.rest.take piece.length := by
            rw [isOther, isRest, List.take_append_of_le_length short,
              List.take_append_of_le_length short]
          simp only [map_wordOf_kept, List.map_singleton, wordOf, Cursor.cut, sameText]
        rw [scanTag_of_piece isOther notClosedThere notOpenedThere (samePiece tail stops) quietPiece,
          ← sameWord, List.append_assoc]
        exact (reads isMarked place _ behind isLater).pass _

end Inside

/-! ### Texts that are one tag or comment -/

/-- Nothing is left to be read where only the end of the input is found. -/
theorem rest_of_kinds {cursor : Cursor}
    (isEnd : (scanFrom cursor).tokens.map (·.kind) = [.endOfInput]) : cursor.rest = [] := by
  obtain ⟨stop, atEnd, covers⟩ := covers_scanFrom cursor
  obtain ⟨tokens, areTokens⟩ := scanFrom_stop cursor
  have lengths := congrArg List.length isEnd
  have isEmpty : tokens = [] := by simpa [areTokens] using lengths
  have lexemes := covers.lexemes
  rw [areTokens, isEmpty, atEnd] at lexemes
  exact lexemes.symm

/-- Behind a tag that is all of a text only the end of the input is found. -/
theorem behind_of_isWhole {delimiter : Delimiter} {start closing : Kind} {inners behind : List Kind}
    (opens : start.isInner = false) (areInner : ∀ kind ∈ inners, kind.isInner = true)
    (closes : closing.isInner = false)
    (whole : (Form.tag delimiter).IsWhole (start :: (inners ++ closing :: behind))) :
    behind = [.endOfInput] := by
  have areAll : inners.filter Kind.isInner = inners := List.filter_eq_self.mpr areInner
  have whole : start :: (inners ++ closing :: behind) = _ := whole
  rw [List.filter_cons_of_neg (Bool.eq_false_iff.mp opens), List.filter_append, areAll,
    List.filter_cons_of_neg (Bool.eq_false_iff.mp closes), List.append_assoc] at whole
  have isBehind := List.append_cancel_left (List.cons.inj whole).2
  cases found : behind.filter Kind.isInner with
  | nil =>
      rw [found] at isBehind
      exact (List.cons.inj isBehind).2
  | cons first others =>
      have isInner := (List.mem_filter.mp (found ▸ List.mem_cons_self : first ∈ _)).2
      rw [found] at isBehind
      rw [(List.cons.inj isBehind).1, isInner] at closes
      cases closes

namespace Construct

variable {construct : Construct} {delimiter : Delimiter} {cursor : Cursor} {rest : List Char}
  {front back : Bool}

theorem toList_alone (construct : Construct) :
    construct.alone.toList = construct.chars false false := String.toList_ofList

/-- A blank is no marker, so the front of a tag or a comment tells whether it has one. -/
theorem Sound.hasMarker (sound : construct.Sound)
    (isRest : cursor.rest = construct.chars front back ++ rest) : hasMarker cursor = front := by
  obtain ⟨blank, isFirst, isBlank⟩ := (Option.any_eq_true ..).mp sound.blankFirst
  obtain ⟨others, isContent⟩ := List.head?_eq_some_iff.mp isFirst
  have notMarker : blank ≠ '-' := by
    rintro rfl
    exact absurd isBlank (by decide)
  have dropped : cursor.rest.drop 2 =
      marker front ++ (blank :: others ++ (marker back ++ (construct.form.closer ++ rest))) := by
    rw [isRest, chars, isContent]
    simp only [List.append_assoc]
    cases construct.form with
    | tag delimiter => cases delimiter <;> rfl
    | comment => rfl
  rw [Token.hasMarker, dropped]
  cases front with
  | true => rfl
  | false => simpa [marker] using notMarker

theorem Sound.endsBlank (sound : construct.Sound) :
    ∀ c ∈ construct.content.getLast?, isBlank c = true := by
  intro c isLast
  have blankLast := sound.blankLast
  rwa [Option.mem_def.mp isLast, Option.any_some] at blankLast

section Tag

theorem rest_of_tag (isTag : construct.form = .tag delimiter)
    (isRest : cursor.rest = construct.chars front back ++ rest) :
    cursor.rest = (delimiter.opener ++ marker front) ++
      (construct.content ++ (marker back ++ (delimiter.closer ++ rest))) := by
  rw [isRest, chars, isTag]
  simp only [Form.opener, Form.closer, List.append_assoc]

theorem Sound.openerLength (sound : construct.Sound) (isTag : construct.form = .tag delimiter)
    (isRest : cursor.rest = construct.chars front back ++ rest) :
    openerLength cursor = (delimiter.opener ++ marker front).length := by
  rw [Token.openerLength, sound.hasMarker isRest]
  cases delimiter <;> cases front <;> rfl

theorem Sound.rest_inside (sound : construct.Sound) (isTag : construct.form = .tag delimiter)
    (isRest : cursor.rest = construct.chars front back ++ rest) :
    (cursor.skip (Token.openerLength cursor)).rest =
      construct.content ++ (marker back ++ (delimiter.closer ++ rest)) := by
  rw [sound.openerLength isTag isRest]
  exact rest_skip_of_append (rest_of_tag isTag isRest)

/-- The word of the opening delimiter. -/
theorem Sound.wordOf_opening (sound : construct.Sound) (isTag : construct.form = .tag delimiter)
    (isRest : cursor.rest = construct.chars front back ++ rest) :
    (kept [openingOf delimiter cursor]).map wordOf =
      [⟨delimiter.startKind front, String.ofList (delimiter.opener ++ marker front)⟩] := by
  have isWord : wordOf (openingOf delimiter cursor) =
      ⟨delimiter.startKind front, String.ofList (delimiter.opener ++ marker front)⟩ := by
    rw [openingOf, wordOf, Cursor.cut, sound.hasMarker isRest, sound.openerLength isTag isRest,
      rest_of_tag isTag isRest, List.take_left]
  rw [map_wordOf_kept, List.map_singleton, isWord]
  cases delimiter <;> rfl

theorem rest_alone (construct : Construct) :
    (Cursor.ofText construct.alone).rest = construct.chars false false ++ [] := by
  rw [Cursor.ofText, toList_alone, List.append_nil]

/-- The scan of a text that is one tag or comment begins with it. -/
theorem scan_alone (construct : Construct) :
    scan construct.alone = (scanConstruct (.ofText construct.alone)).1 ++
      scanFrom (scanConstruct (.ofText construct.alone)).2 := by
  have unfinished : (Cursor.ofText construct.alone).rest ≠ [] := by
    rw [rest_alone, chars]
    cases construct.form with
    | tag delimiter => cases delimiter <;> exact List.cons_ne_nil _ _
    | comment => exact List.cons_ne_nil _ _
  rw [scan, scanFrom, dif_neg unfinished]

theorem opens_alone (isTag : construct.form = .tag delimiter) :
    ∃ behind, (Cursor.ofText construct.alone).rest = delimiter.opener ++ behind := by
  rw [rest_of_tag isTag (rest_alone construct), List.append_assoc]
  exact ⟨_, rfl⟩

theorem Sound.not_verbatim (sound : construct.Sound) (isTag : construct.form = .tag delimiter) :
    ¬IsVerbatim delimiter (.ofText construct.alone) := by
  intro verbatim
  obtain rfl : delimiter = .block := verbatim.1
  obtain ⟨behind, isRest⟩ := opens_alone isTag
  have opens : Delimiter.block.opener.isPrefixOf (Cursor.ofText construct.alone).rest = true := by
    rw [isRest]
    exact List.isPrefixOf_iff_prefix.mpr (List.prefix_append _ _)
  have named := named_of_verbatim opens verbatim
  obtain ⟨isLess, -⟩ := List.getElem?_eq_some_iff.mp named
  apply sound.notRaw isTag
  rw [aloneWords, scan_alone, Scan.tokens_append, kept_append, List.map_append,
    List.getElem?_append_left isLess, named]

/-- A text that is one tag ends with it, and nothing is wrong inside. -/
theorem Sound.inside_alone (sound : construct.Sound) (isTag : construct.form = .tag delimiter) :
    (insideTag delimiter (.ofText construct.alone)).scan.problems = [] ∧
      (insideTag delimiter (.ofText construct.alone)).cursor.rest = [] := by
  obtain ⟨behind, isRest⟩ := opens_alone isTag
  have quiet := sound.quiet
  have whole := sound.whole
  rw [scan_alone, scanConstruct_of_tag isRest] at quiet whole
  refine ⟨insideTag_quiet (List.append_eq_nil_iff.mp quiet).1, ?_⟩
  rw [scanWholeTag_of_not_verbatim (sound.not_verbatim isTag), isTag] at whole
  obtain ⟨inners, closing, areTokens, areInner, trim, closes⟩ := tokens_scanTag delimiter
    (Cursor.ofText construct.alone).position []
    ((Cursor.ofText construct.alone).skip (Token.openerLength (.ofText construct.alone)))
  have areTokens : (insideTag delimiter (.ofText construct.alone)).scan.tokens = _ := areTokens
  have opens : (openingOf delimiter (.ofText construct.alone)).kind.isInner = false := by
    cases delimiter <;> rfl
  have areInnerKinds : ∀ kind ∈ inners.map (·.kind), kind.isInner = true := by simpa using areInner
  have notInner : closing.kind.isInner = false := by
    rw [closes]
    cases delimiter <;> rfl
  rw [Scan.tokens_append, Scan.tokens_append, areTokens] at whole
  apply rest_of_kinds
  apply behind_of_isWhole opens areInnerKinds notInner
  simpa [Scan.one] using whole

/-- Only the words between the delimiters of a tag are from the inside of tags. -/
theorem filter_isInner {opening closing last : Word} {words : List Word}
    (opens : opening.kind.isInner = false) (areInner : ∀ word ∈ words, word.kind.isInner = true)
    (closes : closing.kind.isInner = false) (isLast : last.kind.isInner = false) :
    ([opening] ++ (words ++ [closing]) ++ [last]).filter (·.kind.isInner) = words := by
  simp [opens, closes, isLast, List.filter_eq_self.mpr areInner]

/-- The words inside of a tag that is all of a text are read wherever the tag stands. -/
theorem Sound.exists_words (sound : construct.Sound) (isTag : construct.form = .tag delimiter) :
    ∃ words : List Word, (∀ word ∈ words, word.kind.isInner = true) ∧
      construct.aloneWords =
        [⟨delimiter.startKind false, String.ofList (delimiter.opener ++ marker false)⟩] ++
          (words ++ [⟨delimiter.endKind false, String.ofList (marker false ++ delimiter.closer)⟩]) ++
          [⟨.endOfInput, ""⟩] ∧
      ∀ (front back : Bool) (cursor : Cursor) (rest : List Char),
        cursor.rest = construct.chars front back ++ rest →
          Inside (insideTag delimiter cursor) (words ++ [⟨delimiter.endKind back,
            String.ofList (marker back ++ delimiter.closer)⟩]) rest := by
  have isAlone := rest_alone construct
  obtain ⟨quiet, whole⟩ := sound.inside_alone isTag
  have isContent := sound.rest_inside isTag isAlone
  rw [List.append_nil] at isContent
  obtain ⟨words, areInner, reads⟩ := inside_spaced sound.endsBlank isContent quiet whole
  have everywhere (front back : Bool) (cursor : Cursor) (rest : List Char)
      (isRest : cursor.rest = construct.chars front back ++ rest) :
      Inside (insideTag delimiter cursor) (words ++ [⟨delimiter.endKind back,
        String.ofList (marker back ++ delimiter.closer)⟩]) rest :=
    reads back _ _ rest (sound.rest_inside isTag isRest)
  refine ⟨words, areInner, ?_, everywhere⟩
  obtain ⟨behind, opens⟩ := opens_alone isTag
  have isEnd : scanFrom (insideTag delimiter (.ofText construct.alone)).cursor =
      .one (Cursor.mark (insideTag delimiter (.ofText construct.alone)).cursor .endOfInput) := by
    rw [scanFrom, dif_pos whole]
  rw [aloneWords, scan_alone, scanConstruct_of_tag opens,
    scanWholeTag_of_not_verbatim (sound.not_verbatim isTag), isEnd, Scan.tokens_append,
    Scan.tokens_append, kept_append, kept_append, List.map_append, List.map_append,
    (everywhere false false _ [] isAlone).words, Scan.one, sound.wordOf_opening isTag isAlone]
  rfl

/-- A tag on its own is its words between its delimiters. -/
theorem Sound.aloneWords_eq (sound : construct.Sound) (isTag : construct.form = .tag delimiter) :
    construct.aloneWords =
      [⟨delimiter.startKind false, String.ofList (delimiter.opener ++ marker false)⟩] ++
        (construct.inner ++
          [⟨delimiter.endKind false, String.ofList (marker false ++ delimiter.closer)⟩]) ++
        [⟨.endOfInput, ""⟩] := by
  obtain ⟨words, areInner, areWords, -⟩ := sound.exists_words isTag
  have isInner : construct.inner = words := by
    have opens : (delimiter.startKind false).isInner = false := by cases delimiter <;> rfl
    have closes : (delimiter.endKind false).isInner = false := by cases delimiter <;> rfl
    rw [inner, areWords]
    exact filter_isInner opens areInner closes rfl
  rw [isInner, areWords]

/-- A statement does not begin a verbatim body. -/
theorem Sound.head_inner (sound : construct.Sound) (isBlock : construct.form = .tag .block) :
    ∀ word ∈ construct.inner.head?, word ≠ .name "raw" := by
  rintro word isHead rfl
  obtain ⟨others, isInner⟩ := List.head?_eq_some_iff.mp isHead
  apply sound.notRaw isBlock
  rw [sound.aloneWords_eq isBlock, isInner]
  rfl

/-- What is read inside a tag, wherever the tag stands and whatever marks it carries. -/
theorem Sound.inside_tag (sound : construct.Sound) (isTag : construct.form = .tag delimiter)
    (isRest : cursor.rest = construct.chars front back ++ rest) :
    ¬IsVerbatim delimiter cursor ∧ Inside (insideTag delimiter cursor)
      (construct.inner ++ [⟨delimiter.endKind back,
        String.ofList (marker back ++ delimiter.closer)⟩]) rest := by
  obtain ⟨words, -, areWords, reads⟩ := sound.exists_words isTag
  have isInner : construct.inner = words := by
    rw [sound.aloneWords_eq isTag] at areWords
    simpa using areWords
  have alone := reads false false _ [] (rest_alone construct)
  have here := reads front back cursor rest isRest
  rw [isInner]
  refine ⟨fun verbatim => sound.not_verbatim isTag ⟨verbatim.1, alone.closed, ?_⟩, here⟩
  -- Which marks the end of a tag carries does not matter for whether it begins a verbatim body.
  have begins := verbatim.2.2
  rw [beginsVerbatim_eq_kept, here.words, List.filter_append] at begins
  rw [beginsVerbatim_eq_kept, alone.words, List.filter_append]
  cases delimiter <;> exact begins

end Tag

theorem Sound.scansTo_tag (sound : construct.Sound) (isTag : construct.form = .tag delimiter)
    (isRest : cursor.rest = construct.chars front back ++ rest) :
    ScansTo (scanConstruct cursor) (construct.words front back) rest := by
  obtain ⟨plain, inside⟩ := sound.inside_tag isTag isRest
  have opens := rest_of_tag isTag isRest
  rw [List.append_assoc] at opens
  rw [scanConstruct_of_tag opens, scanWholeTag_of_not_verbatim plain, words, isTag]
  refine ⟨?_, inside.quiet, inside.rest⟩
  rw [Scan.tokens_append, kept_append, List.map_append, inside.words, Scan.one,
    sound.wordOf_opening isTag isRest]
  rfl

/-! #### Comments -/

/-- Nothing is found before the distance. -/
theorem not_here_of_lt {α : Type} {here : List α → Bool} {before rest : List α}
    (isBefore : before.length < distanceTo here (before ++ rest)) : here rest = false := by
  induction before with
  | nil =>
      cases rest with
      | nil => cases isBefore
      | cons item rest =>
          refine Bool.eq_false_iff.mpr fun isHere => ?_
          rw [List.nil_append, distanceTo, if_pos isHere] at isBefore
          cases isBefore
  | cons item before inductionHypothesis =>
      rw [List.cons_append, distanceTo] at isBefore
      split at isBefore
      · cases isBefore
      · exact inductionHypothesis (Nat.lt_of_succ_lt_succ isBefore)

theorem scanConstruct_of_comment {behind : List Char}
    (isRest : cursor.rest = commentOpener ++ behind) : scanConstruct cursor = scanComment cursor := by
  rw [scanConstruct, isRest]
  simp [Delimiter.opener, commentOpener, List.isPrefixOf]

theorem rest_of_comment (isComment : construct.form = .comment)
    (isRest : cursor.rest = construct.chars front back ++ rest) :
    cursor.rest = commentOpener ++ ((marker front ++ (construct.content ++ marker back)) ++
      (commentCloser ++ rest)) := by
  rw [isRest, chars, isComment]
  simp only [Form.opener, Form.closer, List.append_assoc]

/-- A text that is one comment is closed at its end only. -/
theorem Sound.closes_last (sound : construct.Sound) (isComment : construct.form = .comment) :
    construct.content.length ≤
      distanceTo commentCloser.isPrefixOf (construct.content ++ commentCloser) := by
  have isRest := rest_of_comment isComment (rest_alone construct)
  have isInside : (Cursor.ofText construct.alone).rest.drop 2 =
      construct.content ++ commentCloser := by
    rw [isRest]
    simp [marker, commentOpener]
  have quiet := sound.quiet
  have whole := sound.whole
  rw [scan_alone, scanConstruct_of_comment isRest] at quiet whole
  have closes := closed_of_quiet_comment (List.append_eq_nil_iff.mp quiet).1
  rw [scanComment_of_closed closes, isComment] at whole
  have behind := rest_of_kinds (List.cons.inj whole).2
  have short := List.drop_eq_nil_iff.mp behind
  have length := congrArg List.length isInside
  rw [List.length_drop, List.length_append] at length
  rw [commentLength, isInside] at short
  have two : commentCloser.length = 2 := rfl
  omega

/-- No part of the content of a comment closes it. -/
theorem Sound.not_closed (sound : construct.Sound) (isComment : construct.form = .comment)
    {before behind : List Char} {c : Char} (isContent : construct.content = before ++ c :: behind)
    (rest : List Char) : commentCloser.isPrefixOf (c :: behind ++ rest) = false := by
  have solid : commentCloser.any isBlank = false := by decide
  have ends : ∀ last ∈ (c :: behind).getLast?, isBlank last = true := by
    have ends := sound.endsBlank
    rwa [isContent, List.getLast?_append_of_ne_nil _ (List.cons_ne_nil _ _)] at ends
  obtain ⟨inside, blank, isInside, isBlank⟩ := exists_blank_of_last (List.cons_ne_nil c behind) ends
  have later (rest : List Char) : commentCloser.isPrefixOf (c :: behind ++ rest) =
      commentCloser.isPrefixOf inside := by
    rw [isInside, List.append_assoc]
    exact isPrefixOf_append (foreign_of_isBlank isBlank solid rest)
  have isBefore : before.length <
      distanceTo commentCloser.isPrefixOf (before ++ (c :: behind ++ commentCloser)) := by
    have last := sound.closes_last isComment
    rw [isContent, List.append_assoc, List.length_append, List.length_cons] at last
    omega
  have notHere := not_here_of_lt isBefore
  rw [later] at notHere ⊢
  exact notHere

theorem not_closed_in_marker {isMarked : Bool} {before behind : List Char} {c : Char}
    (isMarker : marker isMarked = before ++ c :: behind) (rest : List Char) :
    commentCloser.isPrefixOf (c :: behind ++ rest) = false := by
  have member : c ∈ marker isMarked := by
    rw [isMarker]
    exact List.mem_append_right _ List.mem_cons_self
  cases isMarked with
  | false => cases member
  | true =>
      rw [List.mem_singleton.mp member]
      rfl

theorem Sound.commentLength (sound : construct.Sound) (isComment : construct.form = .comment)
    (isRest : cursor.rest = construct.chars front back ++ rest) :
    commentLength cursor = (marker front ++ (construct.content ++ marker back)).length := by
  have closes : commentCloser.isPrefixOf (commentCloser ++ rest) = true :=
    List.isPrefixOf_iff_prefix.mpr (List.prefix_append _ _)
  have isInside : cursor.rest.drop 2 =
      marker front ++ (construct.content ++ (marker back ++ (commentCloser ++ rest))) := by
    rw [rest_of_comment isComment isRest]
    simp [commentOpener]
  rw [Token.commentLength, isInside,
    distanceTo_append_of_none fun _ _ _ isMarker => not_closed_in_marker isMarker _,
    distanceTo_append_of_none fun _ _ _ isContent => sound.not_closed isComment isContent _,
    distanceTo_append_of_none fun _ _ _ isMarker => not_closed_in_marker isMarker _,
    distanceTo_of_here (.inr closes)]
  simp only [List.length_append, Nat.add_zero]

theorem Sound.scansTo_comment (sound : construct.Sound) (isComment : construct.form = .comment)
    (isRest : cursor.rest = construct.chars front back ++ rest) :
    ScansTo (scanConstruct cursor) (construct.words front back) rest := by
  have isWhole := rest_of_comment isComment isRest
  have isInside : cursor.rest.drop 2 =
      (marker front ++ (construct.content ++ marker back)) ++ (commentCloser ++ rest) := by
    rw [isWhole]
    rfl
  have isLength := sound.commentLength isComment isRest
  have closes : Token.commentLength cursor < (cursor.rest.drop 2).length := by
    have two : commentCloser.length = 2 := rfl
    simp only [isLength, isInside, List.length_append]
    omega
  have isBack : (((cursor.rest.drop 2).take (Token.commentLength cursor)).getLast? == some '-') =
      back := by
    rw [isLength, isInside, List.take_left]
    cases back with
    | true => simp [marker]
    | false =>
        obtain ⟨blank, isLast, isBlank⟩ := (Option.any_eq_true ..).mp sound.blankLast
        have notMarker : blank ≠ '-' := by
          rintro rfl
          exact absurd isBlank (by decide)
        have noMarker : marker false = [] := rfl
        rw [noMarker, List.append_nil, List.getLast?_append, isLast]
        simpa using notMarker
  have isChars : 2 + Token.commentLength cursor + 2 = (construct.chars front back).length := by
    rw [isLength, chars, isComment]
    simp only [Form.opener, Form.closer, List.length_append]
    have two : commentOpener.length = 2 ∧ commentCloser.length = 2 := ⟨rfl, rfl⟩
    omega
  rw [scanConstruct_of_comment isWhole, scanComment_of_closed closes, isBack, isChars,
    sound.hasMarker isRest, words, isComment]
  refine ⟨?_, rfl, rest_skip_of_append isRest⟩
  rw [Scan.one, Cursor.cut, isRest, List.take_left]
  rfl

/-- A tag or a comment is read as its words wherever it stands, with any marks. -/
theorem Sound.scansTo (sound : construct.Sound)
    (isRest : cursor.rest = construct.chars front back ++ rest) :
    ScansTo (scanConstruct cursor) (construct.words front back) rest := by
  cases isForm : construct.form with
  | tag delimiter => exact sound.scansTo_tag isForm isRest
  | comment => exact sound.scansTo_comment isForm isRest

end Construct

end Stencil.Token
