import Stencil.Proofs.Token.Whole

/-!
Contract: tags of a single word, and verbatim bodies between two of them.

Owns:
- the ways to write the tag of a word: with or without markers, with any blanks around the word;
- such a tag is read as its word, wherever it stands;
- the tag that ends a verbatim body is recognised in all ways to write it, and nothing else is;
- a text made of the two tags and a body is scanned to the words of the tags and one piece of text.

Does not own: the statement that the tokens form (`Stencil.Proofs.Grammar.Verbatim`).
-/

set_option autoImplicit false

namespace Stencil.Token

open Stencil.Grammar (Inside ScansTo Word closerAt?_of_plain distanceTo_of_stop exists_of_isName
  inside_closer isBlank_of_beginsName kept kept_append opensConstruct_of_ne opensConstruct_of_plain
  scanTag_of_closer scanTag_of_piece kind_wordOf words_scanFrom_of_end wordOf wordOf_cut)
open Stencil.Text (Position isBlank distanceTo after? withoutPrefix)

/-! ### Ways to write a tag -/

/-- The marker of a delimiter that takes blanks off the text next to it. -/
def marker (isMarked : Bool) : List Char := if isMarked then ['-'] else []

/-- A way to write the tag of a single word. -/
structure TagStyle where
  marksFront : Bool
  before : List Char
  after : List Char
  marksBack : Bool
  before_blank : before.all isBlank = true
  after_blank : after.all isBlank = true

namespace TagStyle

/-- The end of a tag, from the blanks behind its word on. -/
def ending (style : TagStyle) : List Char :=
  style.after ++ (marker style.marksBack ++ Delimiter.block.closer)

/-- The tag of a word. -/
def tag (style : TagStyle) (word : String) : List Char :=
  Delimiter.block.opener ++ (marker style.marksFront ++
    (style.before ++ (word.toList ++ style.ending)))

/-- The words that the tag is read as. -/
def words (style : TagStyle) (word : String) : List Word :=
  [⟨.blockStart style.marksFront, String.ofList (Delimiter.block.opener ++ marker style.marksFront)⟩,
    .name word,
    ⟨.blockEnd style.marksBack, String.ofList (marker style.marksBack ++ Delimiter.block.closer)⟩]

end TagStyle

theorem not_mem_delimiters_of_isBlank {c : Char} (blank : isBlank c = true) :
    c ∉ ['-', '%', '{', '}'] := by
  intro member
  simp only [List.mem_cons, List.not_mem_nil, or_false] at member
  rcases member with rfl | rfl | rfl | rfl <;> revert blank <;> decide

theorem not_mem_delimiters_of_beginsName {c : Char} (begins : beginsName c = true) :
    c ∉ ['-', '%', '{', '}'] := by
  intro member
  simp only [List.mem_cons, List.not_mem_nil, or_false] at member
  rcases member with rfl | rfl | rfl | rfl <;> revert begins <;> decide

theorem continuesName_of_isBlank {c : Char} (blank : isBlank c = true) : continuesName c = false := by
  refine Bool.eq_false_iff.mpr fun continues => ?_
  have begins : beginsName c = true ∨ c.isDigit = true := by
    simpa only [continuesName, beginsName, Char.isAlphanum, Bool.or_eq_true, or_right_comm]
      using continues
  rcases begins with begins | digit
  · rw [isBlank_of_beginsName begins] at blank
    cases blank
  · have code : 48 ≤ c.toNat ∧ c.toNat ≤ 57 := by
      simpa [Char.isDigit, UInt32.le_iff_toNat_le] using digit
    simp only [isBlank, Bool.or_eq_true, Bool.and_eq_true, decide_eq_true_eq, beq_iff_eq] at blank
    omega

/-- The first character of a tag's end is a blank, the marker or the delimiter. -/
theorem TagStyle.head_ending (style : TagStyle) (rest : List Char) {c : Char}
    (isHead : c ∈ (style.ending ++ rest).head?) : isBlank c = true ∨ c = '-' ∨ c = '%' := by
  obtain ⟨marksFront, before, after, marksBack, beforeBlank, afterBlank⟩ := style
  cases after with
  | nil =>
      right
      cases marksBack
      · right
        exact (Option.some.inj isHead).symm
      · left
        exact (Option.some.inj isHead).symm
  | cons first after =>
      left
      rw [← show first = c from Option.some.inj isHead]
      exact List.all_eq_true.mp afterBlank first List.mem_cons_self

theorem rest_skip_of_append {cursor : Cursor} {passed rest : List Char}
    (isRest : cursor.rest = passed ++ rest) : (cursor.skip passed.length).rest = rest := by
  rw [Cursor.skip, isRest, List.drop_left]

theorem rest_skip_of_cons {cursor : Cursor} {first : Char} {rest : List Char}
    (isRest : cursor.rest = first :: rest) : (cursor.skip 1).rest = rest := by
  rw [Cursor.skip, isRest]
  rfl

/-! ### Inside the tag -/

section Inside

variable {delimiter : Delimiter} {opened : Position} {brackets : List Symbol} {cursor : Cursor}
  {words : List Word} {rest : List Char} {c : Char}

/-- Blanks in front of a piece of a tag leave no word. -/
theorem inside_of_blanks {blanks behind : List Char} (areBlank : blanks.all isBlank = true)
    (stops : ∀ c ∈ behind.head?, isBlank c = false) (isRest : cursor.rest = blanks ++ behind)
    (inside : Inside (scanTag delimiter opened brackets (cursor.skip blanks.length)) words rest) :
    Inside (scanTag delimiter opened brackets cursor) words rest := by
  cases blanks with
  | nil => exact inside
  | cons first blanks =>
      obtain ⟨blank, areBlank⟩ : isBlank first = true ∧ blanks.all isBlank = true :=
        Bool.and_eq_true_iff.mp areBlank
      have plain := not_mem_delimiters_of_isBlank blank
      have isPiece : pieceAt delimiter first (blanks ++ behind) = ⟨.blank, 1 + blanks.length, none⟩ := by
        rw [pieceAt, if_pos blank, takeWhile_append_of_stop stops,
          List.takeWhile_eq_self_iff.mpr (List.all_eq_true.mp areBlank)]
      rw [List.length_cons, Nat.add_comm] at inside
      rw [scanTag_of_piece isRest (closerAt?_of_plain plain) (opensConstruct_of_plain plain) isPiece
        rfl]
      exact inside.pass (cursor.cut .blank (1 + blanks.length))

/-- The end of a tag is read with its marker. The end of an output is not read inside a map. -/
theorem inside_of_closer {isMarked : Bool}
    (noMap : ¬ (delimiter = .output ∧ brackets.head? = some .leftBrace))
    (isRest : cursor.rest = marker isMarked ++ (delimiter.closer ++ rest)) :
    Inside (scanTag delimiter opened brackets cursor)
      [⟨delimiter.endKind isMarked, String.ofList (marker isMarked ++ delimiter.closer)⟩] rest := by
  cases isMarked with
  | false => exact inside_closer noMap isRest
  | true =>
      have closes : closerAt? delimiter brackets ('-' :: (delimiter.closer ++ rest)) =
          some (3, true) := by
        rw [closerAt?, if_neg noMap]
        cases delimiter <;> simp [Delimiter.closer, List.isPrefixOf]
      obtain ⟨position, text⟩ := cursor
      cases isRest
      cases delimiter with
      | output =>
          rw [scanTag_of_closer rfl closes]
          exact ⟨rfl, rfl, rfl, rfl⟩
      | block =>
          rw [scanTag_of_closer rfl closes]
          exact ⟨rfl, rfl, rfl, rfl⟩

/-- A piece that is no delimiter is read as its word. -/
theorem inside_of_piece {word : Word} {first : Char} {others behind : List Char}
    (isLexeme : word.lexeme.toList = first :: others) (matters : word.kind.isTrivia = false)
    (plain : first ∉ ['-', '%', '{', '}']) (isRest : cursor.rest = first :: (others ++ behind))
    (isPiece : pieceAt delimiter first (others ++ behind) = ⟨word.kind, others.length + 1, none⟩)
    (inside : Inside (scanTag delimiter opened (bracketsAfter brackets word.kind)
      (cursor.skip (others.length + 1))) words rest) :
    Inside (scanTag delimiter opened brackets cursor) (word :: words) rest := by
  have isWord : wordOf (cursor.cut word.kind (others.length + 1)) = word :=
    wordOf_cut isLexeme isRest
  have isKept : (kept [cursor.cut word.kind (others.length + 1)]).map wordOf = [word] := by
    have keeps : (cursor.cut word.kind (others.length + 1)).kind.isTrivia = false := matters
    rw [kept, List.filter_cons_of_pos (by rw [keeps]; rfl), List.filter_nil, List.map_singleton,
      isWord]
  rw [scanTag_of_piece isRest (closerAt?_of_plain plain) (opensConstruct_of_plain plain) isPiece rfl]
  have passed := inside.pass (cursor.cut word.kind (others.length + 1))
  rw [isKept] at passed
  exact passed

/-- A name is read where nothing behind it goes on with it. -/
theorem inside_of_name {word : String} {behind : List Char} (named : Grammar.isName word = true)
    (stops : ∀ c ∈ behind.head?, continuesName c = false)
    (isRest : cursor.rest = word.toList ++ behind)
    (inside : Inside (scanTag delimiter opened brackets (cursor.skip word.toList.length)) words rest) :
    Inside (scanTag delimiter opened brackets cursor) (.name word :: words) rest := by
  obtain ⟨first, others, isText, begins, continues⟩ := exists_of_isName named
  have isPiece : pieceAt delimiter first (others ++ behind) = ⟨.name, others.length + 1, none⟩ := by
    rw [pieceAt, isBlank_of_beginsName begins, begins, takeWhile_append_of_stop stops,
      List.takeWhile_eq_self_iff.mpr (List.all_eq_true.mp continues)]
    exact congrArg (Piece.mk .name · none) (Nat.add_comm _ _)
  rw [isText] at isRest inside
  exact inside_of_piece isText rfl (not_mem_delimiters_of_beginsName begins) isRest isPiece inside

end Inside

/-! ### Whole tags -/

section Whole

variable {style : TagStyle} {word : String} {cursor : Cursor} {rest : List Char}

theorem beginsName_of_named (named : Grammar.isName word = true) :
    ∀ c ∈ word.toList.head?, beginsName c = true := by
  obtain ⟨first, others, isText, begins, -⟩ := exists_of_isName named
  intro c isHead
  rw [isText] at isHead
  rwa [← show first = c from Option.some.inj isHead]

/-- Neither blanks nor a name begin like a marker. -/
theorem hasMarker_of_tag (named : Grammar.isName word = true)
    (isRest : cursor.rest = style.tag word ++ rest) : hasMarker cursor = style.marksFront := by
  have begins := beginsName_of_named named
  have nonempty : word.toList ≠ [] := by
    intro isEmpty
    rw [Grammar.isName, isEmpty] at named
    cases named
  obtain ⟨first, others, isWord⟩ := List.exists_cons_of_ne_nil nonempty
  have firstBegins : beginsName first = true := begins first (by rw [isWord]; rfl)
  obtain ⟨marksFront, before, after, marksBack, beforeBlank, afterBlank⟩ := style
  rw [hasMarker, isRest, TagStyle.tag]
  cases marksFront with
  | true => rfl
  | false =>
      cases before with
      | nil =>
          have notMarker : first ≠ '-' := by
            rintro rfl
            exact absurd firstBegins (by decide)
          simpa [marker, Delimiter.opener, isWord] using notMarker
      | cons blank before =>
          have notMarker : blank ≠ '-' := by
            rintro rfl
            exact absurd (Bool.and_eq_true_iff.mp beforeBlank).1 (by decide)
          simpa [marker, Delimiter.opener] using notMarker

theorem opens_of_tag (isRest : cursor.rest = style.tag word ++ rest) :
    Delimiter.block.opener.isPrefixOf cursor.rest = true := by
  rw [isRest, TagStyle.tag, List.append_assoc]
  exact List.isPrefixOf_iff_prefix.mpr (List.prefix_append _ _)

/-- The inside of the tag of a word is that word and the closing delimiter. -/
theorem inside_of_tag (named : Grammar.isName word = true)
    (isRest : cursor.rest = style.tag word ++ rest) :
    wordOf (openingOf .block cursor) = ⟨.blockStart style.marksFront,
        String.ofList (Delimiter.block.opener ++ marker style.marksFront)⟩ ∧
      Inside (insideTag .block cursor) (style.words word).tail rest := by
  have isMarked := hasMarker_of_tag named isRest
  have isLength : openerLength cursor = (Delimiter.block.opener ++ marker style.marksFront).length := by
    rw [openerLength, isMarked]
    cases style.marksFront <;> rfl
  have isSplit : cursor.rest = (Delimiter.block.opener ++ marker style.marksFront) ++
      (style.before ++ (word.toList ++ (style.ending ++ rest))) := by
    rw [isRest, TagStyle.tag]
    simp only [List.append_assoc]
  have isBehind : (cursor.skip (openerLength cursor)).rest =
      style.before ++ (word.toList ++ (style.ending ++ rest)) := by
    rw [Cursor.skip, isLength, isSplit, List.drop_left]
  constructor
  · rw [openingOf, isMarked, wordOf, Cursor.cut, isLength, isSplit, List.take_left]
    rfl
  · have wordStops : ∀ c ∈ (word.toList ++ (style.ending ++ rest)).head?, isBlank c = false := by
      intro c isHead
      cases isWord : word.toList with
      | nil =>
          rw [Grammar.isName, isWord] at named
          cases named
      | cons first others =>
          rw [isWord] at isHead
          exact isBlank_of_beginsName (beginsName_of_named named c (by rw [isWord]; exact isHead))
    have endingStops : ∀ c ∈ (style.ending ++ rest).head?, continuesName c = false := by
      intro c isHead
      rcases style.head_ending rest isHead with blank | rfl | rfl
      · exact continuesName_of_isBlank blank
      · decide
      · decide
    have closerStops :
        ∀ c ∈ (marker style.marksBack ++ (Delimiter.block.closer ++ rest)).head?,
          isBlank c = false := by
      intro c isHead
      cases isBack : style.marksBack <;> rw [isBack] at isHead <;> cases isHead <;> decide
    apply inside_of_blanks style.before_blank wordStops isBehind
    have atWord := rest_skip_of_append isBehind
    apply inside_of_name named endingStops atWord
    have atEnding := rest_skip_of_append atWord
    rw [TagStyle.ending, List.append_assoc, List.append_assoc] at atEnding
    apply inside_of_blanks style.after_blank closerStops atEnding
    exact inside_of_closer (fun both => by cases both.1) (rest_skip_of_append atEnding)

/-- Whether a tag begins a verbatim body depends on the words that matter only. -/
theorem beginsVerbatim_eq_kept (tokens : List Token) :
    beginsVerbatim tokens = decide ((((kept tokens).map wordOf).filter fun word =>
      !word.kind.isTrivia && !word.kind.isTagEnd) = [.name "raw"]) := by
  have same : ((kept tokens).map wordOf).filter (fun word =>
      !word.kind.isTrivia && !word.kind.isTagEnd) = (tokens.map wordOf).filter fun word =>
        !word.kind.isTrivia && !word.kind.isTagEnd := by
    rw [kept, List.filter_map, List.filter_map, List.filter_filter]
    congr 1
    apply List.filter_congr
    intro token _
    simp only [Function.comp_apply, kind_wordOf]
    cases token.kind.isTrivia <;> simp
  rw [same, beginsVerbatim_eq]

/-- A tag of a single word that does not begin a verbatim body is read back. -/
theorem scansTo_wordTag (named : Grammar.isName word = true) (notRaw : word ≠ "raw")
    (isRest : cursor.rest = style.tag word ++ rest) :
    ScansTo (scanConstruct cursor) (style.words word) rest := by
  obtain ⟨isOpening, inside⟩ := inside_of_tag named isRest
  have plain : ¬IsVerbatim .block cursor := by
    intro verbatim
    have begins := verbatim.2.2
    rw [beginsVerbatim_eq_kept, inside.words, decide_eq_true_iff] at begins
    cases begins
    exact notRaw rfl
  rw [scanConstruct_of_block (opens_of_tag isRest), scanWholeTag_of_not_verbatim plain]
  refine ⟨?_, inside.quiet, inside.rest⟩
  rw [Scan.tokens_append, kept_append, List.map_append, inside.words]
  exact congrArg (· :: _) isOpening

end Whole

/-! ### Where a verbatim body ends -/

section Ending

variable {body text rest : List Char}

theorem withoutPrefix_marker (isMarked : Bool) (notMarker : text.head? ≠ some '-') :
    withoutPrefix ['-'] (marker isMarked ++ text) = text := by
  cases isMarked with
  | true => rfl
  | false =>
      cases text with
      | nil => rfl
      | cons c text =>
          have isOther : '-' ≠ c := fun isMarker => notMarker (congrArg some isMarker.symm)
          simp [marker, withoutPrefix, after?, isOther]

theorem exists_marker (text : List Char) :
    ∃ isMarked, text = marker isMarked ++ withoutPrefix ['-'] text := by
  unfold withoutPrefix
  cases isAfter : after? ['-'] text with
  | none => exact ⟨false, rfl⟩
  | some rest => exact ⟨true, Text.eq_append_of_after? isAfter⟩

theorem dropWhile_blanks {blanks : List Char} (areBlank : blanks.all isBlank = true)
    (stops : ∀ c ∈ text.head?, isBlank c = false) : (blanks ++ text).dropWhile isBlank = text := by
  rw [dropWhile_append_of_stop stops, List.dropWhile_eq_nil_iff.mpr (List.all_eq_true.mp areBlank)]
  rfl

/-- The tag that ends a verbatim body is recognised in every way to write it. -/
theorem endsVerbatim_tag (style : TagStyle) (rest : List Char) :
    endsVerbatim (style.tag "endraw" ++ rest) = true := by
  have wordHead (behind : List Char) : ("endraw".toList ++ behind).head? = some 'e' := rfl
  have beforeHead (behind : List Char) :
      (style.before ++ ("endraw".toList ++ behind)).head? ≠ some '-' := by
    cases isBefore : style.before with
    | nil => exact (by decide : some 'e' ≠ some '-')
    | cons blank before =>
        have blank := style.before_blank
        rw [isBefore] at blank
        rintro ⟨⟩
        exact absurd (Bool.and_eq_true_iff.mp blank).1 (by decide)
  have wordStops (behind : List Char) :
      ∀ c ∈ ("endraw".toList ++ behind).head?, isBlank c = false := by
    intro c isHead
    rw [wordHead] at isHead
    cases isHead
    decide
  have closerStops : ∀ c ∈ (marker style.marksBack ++ (Delimiter.block.closer ++ rest)).head?,
      isBlank c = false := by
    intro c isHead
    cases isBack : style.marksBack <;> rw [isBack] at isHead <;> cases isHead <;> decide
  have closerHead : (Delimiter.block.closer ++ rest).head? ≠ some '-' :=
    (by decide : some '%' ≠ some '-')
  simp only [endsVerbatim, TagStyle.tag, TagStyle.ending, List.append_assoc, Text.after?_append,
    withoutPrefix_marker _ (beforeHead _), dropWhile_blanks style.before_blank (wordStops _),
    dropWhile_blanks style.after_blank closerStops, withoutPrefix_marker _ closerHead]
  exact List.isPrefixOf_iff_prefix.mpr (List.prefix_append _ _)

/-- Nothing else is recognised as that tag. -/
theorem exists_tag_of_endsVerbatim (ends : endsVerbatim text = true) :
    ∃ (style : TagStyle) (rest : List Char), text = style.tag "endraw" ++ rest := by
  unfold endsVerbatim at ends
  split at ends
  · cases ends
  · rename_i inside isInside
    split at ends
    · cases ends
    · rename_i behind isBehind
      obtain ⟨marksFront, isFront⟩ := exists_marker inside
      obtain ⟨marksBack, isBack⟩ := exists_marker (behind.dropWhile isBlank)
      obtain ⟨rest, isCloser⟩ := List.isPrefixOf_iff_prefix.mp ends
      have blank (text : List Char) : (text.takeWhile isBlank).all isBlank = true :=
        List.all_takeWhile
      refine ⟨⟨marksFront, (withoutPrefix ['-'] inside).takeWhile isBlank,
        behind.takeWhile isBlank, marksBack, blank _, blank _⟩, rest, ?_⟩
      have isFound := Text.eq_append_of_after? isBehind
      have wholeBehind := List.takeWhile_append_dropWhile (p := isBlank) (l := behind)
      have wholeInside := List.takeWhile_append_dropWhile (p := isBlank)
        (l := withoutPrefix ['-'] inside)
      rw [← isCloser] at isBack
      rw [isBack] at wholeBehind
      rw [isFound, ← wholeBehind] at wholeInside
      rw [← wholeInside] at isFront
      rw [Text.eq_append_of_after? isInside]
      simp only [TagStyle.tag, TagStyle.ending, List.append_assoc]
      exact congrArg (Delimiter.block.opener ++ ·) isFront

/-- Whether no part of the text is a tag that ends a verbatim body. -/
def IsVerbatimBody (body : List Char) : Prop :=
  ∀ style : TagStyle, ¬style.tag "endraw" <:+: body

theorem isVerbatimBody_iff :
    IsVerbatimBody body ↔ ∀ rest ∈ body.tails, endsVerbatim rest = false := by
  constructor
  · intro isBody rest isSuffix
    refine Bool.eq_false_iff.mpr fun ends => ?_
    obtain ⟨style, others, isTag⟩ := exists_tag_of_endsVerbatim ends
    have isPrefix : style.tag "endraw" <+: rest := ⟨others, isTag.symm⟩
    exact isBody style (isPrefix.isInfix.trans ((List.mem_tails rest body).mp isSuffix).isInfix)
  · rintro none style ⟨before, behind, rfl⟩
    have isSuffix : style.tag "endraw" ++ behind ∈
        (before ++ style.tag "endraw" ++ behind).tails :=
      (List.mem_tails _ _).mpr ⟨before, (List.append_assoc _ _ _).symm⟩
    have ends := endsVerbatim_tag style behind
    rw [none _ isSuffix] at ends
    cases ends

instance (body : List Char) : Decidable (IsVerbatimBody body) :=
  decidable_of_iff _ isVerbatimBody_iff.symm

/-- A verbatim body reaches up to the tag behind it: no part of it, and no part of it together with
that tag, could be taken for the tag. -/
theorem distanceTo_endsVerbatim (isBody : IsVerbatimBody body) (closing : TagStyle)
    (rest : List Char) :
    distanceTo endsVerbatim (body ++ (closing.tag "endraw" ++ rest)) = body.length := by
  have resumes : Resumes (closing.tag "endraw" ++ rest) := by
    right
    rw [TagStyle.tag, List.append_assoc]
    exact Grammar.opensConstruct_opener .block _
  apply distanceTo_of_stop _ (.inr (endsVerbatim_tag closing rest))
  intro before c behind isSplit
  rw [endsVerbatim_append resumes (List.cons_ne_nil c behind)]
  apply isVerbatimBody_iff.mp isBody
  exact (List.mem_tails _ _).mpr ⟨before, isSplit.symm⟩

end Ending

/-! ### The whole text -/

/-- The words of a verbatim body: itself as text, unless there is nothing. -/
def bodyWords (body : List Char) : List Word :=
  if body = [] then [] else [⟨.text, String.ofList body⟩]

theorem words_scanText {cursor : Cursor} {body rest : List Char}
    (isRest : cursor.rest = body ++ rest) :
    (kept (scanText cursor body.length).tokens).map wordOf = bodyWords body ∧
      (scanText cursor body.length).problems = [] := by
  unfold scanText bodyWords
  by_cases isEmpty : body = []
  · subst isEmpty
    exact ⟨rfl, rfl⟩
  · rw [if_neg (mt List.length_eq_zero_iff.mp isEmpty), if_neg isEmpty, Scan.one, Cursor.cut, isRest,
      List.take_left]
    exact ⟨rfl, rfl⟩

/-- The tag that begins a verbatim body is read together with that body. -/
theorem scansTo_verbatim {cursor : Cursor} {opening closing : TagStyle} {body rest : List Char}
    (isBody : IsVerbatimBody body)
    (isRest : cursor.rest = opening.tag "raw" ++ (body ++ (closing.tag "endraw" ++ rest))) :
    ScansTo (scanConstruct cursor) (opening.words "raw" ++ bodyWords body)
      (closing.tag "endraw" ++ rest) := by
  obtain ⟨isOpening, inside⟩ := inside_of_tag (by decide) isRest
  have verbatim : IsVerbatim .block cursor := by
    refine ⟨rfl, inside.closed, ?_⟩
    rw [beginsVerbatim_eq_kept, inside.words, decide_eq_true_iff]
    rfl
  have isLength : verbatimLength .block cursor = body.length := by
    rw [verbatimLength, inside.rest]
    exact distanceTo_endsVerbatim isBody closing rest
  obtain ⟨words, quiet⟩ := words_scanText inside.rest
  rw [scanConstruct_of_block (opens_of_tag isRest), scanWholeTag_of_verbatim verbatim, isLength]
  refine ⟨?_, ?_, rest_skip_of_append inside.rest⟩
  · simp only [Scan.tokens_append, kept_append, List.map_append, inside.words, words]
    exact congrArg (· :: _) isOpening
  · simp only [Scan.problems_append, inside.quiet, quiet]
    rfl

/-- A text of the tag that begins a verbatim body, the body, and the tag that ends it. -/
def verbatimText (opening : TagStyle) (body : List Char) (closing : TagStyle) : String :=
  String.ofList (opening.tag "raw" ++ (body ++ closing.tag "endraw"))

/-- Such a text is scanned to the words of the two tags with the body as one piece of text between
them, whatever the body holds, and nothing is wrong with it. -/
theorem scan_verbatimText {body : List Char} (isBody : IsVerbatimBody body)
    (opening closing : TagStyle) :
    (kept (scan (verbatimText opening body closing)).tokens).map wordOf =
        opening.words "raw" ++ bodyWords body ++ closing.words "endraw" ++ [⟨.endOfInput, ""⟩] ∧
      (scan (verbatimText opening body closing)).problems = [] := by
  have isRest : (Cursor.ofText (verbatimText opening body closing)).rest =
      opening.tag "raw" ++ (body ++ (closing.tag "endraw" ++ [])) := by
    rw [Cursor.ofText, verbatimText, String.toList_ofList, List.append_nil]
  have nonempty (style : TagStyle) (word : String) (rest : List Char) :
      style.tag word ++ rest ≠ [] := List.cons_ne_nil _ _
  have first := scansTo_verbatim isBody isRest
  have second := scansTo_wordTag (by decide) (by decide) first.rest
  have behind := second.words_scanFrom (first.rest ▸ nonempty _ _ _)
    (words_scanFrom_of_end second.rest)
  rw [List.append_assoc]
  exact first.words_scanFrom (isRest ▸ nonempty _ _ _) behind

end Stencil.Token
