import Stencil.Proofs.Grammar.Matching
import Stencil.Proofs.Grammar.Unmarked
import Stencil.Proofs.Token.Construct

/-!
Contract: marks of tags and comments do what stripping the texts around them by hand does.

Owns:
- sources as texts with tags and comments between them, and the words they are scanned to;
- the source without marks that is left when the texts of one are stripped;
- both have the same template, up to places, and the same is wrong with them;
- the hooks of a host that can tell them apart.

Does not own: how tags and comments are scanned (`Stencil.Proofs.Token.Construct`).
-/

set_option autoImplicit false

namespace Stencil.Grammar

open Stencil.Report (Diagnostic)
open Stencil.Syntax (unplacedBody)
open Stencil.Text (Span isBlank dropBlanksAtEnd)
open Stencil.Token (Construct Cursor Delimiter Kind Resumes Scan marker scanConstruct scanFrom)
open Statement

/-! ### Sources -/

/-- A tag or a comment with its marks, and the text behind it. -/
structure Item where
  construct : Construct
  front : Bool
  back : Bool
  text : List Char
deriving DecidableEq, Repr

/-- A text, and behind it tags and comments, each with a text behind it. -/
structure Source where
  text : List Char
  items : List Item
deriving DecidableEq, Repr

def Item.chars (item : Item) : List Char :=
  item.construct.chars item.front item.back ++ item.text

namespace Source

def written (source : Source) : String :=
  String.ofList (source.text ++ source.items.flatMap Item.chars)

/-- Whether no text opens anything, and each tag and comment is sound by itself. -/
structure Sound (source : Source) : Prop where
  text : '{' ∉ source.text
  texts : ∀ item ∈ source.items, '{' ∉ item.text
  constructs : ∀ item ∈ source.items, item.construct.Sound

instance (source : Source) : Decidable source.Sound :=
  decidable_of_iff
    ('{' ∉ source.text ∧ (∀ item ∈ source.items, '{' ∉ item.text) ∧
      ∀ item ∈ source.items, item.construct.Sound)
    ⟨fun ⟨text, texts, constructs⟩ => ⟨text, texts, constructs⟩,
      fun sound => ⟨sound.text, sound.texts, sound.constructs⟩⟩

end Source

/-- The text without the blanks at its head, or at its end. -/
def strip (before after : Bool) (text : List Char) : List Char :=
  let text := if before then text.dropWhile isBlank else text
  if after then dropBlanksAtEnd text else text

/-- Whether the first tag or comment takes off the blanks in front of it. -/
def marksNext (items : List Item) : Bool := items.head?.any (·.front)

/-- The tags and comments without their marks, and the texts behind them without the blanks that the
marks take off. -/
def strippedItems : List Item → List Item
  | [] => []
  | item :: rest =>
      ⟨item.construct, false, false, strip item.back (marksNext rest) item.text⟩ ::
        strippedItems rest

def Source.stripped (source : Source) : Source :=
  ⟨strip false (marksNext source.items) source.text, strippedItems source.items⟩

example : (Source.mk "a ".toList [⟨⟨.tag .output, " b ".toList⟩, true, false, " c".toList⟩]).stripped
    = ⟨"a".toList, [⟨⟨.tag .output, " b ".toList⟩, false, false, " c".toList⟩]⟩ := by
  decide +kernel

section Strip

variable {before after : Bool} {text : List Char}

theorem trimmed_ofList (before after : Bool) (text : List Char) :
    trimmed before after (String.ofList text) = String.ofList (strip before after text) := by
  cases before <;> cases after <;>
    simp [trimmed, strip, Text.trimStart, Text.trimEnd, String.toList_ofList]

theorem strip_nil (before after : Bool) : strip before after [] = [] := by
  cases before <;> cases after <;> rfl

theorem strip_subset (before after : Bool) (text : List Char) : strip before after text ⊆ text := by
  have atStart : (if before then text.dropWhile isBlank else text) ⊆ text := by
    split
    · exact (List.dropWhile_sublist isBlank).subset
    · exact List.Subset.refl _
  have atEnd (text : List Char) : dropBlanksAtEnd text ⊆ text := fun c member =>
    List.mem_reverse.mp ((List.dropWhile_sublist isBlank).subset (List.mem_reverse.mp member))
  unfold strip
  dsimp only
  split
  · exact List.Subset.trans (atEnd _) atStart
  · exact atStart

end Strip

theorem mem_strippedItems {items : List Item} {stripped : Item}
    (member : stripped ∈ strippedItems items) :
    ∃ item ∈ items, stripped.construct = item.construct ∧ stripped.text ⊆ item.text := by
  induction items with
  | nil => cases member
  | cons item rest inductionHypothesis =>
      rcases List.mem_cons.mp member with rfl | isLater
      · exact ⟨item, List.mem_cons_self, rfl, strip_subset _ _ _⟩
      · obtain ⟨item, isIn, same⟩ := inductionHypothesis isLater
        exact ⟨item, List.mem_cons_of_mem _ isIn, same⟩

theorem Source.Sound.stripped {source : Source} (sound : source.Sound) : source.stripped.Sound where
  text := fun member => sound.text (strip_subset _ _ _ member)
  texts := by
    intro stripped member opens
    obtain ⟨item, isIn, -, isPart⟩ := mem_strippedItems member
    exact sound.texts item isIn (isPart opens)
  constructs := by
    intro stripped member
    obtain ⟨item, isIn, same, -⟩ := mem_strippedItems member
    rw [same]
    exact sound.constructs item isIn

/-! ### Scanning -/

/-- The words that texts, tags and comments are scanned to. -/
def wordsFrom (text : List Char) : List Item → List Word
  | [] => Token.bodyWords text ++ [⟨.endOfInput, ""⟩]
  | item :: rest =>
      Token.bodyWords text ++
        (item.construct.words item.front item.back ++ wordsFrom item.text rest)

/-- Whether the tokens from a place on that matter have the given words, and nothing is wrong with
them. -/
structure Scans (cursor : Cursor) (words : List Word) : Prop where
  words : (kept (scanFrom cursor).tokens).map wordOf = words
  quiet : (scanFrom cursor).problems = []

section Scans

variable {cursor : Cursor} {first words : List Word} {text rest : List Char}

theorem ScansTo.scans (scans : ScansTo (scanConstruct cursor) first rest)
    (unfinished : cursor.rest ≠ [])
    (later : ∀ cursor : Cursor, cursor.rest = rest → Scans cursor words) :
    Scans cursor (first ++ words) := by
  obtain ⟨areWords, quiet⟩ := later _ scans.rest
  constructor
  · rw [scanFrom, dif_neg unfinished, Scan.tokens_append, kept_append, List.map_append, scans.words,
      areWords]
  · rw [scanFrom, dif_neg unfinished, Scan.problems_append, scans.quiet, quiet]
    rfl

/-- A text in front of a tag, a comment or the end is one word, unless it is empty. -/
theorem scans_text (plain : '{' ∉ text) (resumes : Resumes rest)
    (isRest : cursor.rest = text ++ rest)
    (later : ∀ cursor : Cursor, cursor.rest = rest → Scans cursor words) :
    Scans cursor (Token.bodyWords text ++ words) := by
  by_cases isEmpty : text = []
  · subst isEmpty
    exact later cursor isRest
  · have scans := scansTo_text ⟨isEmpty, plain⟩ isRest resumes
    have unfinished : cursor.rest ≠ [] := by
      rw [isRest]
      exact List.append_ne_nil_of_left_ne_nil isEmpty rest
    rw [Token.bodyWords, if_neg isEmpty]
    exact scans.scans unfinished later

theorem opensConstruct_chars (construct : Construct) (front back : Bool) (rest : List Char) :
    Token.opensConstruct (construct.chars front back ++ rest) = true := by
  rw [Construct.chars, List.append_assoc]
  cases construct.form with
  | tag delimiter => exact opensConstruct_opener delimiter _
  | comment => simp [Token.Form.opener, Token.opensConstruct, Token.commentOpener, List.isPrefixOf]

theorem scans_source {items : List Item} (plain : '{' ∉ text)
    (texts : ∀ item ∈ items, '{' ∉ item.text) (constructs : ∀ item ∈ items, item.construct.Sound)
    (isRest : cursor.rest = text ++ items.flatMap Item.chars) :
    Scans cursor (wordsFrom text items) := by
  induction items generalizing text cursor with
  | nil =>
      refine scans_text plain (.inl rfl) isRest fun cursor isRest => ?_
      have isEnd : scanFrom cursor = .one (cursor.mark .endOfInput) := by
        rw [scanFrom, dif_pos isRest]
      exact ⟨by rw [isEnd]; rfl, by rw [isEnd]; rfl⟩
  | cons item items inductionHypothesis =>
      obtain ⟨plainNext, textsLater⟩ := List.forall_mem_cons.mp texts
      obtain ⟨sound, constructsLater⟩ := List.forall_mem_cons.mp constructs
      rw [List.flatMap_cons, Item.chars, List.append_assoc] at isRest
      have opens := opensConstruct_chars item.construct item.front item.back
        (item.text ++ items.flatMap Item.chars)
      refine scans_text plain (.inr opens) isRest fun cursor isRest => ?_
      have unfinished : cursor.rest ≠ [] := by
        intro isEmpty
        rw [← isRest, isEmpty] at opens
        cases opens
      exact (sound.scansTo isRest).scans unfinished fun cursor isRest =>
        inductionHypothesis plainNext textsLater constructsLater isRest

end Scans

theorem Source.Sound.scans {source : Source} (sound : source.Sound) :
    Scans (.ofText source.written) (wordsFrom source.text source.items) :=
  scans_source sound.text sound.texts sound.constructs String.toList_ofList

/-! ### Words without marks -/

/-- The words of a tag or a comment when its marks are carried out. -/
def bareWords (construct : Construct) : List Word :=
  match construct.form with
  | .tag delimiter =>
      ⟨delimiter.startKind false, String.ofList delimiter.opener⟩ ::
        (construct.inner ++ [⟨delimiter.endKind false, String.ofList delimiter.closer⟩])
  | .comment =>
      [⟨.comment false false, commentText (Text.trim (String.ofList construct.content))⟩]

section Bare

variable {construct : Construct} {words : List Word} {before : Bool}

theorem unmarkedWords_of_inner (areInner : ∀ word ∈ words, word.kind.isInner = true)
    (rest : List Word) :
    unmarkedWords false (words ++ rest) = words ++ unmarkedWords false rest := by
  induction words with
  | nil => rfl
  | cons word words inductionHypothesis =>
      obtain ⟨inner, areInnerLater⟩ := List.forall_mem_cons.mp areInner
      have same (after : Bool) : word.unmarked false after = word := by
        obtain ⟨kind, lexeme⟩ := word
        cases kind <;> first | rfl | cases inner
      have trims : word.kind.trimsAfter = false := by
        obtain ⟨kind, lexeme⟩ := word
        cases kind <;> first | rfl | cases inner
      rw [List.cons_append, unmarkedWords, same, trims, inductionHypothesis areInnerLater]
      rfl

/-- A comment says the same whatever marks it has. -/
theorem commentContent_construct (isComment : construct.form = .comment) (front back : Bool) :
    commentContent (String.ofList (construct.chars front back)) front back =
      Text.trim (String.ofList construct.content) := by
  have isChars : construct.chars front back = ['{', '#'] ++ ((marker front ++
      (construct.content ++ marker back)) ++ ['#', '}']) := by
    rw [Construct.chars, isComment]
    simp only [List.append_assoc]
    rfl
  have noMarker : marker false = [] := rfl
  have hasMarker : marker true = ['-'] := rfl
  rw [commentContent, String.toList_ofList, isChars, withoutPrefix_of_append,
    withoutSuffix_of_append]
  cases front <;> cases back <;>
    simp only [noMarker, hasMarker, List.nil_append, List.append_nil, if_true, if_false,
      withoutPrefix_of_append, withoutSuffix_of_append, Bool.false_eq_true]

theorem unmarkedWords_construct (construct : Construct) (front back : Bool) (rest : List Word) :
    unmarkedWords before (construct.words front back ++ rest) =
      bareWords construct ++ unmarkedWords back rest := by
  cases isForm : construct.form with
  | comment =>
      have areWords : construct.words front back =
          [⟨.comment front back, String.ofList (construct.chars front back)⟩] := by
        rw [Construct.words, isForm]
      have areBare : bareWords construct =
          [⟨.comment false false, commentText (Text.trim (String.ofList construct.content))⟩] := by
        rw [bareWords, isForm]
      rw [areWords, areBare, ← commentContent_construct isForm front back]
      rfl
  | tag delimiter =>
      have areInner : ∀ word ∈ construct.inner, word.kind.isInner = true :=
        fun word member => (List.mem_filter.mp member).2
      have opens : (delimiter.startKind front).trimsAfter = false := by cases delimiter <;> rfl
      have ends : (delimiter.endKind back).trimsAfter = back := by cases delimiter <;> rfl
      rw [Construct.words, bareWords, isForm]
      simp only [List.cons_append, List.append_assoc, unmarkedWords]
      rw [opens, unmarkedWords_of_inner areInner, List.nil_append, unmarkedWords, ends]
      cases delimiter <;> rfl

theorem head_words (construct : Construct) (front back : Bool) (rest : List Word) :
    (construct.words front back ++ rest).head?.any (·.kind.trimsBefore) = front := by
  rw [Construct.words]
  cases construct.form with
  | comment => rfl
  | tag delimiter => cases delimiter <;> rfl

theorem unmarkedWords_text (text : List Char) (rest : List Word) :
    unmarkedWords before (Token.bodyWords text ++ rest) =
      if text = [] then unmarkedWords before rest
      else ⟨.text, String.ofList (strip before (rest.head?.any (·.kind.trimsBefore)) text)⟩ ::
        unmarkedWords false rest := by
  unfold Token.bodyWords
  split
  · rfl
  · rw [List.singleton_append, unmarkedWords, ← trimmed_ofList]
    rfl

end Bare

/-! ### Matching -/

section Matching

variable {tokens others : List Token} {construct : Construct} {text : List Char}
  {words otherWords : List Word}

/-- A tag or a comment stands in both. -/
theorem matching_construct (sound : construct.Sound)
    (areWords : tokens.map wordOf = bareWords construct ++ words)
    (areOthers : others.map wordOf = bareWords construct ++ otherWords)
    (later : ∀ tokens others : List Token, tokens.map wordOf = words →
      others.map wordOf = otherWords → Matching tokens others) : Matching tokens others := by
  cases isForm : construct.form with
  | comment =>
      rw [bareWords, isForm] at areWords areOthers
      obtain ⟨comment, rest, rfl, isComment, areRest⟩ := List.map_eq_cons_iff.mp areWords
      obtain ⟨twin, behind, rfl, isTwin, areBehind⟩ := List.map_eq_cons_iff.mp areOthers
      exact .comment (congrArg Word.kind isComment) (isTwin.trans isComment.symm)
        (later rest behind areRest areBehind)
  | tag delimiter =>
      rw [bareWords, isForm] at areWords areOthers
      simp only [List.cons_append, List.append_assoc] at areWords areOthers
      obtain ⟨opening, tokens, rfl, isOpening, areWords⟩ := List.map_eq_cons_iff.mp areWords
      obtain ⟨inner, tokens, rfl, areInner, areWords⟩ := List.map_eq_append_iff.mp areWords
      obtain ⟨closing, rest, rfl, isClosing, areRest⟩ := List.map_eq_cons_iff.mp areWords
      obtain ⟨opens, others, rfl, isOpens, areOthers⟩ := List.map_eq_cons_iff.mp areOthers
      obtain ⟨twins, others, rfl, areTwins, areOthers⟩ := List.map_eq_append_iff.mp areOthers
      obtain ⟨closes, behind, rfl, isCloses, areBehind⟩ := List.map_eq_cons_iff.mp areOthers
      have each : List.Forall₂ sameSaid.token inner twins := by
        have same : List.Forall₂ Eq (twins.map wordOf) (inner.map wordOf) := by
          rw [areTwins, areInner]
          exact List.forall₂_refl _
        rw [List.forall₂_map_left_iff, List.forall₂_map_right_iff] at same
        exact same.flip
      have isStart : opening.kind = delimiter.startKind false := congrArg Word.kind isOpening
      have isEnd : closing.kind = delimiter.endKind false := congrArg Word.kind isClosing
      refine .tag isStart (isOpens.trans isOpening.symm) ?_ each ?_ isEnd
        (isCloses.trans isClosing.symm) (later rest behind areRest areBehind)
      · intro token member
        have isIn : wordOf token ∈ construct.inner := areInner ▸ List.mem_map_of_mem member
        exact (List.mem_filter.mp isIn).2
      · rintro rfl token isHead
        have isFirst : wordOf token ∈ construct.inner.head? := by
          rw [← areInner, List.head?_map, Option.mem_def.mp isHead]
          rfl
        refine Bool.eq_false_iff.mpr fun isRaw => sound.head_inner isForm _ isFirst ?_
        simp only [Token.isName, Bool.and_eq_true, beq_iff_eq] at isRaw
        rw [wordOf, isRaw.1, isRaw.2]
        rfl

/-- A text stands in both, or nothing is left of it. -/
theorem matching_text {stripped : List Char} (isEmpty : text = [] → stripped = [])
    (areWords : tokens.map wordOf =
      if text = [] then words else ⟨.text, String.ofList stripped⟩ :: words)
    (areOthers : others.map wordOf = Token.bodyWords stripped ++ otherWords)
    (later : ∀ tokens others : List Token, tokens.map wordOf = words →
      others.map wordOf = otherWords → Matching tokens others) : Matching tokens others := by
  unfold Token.bodyWords at areOthers
  by_cases noText : text = []
  · rw [if_pos noText] at areWords
    rw [if_pos (isEmpty noText)] at areOthers
    exact later tokens others areWords areOthers
  · rw [if_neg noText] at areWords
    obtain ⟨token, rest, rfl, isText, areRest⟩ := List.map_eq_cons_iff.mp areWords
    by_cases isNothing : stripped = []
    · rw [if_pos isNothing] at areOthers
      rw [isNothing] at isText
      exact .nothing isText (later rest others areRest areOthers)
    · rw [if_neg isNothing] at areOthers
      obtain ⟨twin, behind, rfl, isTwin, areBehind⟩ := List.map_eq_cons_iff.mp areOthers
      exact .text (congrArg Word.kind isText) (isTwin.trans isText.symm)
        (later rest behind areRest areBehind)

/-- Where nothing is marked, texts stay as they are. -/
theorem unmarkedWords_plainText (noMark : words.head?.any (·.kind.trimsBefore) = false) :
    unmarkedWords false (Token.bodyWords text ++ words) =
      Token.bodyWords text ++ unmarkedWords false words := by
  rw [unmarkedWords_text, noMark, Token.bodyWords]
  split <;> rfl

theorem matching_items {items : List Item} (constructs : ∀ item ∈ items, item.construct.Sound)
    {before : Bool} (areWords : tokens.map wordOf = unmarkedWords before (wordsFrom text items))
    (areOthers : others.map wordOf = unmarkedWords false
      (wordsFrom (strip before (marksNext items) text) (strippedItems items))) :
    Matching tokens others := by
  have isEmpty (after : Bool) : text = [] → strip before after text = [] := by
    rintro rfl
    exact strip_nil before after
  induction items generalizing before text tokens others with
  | nil =>
      rw [wordsFrom, unmarkedWords_text] at areWords
      rw [strippedItems, wordsFrom, unmarkedWords_plainText rfl] at areOthers
      refine matching_text (isEmpty false) areWords areOthers fun tokens others areTokens areOthers => ?_
      obtain ⟨first, none, rfl, isEnd, noMore⟩ := List.map_eq_cons_iff.mp areTokens
      obtain ⟨second, none, rfl, isOther, noOthers⟩ := List.map_eq_cons_iff.mp areOthers
      rw [List.map_eq_nil_iff.mp noMore, List.map_eq_nil_iff.mp noOthers]
      exact .ending (congrArg Word.kind isEnd) (isOther.trans isEnd.symm)
  | cons item items inductionHypothesis =>
      obtain ⟨sound, constructsLater⟩ := List.forall_mem_cons.mp constructs
      rw [wordsFrom, unmarkedWords_text, head_words, unmarkedWords_construct,
        unmarkedWords_construct] at areWords
      rw [strippedItems, wordsFrom, unmarkedWords_plainText (head_words _ _ _ _),
        unmarkedWords_construct] at areOthers
      refine matching_text (isEmpty item.front) areWords areOthers fun _ _ areTokens areOthers => ?_
      refine matching_construct sound areTokens areOthers fun _ _ areTokens areOthers => ?_
      exact inductionHypothesis constructsLater areTokens areOthers fun after isNothing => by
        rw [isNothing, strip_nil]

end Matching

/-! ### Templates -/

/-- The tape of a source, and the one that is left when its marks are carried out. -/
theorem exists_bare (source : String) :
    ∃ bare : Tape, (Tape.ofTokens (Token.scan source).tokens).Bare bare ∧
      bare.remaining = unmarkedTokens false (kept (Token.scan source).tokens) ∧
        bare.enclosing = [] ∧ bare.problems = #[] := by
  obtain ⟨tokens, last, first, rest, areTokens, -, isEnd, areReadable, isTape⟩ := ofTokens_scan source
  have areKept : kept (Token.scan source).tokens = first :: rest := by
    rw [areTokens, kept_append, kept_of_end isEnd, areReadable]
  rw [isTape, areKept]
  refine ⟨⟨none, first.unmarked false (rest.head?.any (·.kind.trimsBefore)),
    unmarkedTokens first.kind.trimsAfter rest, [], #[]⟩, ?_, rfl, rfl, rfl⟩
  exact ⟨rfl, rfl, rfl, rfl, rfl, rfl⟩

section Templates

variable {register : Register} (heedless : register.Heedless)
include heedless

/-- What carrying out the marks of a source leaves of its parse. -/
theorem parse_of_bare {source : String} {bare : Tape} (name : String)
    (is : (Tape.ofTokens (Token.scan source).tokens).Bare bare)
    (quiet : (Token.scan source).problems = []) :
    (parse register name source).template =
        { ((template register).run bare).1 with name := some name } ∧
      (parse register name source).problems =
        ((template register).run bare).2.problems.toList := by
  obtain ⟨same, moved⟩ := (indifferent_template heedless).bare is
  rw [same, moved.problems, parse, parseTokens, quiet]
  exact ⟨rfl, rfl⟩

/-- Marks of tags and comments do what stripping by hand does: whatever tags and comments stand
between the texts of a source and whichever of their delimiters are marked, the source without marks
whose texts are stripped where the marks say so has the same template, and the same is wrong with
it, up to places. There may be tags of a host if marks and places make no difference to what reads
them, as they make none to the extensions that need no hook of their own. -/
theorem parse_stripped (name : String) (source : Source) (sound : source.Sound) :
    let marked := parse register name source.written
    let stripped := parse register name source.stripped.written
    stripped.template.name = marked.template.name ∧
      unplacedBody stripped.template.body = unplacedBody marked.template.body ∧
        stripped.problems.map Diagnostic.unplaced = marked.problems.map Diagnostic.unplaced := by
  obtain ⟨words, quiet⟩ := sound.scans
  obtain ⟨otherWords, otherQuiet⟩ := sound.stripped.scans
  obtain ⟨bare, isBare, isRemaining, isEnclosing, isQuiet⟩ := exists_bare source.written
  obtain ⟨other, isOther, otherRemaining, otherEnclosing, otherIsQuiet⟩ :=
    exists_bare source.stripped.written
  have matching : Matching bare.remaining other.remaining := by
    rw [isRemaining, otherRemaining]
    apply matching_items sound.constructs
    · rw [map_wordOf_unmarkedTokens]
      exact congrArg _ words
    · rw [map_wordOf_unmarkedTokens]
      exact congrArg _ otherWords
  have parallel : Parallel (bare.following.length + 1) (other.following.length + 1) bare other :=
    ⟨matching, isBare.trims, isOther.trims, otherEnclosing.trans isEnclosing.symm,
      by rw [otherIsQuiet, isQuiet], Nat.lt_succ_self _, Nat.lt_succ_self _⟩
  obtain ⟨sameBody, sameProblems⟩ := parallel.reads_template heedless
  obtain ⟨isTemplate, areProblems⟩ := parse_of_bare heedless name isBare quiet
  obtain ⟨isStripped, areOthers⟩ := parse_of_bare heedless name isOther otherQuiet
  dsimp only
  rw [isTemplate, isStripped, areProblems, areOthers]
  exact ⟨rfl, sameBody, sameProblems⟩

end Templates

/-- A condition with a text that is only blanks, a comment, a tag of the host and an output in it. -/
def page : Source where
  text := "a ".toList
  items := [
    ⟨⟨.tag .block, " if b ".toList⟩, true, true, "\n ".toList⟩,
    ⟨⟨.comment, " c ".toList⟩, true, false, " d ".toList⟩,
    ⟨⟨.tag .block, " note f ".toList⟩, true, true, "\n".toList⟩,
    ⟨⟨.tag .output, " 'e' ~ f ".toList⟩, false, true, " g\n".toList⟩,
    ⟨⟨.tag .block, " endif ".toList⟩, true, false, " h".toList⟩]

example : page.stripped.written = "a\x7b% if b %\x7d\x7b# c #\x7d d\x7b% note f %\x7d" ++
    "\x7b\x7b 'e' ~ f \x7d\x7dg\x7b% endif %\x7d h" := by
  decide +kernel

theorem parse_stripped_page :
    let register : Register := ⟨[("note", .inline)], false⟩
    register.Heedless ∧ page.Sound ∧
      page.written = "a \x7b%- if b -%\x7d\n \x7b#- c #\x7d d \x7b%- note f -%\x7d\n" ++
        "\x7b\x7b 'e' ~ f -\x7d\x7d g\n\x7b%- endif %\x7d h" ∧
      let marked := parse register "page" page.written
      let stripped := parse register "page" page.stripped.written
      stripped.template.name = marked.template.name ∧
        unplacedBody stripped.template.body = unplacedBody marked.template.body ∧
          stripped.problems.map Diagnostic.unplaced = marked.problems.map Diagnostic.unplaced := by
  have generic : Register.IsGeneric ⟨[("note", .inline)], false⟩ :=
    List.forall_mem_singleton.mpr (.inl rfl)
  have sound : page.Sound := by decide +kernel
  exact ⟨generic.heedless, sound, by decide +kernel,
    parse_stripped generic.heedless "page" page sound⟩

/-- A tag of the host with a mark, a blank behind it, and an output. -/
def glance : Source where
  text := []
  items := [⟨⟨.tag .block, " show ".toList⟩, false, true, " ".toList⟩,
    ⟨⟨.tag .output, " a ".toList⟩, false, false, []⟩]

/-- Reports something of a tag, and leaves nothing of it. -/
def Hook.remark (what : String) (start : Span) : Hook :=
  .report ((Mistake.unexpected what).toDiagnostic start) (.finish none)

/-- A hook tells a source from the stripped one if it looks at the end of its tag, if it looks at the
token behind that or reads an expression there, and if it makes something of where its tag ends. -/
theorem hooks_tell_marks :
    let hooks : List Extension := [
      fun _ start => .look fun token => .remark token.lexeme start,
      fun _ start => .closeTag <| .look fun token => .remark token.lexeme start,
      fun _ _ => .closeTag <| .expression fun _ => .finish none,
      fun _ start => .closeTag <| .spanFrom start fun span => .remark (toString span.length) start]
    glance.Sound ∧ glance.written = "\x7b% show -%\x7d \x7b\x7b a \x7d\x7d" ∧
      ∀ hook ∈ hooks,
        let register : Register := ⟨[("show", hook)], false⟩
        (parse register "page" glance.stripped.written).problems.map Diagnostic.unplaced ≠
          (parse register "page" glance.written).problems.map Diagnostic.unplaced := by
  refine ⟨by decide +kernel, by decide +kernel, ?_⟩
  simp only [List.forall_mem_cons]
  exact ⟨by decide +kernel, by decide +kernel, by decide +kernel, by decide +kernel,
    List.forall_mem_nil _⟩

end Stencil.Grammar
