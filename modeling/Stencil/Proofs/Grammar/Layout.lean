import Stencil.Proofs.Grammar.Shown
import Stencil.Proofs.Token.Region

/-!
Contract: texts laid out fragment by fragment, with a blank before every word of a tag.

Owns:
- the fragments of a template's text: text, comments, and tags of words;
- the words that scanning reads back where blanks stand around them, and those blanks;
- scanning such a text gives the words of its fragments, and finds nothing wrong.

Does not own: the fragments of a statement (`Stencil.Proofs.Grammar.Printed`).
-/

set_option autoImplicit false

namespace Stencil.Grammar

open Stencil.Text (Position Span isBlank distanceTo)
open Stencil.Token

inductive Fragment where
  | text (content : List Char)
  | comment (content : List Char)
  | tag (delimiter : Delimiter) (words : List Word)
deriving DecidableEq, Repr

namespace Fragment

def commentBody (content : List Char) : List Char := ' ' :: (content ++ [' '])

/-- The characters of words, with a blank before each of them. -/
def spaced (words : List Word) : List Char := words.flatMap fun word => ' ' :: word.lexeme.toList

def chars : Fragment → List Char
  | .text content => content
  | .comment content => commentOpener ++ (commentBody content ++ commentCloser)
  | .tag delimiter words => delimiter.opener ++ (spaced words ++ ' ' :: delimiter.closer)

/-- A blank comes first, whether a word follows it or what stands behind the words. -/
theorem exists_behind_spaced (words : List Word) (rest : List Char) :
    ∃ behind, spaced words ++ ' ' :: rest = ' ' :: behind := by
  cases words with
  | nil => exact ⟨_, rfl⟩
  | cons next words => exact ⟨_, rfl⟩

def words : Fragment → List Word
  | .text content => [⟨.text, String.ofList content⟩]
  | .comment content =>
      [⟨.comment false false, String.ofList (Fragment.comment content).chars⟩]
  | .tag delimiter words =>
      ⟨delimiter.startKind false, String.ofList delimiter.opener⟩ ::
        (words ++ [⟨delimiter.endKind false, String.ofList delimiter.closer⟩])

end Fragment

/-- A word that is read back as it is, where a blank stands before and behind it. -/
structure Word.IsPiece (word : Word) : Prop where
  piece : ∃ first rest, word.lexeme.toList = first :: rest ∧ isBlank first = false ∧
    ∀ delimiter behind,
      pieceAt delimiter first (rest ++ ' ' :: behind) = ⟨word.kind, rest.length + 1, none⟩
  matters : word.kind.isTrivia = false

/-- Such a word opens no map, inside which the closing delimiter of an output would not count. -/
structure Word.StandsAlone (word : Word) : Prop extends word.IsPiece where
  noMap : word.kind ≠ .symbol .leftBrace

namespace Word

def blanks (characters : List Char) : Word := ⟨.blank, String.ofList characters⟩

/-- Words with a blank before each of them. -/
def apart (words : List Word) : List Word := words.flatMap fun word => [blanks [' '], word]

end Word

/-- The open brackets behind words, innermost first. -/
def bracketsBehind (brackets : List Symbol) (words : List Word) : List Symbol :=
  words.foldl (fun brackets word => bracketsAfter brackets word.kind) brackets

/-! ### Words that stand alone -/

def isName (text : String) : Bool :=
  match text.toList with
  | [] => false
  | first :: rest => beginsName first && rest.all continuesName

/-- Names begin with a letter or an underscore, by their codes. -/
theorem code_of_beginsName {c : Char} (begins : beginsName c = true) :
    (65 ≤ c.toNat ∧ c.toNat ≤ 90) ∨ (97 ≤ c.toNat ∧ c.toNat ≤ 122) ∨ c.toNat = 95 := by
  change ((decide ('A'.val ≤ c.val ∧ c.val ≤ 'Z'.val) || ('a'.val ≤ c.val && c.val ≤ 'z'.val)) ||
    c == '_') = true at begins
  simp only [Bool.or_eq_true, Bool.and_eq_true, decide_eq_true_eq, beq_iff_eq] at begins
  rcases begins with (⟨low, high⟩ | ⟨low, high⟩) | rfl
  · exact Or.inl ⟨low, high⟩
  · exact Or.inr (Or.inl ⟨low, high⟩)
  · exact Or.inr (Or.inr rfl)

theorem isBlank_of_beginsName {c : Char} (begins : beginsName c = true) : isBlank c = false := by
  have code := code_of_beginsName begins
  simp only [isBlank, Bool.or_eq_false_iff, Bool.and_eq_false_iff, decide_eq_false_iff_not,
    beq_eq_false_iff_ne]
  omega

theorem takeWhile_append_blank {test : Char → Bool} {text : List Char} (all : text.all test = true)
    (stops : test ' ' = false) (behind : List Char) :
    (text ++ ' ' :: behind).takeWhile test = text := by
  rw [List.takeWhile_append_of_pos (List.all_eq_true.mp all)]
  simp [stops]

theorem exists_of_isName {text : String} (named : isName text = true) :
    ∃ first rest, text.toList = first :: rest ∧ beginsName first = true ∧
      rest.all continuesName = true := by
  unfold isName at named
  split at named
  · cases named
  · rename_i first rest isText
    exact ⟨first, rest, isText, Bool.and_eq_true_iff.mp named⟩

theorem standsAlone_name {text : String} (named : isName text = true) :
    (Word.name text).StandsAlone := by
  obtain ⟨first, rest, isText, begins, continues⟩ := exists_of_isName named
  refine ⟨⟨⟨first, rest, isText, isBlank_of_beginsName begins, fun delimiter behind => ?_⟩, rfl⟩,
    nofun⟩
  have taken := takeWhile_append_blank continues (by decide) behind
  rw [pieceAt, isBlank_of_beginsName begins, begins, taken]
  exact congrArg (Piece.mk .name · none) (Nat.add_comm _ _)

theorem isPiece_symbol (symbol : Symbol) : (Word.symbol symbol).IsPiece := by
  refine ⟨?_, rfl⟩
  cases symbol <;> exact ⟨_, _, rfl, by decide, fun _ _ => rfl⟩

/-- The only symbol that opens a map is the left brace. -/
theorem standsAlone_symbol {symbol : Symbol} (notBrace : symbol ≠ .leftBrace) :
    (Word.symbol symbol).StandsAlone :=
  ⟨isPiece_symbol symbol, fun isBrace => notBrace (Kind.symbol.inj isBrace)⟩

/-! ### Inside tags -/

/-- What scanning the inside of a tag comes to, places left aside. -/
structure Inside (result : TagScan) (words : List Word) (rest : List Char) : Prop where
  words : (kept result.scan.tokens).map wordOf = words
  quiet : result.scan.problems = []
  closed : result.closed = true
  rest : result.cursor.rest = rest

/-- What it comes to with the blanks between its words, places left aside. -/
structure Spelled (result : TagScan) (words : List Word) (rest : List Char) : Prop where
  words : result.scan.tokens.map wordOf = words
  quiet : result.scan.problems = []
  closed : result.closed = true
  rest : result.cursor.rest = rest

variable {delimiter : Delimiter} {opened : Position} {brackets : List Symbol} {cursor : Cursor}
  {c : Char} {rest : List Char}

/-- Where a tag neither ends nor breaks off, one piece is read. -/
theorem scanTag_of_piece {piece : Piece} (isRest : cursor.rest = c :: rest)
    (notClosed : closerAt? delimiter brackets (c :: rest) = none)
    (notOpened : opensConstruct (c :: rest) = false) (isPiece : pieceAt delimiter c rest = piece)
    (quiet : piece.problem = none) :
    scanTag delimiter opened brackets cursor =
      let inner := scanTag delimiter opened (bracketsAfter brackets piece.kind)
        (cursor.skip piece.length)
      { inner with scan := ⟨[cursor.cut piece.kind piece.length], []⟩ ++ inner.scan } := by
  subst isPiece
  obtain ⟨position, text⟩ := cursor
  subst isRest
  rw [scanTag]
  simp only [notClosed, notOpened, Bool.false_eq_true, if_false, quiet]
  rfl

/-- Where the tag ends, nothing else is read. -/
theorem scanTag_of_closer {length : Nat} {trim : Bool} (isRest : cursor.rest = c :: rest)
    (closes : closerAt? delimiter brackets (c :: rest) = some (length, trim)) :
    scanTag delimiter opened brackets cursor =
      ⟨.one (cursor.cut (delimiter.endKind trim) length), true, cursor.skip length⟩ := by
  obtain ⟨position, text⟩ := cursor
  subst isRest
  rw [scanTag]
  simp only [closes]

theorem closerAt?_of_plain (plain : c ∉ ['-', '%', '{', '}']) :
    closerAt? delimiter brackets (c :: rest) = none := by
  simp only [List.mem_cons, not_or] at plain
  obtain ⟨notMinus, notPercent, _, notBrace, _⟩ := plain
  unfold closerAt?
  cases delimiter <;>
    simp [Delimiter.closer, Ne.symm notMinus, Ne.symm notPercent, Ne.symm notBrace]

/-- Tags and comments open with a brace. -/
theorem opensConstruct_of_ne (notBrace : c ≠ '{') : opensConstruct (c :: rest) = false := by
  simp [opensConstruct, Delimiter.opener, commentOpener, List.isPrefixOf, Ne.symm notBrace]

theorem opensConstruct_of_plain (plain : c ∉ ['-', '%', '{', '}']) :
    opensConstruct (c :: rest) = false := by
  simp only [List.mem_cons, not_or] at plain
  exact opensConstruct_of_ne plain.2.2.1

/-- A piece with a blank behind it is no delimiter, not even one that a delimiter could begin
with. -/
theorem not_delimiter_of_piece {others behind : List Char} {kind : Kind}
    (isPiece : pieceAt delimiter c (others ++ ' ' :: behind) = ⟨kind, others.length + 1, none⟩) :
    closerAt? delimiter brackets (c :: (others ++ ' ' :: behind)) = none ∧
      opensConstruct (c :: (others ++ ' ' :: behind)) = false := by
  by_cases special : c ∈ ['-', '%', '{', '}']
  · simp only [List.mem_cons, List.not_mem_nil, or_false] at special
    have isSingle : (pieceAt delimiter c (others ++ ' ' :: behind)).length = 1 := by
      rcases special with rfl | rfl | rfl | rfl <;> cases others <;> rfl
    rw [isPiece] at isSingle
    have isEmpty : others = [] := List.length_eq_zero_iff.mp (Nat.succ.inj isSingle)
    subst isEmpty
    rcases special with rfl | rfl | rfl | rfl <;> cases delimiter <;>
      simp [closerAt?, opensConstruct, Delimiter.closer, Delimiter.opener, commentOpener,
        List.isPrefixOf]
  · exact ⟨closerAt?_of_plain special, opensConstruct_of_plain special⟩

/-- Blanks in a row are one piece. -/
theorem scanTag_blanks {blanks : List Char} (areBlank : blanks.all isBlank = true)
    (notBlank : isBlank c = false) (isRest : cursor.rest = ' ' :: (blanks ++ c :: rest)) :
    scanTag delimiter opened brackets cursor =
      let inner := scanTag delimiter opened brackets (cursor.skip (1 + blanks.length))
      { inner with scan := ⟨[cursor.cut .blank (1 + blanks.length)], []⟩ ++ inner.scan } := by
  have isPiece : pieceAt delimiter ' ' (blanks ++ c :: rest) = ⟨.blank, 1 + blanks.length, none⟩ := by
    have blank : isBlank ' ' = true := by decide
    have taken : (blanks ++ c :: rest).takeWhile isBlank = blanks := by
      rw [List.takeWhile_append_of_pos (List.all_eq_true.mp areBlank)]
      simp [notBlank]
    rw [pieceAt, if_pos blank, taken]
  exact scanTag_of_piece isRest (closerAt?_of_plain (by decide))
    (opensConstruct_of_plain (by decide)) isPiece rfl

theorem Inside.pass {result : TagScan} {words : List Word} (inside : Inside result words rest)
    (token : Token) :
    Inside { result with scan := ⟨[token], []⟩ ++ result.scan }
      ((kept [token]).map wordOf ++ words) rest where
  words := by
    rw [Scan.tokens_append, kept_append, List.map_append, inside.words]
  quiet := by
    rw [Scan.problems_append, inside.quiet]
    rfl
  closed := inside.closed
  rest := inside.rest

theorem Spelled.pass {result : TagScan} {words : List Word} (spelled : Spelled result words rest)
    (token : Token) :
    Spelled { result with scan := ⟨[token], []⟩ ++ result.scan } (wordOf token :: words) rest where
  words := by
    rw [Scan.tokens_append, List.map_append, spelled.words]
    rfl
  quiet := by
    rw [Scan.problems_append, spelled.quiet]
    rfl
  closed := spelled.closed
  rest := spelled.rest

theorem Spelled.inside {result : TagScan} {words : List Word} (spelled : Spelled result words rest) :
    Inside result (words.filter fun word => !word.kind.isTrivia) rest where
  words := by
    rw [← spelled.words, List.filter_map]
    rfl
  quiet := spelled.quiet
  closed := spelled.closed
  rest := spelled.rest

theorem spelled_closer
    (noMap : ¬ (delimiter = .output ∧ brackets.head? = some .leftBrace))
    (isRest : cursor.rest = delimiter.closer ++ rest) :
    Spelled (scanTag delimiter opened brackets cursor)
      [⟨delimiter.endKind false, String.ofList delimiter.closer⟩] rest := by
  have closes : closerAt? delimiter brackets (delimiter.closer ++ rest) = some (2, false) := by
    rw [closerAt?, if_neg noMap]
    cases delimiter <;> simp [Delimiter.closer, List.isPrefixOf]
  obtain ⟨position, text⟩ := cursor
  subst isRest
  cases delimiter with
  | output =>
      rw [scanTag_of_closer rfl closes]
      exact ⟨rfl, rfl, rfl, rfl⟩
  | block =>
      rw [scanTag_of_closer rfl closes]
      exact ⟨rfl, rfl, rfl, rfl⟩

theorem inside_closer
    (noMap : ¬ (delimiter = .output ∧ brackets.head? = some .leftBrace))
    (isRest : cursor.rest = delimiter.closer ++ rest) :
    Inside (scanTag delimiter opened brackets cursor)
      [⟨delimiter.endKind false, String.ofList delimiter.closer⟩] rest := by
  have matters : ([⟨delimiter.endKind false, String.ofList delimiter.closer⟩] : List Word).filter
      (fun word => !word.kind.isTrivia) =
        [⟨delimiter.endKind false, String.ofList delimiter.closer⟩] := by
    cases delimiter <;> rfl
  have closer : Spelled (scanTag delimiter opened brackets cursor) _ rest :=
    spelled_closer noMap isRest
  have inside := closer.inside
  rwa [matters] at inside

theorem leftBrace_not_mem_bracketsAfter {kind : Kind} (noMap : Symbol.leftBrace ∉ brackets)
    (notMap : kind ≠ .symbol .leftBrace) : Symbol.leftBrace ∉ bracketsAfter brackets kind := by
  unfold bracketsAfter
  split
  · rename_i symbol
    have notBrace : symbol ≠ .leftBrace := fun isBrace => notMap (congrArg Kind.symbol isBrace)
    split
    · simpa using noMap
    · simpa using noMap
    · exact (notBrace rfl).elim
    · split
      · rename_i innermost outer _ _
        split
        · exact fun member => noMap (List.mem_cons_of_mem _ member)
        · exact noMap
      · exact noMap
  · exact noMap

/-- A token that holds all characters of a word is that word. -/
theorem wordOf_cut {word : Word} {first : Char} {others behind : List Char}
    (isLexeme : word.lexeme.toList = first :: others)
    (isRest : cursor.rest = first :: (others ++ behind)) :
    wordOf (cursor.cut word.kind (others.length + 1)) = word := by
  have taken : cursor.rest.take (others.length + 1) = first :: others := by
    rw [isRest, List.take_succ_cons, List.take_left]
  have isWord : String.ofList (cursor.rest.take (others.length + 1)) = word.lexeme := by
    rw [taken, ← isLexeme, String.ofList_toList]
  rw [wordOf, Cursor.cut, isWord]

/-- Blanks in a row are read as one piece. -/
theorem spelled_blanks {blanks : List Char} {words : List Word}
    (areBlank : blanks.all isBlank = true) (notBlank : isBlank c = false)
    (isRest : cursor.rest = ' ' :: (blanks ++ c :: rest)) {behind : List Char}
    (spelled : Spelled (scanTag delimiter opened brackets (cursor.skip (1 + blanks.length))) words
      behind) :
    Spelled (scanTag delimiter opened brackets cursor) (.blanks (' ' :: blanks) :: words) behind := by
  have taken : cursor.rest.take (1 + blanks.length) = ' ' :: blanks := by
    rw [isRest, Nat.add_comm, List.take_succ_cons, List.take_left]
  have isWord : wordOf (cursor.cut .blank (1 + blanks.length)) = .blanks (' ' :: blanks) := by
    rw [wordOf, Cursor.cut, taken, Word.blanks]
  rw [scanTag_blanks areBlank notBlank isRest, ← isWord]
  exact spelled.pass _

/-- The words of a tag are read back with the blanks between them, up to its end. The end of an
output is not read inside a map. -/
theorem spelled_scanTag {words : List Word} {blanks : List Char}
    (pieces : ∀ word ∈ words, word.IsPiece) (areBlank : blanks.all isBlank = true)
    (noMap : ¬ (delimiter = .output ∧ (bracketsBehind brackets words).head? = some .leftBrace))
    (isRest : cursor.rest =
      Fragment.spaced words ++ ' ' :: (blanks ++ (delimiter.closer ++ rest))) :
    Spelled (scanTag delimiter opened brackets cursor)
      (Word.apart words ++ [.blanks (' ' :: blanks),
        ⟨delimiter.endKind false, String.ofList delimiter.closer⟩]) rest := by
  induction words generalizing brackets cursor with
  | nil =>
      have isBlanks : cursor.rest = (' ' :: blanks) ++ (delimiter.closer ++ rest) := isRest
      have isBehind : (cursor.skip (1 + blanks.length)).rest = delimiter.closer ++ rest := by
        rw [Cursor.skip, isBlanks, Nat.add_comm]
        exact List.drop_left
      have closer :
          Spelled (scanTag delimiter opened brackets (cursor.skip (1 + blanks.length))) _ rest :=
        spelled_closer noMap isBehind
      cases delimiter with
      | output => exact spelled_blanks areBlank (by decide) isBlanks closer
      | block => exact spelled_blanks areBlank (by decide) isBlanks closer
  | cons word words inductionHypothesis =>
      obtain ⟨⟨first, others, isLexeme, notBlank, isPiece⟩, _⟩ := pieces word List.mem_cons_self
      have piecesRest : ∀ word ∈ words, word.IsPiece :=
        fun other member => pieces other (List.mem_cons_of_mem _ member)
      obtain ⟨behind, isBehind⟩ :=
        Fragment.exists_behind_spaced words (blanks ++ (delimiter.closer ++ rest))
      have isRest : cursor.rest = ' ' :: ([] ++ first :: (others ++ ' ' :: behind)) := by
        rw [isRest, Fragment.spaced, List.flatMap_cons, isLexeme, ← Fragment.spaced, ← isBehind]
        simp
      have atWord : (cursor.skip 1).rest = first :: (others ++ ' ' :: behind) := by
        rw [Cursor.skip, isRest]
        rfl
      have atNext : ((cursor.skip 1).skip (others.length + 1)).rest =
          Fragment.spaced words ++ ' ' :: (blanks ++ (delimiter.closer ++ rest)) := by
        rw [Cursor.skip, atWord, isBehind]
        exact List.drop_left
      obtain ⟨notClosed, notOpened⟩ := not_delimiter_of_piece (isPiece delimiter behind)
      have spelled := inductionHypothesis piecesRest noMap atNext
      have passed := spelled.pass ((cursor.skip 1).cut word.kind (others.length + 1))
      rw [wordOf_cut isLexeme atWord] at passed
      have noBlanks : ([] : List Char).all isBlank = true := rfl
      refine spelled_blanks noBlanks notBlank isRest ?_
      rw [List.length_nil, scanTag_of_piece atWord notClosed notOpened (isPiece delimiter behind) rfl]
      exact passed

theorem filter_apart {words : List Word} (pieces : ∀ word ∈ words, word.IsPiece) :
    (Word.apart words).filter (fun word => !word.kind.isTrivia) = words := by
  induction words with
  | nil => rfl
  | cons word words inductionHypothesis =>
      have matters := (pieces word List.mem_cons_self).matters
      have piecesRest : ∀ word ∈ words, word.IsPiece :=
        fun other member => pieces other (List.mem_cons_of_mem _ member)
      have isBlank : (Word.blanks [' ']).kind.isTrivia = true := rfl
      rw [Word.apart, List.flatMap_cons, ← Word.apart, List.filter_append,
        inductionHypothesis piecesRest]
      simp [matters, isBlank]

/-- The words of a tag are read back, up to its end. -/
theorem inside_scanTag {words : List Word} {blanks : List Char}
    (pieces : ∀ word ∈ words, word.IsPiece) (areBlank : blanks.all isBlank = true)
    (noMap : ¬ (delimiter = .output ∧ (bracketsBehind brackets words).head? = some .leftBrace))
    (isRest : cursor.rest =
      Fragment.spaced words ++ ' ' :: (blanks ++ (delimiter.closer ++ rest))) :
    Inside (scanTag delimiter opened brackets cursor)
      (words ++ [⟨delimiter.endKind false, String.ofList delimiter.closer⟩]) rest := by
  have spelled : Spelled (scanTag delimiter opened brackets cursor) _ rest :=
    spelled_scanTag pieces areBlank noMap isRest
  have inside := spelled.inside
  rw [List.filter_append, filter_apart pieces] at inside
  cases delimiter <;> exact inside

/-! ### Fragments -/

/-- Whether scanning reads the fragment back wherever it stands: text has no brace that could open
something, comments do not end early, and no statement begins a verbatim body. -/
def Fragment.Sound : Fragment → Prop
  | .text content => content ≠ [] ∧ '{' ∉ content
  | .comment content => Text.contains commentCloser content = false
  | .tag delimiter words =>
      (∀ word ∈ words, word.StandsAlone) ∧ (delimiter = .block → words ≠ [.name "raw"])

def Fragment.isText : Fragment → Bool
  | .text _ => true
  | _ => false

/-- What scanning one construct comes to, places left aside. -/
structure ScansTo (result : Scan × Cursor) (words : List Word) (rest : List Char) : Prop where
  words : (kept result.1.tokens).map wordOf = words
  quiet : result.1.problems = []
  rest : result.2.rest = rest

theorem Word.IsPiece.isInner {word : Word} (piece : word.IsPiece) :
    word.kind.isInner = true := by
  obtain ⟨first, others, _, _, isPiece⟩ := piece.piece
  have isInner := pieceAt_kind_isInner .block first (others ++ ' ' :: [])
  rwa [isPiece] at isInner

theorem isTagEnd_of_isInner {kind : Kind} (inner : kind.isInner = true) :
    kind.isTagEnd = false := by
  cases kind <;> first | rfl | cases inner

/-- Only a tag of the single word `raw` begins a verbatim body. -/
theorem not_beginsVerbatim {tokens : List Token} {words : List Word} {closing : Word}
    (pieces : ∀ word ∈ words, word.IsPiece) (notRaw : words ≠ [.name "raw"])
    (closes : closing.kind.isTagEnd = true)
    (isKept : (kept tokens).map wordOf = words ++ [closing]) : beginsVerbatim tokens = false := by
  have inside : ((tokens.filter fun token => !token.kind.isTrivia && !token.kind.isTagEnd)).map
      wordOf = words := by
    have split : (tokens.filter fun token => !token.kind.isTrivia && !token.kind.isTagEnd) =
        (kept tokens).filter fun token => !(wordOf token).kind.isTagEnd := by
      rw [kept, List.filter_filter]
      exact List.filter_congr fun token _ => Bool.and_comm _ _
    have mapped : ((kept tokens).filter fun token => !(wordOf token).kind.isTagEnd).map wordOf =
        ((kept tokens).map wordOf).filter fun word => !word.kind.isTagEnd := by
      rw [List.filter_map]
      rfl
    have notEnds : words.filter (fun word => !word.kind.isTagEnd) = words := by
      rw [List.filter_eq_self]
      intro word member
      rw [isTagEnd_of_isInner (pieces word member).isInner]
      rfl
    rw [split, mapped, isKept, List.filter_append, notEnds]
    simp [closes]
  unfold beginsVerbatim
  split
  · rename_i token isSingle
    rw [isSingle, List.map_singleton] at inside
    refine Bool.eq_false_iff.mpr fun isRaw => notRaw ?_
    rw [← inside]
    simp only [Token.isName, Bool.and_eq_true, beq_iff_eq] at isRaw
    rw [wordOf, isRaw.1, isRaw.2]
    rfl
  · rfl

theorem scanConstruct_of_tag {behind : List Char}
    (isRest : cursor.rest = delimiter.opener ++ behind) :
    scanConstruct cursor = scanWholeTag delimiter cursor := by
  rw [scanConstruct, isRest]
  cases delimiter <;> simp [Delimiter.opener, List.isPrefixOf]

/-- A delimiter with a blank behind it carries no marker. -/
theorem scanConstruct_of_opener {behind : List Char}
    (opens : cursor.rest = delimiter.opener ++ ' ' :: behind) :
    scanConstruct cursor = scanWholeTag delimiter cursor ∧ hasMarker cursor = false ∧
      cursor.rest.drop 2 = ' ' :: behind := by
  have dropped : cursor.rest.drop 2 = ' ' :: behind := by
    rw [opens]
    cases delimiter <;> rfl
  refine ⟨scanConstruct_of_tag opens, ?_, dropped⟩
  rw [hasMarker, dropped]
  rfl

/-- A tag of pieces is read back, unless it begins a verbatim body. -/
theorem scansTo_pieces {delimiter : Delimiter} {words : List Word} {blanks : List Char}
    (pieces : ∀ word ∈ words, word.IsPiece) (areBlank : blanks.all isBlank = true)
    (noMap : ¬ (delimiter = .output ∧ (bracketsBehind [] words).head? = some .leftBrace))
    (notRaw : delimiter = .block → words ≠ [.name "raw"]) {cursor : Cursor} {rest : List Char}
    (isRest : cursor.rest = delimiter.opener ++
      (Fragment.spaced words ++ ' ' :: (blanks ++ (delimiter.closer ++ rest)))) :
    ScansTo (scanConstruct cursor) (Fragment.tag delimiter words).words rest := by
  obtain ⟨behind, isBehind⟩ :=
    Fragment.exists_behind_spaced words (blanks ++ (delimiter.closer ++ rest))
  have opens : cursor.rest = delimiter.opener ++ ' ' :: behind := isRest.trans (by rw [isBehind])
  obtain ⟨isWhole, noMarker, dropped⟩ := scanConstruct_of_opener opens
  have inside : Inside (scanTag delimiter cursor.position [] (cursor.skip 2)) _ rest :=
    inside_scanTag pieces areBlank noMap (by rw [Cursor.skip, dropped, isBehind])
  have closes : (delimiter.endKind false).isTagEnd = true := by
    cases delimiter <;> rfl
  have notVerbatim : ¬ (delimiter = .block ∧
      (scanTag delimiter cursor.position [] (cursor.skip 2)).closed = true ∧
      beginsVerbatim (scanTag delimiter cursor.position [] (cursor.skip 2)).scan.tokens =
        true) := by
    rintro ⟨isBlock, _, begins⟩
    rw [not_beginsVerbatim pieces (notRaw isBlock) closes inside.words] at begins
    cases begins
  have result : scanWholeTag delimiter cursor =
      (Scan.one (cursor.cut (delimiter.startKind false) 2) ++
        (scanTag delimiter cursor.position [] (cursor.skip 2)).scan,
        (scanTag delimiter cursor.position [] (cursor.skip 2)).cursor) := by
    simp only [scanWholeTag, openerLength, noMarker, Bool.false_eq_true, if_false]
    rw [if_neg notVerbatim]
  have opening : (kept [cursor.cut (delimiter.startKind false) 2]).map wordOf =
      [⟨delimiter.startKind false, String.ofList delimiter.opener⟩] := by
    rw [Cursor.cut, opens]
    cases delimiter <;> rfl
  rw [isWhole, result]
  refine ⟨?_, ?_, inside.rest⟩
  · rw [Scan.tokens_append, kept_append, List.map_append, inside.words]
    exact congrArg (· ++ _) opening
  · rw [Scan.problems_append, inside.quiet]
    rfl

theorem head?_bracketsBehind_ne_leftBrace {words : List Word}
    (alone : ∀ word ∈ words, word.StandsAlone) (noMap : Symbol.leftBrace ∉ brackets) :
    (bracketsBehind brackets words).head? ≠ some .leftBrace := by
  induction words generalizing brackets with
  | nil => exact fun isMap => noMap (List.mem_of_head? isMap)
  | cons word words inductionHypothesis =>
      exact inductionHypothesis (fun other member => alone other (List.mem_cons_of_mem _ member))
        (leftBrace_not_mem_bracketsAfter noMap (alone word List.mem_cons_self).noMap)

theorem scansTo_tag {delimiter : Delimiter} {words : List Word}
    (sound : (Fragment.tag delimiter words).Sound) {cursor : Cursor} {rest : List Char}
    (isRest : cursor.rest = (Fragment.tag delimiter words).chars ++ rest) :
    ScansTo (scanConstruct cursor) (Fragment.tag delimiter words).words rest := by
  have noMap := head?_bracketsBehind_ne_leftBrace sound.1 List.not_mem_nil
  have noBlanks : ([] : List Char).all isBlank = true := rfl
  have isRest : cursor.rest = delimiter.opener ++
      (Fragment.spaced words ++ ' ' :: ([] ++ (delimiter.closer ++ rest))) := by
    rw [isRest, Fragment.chars]
    simp
  exact scansTo_pieces (fun word member => (sound.1 word member).toIsPiece) noBlanks
    (fun both => noMap both.2) sound.2 isRest

/-! ### Text and comments -/

/-- Items at which nothing is found only add to the distance. -/
theorem distanceTo_append_of_none {α : Type} {here : List α → Bool} {items rest : List α}
    (none : ∀ before item behind, items = before ++ item :: behind →
      here (item :: behind ++ rest) = false) :
    distanceTo here (items ++ rest) = items.length + distanceTo here rest := by
  induction items with
  | nil => exact (Nat.zero_add _).symm
  | cons item items inductionHypothesis =>
      have notHere : here (item :: (items ++ rest)) = false := none [] item items rfl
      have later : distanceTo here (items ++ rest) = items.length + distanceTo here rest := by
        refine inductionHypothesis fun before other behind isItems => ?_
        exact none (item :: before) other behind (by rw [isItems]; rfl)
      rw [List.cons_append, distanceTo, notHere, later, List.length_cons, Nat.add_right_comm]
      rfl

theorem distanceTo_of_here {α : Type} {here : List α → Bool} {rest : List α}
    (stops : rest = [] ∨ here rest = true) : distanceTo here rest = 0 := by
  cases rest with
  | nil => rfl
  | cons item rest =>
      rcases stops with isEmpty | isHere
      · cases isEmpty
      · exact if_pos isHere

theorem distanceTo_of_stop {α : Type} {here : List α → Bool} {items rest : List α}
    (notBefore : ∀ before item behind, items = before ++ item :: behind →
      here (item :: behind ++ rest) = false)
    (stops : rest = [] ∨ here rest = true) : distanceTo here (items ++ rest) = items.length := by
  rw [distanceTo_append_of_none notBefore, distanceTo_of_here stops, Nat.add_zero]

theorem scansTo_text {content : List Char} (sound : (Fragment.text content).Sound) {cursor : Cursor}
    {rest : List Char} (isRest : cursor.rest = content ++ rest)
    (stops : rest = [] ∨ opensConstruct rest = true) :
    ScansTo (scanConstruct cursor) (Fragment.text content).words rest := by
  obtain ⟨nonempty, noBrace⟩ := sound
  have isLength : distanceTo opensConstruct cursor.rest = content.length := by
    rw [isRest]
    refine distanceTo_of_stop
      (fun before c behind isContent => opensConstruct_of_ne ?_) stops
    rintro rfl
    exact noBrace (by rw [isContent]; simp)
  have isText : scanConstruct cursor =
      (scanText cursor (distanceTo opensConstruct cursor.rest),
        cursor.skip (distanceTo opensConstruct cursor.rest)) := by
    cases content with
    | nil => contradiction
    | cons c behind =>
        have plain : c ≠ '{' := fun isBrace => noBrace (isBrace ▸ List.mem_cons_self)
        have closed : opensConstruct cursor.rest = false := by
          rw [isRest]
          exact opensConstruct_of_ne plain
        simp only [opensConstruct, Bool.or_eq_false_iff] at closed
        obtain ⟨⟨notOutput, notBlock⟩, notComment⟩ := closed
        simp only [scanConstruct, notOutput, notBlock, notComment, Bool.false_eq_true, if_false]
  have positive : content.length ≠ 0 := mt List.length_eq_zero_iff.mp nonempty
  have taken : cursor.rest.take content.length = content := by
    rw [isRest, List.take_left]
  rw [isText, isLength]
  refine ⟨?_, ?_, ?_⟩
  · rw [scanText, if_neg positive, Scan.one, Cursor.cut, taken]
    rfl
  · rw [scanText, if_neg positive]
    rfl
  · rw [Cursor.skip, isRest, List.drop_left]

theorem contains_of_split (fragment before behind : List Char) (nonempty : fragment ≠ []) :
    Text.contains fragment (before ++ (fragment ++ behind)) = true := by
  induction before with
  | nil =>
      cases fragment with
      | nil => contradiction
      | cons c fragment =>
          have found : (c :: fragment).isPrefixOf (c :: fragment ++ behind) = true :=
            List.isPrefixOf_iff_prefix.mpr (List.prefix_append _ _)
          rw [List.nil_append, List.cons_append, Text.contains]
          rw [List.cons_append] at found
          rw [found, Bool.true_or]
  | cons c before inductionHypothesis =>
      rw [List.cons_append, Text.contains, inductionHypothesis, Bool.or_true]

theorem no_closer_in_comment {content before behind rest : List Char} {c : Char}
    (sound : Text.contains commentCloser content = false)
    (isBody : Fragment.commentBody content = before ++ c :: behind) :
    commentCloser.isPrefixOf (c :: behind ++ (commentCloser ++ rest)) = false := by
  refine Bool.eq_false_iff.mpr fun found => ?_
  cases behind with
  | nil => simp [commentCloser, List.isPrefixOf] at found
  | cons d behind =>
      simp only [commentCloser, List.cons_append, List.isPrefixOf, Bool.and_true,
        Bool.and_eq_true, beq_iff_eq] at found
      obtain ⟨rfl, rfl⟩ := found
      cases before with
      | nil => simp [Fragment.commentBody] at isBody
      | cons e before =>
          have isBody : content ++ [' '] = before ++ '#' :: '}' :: behind :=
            (List.cons.inj isBody).2
          rcases List.eq_nil_or_concat behind with rfl | ⟨init, last, rfl⟩
          · have split : content ++ [' '] = (before ++ ['#']) ++ ['}'] := by
              rw [isBody, List.append_assoc]
              rfl
            exact absurd (List.append_inj_right' split rfl) (by decide)
          · have split : content ++ [' '] = (before ++ (commentCloser ++ init)) ++ [last] := by
              rw [isBody]
              simp [commentCloser]
            have isContent := List.append_inj_left' split rfl
            have contained := contains_of_split commentCloser before init (by decide)
            rw [← isContent, sound] at contained
            cases contained

theorem scansTo_comment {content : List Char} (sound : (Fragment.comment content).Sound)
    {cursor : Cursor} {rest : List Char}
    (isRest : cursor.rest = (Fragment.comment content).chars ++ rest) :
    ScansTo (scanConstruct cursor) (Fragment.comment content).words rest := by
  have opens : cursor.rest =
      '{' :: '#' :: (Fragment.commentBody content ++ (commentCloser ++ rest)) := by
    rw [isRest, Fragment.chars]
    simp [commentOpener]
  have isComment : scanConstruct cursor = scanComment cursor := by
    rw [scanConstruct, opens]
    simp [Delimiter.opener, commentOpener, List.isPrefixOf]
  have dropped : cursor.rest.drop 2 = Fragment.commentBody content ++ (commentCloser ++ rest) := by
    rw [opens]
    rfl
  have noMarker : hasMarker cursor = false := by
    rw [hasMarker, dropped]
    rfl
  have closes : commentCloser.isPrefixOf (commentCloser ++ rest) = true :=
    List.isPrefixOf_iff_prefix.mpr (List.prefix_append _ _)
  have isLength : distanceTo commentCloser.isPrefixOf (cursor.rest.drop 2) =
      (Fragment.commentBody content).length := by
    rw [dropped]
    refine distanceTo_of_stop (fun before c behind isBody => ?_) (Or.inr closes)
    exact no_closer_in_comment sound isBody
  have isClosed : ¬ (cursor.rest.drop 2).length ≤ (Fragment.commentBody content).length := by
    rw [dropped, List.length_append, List.length_append]
    have two : commentCloser.length = 2 := rfl
    omega
  have lastBlank : ((cursor.rest.drop 2).take (Fragment.commentBody content).length).getLast? =
      some ' ' := by
    rw [dropped, List.take_left]
    exact List.getLast?_concat (l := ' ' :: content)
  have isWhole :
      2 + (Fragment.commentBody content).length + 2 = (Fragment.comment content).chars.length := by
    rw [Fragment.chars, List.length_append, List.length_append]
    have two : commentOpener.length = 2 ∧ commentCloser.length = 2 := ⟨rfl, rfl⟩
    omega
  have result : scanComment cursor =
      (.one (cursor.cut (.comment false false) (Fragment.comment content).chars.length),
        cursor.skip (Fragment.comment content).chars.length) := by
    simp only [scanComment, isLength, if_neg isClosed, noMarker, lastBlank, isWhole]
    rfl
  have taken : cursor.rest.take (Fragment.comment content).chars.length =
      (Fragment.comment content).chars := by
    rw [isRest, List.take_left]
  rw [isComment, result]
  refine ⟨?_, rfl, ?_⟩
  · rw [Scan.one, Cursor.cut, taken]
    rfl
  · rw [Cursor.skip, isRest, List.drop_left]

/-! ### Whole texts -/

/-- Whether scanning reads the fragments back where they follow one another: each of them by
itself, and no two texts next to each other. -/
def Laid : List Fragment → Prop
  | [] => True
  | fragment :: rest =>
      fragment.Sound ∧ (fragment.isText = true → ∀ next ∈ rest.head?, next.isText = false) ∧
        Laid rest

theorem Laid.append {first second : List Fragment} (left : Laid first) (right : Laid second)
    (apart : ∀ last ∈ first.getLast?, last.isText = true →
      ∀ next ∈ second.head?, next.isText = false) : Laid (first ++ second) := by
  induction first with
  | nil => exact right
  | cons fragment first inductionHypothesis =>
      obtain ⟨sound, apartFirst, laid⟩ := left
      cases first with
      | nil => exact ⟨sound, apart fragment rfl, right⟩
      | cons next first =>
          refine ⟨sound, apartFirst, inductionHypothesis laid fun last isLast => apart last ?_⟩
          rw [List.getLast?_cons_cons]
          exact isLast

/-- The characters of fragments that follow one another. -/
def layout (fragments : List Fragment) : List Char := fragments.flatMap Fragment.chars

theorem chars_ne_nil {fragment : Fragment} (sound : fragment.Sound) : fragment.chars ≠ [] := by
  cases fragment with
  | text content => exact sound.1
  | comment content => exact List.cons_ne_nil _ _
  | tag delimiter words => cases delimiter <;> exact List.cons_ne_nil _ _

theorem opensConstruct_opener (delimiter : Delimiter) (rest : List Char) :
    opensConstruct (delimiter.opener ++ rest) = true := by
  cases delimiter <;> simp [opensConstruct, Delimiter.opener, List.isPrefixOf]

theorem opensConstruct_of_not_text {fragment : Fragment} (notText : fragment.isText = false)
    (rest : List Char) :
    opensConstruct (fragment.chars ++ rest) = true := by
  cases fragment with
  | text content => cases notText
  | comment content => simp [Fragment.chars, opensConstruct, commentOpener, List.isPrefixOf]
  | tag delimiter words =>
      rw [Fragment.chars, List.append_assoc]
      exact opensConstruct_opener delimiter _

theorem scansTo_fragment {fragment : Fragment} {fragments : List Fragment}
    (laid : Laid (fragment :: fragments))
    {cursor : Cursor} (isRest : cursor.rest = layout (fragment :: fragments)) :
    ScansTo (scanConstruct cursor) fragment.words (layout fragments) := by
  obtain ⟨sound, apart, _⟩ := laid
  cases fragment with
  | text content =>
      refine scansTo_text sound isRest ?_
      cases fragments with
      | nil => exact Or.inl rfl
      | cons next fragments => exact Or.inr (opensConstruct_of_not_text (apart rfl next rfl) _)
  | comment content => exact scansTo_comment sound isRest
  | tag delimiter words => exact scansTo_tag sound isRest

theorem words_scanFrom_of_end {cursor : Cursor} (finished : cursor.rest = []) :
    (kept (scanFrom cursor).tokens).map wordOf = [⟨.endOfInput, ""⟩] ∧
      (scanFrom cursor).problems = [] := by
  rw [scanFrom, dif_pos finished]
  exact ⟨rfl, rfl⟩

/-- The words of a text are those of its first construct and those of what stands behind it. -/
theorem ScansTo.words_scanFrom {cursor : Cursor} {words behind : List Word} {rest : List Char}
    (scans : ScansTo (scanConstruct cursor) words rest) (nonempty : cursor.rest ≠ [])
    (further : (kept (scanFrom (scanConstruct cursor).2).tokens).map wordOf = behind ∧
      (scanFrom (scanConstruct cursor).2).problems = []) :
    (kept (scanFrom cursor).tokens).map wordOf = words ++ behind ∧
      (scanFrom cursor).problems = [] := by
  rw [scanFrom, dif_neg nonempty, Scan.tokens_append, Scan.problems_append, kept_append,
    List.map_append, scans.words, scans.quiet, further.1, further.2]
  exact ⟨rfl, rfl⟩

/-- The tokens of a laid-out text that matter are the words of its fragments and the end of the
input, and nothing is wrong with them. -/
theorem scanFrom_layout {fragments : List Fragment} (laid : Laid fragments) {cursor : Cursor}
    (isRest : cursor.rest = layout fragments) :
    (kept (scanFrom cursor).tokens).map wordOf =
        fragments.flatMap Fragment.words ++ [⟨.endOfInput, ""⟩] ∧
      (scanFrom cursor).problems = [] := by
  induction fragments generalizing cursor with
  | nil => exact words_scanFrom_of_end isRest
  | cons fragment fragments inductionHypothesis =>
      have scans := scansTo_fragment laid isRest
      have nonempty : cursor.rest ≠ [] := by
        rw [isRest, layout, List.flatMap_cons]
        exact List.append_ne_nil_of_left_ne_nil (chars_ne_nil laid.1) _
      rw [List.flatMap_cons, List.append_assoc]
      exact scans.words_scanFrom nonempty (inductionHypothesis laid.2.2 scans.rest)

end Stencil.Grammar
