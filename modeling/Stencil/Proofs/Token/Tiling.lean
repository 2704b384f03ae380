import Mathlib
import Stencil.Proofs.Token.Region

/-!
Contract: the tokens of a text tile it.

Owns:
- runs of tokens that take the text from one cursor to another without a gap;
- the tiling of a whole text: nothing is lost, nothing is read twice, every span is exact, and the
  end of the input comes last and only there;
- that positions of texts below four gibibytes fit into 32 bits.

Does not own: in what order kinds of token stand (`Stencil.Proofs.Token.Region`).
-/

set_option autoImplicit false

namespace Stencil.Token

open Stencil.Text

/-! ### Runs of tokens -/

/-- Tokens that, one after another, take the text from one place to another. -/
inductive Covers : Cursor → List Token → Cursor → Prop where
  | nothing (cursor : Cursor) : Covers cursor [] cursor
  | piece {cursor after : Cursor} {tokens : List Token} (kind : Kind) (count : Nat)
      (rest : Covers (cursor.skip count) tokens after) :
      Covers cursor (cursor.cut kind count :: tokens) after

theorem Covers.append {start middle stop : Cursor} {first second : List Token}
    (left : Covers start first middle) (right : Covers middle second stop) :
    Covers start (first ++ second) stop := by
  induction left with
  | nothing => exact right
  | piece kind count _ inductionHypothesis => exact .piece kind count (inductionHypothesis right)

theorem Covers.cut (cursor : Cursor) (kind : Kind) (count : Nat) :
    Covers cursor [cursor.cut kind count] (cursor.skip count) :=
  .piece kind count (.nothing _)

/-- A token put in takes no text, so the place stays the same. -/
theorem Covers.mark (cursor : Cursor) (kind : Kind) : Covers cursor [cursor.mark kind] cursor :=
  Covers.cut cursor kind 0

/-! ### What scanning covers -/

theorem covers_scanTag (delimiter : Delimiter) (opened : Position) (brackets : List Symbol)
    (cursor : Cursor) :
    Covers cursor (scanTag delimiter opened brackets cursor).scan.tokens
      (scanTag delimiter opened brackets cursor).cursor := by
  fun_induction scanTag delimiter opened brackets cursor with
  | case1 => exact Covers.mark _ _
  | case2 => exact Covers.cut _ _ _
  | case3 => exact Covers.mark _ _
  | case4 brackets cursor c rest isRest notClosed notOpened piece problems inner
      inductionHypothesis =>
      exact .piece piece.kind piece.length inductionHypothesis

theorem covers_scanText (cursor : Cursor) (count : Nat) :
    Covers cursor (scanText cursor count).tokens (cursor.skip count) := by
  unfold scanText
  split
  · rename_i isZero
    subst isZero
    exact .nothing cursor
  · exact Covers.cut cursor .text count

theorem covers_scanWholeTag (delimiter : Delimiter) (cursor : Cursor) :
    Covers cursor (scanWholeTag delimiter cursor).1.tokens (scanWholeTag delimiter cursor).2 := by
  have opening := Covers.cut cursor (delimiter.startKind (hasMarker cursor)) (openerLength cursor)
  have whole := opening.append (covers_scanTag delimiter cursor.position []
    (cursor.skip (openerLength cursor)))
  unfold scanWholeTag
  dsimp only
  split
  · exact whole.append (covers_scanText _ _)
  · exact whole

theorem covers_scanComment (cursor : Cursor) :
    Covers cursor (scanComment cursor).1.tokens (scanComment cursor).2 := by
  unfold scanComment
  dsimp only
  split <;> exact Covers.cut _ _ _

theorem covers_scanConstruct (cursor : Cursor) :
    Covers cursor (scanConstruct cursor).1.tokens (scanConstruct cursor).2 := by
  unfold scanConstruct
  split
  · exact covers_scanWholeTag .output cursor
  · split
    · exact covers_scanWholeTag .block cursor
    · split
      · exact covers_scanComment cursor
      · exact covers_scanText cursor _

/-- Scanning covers all that follows, up to a place with nothing left to read. -/
theorem covers_scanFrom (cursor : Cursor) :
    ∃ stop : Cursor, stop.rest = [] ∧ Covers cursor (scanFrom cursor).tokens stop := by
  fun_induction scanFrom cursor with
  | case1 cursor finished => exact ⟨cursor, finished, Covers.mark cursor .endOfInput⟩
  | case2 cursor unfinished inductionHypothesis =>
      obtain ⟨stop, atEnd, covers⟩ := inductionHypothesis
      exact ⟨stop, atEnd, (covers_scanConstruct cursor).append covers⟩

/-! ### Places of a source -/

/-- Whether the cursor is a place of the source: what precedes it leads from the start to its
position. -/
def Cursor.IsPlaceOf (cursor : Cursor) (source : String) : Prop :=
  ∃ before : List Char, source.toList = before ++ cursor.rest ∧
    cursor.position = Position.start.advanceAll before

theorem Cursor.isPlaceOf_ofText (source : String) : (Cursor.ofText source).IsPlaceOf source :=
  ⟨[], rfl, rfl⟩

theorem Cursor.IsPlaceOf.skip {cursor : Cursor} {source : String} (place : cursor.IsPlaceOf source)
    (count : Nat) : (cursor.skip count).IsPlaceOf source := by
  obtain ⟨before, whole, position⟩ := place
  refine ⟨before ++ cursor.rest.take count, ?_, ?_⟩
  · rw [whole, List.append_assoc]
    simp [Cursor.skip]
  · rw [Position.advanceAll_append, ← position]
    rfl

/-- The point that counting along the first bytes of the source leads to, if a character ends
there. -/
def pointAt? (source : String) (offset : Nat) : Option Position :=
  (takeBytes? offset source.toList).map Position.start.advanceAll

theorem Cursor.IsPlaceOf.pointAt? {cursor : Cursor} {source : String}
    (place : cursor.IsPlaceOf source) :
    pointAt? source cursor.position.offset = some cursor.position := by
  obtain ⟨before, whole, position⟩ := place
  have offset : cursor.position.offset = byteLength before := by
    rw [position, Position.offset_advanceAll]
    exact Nat.zero_add _
  rw [Token.pointAt?, offset, whole, takeBytes?_append, Option.map_some, position]

/-- A token cut at a place of the source holds exactly the text of its span. -/
theorem Cursor.IsPlaceOf.slice?_cut {cursor : Cursor} {source : String}
    (place : cursor.IsPlaceOf source) (kind : Kind) (count : Nat) :
    (cursor.cut kind count).span.slice? source = some (cursor.cut kind count).lexeme := by
  obtain ⟨before, whole, position⟩ := place
  let taken := cursor.rest.take count
  have offset : cursor.position.offset = byteLength before := by
    rw [position, Position.offset_advanceAll]
    exact Nat.zero_add _
  have length : (cursor.cut kind count).span.length = byteLength taken := by
    simp [Cursor.cut, Cursor.spanOf, Cursor.skip, Span.length, taken]
  have begins : (cursor.cut kind count).span.start.offset = byteLength before := offset
  have splits : cursor.rest = taken ++ cursor.rest.drop count := (List.take_append_drop _ _).symm
  rw [Span.slice?, begins, length, whole, dropBytes?_append]
  simp only [Option.bind_eq_bind, Option.bind_some]
  rw [splits, takeBytes?_append]
  simp [Cursor.cut, taken]

/-- Every token of a run that begins at a place of the source is cut at a place of the source. -/
theorem Covers.isCut {start stop : Cursor} {tokens : List Token} {source : String}
    (covers : Covers start tokens stop) (place : start.IsPlaceOf source) :
    ∀ token ∈ tokens, ∃ (cursor : Cursor) (kind : Kind) (count : Nat),
      cursor.IsPlaceOf source ∧ token = cursor.cut kind count := by
  induction covers with
  | nothing => simp
  | @piece cursor after tokens kind count rest inductionHypothesis =>
      intro token member
      rcases List.mem_cons.mp member with isHead | inTail
      · exact ⟨cursor, kind, count, place, isHead⟩
      · exact inductionHypothesis (place.skip count) token inTail

/-- The lexemes of a run are the text between its ends. -/
theorem Covers.lexemes {start stop : Cursor} {tokens : List Token}
    (covers : Covers start tokens stop) :
    tokens.flatMap (·.lexeme.toList) ++ stop.rest = start.rest := by
  induction covers with
  | nothing => rfl
  | @piece cursor after tokens kind count rest inductionHypothesis =>
      rw [List.flatMap_cons, List.append_assoc, inductionHypothesis]
      simp [Cursor.cut, Cursor.skip]

/-! ### Tilings -/

/-- Spans that follow one another without a gap, the first of them from a given point. -/
def Abut : Position → List Token → Prop
  | _, [] => True
  | position, token :: rest => token.span.start = position ∧ Abut token.span.stop rest

theorem Covers.abut {start stop : Cursor} {tokens : List Token}
    (covers : Covers start tokens stop) : Abut start.position tokens := by
  induction covers with
  | nothing => trivial
  | piece kind count rest inductionHypothesis => exact ⟨rfl, inductionHypothesis⟩

structure Tiling (source : String) (tokens : List Token) : Prop where
  /-- The lexemes, one after another, are the source. -/
  lexemes : String.join (tokens.map (·.lexeme)) = source
  /-- The first span begins at the start, and each other one where the span before it ends. -/
  abut : Abut Position.start tokens
  /-- A lexeme is the text of its span. -/
  slices : ∀ token ∈ tokens, token.span.slice? source = some token.lexeme
  /-- The ends of a span are where counting along the source leads. -/
  points : ∀ token ∈ tokens, pointAt? source token.span.start.offset = some token.span.start ∧
    pointAt? source token.span.stop.offset = some token.span.stop
  /-- The last token, and no other, is the end of the input. -/
  ends : ∃ (body : List Token) (last : Token), tokens = body ++ [last] ∧
    last.kind = .endOfInput ∧ ∀ token ∈ body, token.kind ≠ .endOfInput

theorem tiling_scan (source : String) : Tiling source (scan source).tokens := by
  have place := Cursor.isPlaceOf_ofText source
  obtain ⟨stop, atEnd, covers⟩ := covers_scanFrom (Cursor.ofText source)
  have cut := covers.isCut place
  refine ⟨?_, covers.abut, ?_, ?_, ?_⟩
  · have whole := covers.lexemes
    rw [atEnd, List.append_nil] at whole
    apply String.toList_inj.mp
    rw [String.toList_join, List.flatMap_map]
    exact whole
  · intro token member
    obtain ⟨cursor, kind, count, at_, rfl⟩ := cut token member
    exact at_.slice?_cut kind count
  · intro token member
    obtain ⟨cursor, kind, count, at_, rfl⟩ := cut token member
    exact ⟨at_.pointAt?, (at_.skip count).pointAt?⟩
  · obtain ⟨body, last, tokens, led, isEnd⟩ := scanFrom_regions (Cursor.ofText source)
    exact ⟨body, last, tokens, isEnd, Region.kind_ne_endOfInput led⟩

/-! ### Machine words -/

/-- Whether offset, line and column of a point are numbers of 32 bits. -/
def FitsWord (position : Position) : Prop :=
  position.offset < 2 ^ 32 ∧ position.line < 2 ^ 32 ∧ position.column < 2 ^ 32

/-- Every character moves the offset by at least as much as the line or the column. -/
private theorem advanceAll_le_offset (text : List Char) (position : Position)
    (line : position.line ≤ position.offset + 1) (column : position.column ≤ position.offset + 1) :
    (position.advanceAll text).line ≤ (position.advanceAll text).offset + 1 ∧
      (position.advanceAll text).column ≤ (position.advanceAll text).offset + 1 := by
  induction text generalizing position with
  | nil => exact ⟨line, column⟩
  | cons c rest inductionHypothesis =>
      have positive : 0 < c.utf8Size := Char.utf8Size_pos c
      rw [Position.advanceAll_cons]
      apply inductionHypothesis <;> unfold Position.advance <;> split <;> dsimp only <;> omega

theorem Cursor.IsPlaceOf.fitsWord {cursor : Cursor} {source : String}
    (place : cursor.IsPlaceOf source) (short : byteLength source.toList < 2 ^ 32 - 1) :
    FitsWord cursor.position := by
  obtain ⟨before, whole, position⟩ := place
  have bounds := advanceAll_le_offset before Position.start (Nat.le_refl 1) (Nat.le_refl 1)
  rw [← position] at bounds
  have offset : cursor.position.offset = byteLength before := by
    rw [position, Position.offset_advanceAll]
    exact Nat.zero_add _
  have fits : byteLength before ≤ byteLength source.toList := by
    rw [whole, byteLength_append]
    exact Nat.le_add_right _ _
  refine ⟨?_, ?_, ?_⟩ <;> omega

/-- The tokens of every text that is short enough for positions of 32 bits tile it, and none of
their positions is too large for a word. -/
theorem scan_tiles (source : String) (short : byteLength source.toList < 2 ^ 32 - 1) :
    Tiling source (scan source).tokens ∧
      ∀ token ∈ (scan source).tokens, FitsWord token.span.start ∧ FitsWord token.span.stop := by
  refine ⟨tiling_scan source, ?_⟩
  obtain ⟨stop, -, covers⟩ := covers_scanFrom (Cursor.ofText source)
  intro token member
  obtain ⟨cursor, kind, count, place, rfl⟩ :=
    covers.isCut (Cursor.isPlaceOf_ofText source) token member
  exact ⟨place.fitsWord short, (place.skip count).fitsWord short⟩

/-- A tag and a literal in it that are never closed, behind text that is not ASCII. -/
theorem scan_tiles_unclosed :
    byteLength "é\x7b\x7b- a ~ 'b".toList < 2 ^ 32 - 1 ∧
      Tiling "é\x7b\x7b- a ~ 'b" (scan "é\x7b\x7b- a ~ 'b").tokens ∧
      ∀ token ∈ (scan "é\x7b\x7b- a ~ 'b").tokens,
        FitsWord token.span.start ∧ FitsWord token.span.stop := by
  have short : byteLength "é\x7b\x7b- a ~ 'b".toList < 2 ^ 32 - 1 := by decide
  exact ⟨short, scan_tiles _ short⟩

end Stencil.Token
