import Stencil.Proofs.Grammar.Lodging
import Stencil.Proofs.Token.Tiling

/-!
Contract: every span of a template and of its problems is exact, and spans nest.

Owns:
- the tokens of a text stand in line at points of it, and so do the problems of its tokens;
- in the tree of every text, well-formed or not, each span is where counting along the text leads,
  the statements of a body are in order, and what a statement holds lies inside it.

Does not own: how statements are placed among tokens in line (`Stencil.Proofs.Grammar.Lodging`).
-/

set_option autoImplicit false

namespace Stencil.Grammar

open Stencil.Syntax
open Stencil.Text (Position Span Window byteLength)
open Stencil.Token (Kind Region Cursor)
open Read Statement

variable {exact : Position → Prop} {tape : Tape} {bound : Nat}

/-! ### Points of a text -/

/-- Whether counting along a text leads to a point, and the point fits into words of 32 bits. -/
structure IsPointOf (source : String) (position : Position) : Prop where
  counted : Token.pointAt? source position.offset = some position
  fits : Token.FitsWord position

section Scanning

variable {source : String} (short : byteLength source.toList < 2 ^ 32 - 1) {cursor : Cursor}
include short

theorem isPointOf_position (place : cursor.IsPlaceOf source) : IsPointOf source cursor.position :=
  ⟨place.pointAt?, place.fitsWord short⟩

theorem isExact_spanOf (place : cursor.IsPlaceOf source) (count : Nat) :
    (cursor.spanOf count).IsExact (IsPointOf source) := by
  refine ⟨isPointOf_position short place, isPointOf_position short (place.skip count), ?_⟩
  have further : (cursor.skip count).position.offset =
      cursor.position.offset + byteLength (cursor.rest.take count) :=
    Position.offset_advanceAll _ _
  show cursor.position.offset ≤ (cursor.skip count).position.offset
  omega

/-- What is wrong inside a tag is reported between points of the text. -/
theorem told_scanTag (delimiter : Token.Delimiter) {opened : Position}
    (isOpened : IsPointOf source opened) (brackets : List Token.Symbol)
    (place : cursor.IsPlaceOf source) :
    ∀ problem ∈ (Token.scanTag delimiter opened brackets cursor).scan.problems,
      problem.span.IsExact (IsPointOf source) := by
  have abandoned (cursor : Cursor) (place : cursor.IsPlaceOf source) :
      ∀ problem ∈ (Token.abandonTag delimiter opened cursor).scan.problems,
        problem.span.IsExact (IsPointOf source) := by
    intro problem member
    obtain rfl := List.mem_singleton.mp member
    have between : ∀ stop, IsPointOf source stop →
        (Span.between opened stop).IsExact (IsPointOf source) := by
      intro stop isStop
      refine ⟨?_, ?_, Span.start_le_stop_between _ _⟩
      · rw [Span.start_between]
        exact isOpened
      · unfold Span.between
        split
        · exact isOpened
        · exact isStop
    exact between _ (isPointOf_position short place)
  fun_induction Token.scanTag delimiter opened brackets cursor with
  | case1 brackets cursor => exact abandoned cursor place
  | case2 => exact List.forall_mem_nil _
  | case3 brackets cursor => exact abandoned cursor place
  | case4 brackets cursor c rest isRest notClosed notOpened piece problems inner
      inductionHypothesis =>
      intro problem member
      rcases List.mem_append.mp member with isHere | isLater
      · obtain ⟨cause, -, rfl⟩ := List.mem_map.mp isHere
        exact isExact_spanOf short place _
      · exact inductionHypothesis (place.skip _) problem isLater

omit short in
theorem isPlaceOf_of_covers {start stop : Cursor} {tokens : List Token}
    (covers : Token.Covers start tokens stop) (place : start.IsPlaceOf source) :
    stop.IsPlaceOf source := by
  induction covers with
  | nothing => exact place
  | piece kind count rest inductionHypothesis => exact inductionHypothesis (place.skip count)

theorem told_scanWholeTag (delimiter : Token.Delimiter) (place : cursor.IsPlaceOf source) :
    ∀ problem ∈ (Token.scanWholeTag delimiter cursor).1.problems,
      problem.span.IsExact (IsPointOf source) := by
  have inside := told_scanTag short delimiter (isPointOf_position short place) []
    (place.skip (Token.openerLength cursor))
  unfold Token.scanWholeTag
  dsimp only
  split
  · intro problem member
    have noMore (cursor : Cursor) (count : Nat) :
        (Token.scanText cursor count).problems = [] := by
      unfold Token.scanText
      split <;> rfl
    rw [Token.Scan.problems_append, noMore, List.append_nil] at member
    exact inside problem member
  · exact inside

theorem told_scanConstruct (place : cursor.IsPlaceOf source) :
    ∀ problem ∈ (Token.scanConstruct cursor).1.problems,
      problem.span.IsExact (IsPointOf source) := by
  unfold Token.scanConstruct
  split
  · exact told_scanWholeTag short .output place
  · split
    · exact told_scanWholeTag short .block place
    · split
      · intro problem member
        unfold Token.scanComment at member
        dsimp only at member
        split at member
        · obtain rfl := List.mem_singleton.mp member
          exact isExact_spanOf short place _
        · cases member
      · intro problem member
        unfold Token.scanText at member
        dsimp only at member
        split at member <;> cases member

theorem told_scanFrom (place : cursor.IsPlaceOf source) :
    ∀ problem ∈ (Token.scanFrom cursor).problems, problem.span.IsExact (IsPointOf source) := by
  fun_induction Token.scanFrom cursor with
  | case1 => exact List.forall_mem_nil _
  | case2 cursor unfinished inductionHypothesis =>
      intro problem member
      rcases List.mem_append.mp member with isHere | isLater
      · exact told_scanConstruct short place problem isHere
      · exact inductionHypothesis (isPlaceOf_of_covers (Token.covers_scanConstruct cursor) place)
          problem isLater

/-- Tokens that take a text from one place on, one after another, are in line. -/
theorem inLine_of_covers {start stop : Cursor} {tokens : List Token}
    (covers : Token.Covers start tokens stop) (place : start.IsPlaceOf source) :
    InLine (IsPointOf source) tokens ∧
      ∀ token ∈ tokens, start.position.offset ≤ token.span.start.offset := by
  induction covers with
  | nothing => exact ⟨⟨(fun _ member => nomatch member), .nil⟩, (fun _ member => nomatch member)⟩
  | @piece cursor after tokens kind count rest inductionHypothesis =>
      obtain ⟨inLine, behind⟩ := inductionHypothesis (place.skip count)
      have isExact : (cursor.cut kind count).span.IsExact (IsPointOf source) :=
        isExact_spanOf short place count
      refine ⟨⟨List.forall_mem_cons.mpr ⟨isExact, inLine.isExact⟩,
        List.pairwise_cons.mpr ⟨behind, inLine.ordered⟩⟩, ?_⟩
      refine List.forall_mem_cons.mpr ⟨Nat.le_refl _, fun token member => ?_⟩
      exact Nat.le_trans isExact.ordered (behind token member)

/-- The tape of a text begins outside tags, with its tokens in line. -/
theorem clear_ofTokens_scan :
    ∃ bound, (Tape.ofTokens (Token.scan source).tokens).Clear (IsPointOf source) bound ∧
      (Tape.ofTokens (Token.scan source).tokens).previous = none := by
  obtain ⟨tokens, last, first, rest, areTokens, led, isEnd, areReadable, isTape⟩ :=
    ofTokens_scan source
  obtain ⟨stop, -, covers⟩ := Token.covers_scanFrom (Cursor.ofText source)
  have inLine := (inLine_of_covers short covers (Token.Cursor.isPlaceOf_ofText source)).1
  have isSublist : (first :: rest).Sublist (Token.scan source).tokens := by
    rw [← areReadable, areTokens]
    exact List.Sublist.append_right List.filter_sublist _
  refine ⟨rest.length + 1, ?_⟩
  rw [isTape]
  refine ⟨?_, rfl⟩
  refine ⟨⟨?_, Nat.lt_succ_self _⟩, ⟨inLine.sublist isSublist, nofun⟩⟩
  have leads := Region.leads_of_after? led isEnd
  rw [areReadable] at leads
  exact leads

end Scanning

/-! ### Templates -/

/-- Whether all spans of a template and of what was wrong with its text are exact, and the template
and its statements nest. -/
structure Parsed.IsPlaced (exact : Position → Prop) (parsed : Parsed) : Prop where
  problems : ∀ problem ∈ parsed.problems, problem.span.IsExact exact
  own : parsed.template.span.IsExact exact
  stacked : Stacked parsed.template.span.start.offset parsed.template.span.stop.offset
    parsed.template.body
  nests : ∀ node ∈ parsed.template.body, node.Nests exact

/-- A template reaches from its first token to where reading stopped. -/
theorem isPlaced_template {register : Register} (generic : register.IsGeneric)
    (clear : tape.Clear exact bound) (isFirst : tape.previous = none) (name : Option String) :
    (⟨{ ((template register).run tape).1 with name := name },
      ((template register).run tape).2.problems.toList⟩ : Parsed).IsPlaced exact := by
  have reads := (places_nestedBody generic _ [] _ clear.tight).arrives
  have isBody : (nestedBody register (tape.following.length + 1) []).run tape =
      (body register []).run tape := by
    rw [body, run_bind, run_get]
  rw [isBody] at reads
  rw [run_template]
  generalize (body register []).run tape = read at reads
  obtain ⟨⟨nodes, found⟩, final⟩ := read
  obtain ⟨-, onto, lodged⟩ := reads
  dsimp only at onto lodged ⊢
  have atFirst := clear.lined.current
  have atLast := onto.clear.lined.current
  have isMark : tape.mark = tape.current.span.start.offset := by rw [Tape.mark, isFirst]
  have reached := onto.reaches.mark
  have stopped := onto.clear.lined.mark_le
  have ordered := atFirst.ordered
  have lastOrdered := atLast.ordered
  have covers := atFirst.cover atLast
  refine ⟨fun problem member => onto.clear.lined.told problem (Array.mem_toList_iff.mp member),
    covers, lodged.stacked.widen ?_ ?_, lodged.nests⟩
  · unfold Span.cover
    dsimp only
    split <;> omega
  · unfold Span.cover
    dsimp only
    split <;> omega

/-- Whatever a text holds, all spans of its tree and of its problems are where counting along the
text leads. The statements of each body are in order and inside the statement that has the body, and
so is everything else that a statement holds. -/
theorem parse_isPlaced {register : Register} (generic : register.IsGeneric) (name source : String)
    (short : byteLength source.toList < 2 ^ 32 - 1) :
    (parse register name source).IsPlaced (IsPointOf source) := by
  obtain ⟨bound, clear, isFirst⟩ := clear_ofTokens_scan short
  have told := told_scanFrom short (Token.Cursor.isPlaceOf_ofText source)
  obtain ⟨toldByBody, own, stacked, nests⟩ := isPlaced_template generic clear isFirst (some name)
  exact ⟨List.forall_mem_append.mpr ⟨told, toldByBody⟩, own, stacked, nests⟩

/-- A text in which a value and two bodies are never ended, with a tag of a host in it. -/
theorem parse_isPlaced_broken :
    let register : Register := ⟨[("note", .enclosing "endnote")], false⟩
    let source := "é\x7b% for a in %\x7d\x7b\x7b b. \x7d\x7b% note 'c' ~ %\x7d\x7b% else %\x7d"
    register.IsGeneric ∧ byteLength source.toList < 2 ^ 32 - 1 ∧
      (parse register "page" source).IsPlaced (IsPointOf source) := by
  intro register source
  have generic : register.IsGeneric :=
    List.forall_mem_singleton.mpr (.inr ⟨"endnote", rfl⟩)
  have short : byteLength source.toList < 2 ^ 32 - 1 := by decide
  exact ⟨generic, short, parse_isPlaced generic "page" source short⟩

end Stencil.Grammar
