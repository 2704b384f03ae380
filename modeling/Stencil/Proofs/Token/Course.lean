import Stencil.Proofs.Report.Course
import Stencil.Proofs.Token.Stream
import Stencil.Proofs.Token.Tiling

/-!
Contract: tokens, and reports about them, in the order of the text.

Owns:
- tokens that take a text from one place to another begin one after another;
- reports about tokens are made in order; only that a tag is never closed is reported late, at its
  opening delimiter.

Does not own: reports about the order of tokens (`Stencil.Proofs.Grammar.Chronology`).
-/

set_option autoImplicit false

namespace Stencil.Token

open Stencil.Report (InCourse)
open Stencil.Text (Position Span)

variable {start stop cursor : Cursor} {tokens : List Token}

/-! ### Tokens -/

/-- Tokens that take a text from one place on do not begin before it, and none of them begins before
the one in front of it. -/
theorem Covers.starts (covers : Covers start tokens stop) :
    (∀ token ∈ tokens, start.position.offset ≤ token.span.start.offset) ∧
      tokens.Pairwise fun first second => first.span.start.offset ≤ second.span.start.offset := by
  induction covers with
  | nothing => exact ⟨List.forall_mem_nil _, .nil⟩
  | @piece cursor _ _ _ count _ inductionHypothesis =>
      obtain ⟨areBehind, ordered⟩ := inductionHypothesis
      have behindCursor := fun token member =>
        Nat.le_trans (cursor.offset_le_skip count) (areBehind token member)
      refine ⟨List.forall_mem_cons.mpr ⟨Nat.le_refl _, behindCursor⟩, ?_⟩
      exact List.pairwise_cons.mpr ⟨behindCursor, ordered⟩

/-! ### Reports -/

/-- A tag that is given up is reported at its opening delimiter. -/
theorem inCourse_abandonTag (delimiter : Delimiter) {opened : Position}
    (isBefore : opened.offset ≤ cursor.position.offset) :
    InCourse cursor.position.offset cursor.position.offset
      (abandonTag delimiter opened cursor).scan.problems := by
  refine .one (Nat.le_refl _) (.inl ?_) ?_
  · cases delimiter <;> simp [Report.Diagnostic.IsLate, Report.Diagnostic.new, Delimiter.unclosed]
  · show (Span.between opened cursor.position).start.offset ≤ cursor.position.offset
    rw [Span.start_between]
    exact isBefore

/-- What is wrong with a piece is reported where the piece begins. -/
theorem inCourse_scanTag (delimiter : Delimiter) {opened : Position} (brackets : List Symbol)
    (isBefore : opened.offset ≤ cursor.position.offset) :
    InCourse cursor.position.offset
      (scanTag delimiter opened brackets cursor).cursor.position.offset
      (scanTag delimiter opened brackets cursor).scan.problems := by
  fun_induction scanTag delimiter opened brackets cursor with
  | case1 => exact inCourse_abandonTag delimiter isBefore
  | case2 brackets cursor => exact .none (cursor.offset_le_skip _)
  | case3 => exact inCourse_abandonTag delimiter isBefore
  | case4 brackets cursor c rest isRest notClosed notOpened piece problems inner
      inductionHypothesis =>
      have forward := cursor.offset_le_skip piece.length
      have here : InCourse cursor.position.offset (cursor.skip piece.length).position.offset
          problems := by
        unfold problems
        cases piece.problem with
        | none => exact .none forward
        | some cause => exact .one forward (.inr (Nat.le_refl _)) forward
      exact here.append (inductionHypothesis (Nat.le_trans isBefore forward))

theorem inCourse_scanText (cursor : Cursor) (count : Nat) :
    InCourse cursor.position.offset (cursor.skip count).position.offset
      (scanText cursor count).problems := by
  unfold scanText
  split <;> exact .none (cursor.offset_le_skip count)

theorem inCourse_scanWholeTag (delimiter : Delimiter) (cursor : Cursor) :
    InCourse cursor.position.offset (scanWholeTag delimiter cursor).2.position.offset
      (scanWholeTag delimiter cursor).1.problems := by
  have forward := cursor.offset_le_skip (openerLength cursor)
  have opening : InCourse cursor.position.offset
      (cursor.skip (openerLength cursor)).position.offset [] := .none forward
  have whole := opening.append (inCourse_scanTag delimiter [] forward)
  unfold scanWholeTag
  dsimp only
  split
  · exact whole.append (inCourse_scanText _ _)
  · exact whole

theorem inCourse_scanComment (cursor : Cursor) :
    InCourse cursor.position.offset (scanComment cursor).2.position.offset
      (scanComment cursor).1.problems := by
  have forward := cursor.offset_le_skip
  unfold scanComment
  dsimp only
  split
  · exact .one (forward _) (.inr (Nat.le_refl _)) (forward _)
  · exact .none (forward _)

theorem inCourse_scanConstruct (cursor : Cursor) :
    InCourse cursor.position.offset (scanConstruct cursor).2.position.offset
      (scanConstruct cursor).1.problems := by
  unfold scanConstruct
  split
  · exact inCourse_scanWholeTag .output cursor
  · split
    · exact inCourse_scanWholeTag .block cursor
    · split
      · exact inCourse_scanComment cursor
      · exact inCourse_scanText cursor _

/-- What is wrong with the tokens of a text is reported in order. -/
theorem exists_inCourse_scanFrom (cursor : Cursor) :
    ∃ high, InCourse cursor.position.offset high (scanFrom cursor).problems := by
  fun_induction scanFrom cursor with
  | case1 => exact ⟨_, .none (Nat.le_refl _)⟩
  | case2 cursor unfinished inductionHypothesis =>
      obtain ⟨high, behind⟩ := inductionHypothesis
      exact ⟨high, (inCourse_scanConstruct cursor).append behind⟩

end Stencil.Token
