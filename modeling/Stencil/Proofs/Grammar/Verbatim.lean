import Stencil.Proofs.Grammar.Abreast
import Stencil.Proofs.Token.Verbatim

/-!
Contract: a verbatim body between its two tags forms one statement.

Owns:
- reading the rest of a verbatim statement where its closing tag is there;
- the template that the two tags and the body form, in all ways to write the tags.

Does not own: how the text is cut into tokens (`Stencil.Proofs.Token.Verbatim`).
-/

set_option autoImplicit false

namespace Stencil.Grammar

open Stencil.Syntax
open Stencil.Text (Span)
open Stencil.Token (IsVerbatimBody Kind TagStyle scan_verbatimText verbatimText)
open Read Statement

variable {tape : Tape} {start : Span} {opening closing : TagStyle} {body : List Char}

/-- What stands behind text is the token that the head moves to. -/
theorem Tape.trimsEnd_eq (more : tape.following ≠ []) :
    tape.trimsEnd = tape.advance.current.kind.trimsBefore := by
  unfold Tape.trimsEnd Tape.advance
  cases isFollowing : tape.following with
  | nil => contradiction
  | cons next rest => rfl

/-- The tag that closes a verbatim body is passed over without a report. -/
theorem run_verbatimEnd_of_shows (content : String) (shown : tape.Shows (closing.words "endraw")) :
    ∃ span, (verbatimEnd content start).run tape =
      (.verbatim content span, tape.past (closing.words "endraw")) := by
  obtain ⟨isStart, _, isWord, _, isEnd, _⟩ := shown
  have startKind : tape.current.kind = .blockStart closing.marksFront := congrArg Word.kind isStart
  have nameKind : tape.advance.current.kind = .name := congrArg Word.kind isWord
  have lexeme : tape.advance.current.lexeme = "endraw" := congrArg Word.lexeme isWord
  have endKind : tape.advance.advance.current.kind = .blockEnd closing.marksBack :=
    congrArg Word.kind isEnd
  have closes : tape.closesVerbatim = true := by
    simp [Tape.closesVerbatim, startKind, Token.isName, nameKind, lexeme]
  have present : tape.advance.advance.current.kind.isTagEnd = true := by
    rw [endKind]
    rfl
  have notName : (tape.advance.advance.current.kind == .name) = false := by
    rw [endKind]
    rfl
  have finished : finishTag.run tape = ((), tape.past (closing.words "endraw")) := by
    simp only [finishTag, openTag, run_bind, run_advance, run_pure, run_peekAhead, run_atKind,
      notName, Bool.false_and, Bool.false_eq_true, if_false, run_expectBlockEnd_of_present present]
    rfl
  rw [run_verbatimEnd, if_pos closes, run_bind, finished]
  exact ⟨_, rfl⟩

/-- Behind the end of its opening tag, a verbatim statement takes the body and the closing tag. The
body loses the blanks that the two tags take off. -/
theorem run_verbatimRest_of_shows (start : Span)
    (isPrevious : tape.trims = opening.marksBack)
    (shown : tape.Shows (Token.bodyWords body ++ closing.words "endraw")) :
    ∃ span, (verbatimRest start).run tape =
      (.verbatim (trimmed opening.marksBack closing.marksFront (String.ofList body)) span,
        tape.past (Token.bodyWords body ++ closing.words "endraw")) := by
  rw [run_verbatimRest]
  by_cases isEmpty : body = []
  · subst isEmpty
    have atTag : (tape.current.kind == Kind.text) = false := by
      rw [show tape.current.kind = .blockStart closing.marksFront from congrArg Word.kind shown.1]
      rfl
    have nothing : trimmed opening.marksBack closing.marksFront (String.ofList []) = "" := by
      cases opening.marksBack <;> cases closing.marksFront <;> rfl
    rw [if_neg (by rw [atTag]; exact Bool.false_ne_true), nothing]
    exact run_verbatimEnd_of_shows "" shown
  · have areWords : Token.bodyWords body = [⟨.text, String.ofList body⟩] := if_neg isEmpty
    rw [areWords] at shown ⊢
    obtain ⟨isText, more, shownBehind⟩ := shown
    have atText : (tape.current.kind == Kind.text) = true :=
      beq_iff_eq.mpr (congrArg Word.kind isText)
    have lexeme : tape.current.lexeme = String.ofList body := congrArg Word.lexeme isText
    have isNext : tape.trimsEnd = closing.marksFront := by
      have atTag : tape.advance.current.kind = .blockStart closing.marksFront :=
        congrArg Word.kind shownBehind.1
      rw [Tape.trimsEnd_eq more, atTag]
      rfl
    rw [if_pos atText, content_eq, isPrevious, isNext, lexeme]
    exact run_verbatimEnd_of_shows _ shownBehind

/-- The tag of a verbatim body, the body and its closing tag are one statement, which ends behind
the closing tag. -/
theorem run_nextNode_of_verbatim {register : Register} (reader : BodyReader)
    (isOwn : extensionFor? register "raw" = none) (outermost : tape.enclosing.tail = [])
    (shown : tape.Shows (opening.words "raw" ++ Token.bodyWords body ++ closing.words "endraw"))
    (sofar : Body) :
    ∃ span, (nextNode register reader [] sofar).run tape =
      (.again (sofar.add (some (.verbatim
        (trimmed opening.marksBack closing.marksFront (String.ofList body)) span))),
        tape.past (opening.words "raw" ++ Token.bodyWords body ++ closing.words "endraw")) := by
  rw [List.append_assoc, Tape.shows_append] at shown
  obtain ⟨⟨isStart, _, isWord, _, isEnd, more, _⟩, shownBehind⟩ := shown
  have startKind : tape.current.kind = .blockStart opening.marksFront := congrArg Word.kind isStart
  have nameKind : tape.advance.current.kind = .name := congrArg Word.kind isWord
  have lexeme : tape.advance.current.lexeme = "raw" := congrArg Word.lexeme isWord
  have endKind : tape.advance.advance.current.kind = .blockEnd opening.marksBack :=
    congrArg Word.kind isEnd
  have present : tape.advance.advance.current.kind.isTagEnd = true := by
    rw [endKind]
    rfl
  have isPrevious : tape.advance.advance.advance.trims = opening.marksBack := by
    have before : tape.advance.advance.advance.previous = some tape.advance.advance.current := by
      cases isFollowing : tape.advance.advance.following with
      | nil => contradiction
      | cons next rest => rw [Tape.advance, isFollowing]
    rw [Tape.trims, before, Option.any_some, endKind]
    rfl
  obtain ⟨span, isRun⟩ := run_verbatimRest_of_shows tape.current.span isPrevious shownBehind
  have reads : (verbatim tape.current.span).run tape.advance.advance =
      (verbatimRest tape.current.span).run tape.advance.advance.advance := by
    have same : verbatim tape.current.span =
        (expectBlockEnd >>= fun _ => verbatimRest tape.current.span) := rfl
    rw [same, run_bind, run_expectBlockEnd_of_present present]
  refine ⟨span, ?_⟩
  simp only [nextNode, statement, run_bind, run_peek, startKind, run_peekAhead, Tape.ahead_one,
    nameKind, beq_self_eq_true, if_true, List.contains_nil, Bool.false_eq_true, if_false,
    run_closesEnclosing, outermost, List.any_nil, run_advance, run_atKind, lexeme, isOwn, builtin,
    run_map, reads, isRun, run_pure]
  rw [List.append_assoc, Tape.past_append tape (opening.words "raw")]
  rfl

/-- The tag of a verbatim body, the body and the tag that ends it form one statement without a
report, whatever the body holds and however the tags are written. It holds the body itself, without
the blanks at its head if the end of the first tag is marked, and without those at its end if the
beginning of the second tag is. -/
theorem parse_verbatimText {register : Register} (isOwn : extensionFor? register "raw" = none)
    (name : String) (isBody : IsVerbatimBody body) (opening closing : TagStyle) :
    ∃ span, (parse register name (verbatimText opening body closing)).template.body =
        [.verbatim (trimmed opening.marksBack closing.marksFront (String.ofList body)) span] ∧
      (parse register name (verbatimText opening body closing)).problems = [] := by
  obtain ⟨words, quiet⟩ := scan_verbatimText isBody opening closing
  obtain ⟨init, ending, isKept, isInit, isEnding⟩ := List.map_eq_append_iff.mp words
  obtain ⟨last, rfl, isLast⟩ := List.map_eq_singleton_iff.mp isEnding
  have isEnd : last.kind = .endOfInput := congrArg Word.kind isLast
  obtain ⟨first, rest, areTokens, isTape⟩ := ofTokens_of_kept isKept isEnd
  have holds : (Tape.mk none first rest [[]] #[]).current ::
      (Tape.mk none first rest [[]] #[]).following = init ++ [last] := areTokens.symm
  obtain ⟨shown, atLast, _⟩ := Tape.shows_of_tokens holds
  rw [isInit] at shown atLast
  obtain ⟨span, isTurn⟩ := run_nextNode_of_verbatim (nestedBody register rest.length) isOwn rfl
    shown ⟨#[], none⟩
  have shorter : ((Tape.mk none first rest [[]] #[]).past (opening.words "raw" ++
      Token.bodyWords body ++ closing.words "endraw")).following.length < rest.length := by
    have passed := shown.length_following
    rw [List.length_append, List.length_append] at passed
    have three : (closing.words "endraw").length = 3 := rfl
    dsimp only at passed
    omega
  have settles := run_loop_of_settles (.again isTurn shorter
    (.done (run_nextNode_of_end (atLast ▸ isEnd) _)))
  refine ⟨span, ?_, ?_⟩
  · simp only [parse, parseTokens, isTape, run_template, run_body, run_bodyAround, settles]
    rfl
  · simp only [parse, parseTokens, isTape, run_template, run_body, run_bodyAround, settles, quiet,
      Tape.problems_past, List.nil_append]

end Stencil.Grammar
