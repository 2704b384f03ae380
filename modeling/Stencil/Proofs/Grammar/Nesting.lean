import Stencil.Proofs.Grammar.Body
import Stencil.Proofs.Grammar.Printed

/-!
Contract: bodies read back statement by statement, up to their closing tags.

Owns:
- tapes on which nothing takes blanks off, and where bodies wait for closing tags of the language;
- the turns that text, comments, closing tags and other tags of the language lead to;
- a body is given back where each of its statements is.

Does not own: that the statements are (`Stencil.Proofs.Grammar.Statement`).
-/

set_option autoImplicit false

namespace Stencil.Grammar

open Stencil.Syntax
open Stencil.Text (Span)
open Stencil.Token (Kind)
open Read Statement

def closingTags : List String :=
  ["elif", "else", "endif", "endfor", "endset", "endblock", "endmacro", "endcall", "endwith",
    "endfilter"]

/-- Whether a token takes no blanks off the text next to it. -/
def Tidy (kind : Kind) : Prop := kind.trimsBefore = false ∧ kind.trimsAfter = false

namespace Tape

/-- Whether no token takes blanks off, and every open body waits for closing tags only. -/
structure Quiet (tape : Tape) : Prop where
  waiting : ∀ endings ∈ tape.enclosing, endings ⊆ closingTags
  before : ∀ token ∈ tape.previous, Tidy token.kind
  head : Tidy tape.current.kind
  behind : ∀ token ∈ tape.following, Tidy token.kind

theorem Quiet.advance {tape : Tape} (quiet : tape.Quiet) : tape.advance.Quiet := by
  obtain ⟨previous, current, following, enclosing, problems⟩ := tape
  cases following with
  | nil => exact quiet
  | cons next rest =>
      refine ⟨quiet.waiting, fun token isPrevious => ?_, quiet.behind _ List.mem_cons_self,
        fun token member => quiet.behind _ (List.mem_cons_of_mem _ member)⟩
      rw [← Option.some.inj isPrevious]
      exact quiet.head

theorem Quiet.past {tape : Tape} (quiet : tape.Quiet) (words : List Word) :
    (tape.past words).Quiet := by
  induction words generalizing tape with
  | nil => exact quiet
  | cons word words inductionHypothesis => exact inductionHypothesis quiet.advance

/-- The tape inside a body that waits for the closing tags. -/
def inside (tape : Tape) (endings : List String) : Tape :=
  { tape with enclosing := endings :: tape.enclosing }

theorem Quiet.inside {tape : Tape} (quiet : tape.Quiet) {endings : List String}
    (closing : endings ⊆ closingTags) : (tape.inside endings).Quiet := by
  refine ⟨fun waiting member => ?_, quiet.before, quiet.head, quiet.behind⟩
  rcases List.mem_cons.mp member with rfl | memberOuter
  · exact closing
  · exact quiet.waiting _ memberOuter

theorem advance_inside (tape : Tape) (endings : List String) :
    (tape.inside endings).advance = tape.advance.inside endings := by
  obtain ⟨previous, current, following, enclosing, problems⟩ := tape
  cases following <;> rfl

theorem past_inside (tape : Tape) (endings : List String) (words : List Word) :
    (tape.inside endings).past words = (tape.past words).inside endings := by
  induction words generalizing tape with
  | nil => rfl
  | cons word words inductionHypothesis =>
      rw [past_cons, past_cons, advance_inside, inductionHypothesis]

theorem shows_inside (tape : Tape) (endings : List String) (words : List Word) :
    (tape.inside endings).Shows words ↔ tape.Shows words := by
  induction words generalizing tape with
  | nil => exact Iff.rfl
  | cons word words inductionHypothesis =>
      rw [shows_cons, shows_cons, advance_inside, inductionHypothesis]
      exact Iff.rfl

end Tape

/-! ### Turns -/

variable {register : Register} {inner : BodyReader} {endings : List String} {tape : Tape}

/-- Text is read as it is where nothing takes blanks off. -/
theorem run_nextNode_of_text (quiet : tape.Quiet) (isText : tape.current.kind = .text)
    (nonempty : tape.current.lexeme ≠ "") (sofar : Body) :
    (nextNode register inner endings sofar).run tape =
      (.again (sofar.add (some (.text tape.current.lexeme tape.current.span))), tape.advance) := by
  have before : tape.previous.any (·.kind.trimsAfter) = false := by
    cases isPrevious : tape.previous with
    | none => rfl
    | some token => exact (quiet.before token isPrevious).2
  have after : tape.following.head?.any (·.kind.trimsBefore) = false := by
    cases isFollowing : tape.following with
    | nil => rfl
    | cons next rest => exact (quiet.behind next (by rw [isFollowing]; exact List.mem_cons_self)).1
  have present : tape.current.lexeme.isEmpty = false := by
    simpa [String.isEmpty_iff] using nonempty
  simp only [nextNode, run_bind, run_peek, isText, text, trimmedText, run_get, before, after,
    Bool.false_eq_true, if_false, run_advance, run_pure, present]

theorem run_nextNode_of_comment {trimBefore trimAfter : Bool}
    (isComment : tape.current.kind = .comment trimBefore trimAfter) (sofar : Body) :
    (nextNode register inner endings sofar).run tape =
      (.again (sofar.add (some (.comment
        (commentContent tape.current.lexeme trimBefore trimAfter) tape.current.span))),
        tape.advance) := by
  simp only [nextNode, run_bind, run_peek, isComment, comment, run_advance, run_pure]

/-- A body stops before a closing tag it waits for. -/
theorem run_nextNode_of_ending {ending : String} (member : ending ∈ endings) {trim : Bool}
    (opens : tape.current.kind = .blockStart trim)
    (isEnding : wordOf tape.advance.current = .name ending) (sofar : Body) :
    (nextNode register inner endings sofar).run tape =
      (.done { sofar with found := some ending }, tape) := by
  have isName : (tape.advance.current.kind == .name) = true :=
    beq_iff_eq.mpr (congrArg Word.kind isEnding)
  have isLexeme : tape.advance.current.lexeme = ending := congrArg Word.lexeme isEnding
  have contained : endings.contains ending = true := List.contains_iff_mem.mpr member
  simp only [nextNode, run_bind, run_peek, opens, run_peekAhead, Tape.ahead_one, isName, isLexeme,
    contained, if_true, run_pure]

theorem not_closing_of_builtin {tag : String} (isTag : tag ∈ builtinTags) : tag ∉ closingTags := by
  revert tag
  decide

/-- A tag of the language is read as its statement, whatever the bodies around it wait for. -/
theorem run_nextNode_of_tag (keeps : register.allowOverride = false) (quiet : tape.Quiet)
    (closing : endings ⊆ closingTags) {tag : String} (isTag : tag ∈ builtinTags) {trim : Bool}
    (opens : tape.current.kind = .blockStart trim)
    (isName : wordOf tape.advance.current = .name tag) (sofar : Body) :
    (nextNode register inner endings sofar).run tape =
      (.again (sofar.add ((builtin inner tag tape.current.span).run tape.advance.advance).1),
        ((builtin inner tag tape.current.span).run tape.advance.advance).2) := by
  have notClosing := not_closing_of_builtin isTag
  have isNameKind : tape.advance.current.kind = .name := congrArg Word.kind isName
  have isLexeme : tape.advance.current.lexeme = tag := congrArg Word.lexeme isName
  have notEnding : ¬ endings.contains tag = true :=
    fun contained => notClosing (closing (List.contains_iff_mem.mp contained))
  have notEnclosing : ¬ tape.enclosing.tail.any (·.contains tag) = true := by
    intro found
    obtain ⟨waiting, member, contained⟩ := List.any_eq_true.mp found
    exact notClosing
      (quiet.waiting _ (List.mem_of_mem_tail member) (List.contains_iff_mem.mp contained))
  have noExtension : extensionFor? register tag = none := by
    rw [extensionFor?, List.contains_iff_mem.mpr isTag, keeps]
    rfl
  have reads : (statement register inner).run tape =
      (builtin inner tag tape.current.span).run tape.advance.advance := by
    simp only [statement, run_bind, run_advance, run_atKind, beq_iff_eq.mpr isNameKind, if_true,
      isLexeme, noExtension]
  simp only [nextNode, run_bind, run_peek, opens, run_peekAhead, Tape.ahead_one,
    beq_iff_eq.mpr isNameKind, if_true, isLexeme, if_neg notEnding, run_closesEnclosing,
    if_neg notEnclosing, reads, run_pure]

theorem run_finishTag {ending : String} (shown : tape.Shows (blockTag ending []).words) :
    finishTag.run tape = ((), tape.past (blockTag ending []).words) := by
  have atEnd : tape.advance.advance.current.kind = .blockEnd false := shown.tail.tail.kind
  have notName : (tape.advance.advance.current.kind == .name) = false := by
    rw [atEnd]
    rfl
  have closes : tape.advance.advance.current.kind.isTagEnd = true := by
    rw [atEnd]
    rfl
  simp only [finishTag, openTag, run_bind, run_advance, run_pure, run_peekAhead, run_atKind,
    notName, Bool.false_and, Bool.false_eq_true, if_false, run_expectBlockEnd_of_present closes]
  rfl

/-! ### Bodies -/

def nodeWords (node : Node) : List Word := node.fragments.flatMap Fragment.words

def bodyWords (body : List Node) : List Word := (bodyFragments body).flatMap Fragment.words

theorem bodyWords_cons (node : Node) (rest : List Node) :
    bodyWords (node :: rest) = nodeWords node ++ bodyWords rest := by
  rw [bodyWords, bodyFragments, List.flatMap_append]
  rfl

/-- Whether a turn gives the statement back, up to its places, wherever its words stand in a body
of the language. -/
def GivesNode (register : Register) (inner : BodyReader) (node : Node) : Prop :=
  ∀ tape : Tape, tape.Quiet → tape.Shows (nodeWords node) → ∀ endings, endings ⊆ closingTags →
    ∀ sofar : Body, ∃ value, value.unplaced = node.unplaced ∧
      (nextNode register inner endings sofar).run tape =
        (.again (sofar.add (some value)), tape.past (nodeWords node))

/-- Whether the reader gives the body back, up to its places, wherever a closing tag that it waits
for stands behind the words. -/
def GivesBody (reader : BodyReader) (body : List Node) : Prop :=
  ∀ tape : Tape, tape.Quiet → ∀ endings, endings ⊆ closingTags → ∀ ending ∈ endings,
    ∀ words, tape.Shows (bodyWords body ++ (blockTag ending words).words) →
      ∃ values, values.map Node.unplaced = body.map Node.unplaced ∧
        (reader endings).run tape = ((values, some ending), tape.past (bodyWords body))

/-- Every statement that is printed has at least one word. -/
theorem nodeWords_ne_nil {node : Node} (layOut : LaysOut node) : nodeWords node ≠ [] := by
  rw [nodeWords]
  cases areFragments : node.fragments with
  | nil => exact (layOut.nonempty areFragments).elim
  | cons fragment fragments =>
      cases fragment <;> exact List.cons_ne_nil _ _

/-- The turns of a body's loop read its statements one by one. -/
theorem settles_nodes {body : List Node} (layOut : ∀ node ∈ body, LaysOut node)
    (given : ∀ node ∈ body, GivesNode register inner node) (closing : endings ⊆ closingTags)
    {found : Option String} (quiet : tape.Quiet) (shown : tape.Shows (bodyWords body))
    (last : ∀ nodes, (nextNode register inner endings ⟨nodes, none⟩).run
      (tape.past (bodyWords body)) = (.done ⟨nodes, found⟩, tape.past (bodyWords body)))
    (before : Array Node) :
    ∃ values : List Node, values.map Node.unplaced = body.map Node.unplaced ∧
      Settles (nextNode register inner endings) ⟨before, none⟩ tape
        ⟨before ++ values.toArray, found⟩ (tape.past (bodyWords body)) := by
  induction body generalizing tape before with
  | nil =>
      refine ⟨[], rfl, .done ?_⟩
      rw [Array.append_empty]
      exact last before
  | cons node rest inductionHypothesis =>
      rw [bodyWords_cons] at shown
      obtain ⟨shownNode, shownRest⟩ := (Tape.shows_append _ _ _).mp shown
      rw [bodyWords_cons, Tape.past_append] at last ⊢
      obtain ⟨value, same, turns⟩ := given node List.mem_cons_self tape quiet shownNode endings
        closing ⟨before, none⟩
      obtain ⟨values, sameRest, settles⟩ := inductionHypothesis
        (fun other member => layOut other (List.mem_cons_of_mem _ member))
        (fun other member => given other (List.mem_cons_of_mem _ member))
        (quiet.past _) shownRest last (before ++ #[value])
      refine ⟨value :: values, by rw [List.map_cons, same, sameRest, List.map_cons], ?_⟩
      have joined : before ++ #[value] ++ values.toArray = before ++ (value :: values).toArray := by
        simp
      have shorter : (tape.past (nodeWords node)).following.length < tape.following.length := by
        have passed := shownNode.length_following
        have positive := List.length_pos_iff.mpr
          (nodeWords_ne_nil (layOut node List.mem_cons_self))
        omega
      rw [joined] at settles
      exact .again turns shorter settles

/-- A body is given back where each of its statements is, one nesting less deep. -/
theorem givesBody_bodyAround {body : List Node} (layOut : ∀ node ∈ body, LaysOut node)
    (given : ∀ node ∈ body, GivesNode register inner node) :
    GivesBody (bodyAround register inner) body := by
  intro tape quiet endings closing ending member words shown
  obtain ⟨shownBody, shownEnding⟩ := (Tape.shows_append _ _ _).mp shown
  have opens : (tape.past (bodyWords body)).current.kind = .blockStart false := shownEnding.kind
  have isEnding : wordOf (tape.past (bodyWords body)).advance.current = .name ending :=
    shownEnding.tail.1
  have last (nodes : Array Node) :
      (nextNode register inner endings ⟨nodes, none⟩).run
        ((tape.inside endings).past (bodyWords body)) =
        (.done ⟨nodes, some ending⟩, (tape.inside endings).past (bodyWords body)) := by
    rw [Tape.past_inside]
    have opensInside : ((tape.past (bodyWords body)).inside endings).current.kind =
        .blockStart false := opens
    exact run_nextNode_of_ending member opensInside
      (by rw [Tape.advance_inside]; exact isEnding) _
  obtain ⟨values, same, settles⟩ := settles_nodes layOut given closing (quiet.inside closing)
    ((Tape.shows_inside _ _ _).mpr shownBody) last #[]
  refine ⟨values, same, ?_⟩
  have run := run_loop_of_settles settles
  rw [Tape.past_inside] at run
  simp only [Tape.inside] at run
  have outside (behind : Tape) (kept : behind.enclosing = tape.enclosing) :
      { behind with enclosing := tape.enclosing } = behind := by
    rw [← kept]
  rw [run_bodyAround]
  simp only [run, Array.empty_append]
  rw [outside _ (Tape.enclosing_past tape _)]

end Stencil.Grammar
