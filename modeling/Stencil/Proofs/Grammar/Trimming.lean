import Stencil.Proofs.Grammar.Lone
import Stencil.Proofs.Grammar.Segment

/-!
Contract: the statements of a text between two tags that may take blanks off it.

Owns:
- a sequence of statements without the blanks at its ends;
- a turn of a body adds text exactly where it finds text under the head.

Does not own: templates between two tags (`Stencil.Proofs.Grammar.Edges`).
-/

set_option autoImplicit false

-- The readers of tags are long chains of actions, each of which counts.
set_option synthInstance.maxSize 1024

namespace Stencil.Text

theorem dropBlanksAtEnd_cons (c : Char) (text : List Char) :
    dropBlanksAtEnd (c :: text) =
      if dropBlanksAtEnd text = [] then if isBlank c then [] else [c]
      else c :: dropBlanksAtEnd text := by
  rw [dropBlanksAtEnd, dropBlanksAtEnd, List.reverse_cons, List.dropWhile_append]
  cases isBack : text.reverse.dropWhile isBlank with
  | nil =>
      by_cases blank : isBlank c = true <;> simp [blank]
  | cons last rest => simp

/-- Blanks may be taken off the two ends of a text in any order. -/
theorem dropBlanks_comm (text : List Char) :
    dropBlanksAtEnd (text.dropWhile isBlank) = (dropBlanksAtEnd text).dropWhile isBlank := by
  induction text with
  | nil => rfl
  | cons c text inductionHypothesis =>
      by_cases blank : isBlank c = true
      · rw [List.dropWhile_cons_of_pos blank, inductionHypothesis, dropBlanksAtEnd_cons, if_pos blank]
        split
        · rename_i isEmpty
          rw [isEmpty]
        · rw [List.dropWhile_cons_of_pos blank]
      · rw [List.dropWhile_cons_of_neg blank, dropBlanksAtEnd_cons, if_neg blank]
        split <;> rw [List.dropWhile_cons_of_neg blank]

theorem trimEnd_trimStart (text : String) : trimEnd (trimStart text) = trimStart (trimEnd text) := by
  rw [trimEnd, trimStart, trimStart, trimEnd, String.toList_ofList, String.toList_ofList,
    dropBlanks_comm]

end Stencil.Text

namespace Stencil.Grammar

open Stencil.Syntax
open Stencil.Text (Span)
open Stencil.Token (Kind Region)
open Read Statement

/-! ### Statements without blanks at their ends -/

/-- A statement without the blanks at its ends, if it is text; nothing if nothing is left of it. -/
def trimText (front back : Bool) : Node → List Node
  | .text content span =>
      let content := trimmed front back content
      if content.isEmpty then [] else [.text content span]
  | node => [node]

def trimFirst : List Node → List Node
  | [] => []
  | node :: rest => trimText true false node ++ rest

def trimLast (nodes : List Node) : List Node :=
  nodes.dropLast ++ nodes.getLast?.toList.flatMap (trimText false true)

/-- Statements between two tags, of which the one in front takes blanks off the text behind it, or
the one behind them off the text in front of it, or both or none of them. -/
def between (front back : Bool) (nodes : List Node) : List Node :=
  let nodes := if front then trimFirst nodes else nodes
  if back then trimLast nodes else nodes

theorem between_unmarked (nodes : List Node) : between false false nodes = nodes := rfl

theorem trimText_unplaced (front back : Bool) (node : Node) :
    (trimText front back node).map Node.unplaced = trimText front back node.unplaced := by
  cases node with
  | text content span =>
      simp only [trimText, Node.unplaced]
      split <;> rfl
  | _ => rfl

theorem trimFirst_unplaced (nodes : List Node) :
    (trimFirst nodes).map Node.unplaced = trimFirst (nodes.map Node.unplaced) := by
  cases nodes with
  | nil => rfl
  | cons node rest => simp [trimFirst, trimText_unplaced]

theorem trimLast_concat (nodes : List Node) (node : Node) :
    trimLast (nodes ++ [node]) = nodes ++ trimText false true node := by
  simp [trimLast]

theorem trimLast_unplaced (nodes : List Node) :
    (trimLast nodes).map Node.unplaced = trimLast (nodes.map Node.unplaced) := by
  rcases List.eq_nil_or_concat nodes with rfl | ⟨init, node, rfl⟩
  · rfl
  · rw [List.concat_eq_append, trimLast_concat, List.map_append, List.map_append,
      List.map_singleton, trimLast_concat, trimText_unplaced]

theorem SameNodes.between {nodes twins : List Node} (same : SameNodes nodes twins)
    (front back : Bool) : SameNodes (between front back nodes) (between front back twins) := by
  unfold SameNodes Upto Grammar.between at *
  dsimp only
  cases front <;> cases back <;>
    simp only [Bool.false_eq_true, if_true, if_false, trimLast_unplaced, trimFirst_unplaced, same]

/-! ### Text -/

/-- Text as a statement; none if there is nothing. -/
def textOf (content : String) (span : Span) : Option Node :=
  if content.isEmpty then none else some (.text content span)

/-- The statement of a token of text. -/
def textNode (front back : Bool) (token : Token) : Option Node :=
  textOf (trimmed front back token.lexeme) token.span

theorem run_text (tape : Tape) :
    text.run tape = (textNode tape.trims tape.trimsEnd tape.current, tape.advance) := rfl

theorem toList_textOf (front back : Bool) (content : String) (span : Span) :
    (textOf (trimmed front back content) span).toList =
      (textOf content span).toList.flatMap (trimText front back) := by
  have nothing : trimmed front back "" = "" := by cases front <;> cases back <;> rfl
  unfold textOf
  by_cases isEmpty : content.isEmpty = true
  · rw [if_pos isEmpty, String.isEmpty_iff.mp isEmpty, nothing]
    rfl
  · rw [if_neg isEmpty, Option.toList_some, List.flatMap_singleton, trimText]
    split <;> rfl

theorem textNode_back (front : Bool) (token : Token) :
    (textNode front true token).toList =
      (textNode front false token).toList.flatMap (trimText false true) := by
  have same : trimmed front true token.lexeme =
      trimmed false true (trimmed front false token.lexeme) := by
    cases front <;> rfl
  rw [textNode, textNode, same, toList_textOf]

theorem textNode_front (back : Bool) (token : Token) :
    (textNode true back token).toList =
      (textNode false back token).toList.flatMap (trimText true false) := by
  have same : trimmed true back token.lexeme =
      trimmed true false (trimmed false back token.lexeme) := by
    cases back with
    | false => rfl
    | true => exact Text.trimEnd_trimStart token.lexeme
  rw [textNode, textNode, same, toList_textOf]

/-- Text of which nothing is left has had blanks taken off at the front, or at the back. -/
theorem isSome_textNode {token : Token} (nonempty : token.lexeme ≠ "") :
    (textNode false false token).isSome = true := by
  have notEmpty : ¬token.lexeme.isEmpty = true := mt String.isEmpty_iff.mp nonempty
  rw [textNode, textOf, show trimmed false false token.lexeme = token.lexeme from rfl,
    if_neg notEmpty]
  rfl

/-! ### What is no text -/

/-- Whether a statement is anything but text. -/
def NotText (node : Node) : Prop := ∀ content span, node ≠ .text content span

theorem trimText_of_notText {node : Node} (notText : NotText node) (front back : Bool) :
    trimText front back node = [node] := by
  cases node with
  | text content span => exact absurd rfl (notText content span)
  | _ => rfl

section Statements

variable {reader : BodyReader} {start : Span}

theorem notText_spanned {build : Span → Node} (notText : ∀ span, NotText (build span)) :
    Yields NotText (do return build (← spanFrom start)) :=
  .behind fun span => yields_pure (notText span)

theorem notText_closed {build : List Node → Span → Node} {ending tag : String}
    (notText : ∀ nodes span, NotText (build nodes span)) :
    Yields NotText (do
      let nodes ← closedBody reader ending tag start
      return build nodes (← spanFrom start)) :=
  .behind fun nodes => notText_spanned (notText nodes)

theorem notText_assign : Yields NotText (assign reader start) := by
  refine .behind fun _ => .behind fun _ => yields_ite ?_ ?_
  · exact .behind fun _ => .behind fun _ => notText_spanned fun _ _ _ isText => by cases isText
  · exact .behind fun _ => .behind fun _ => notText_closed fun _ _ _ _ isText => by cases isText

theorem notText_importNames : Yields NotText (importNames start) := by
  have ended (build : Option Bool → Span → Node)
      (notText : ∀ context span, NotText (build context span)) :
      Yields NotText (do
        let context ← contextClause?
        expectBlockEnd
        return build context (← spanFrom start)) :=
    .behind fun context => .behind fun _ => notText_spanned (notText context)
  refine .behind fun _ => .behind fun _ => .behind fun _ => yields_ite (.behind fun _ => ?_) ?_
  · exact ended _ fun _ _ _ _ isText => by cases isText
  · exact ended _ fun _ _ _ _ isText => by cases isText

theorem notText_verbatim : Yields NotText (verbatim start) := by
  have ended (content : String) : Yields NotText (verbatimEnd content start) :=
    .behind fun _ => .behind fun _ => yields_ite
      (.behind fun _ => notText_spanned fun _ _ _ isText => by cases isText)
      (.behind fun _ => notText_spanned fun _ _ _ isText => by cases isText)
  refine .behind fun _ => fun tape => ?_
  show NotText ((verbatimRest start).run tape).1
  rw [run_verbatimRest]
  split
  · exact ended _ _
  · exact ended _ _

/-- No statement of the language is text. -/
theorem notText_builtin {name : String} (known : name ∈ builtinTags) :
    Yields (fun node => ∃ made, node = some made ∧ NotText made) (builtin reader name start) := by
  have made {action : Read Node} (yields : Yields NotText action) :
      Yields (fun node => ∃ made, node = some made ∧ NotText made) (some <$> action) :=
    fun tape => ⟨_, rfl, yields tape⟩
  unfold builtin
  split
  · rw [choose_eq]
    exact made (.behind fun _ => .behind fun _ => notText_spanned fun _ _ _ isText => by cases isText)
  · rw [each_eq]
    exact made (.behind fun _ => .behind fun _ => .behind fun _ =>
      notText_spanned fun _ _ _ isText => by cases isText)
  · exact made notText_assign
  · rw [block_eq]
    exact made (.behind fun _ => notText_closed fun _ _ _ _ isText => by cases isText)
  · exact made (.behind fun _ => .behind fun _ => notText_spanned fun _ _ _ isText => by cases isText)
  · exact made (.behind fun _ => .behind fun _ => .behind fun _ =>
      notText_spanned fun _ _ _ isText => by cases isText)
  · exact made (.behind fun _ => .behind fun _ => .behind fun _ => .behind fun _ => .behind fun _ =>
      notText_spanned fun _ _ _ isText => by cases isText)
  · exact made notText_importNames
  · rw [define_eq]
    exact made (.behind fun _ => notText_closed fun _ _ _ _ isText => by cases isText)
  · rw [callBlock_eq]
    exact made (.behind fun _ => notText_closed fun _ _ _ _ isText => by cases isText)
  · rw [withBlock_eq]
    exact made (.behind fun _ => notText_closed fun _ _ _ _ isText => by cases isText)
  · rw [filterBlock_eq]
    exact made (.behind fun _ => notText_closed fun _ _ _ _ isText => by cases isText)
  · exact made notText_verbatim
  · simp_all [builtinTags]

theorem notText_statement [∀ endings, Steady (reader endings)] {tape : Tape}
    (quiet : ((statement .empty reader).run tape).2.problems = tape.problems) :
    ∃ node, ((statement .empty reader).run tape).1 = some node ∧ NotText node := by
  by_cases isName : tape.advance.current.kind = .name
  · by_cases known : tape.advance.current.lexeme ∈ builtinTags
    · have isWord : wordOf tape.advance.current = .name tape.advance.current.lexeme := by
        rw [wordOf, isName]
        rfl
      rw [run_statement_of_name isWord]
      exact notText_builtin known _
    · exact absurd quiet (reports_statement isName known)
  · exfalso
    have reports : Reports tape.advance (do
        expected "tag name"
        expectBlockEnd
        return none : Read (Option Node)) := (Reports.expected _).bind
    rw [Reports, Tape.problems_advance] at reports
    apply reports
    rw [statement_empty] at quiet
    simp only [run_bind, run_advance, run_atKind, beq_eq_false_iff_ne.mpr isName] at quiet
    exact quiet

variable [∀ endings, Steady (reader endings)] {endings : List String} {body next : Body}
  {tape middle : Tape}

/-- A turn that goes on at a tag reads a statement. -/
theorem again_statement (quiet : middle.problems = tape.problems)
    (turn : (do return Turn.again (body.add (← statement .empty reader))).run tape =
      (.again next, middle)) :
    ∃ node, NotText node ∧ next = body.add (some node) := by
  rw [run_bind] at turn
  obtain ⟨isNext, isMiddle⟩ := Prod.ext_iff.mp turn
  have isMiddle : ((statement .empty reader).run tape).2 = middle := isMiddle
  have quietStatement : ((statement .empty reader).run tape).2.problems = tape.problems := by
    rw [isMiddle, quiet]
  obtain ⟨node, isNode, notText⟩ := notText_statement quietStatement
  refine ⟨node, notText, ?_⟩
  rw [← isNode]
  exact (Turn.again.inj isNext).symm

/-- A turn that goes on without a report adds the text under the head, or else a statement that is
no text. -/
theorem again_nextNode (quiet : middle.problems = tape.problems)
    (turn : (nextNode .empty reader endings body).run tape = (.again next, middle)) :
    (tape.current.kind = .text ∧ middle = tape.advance ∧
        next = body.add (textNode tape.trims tape.trimsEnd tape.current)) ∨
      tape.current.kind ≠ .text ∧ ∃ node, NotText node ∧ next = body.add (some node) := by
  by_cases isText : tape.current.kind = .text
  · rw [run_nextNode_of_textKind isText] at turn
    cases turn
    exact .inl ⟨isText, rfl, rfl⟩
  · refine .inr ⟨isText, ?_⟩
    have here := turn
    rw [nextNode, run_bind, run_peek] at here
    dsimp only at here
    split at here
    · cases here
    · contradiction
    · rw [run_bind, run_pure] at here
      exact ⟨_, fun _ _ isText => (by cases isText), (Turn.again.inj (Prod.mk.inj here).1).symm⟩
    · rw [run_bind, run_pure] at here
      exact ⟨_, fun _ _ isText => (by cases isText), (Turn.again.inj (Prod.mk.inj here).1).symm⟩
    · rename_i trim isStart
      by_cases isName : tape.advance.current.kind = .name
      · have isWord : wordOf tape.advance.current = .name tape.advance.current.lexeme := by
          rw [wordOf, isName]
          rfl
        rw [run_nextNode_at_tag isStart isWord] at turn
        split at turn
        · cases turn
        · split at turn
          · cases turn
          · exact again_statement quiet turn
      · rw [run_bind, run_peekAhead, Tape.ahead_one, beq_eq_false_iff_ne.mpr isName] at here
        exact again_statement quiet here
    · exfalso
      have reports : Reports tape (do
          mistake (.unexpected tape.current.describe) tape.current.span
          let _ ← advance
          return Turn.again body) := (Reports.mistake _ _).bind
      apply reports
      rw [here, quiet]

end Statements

end Stencil.Grammar
