import Stencil.Proofs.Grammar.Body
import Stencil.Proofs.Grammar.Chronology
import Stencil.Proofs.Token.Course

/-!
Contract: what a text gives is in the order of the text.

Owns:
- reports: those about tokens come first, then those about the order of tokens, and each of the two
  groups is in the order of the text up to the late ones;
- the walk through the tree of a text, which comes once to each part but the defaults of a call
  block's parameters, and does not go back in the text.

Does not own: how the grammar reads and reports in order (`Stencil.Proofs.Grammar.Chronology`).
-/

set_option autoImplicit false

namespace Stencil.Grammar

open Stencil.Report (InCourse InTextOrder)
open Stencil.Syntax
open Stencil.Token (Cursor)
open Read Statement

variable {register : Register}

/-! ### Texts -/

/-- The tokens of a text begin one after another, and nothing is reported yet. -/
theorem inOrder_ofTokens_scan (source : String) :
    (Tape.ofTokens (Token.scan source).tokens).InOrder ∧
      (Tape.ofTokens (Token.scan source).tokens).problems = #[] := by
  obtain ⟨tokens, last, first, rest, areTokens, -, isEnd, areReadable, isTape⟩ :=
    ofTokens_scan source
  obtain ⟨stop, -, covers⟩ := Token.covers_scanFrom (Cursor.ofText source)
  have isSublist : (first :: rest).Sublist (Token.scan source).tokens := by
    rw [← areReadable, areTokens]
    exact List.Sublist.append_right List.filter_sublist _
  rw [isTape]
  exact ⟨⟨covers.starts.2.sublist isSublist, kept tokens, last, areReadable.symm, isEnd⟩, rfl⟩

/-- The template that a text forms, and the reports about the order of its tokens. -/
theorem inOrder_parseTokens (generic : register.IsGeneric) (source : String) :
    let parsed := parseTokens register (Token.scan source).tokens
    ∃ low high, InRow low high (parsed.template.body.map .node) ∧
      InCourse low high parsed.problems := by
  obtain ⟨inOrder, silent⟩ := inOrder_ofTokens_scan source
  obtain ⟨⟨-, -, -, more, isMore, inCourse⟩, inRow⟩ := gathers_body generic [] _ inOrder
  simp only [parseTokens, run_template]
  refine ⟨_, _, inRow, ?_⟩
  rw [isMore, silent]
  exact inCourse

/-! ### Reports -/

/-- What is wrong with the tokens of a text is reported before what is wrong with their order. In
each of these groups no report begins earlier in the text than one before it, unless it is a late
one: the end of a tag or of a body is missed where the text goes on without it, and a target is
found to be none where it has been read, but both are reported where they begin. -/
theorem parse_reports_in_course (generic : register.IsGeneric) (name source : String) :
    let ofTokens := (Token.scan source).problems
    let ofGrammar := (parseTokens register (Token.scan source).tokens).problems
    (parse register name source).problems = ofTokens ++ ofGrammar ∧
      InTextOrder ofTokens ∧ InTextOrder ofGrammar := by
  obtain ⟨_, _, -, inCourse⟩ := inOrder_parseTokens generic source
  obtain ⟨_, scanned⟩ := Token.exists_inCourse_scanFrom (Cursor.ofText source)
  exact ⟨rfl, scanned.ordered, inCourse.ordered⟩

/-- A literal and a tag that are never closed in the body of a tag of a host that is not ended. -/
theorem parse_reports_in_course_note :
    let register : Register := ⟨[("note", .enclosing "endnote")], false⟩
    let source := "\x7b% note a %\x7d\x7b% foo %\x7d\x7b\x7b 'abc"
    let ofTokens := (Token.scan source).problems
    let ofGrammar := (parseTokens register (Token.scan source).tokens).problems
    register.IsGeneric ∧ (parse register "page" source).problems = ofTokens ++ ofGrammar ∧
      InTextOrder ofTokens ∧ InTextOrder ofGrammar := by
  intro register source ofTokens ofGrammar
  have generic : register.IsGeneric :=
    List.forall_mem_singleton.mpr (.inr ⟨"endnote", rfl⟩)
  exact ⟨generic, parse_reports_in_course generic "page" source⟩

/-- Late reports step back, those about tokens as well as those about the order of tokens. -/
theorem reports_step_back :
    let source := "\x7b% if a %\x7d\x7b% foo %\x7d\x7b\x7b 'abc"
    ¬((Token.scan source).problems.map (·.span.start.offset)).Pairwise (· ≤ ·) ∧
      ¬((parseTokens .empty (Token.scan source).tokens).problems.map
        (·.span.start.offset)).Pairwise (· ≤ ·) := by
  decide +kernel

/-! ### The walk -/

/-- The walk through the tree of a text comes once to each part of it to which no way leads through
a default of a call block's parameter, whole before inside and first before last. No part that it
comes to begins earlier in the text than one before it; so it is for the parts immediately inside
one. -/
theorem parse_walks_in_order (generic : register.IsGeneric) (name source : String) :
    let body := (parse register name source).template.body
    (∃ listed, listed.map Prod.snd = partsOfNodes body ∧
        Visits listed fun address part =>
          partAt? body address = some part ∧ leadsThroughDefault body address = false) ∧
      ((partsOfNodes body).map Part.start).Pairwise (· ≤ ·) ∧
        ∀ part ∈ partsOfNodes body, (part.visited.map Part.start).Pairwise (· ≤ ·) := by
  intro body
  obtain ⟨_, _, inRow, -⟩ := inOrder_parseTokens generic source
  have ordered : ((partsOfNodes body).map Part.start).Pairwise (· ≤ ·) := by
    rw [partsOfNodes_eq_flatMap, List.map_flatMap]
    exact inRow.ordered
  refine ⟨exists_visits_body body, ordered, fun part member => ?_⟩
  exact ordered.sublist ((visited_sublist_partsOfNodes member).map Part.start)

/-- A tag of a host in the body of a call block; the default of the block's parameter begins at the
offset 10. -/
theorem parse_walks_in_order_note :
    let register : Register := ⟨[("note", .inline)], false⟩
    let source := "\x7b% call(p=1) m(2) %\x7d\x7b% note a if b else c %\x7d\x7b% endcall %\x7d"
    let body := (parse register "page" source).template.body
    register.IsGeneric ∧ (partsOfNodes body).map Part.start = [0, 13, 13, 15, 20, 28, 28, 33, 40] ∧
      (∃ listed, listed.map Prod.snd = partsOfNodes body ∧
          Visits listed fun address part =>
            partAt? body address = some part ∧ leadsThroughDefault body address = false) ∧
        ((partsOfNodes body).map Part.start).Pairwise (· ≤ ·) ∧
          ∀ part ∈ partsOfNodes body, (part.visited.map Part.start).Pairwise (· ≤ ·) := by
  intro register source body
  have generic : register.IsGeneric :=
    List.forall_mem_singleton.mpr (.inl rfl)
  exact ⟨generic, by decide +kernel, parse_walks_in_order generic "page" source⟩

/-- The walk does not come to the default of a call block's parameter. -/
theorem default_overlooked :
    let parsed := parse .empty "page" "\x7b% call(p=1) m() %\x7d\x7b% endcall %\x7d"
    parsed.problems = [] ∧
      ∃ part, partAt? parsed.template.body [0, 0] = some part ∧
        part ∉ partsOfNodes parsed.template.body := by
  intro parsed
  have isThere : (partAt? parsed.template.body [0, 0]).map Part.start = some 10 := by
    decide +kernel
  have isNowhere : ∀ part ∈ partsOfNodes parsed.template.body, part.start ≠ 10 := by
    decide +kernel
  obtain ⟨part, isPart, begins⟩ := Option.map_eq_some_iff.mp isThere
  exact ⟨by decide +kernel, part, isPart, fun member => isNowhere part member begins⟩

end Stencil.Grammar
