import Stencil.Proofs.Grammar.Joined
import Stencil.Proofs.Render.Verbatim

/-!
Contract: texts written as string literals are printed as they are.

Owns:
- rendering a template that prints one string literal;
- literals that follow one another in a tag, from the text to what it renders to.

Does not own: how the literals are read (`Stencil.Proofs.Grammar.Joined`).
-/

set_option autoImplicit false

namespace Stencil.Render

open Stencil.Grammar (Quotation Register joined parse parse_quotationTag quotationTag
  scan_quotationTag)
open Stencil.Host (Environment Shelf)
open Stencil.Syntax (Template)
open Stencil.Text (Span isBlank)

/-- A template that prints one string literal gives what the literal stands for. -/
theorem render_literal {environment : Environment} (mayStep : environment.maxSteps ≠ some 0)
    {template : Template} {content : String} {literal span : Span}
    (isBody : template.body = [.output (.literal (.text content) literal) span]) (depth : Nat)
    (context : Table Value) (shelf : Shelf) :
    renderTemplateWithin (depth + 2) environment template context shelf =
      some ⟨content, [], shelf⟩ := by
  have noParent : template.parent? = none := by
    rw [Template.parent?, isBody]
    rfl
  have noMacros : Host.macroTable template.body = [] := by
    rw [isBody]
    rfl
  exact render_lone mayStep isBody noParent noMacros (fun _ => rfl) context shelf

/-- Texts that are written as string literals, one after the other between the delimiters that print
a value, are one literal, whatever the texts hold, whichever quotes they are written in and whatever
blanks stand between them. Nothing is reported, and the texts are printed as they are. -/
theorem quotations_printed {lead : List Char} {quotations : List Quotation}
    (lead_blank : lead.all isBlank = true) (nonempty : quotations ≠ []) (name : String) :
    let source := quotationTag lead quotations
    (Token.scan source).problems = [] ∧
      (∀ register : Register, (∃ literal span, (parse register name source).template.body =
          [.output (.literal (.text (joined quotations)) literal) span]) ∧
        (parse register name source).problems = []) ∧
      ∀ environment : Environment, environment.maxSteps ≠ some 0 → ∀ depth context shelf,
        renderTextWithin (depth + 2) environment name source context shelf =
          some ⟨joined quotations, [], shelf⟩ := by
  refine ⟨(scan_quotationTag lead_blank quotations).2, fun register => ?_, ?_⟩
  · obtain ⟨literal, span, isTree, quiet⟩ := parse_quotationTag register name lead_blank nonempty
    exact ⟨⟨literal, span, isTree⟩, quiet⟩
  · intro environment mayStep depth context shelf
    obtain ⟨literal, span, isTree, quiet⟩ :=
      parse_quotationTag environment.tags name lead_blank nonempty
    simp only [renderTextWithin, Environment.parse, render_literal mayStep isTree, quiet,
      Option.map_some, List.nil_append]

/-- Texts with quotes, delimiters, a backslash at the end and characters that have escapes. -/
def awkwardTexts : List Quotation :=
  [⟨'\'', "it's \\".toList, ['\n'], .inl rfl, rfl⟩,
    ⟨'"', "\x7d\x7d\x7b% \"é'".toList, [], .inr rfl, List.all_nil⟩,
    ⟨'\'', "\x00\n".toList, ['\t', ' '], .inl rfl, rfl⟩]

theorem quotations_printed_awkward :
    let source := quotationTag [' '] awkwardTexts
    let content := "it's \\\x7d\x7d\x7b% \"é'\x00\n"
    source = "\x7b\x7b 'it\\'s \\\\'\n\"\x7d\x7d\x7b% \\\"é'\"'\x00\n'\t \x7d\x7d" ∧
      [' '].all isBlank = true ∧ awkwardTexts ≠ [] ∧ Environment.empty.maxSteps ≠ some 0 ∧
      (Token.scan source).problems = [] ∧
      (∃ literal span, (parse .empty "page" source).template.body =
        [.output (.literal (.text content) literal) span]) ∧
      (parse .empty "page" source).problems = [] ∧
      renderTextWithin 2 .empty "page" source [] .empty = some ⟨content, [], .empty⟩ := by
  have isSource : quotationTag [' '] awkwardTexts =
      "\x7b\x7b 'it\\'s \\\\'\n\"\x7d\x7d\x7b% \\\"é'\"'\x00\n'\t \x7d\x7d" := by
    cbv
  have isJoined : joined awkwardTexts = "it's \\\x7d\x7d\x7b% \"é'\x00\n" := by
    cbv
  have leadBlank : [' '].all isBlank = true := by decide
  have nonempty : awkwardTexts ≠ [] := List.cons_ne_nil _ _
  have mayStep : Environment.empty.maxSteps ≠ some 0 := by decide
  obtain ⟨scanned, reads, renders⟩ := quotations_printed leadBlank nonempty "page"
  obtain ⟨tree, quiet⟩ := reads .empty
  have printed := renders .empty mayStep 0 [] .empty
  rw [isJoined] at tree printed
  exact ⟨isSource, leadBlank, nonempty, mayStep, scanned, tree, quiet, printed⟩

end Stencil.Render
