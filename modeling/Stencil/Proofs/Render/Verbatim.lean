import Stencil.Proofs.Grammar.Verbatim
import Stencil.Proofs.Render.Standing
import Stencil.Render.Outcome

/-!
Contract: a verbatim body is printed as it stands.

Owns:
- rendering a template that is one statement, and one that is a verbatim statement;
- a verbatim body between its two tags, from the text to what it renders to.

Does not own: how the text is read (`Stencil.Proofs.Grammar.Verbatim`).
-/

set_option autoImplicit false

namespace Stencil.Render

open Stencil.Grammar (Register parse parse_verbatimText trimmed)
open Stencil.Grammar.Statement (extensionFor?)
open Stencil.Host (Environment Shelf)
open Stencil.Syntax (Node Template)
open Stencil.Text (Span)
open Stencil.Token (IsVerbatimBody TagStyle verbatimText)

/-- A template of one statement that gives a text and changes nothing gives that text and reports
nothing, as long as the render may take a step. -/
theorem render_lone {environment : Environment} (mayStep : environment.maxSteps ≠ some 0)
    {template : Template} {node : Node} (isBody : template.body = [node])
    (noParent : template.parent? = none) (noMacros : Host.macroTable template.body = [])
    {content : String} {depth : Nat}
    (gives : ∀ state, (Action.carryOut node).perform environment (belowDepth environment depth) state =
      some (content, state))
    (context : Table Value) (shelf : Shelf) :
    renderTemplateWithin (depth + 1) environment template context shelf =
      some ⟨content, [], shelf⟩ := by
  -- The statement takes the first step of the render.
  have ticks (state : State) (fresh : state.steps = 0) (running : state.halted = false) :
      state.tick environment.maxSteps node.span = (true, { state with steps := 1 }) := by
    unfold State.tick
    rw [running, fresh]
    cases isLimit : environment.maxSteps with
    | none => rfl
    | some limit =>
        have positive : 1 ≤ limit := by
          apply Nat.one_le_iff_ne_zero.mpr
          rintro rfl
          exact mayStep isLimit
        simp [positive]
  have prints (state : State) (fresh : state.steps = 0) (running : state.halted = false) :
      (belowDepth environment (depth + 1)).render template.body state =
        some (content, { state with steps := 1 }) := by
    rw [isBody]
    show renderAll _ _ _ _ = _
    rw [renderAll_cons, ticks state fresh running, if_pos rfl, gives]
    show some (content ++ "", _) = _
    rw [String.append_empty]
  simp only [renderTemplateWithin, Action.renderTemplate, noMacros, noParent, Action.defineAll, pure,
    bind, Action.andThen, Action.inSetting, Action.textOf, Action.perform_within,
    Action.perform_render]
  rw [prints _ rfl rfl]
  rfl

/-- A template that is one verbatim statement prints what the statement holds. -/
theorem render_verbatim {environment : Environment} (mayStep : environment.maxSteps ≠ some 0)
    {template : Template} {content : String} {span : Span}
    (isBody : template.body = [.verbatim content span]) (depth : Nat) (context : Table Value)
    (shelf : Shelf) :
    renderTemplateWithin (depth + 1) environment template context shelf =
      some ⟨content, [], shelf⟩ := by
  have noParent : template.parent? = none := by
    rw [Template.parent?, isBody]
    rfl
  have noMacros : Host.macroTable template.body = [] := by
    rw [isBody]
    rfl
  exact render_lone mayStep isBody noParent noMacros (fun _ => rfl) context shelf

/-- A verbatim body between its two tags is one piece of text for the scanner and one statement for
the grammar, with nothing reported, and it is printed as it stands: whatever it holds apart from a
tag that ends it, and however the two tags are written. The blanks at its head are taken off if the
end of the first tag is marked, and those at its end if the beginning of the second tag is. -/
theorem verbatim_body_kept {body : List Char} (isBody : IsVerbatimBody body)
    (opening closing : TagStyle) (name : String) :
    let source := verbatimText opening body closing
    let content := trimmed opening.marksBack closing.marksFront (String.ofList body)
    (Token.scan source).problems = [] ∧
      (∀ register : Register, extensionFor? register "raw" = none →
        (∃ span, (parse register name source).template.body = [.verbatim content span]) ∧
          (parse register name source).problems = []) ∧
      ∀ environment : Environment, extensionFor? environment.tags "raw" = none →
        environment.maxSteps ≠ some 0 → ∀ depth context shelf,
          renderTextWithin (depth + 1) environment name source context shelf =
            some ⟨content, [], shelf⟩ := by
  refine ⟨(Token.scan_verbatimText isBody opening closing).2, ?_, ?_⟩
  · intro register isOwn
    obtain ⟨span, isTree, quiet⟩ := parse_verbatimText isOwn name isBody opening closing
    exact ⟨⟨span, isTree⟩, quiet⟩
  · intro environment isOwn mayStep depth context shelf
    obtain ⟨span, isTree, quiet⟩ := parse_verbatimText isOwn name isBody opening closing
    simp only [renderTextWithin, Environment.parse, render_verbatim mayStep isTree, quiet,
      Option.map_some, List.nil_append]

/-- A body with a tag in it that almost ends it, and with a literal that is never closed. -/
def nearMiss : List Char := " \x7b%- endraw x -%\x7d\x7b\x7b 'é ".toList

def closeTag : TagStyle := ⟨true, [], [' '], true, rfl, rfl⟩

def looseTag : TagStyle := ⟨false, ['\t'], [], true, by decide, rfl⟩

theorem verbatim_body_kept_near_miss :
    let source := verbatimText closeTag nearMiss looseTag
    source = "\x7b%-raw -%\x7d \x7b%- endraw x -%\x7d\x7b\x7b 'é \x7b%\tendraw-%\x7d" ∧
      IsVerbatimBody nearMiss ∧ extensionFor? Register.empty "raw" = none ∧
      Environment.empty.maxSteps ≠ some 0 ∧
      (∃ span, (parse .empty "page" source).template.body =
        [.verbatim "\x7b%- endraw x -%\x7d\x7b\x7b 'é " span]) ∧
      (parse .empty "page" source).problems = [] ∧
      renderTextWithin 1 .empty "page" source [] .empty =
        some ⟨"\x7b%- endraw x -%\x7d\x7b\x7b 'é ", [], .empty⟩ := by
  have isSource : verbatimText closeTag nearMiss looseTag =
      "\x7b%-raw -%\x7d \x7b%- endraw x -%\x7d\x7b\x7b 'é \x7b%\tendraw-%\x7d" := by
    cbv
  have isContent : trimmed closeTag.marksBack looseTag.marksFront (String.ofList nearMiss) =
      "\x7b%- endraw x -%\x7d\x7b\x7b 'é " := by
    cbv
  have isBody : IsVerbatimBody nearMiss := by decide
  have isOwn : extensionFor? Register.empty "raw" = none := by decide
  have mayStep : Environment.empty.maxSteps ≠ some 0 := by decide
  obtain ⟨_, reads, renders⟩ := verbatim_body_kept isBody closeTag looseTag "page"
  obtain ⟨tree, quiet⟩ := reads .empty isOwn
  have printed := renders .empty isOwn mayStep 0 [] .empty
  rw [isContent] at tree printed
  exact ⟨isSource, isBody, isOwn, mayStep, tree, quiet, printed⟩

end Stencil.Render
