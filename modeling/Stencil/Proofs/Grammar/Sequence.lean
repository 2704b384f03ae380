import Stencil.Proofs.Grammar.Shown

/-!
Contract: loops whose turns read one thing after another, with commas between them.

Owns:
- turns that read one thing and the comma behind it;
- the run of such a loop over everything that is shown.

Does not own: what the things are (`Stencil.Proofs.Grammar.Operand`,
`Stencil.Proofs.Grammar.Clause`).
-/

set_option autoImplicit false

namespace Stencil.Grammar

open Stencil.Token (Kind Symbol)
open Read

variable {α β γ : Type}

/-- Whether each turn reads something that the words stand for, and the comma behind it if there is
one. Behind the words there is a comma or what ends the sequence. -/
def TurnReads (turn : List β → Read (Turn (List β))) (ends : Tape → Prop) (words : List Word)
    (means : β → Prop) : Prop :=
  ∀ (before : List β) (tape : Tape), tape.Shows words →
    wordOf (tape.past words).current = .symbol .comma ∨ ends (tape.past words) →
      ∃ value, means value ∧
        (turn before).run tape =
          if (tape.past words).current.kind = .symbol .comma then
            (.again (before ++ [value]), (tape.past words).advance)
          else (.done (before ++ [value]), tape.past words)

/-- A loop of such turns reads every item of a sequence. -/
theorem settles_separated {turn : List β → Read (Turn (List β))} {ends : Tape → Prop}
    {written : α → List Word} {ofItem : α → γ} {ofValue : β → γ} {items : List α}
    (nonempty : items ≠ [])
    (reads : ∀ item ∈ items,
      TurnReads turn ends (written item) fun value => ofValue value = ofItem item)
    (before : List β) {tape : Tape}
    (shown : tape.Shows (Word.separated (.symbol .comma) (items.map written)))
    (ended : ends (tape.past (Word.separated (.symbol .comma) (items.map written))))
    (noComma : (tape.past (Word.separated (.symbol .comma) (items.map written))).current.kind ≠
      .symbol .comma) :
    ∃ values, values.map ofValue = items.map ofItem ∧
      Settles turn before tape (before ++ values)
        (tape.past (Word.separated (.symbol .comma) (items.map written))) := by
  induction items generalizing before tape with
  | nil => contradiction
  | cons item rest inductionHypothesis =>
      have readsItem := reads item List.mem_cons_self
      cases rest with
      | nil =>
          have words : Word.separated (.symbol .comma) ([item].map written) = written item :=
            Word.separated_singleton _ _
          rw [words] at shown ended noComma ⊢
          obtain ⟨value, same, turns⟩ := readsItem before tape shown (Or.inr ended)
          rw [if_neg noComma] at turns
          exact ⟨[value], by rw [List.map_singleton, List.map_singleton, same], .done turns⟩
      | cons next others =>
          have words : Word.separated (.symbol .comma) ((item :: next :: others).map written) =
              written item ++ .symbol .comma ::
                Word.separated (.symbol .comma) ((next :: others).map written) :=
            Word.separated_cons_cons _ _ _ _
          rw [words] at shown
          rw [words, Tape.past_append, Tape.past_cons] at ended noComma ⊢
          have shorter := shown.shorter
          obtain ⟨shownItem, shownRest⟩ := (Tape.shows_append _ _ _).mp shown
          obtain ⟨value, same, turns⟩ := readsItem before tape shownItem (Or.inl shownRest.1)
          rw [if_pos shownRest.isSymbol] at turns
          obtain ⟨values, sameRest, settles⟩ := inductionHypothesis (List.cons_ne_nil _ _)
            (fun other member => reads other (List.mem_cons_of_mem _ member)) (before ++ [value])
            shownRest.tail ended noComma
          rw [List.append_assoc] at settles
          refine ⟨value :: values, ?_, .again turns shorter settles⟩
          rw [List.map_cons, same, sameRest]
          rfl

def Tape.Faces (symbol : Symbol) (tape : Tape) : Prop := wordOf tape.current = .symbol symbol

/-- A loop that stops at a closing bracket reads everything before it. -/
theorem run_loop_enclosed {turn : List β → Read (Turn (List β))} {closing : Symbol}
    {written : α → List Word} {ofItem : α → γ} {ofValue : β → γ} {items : List α}
    (notComma : closing ≠ .comma)
    (stops : ∀ tape : Tape, tape.current.kind = .symbol closing →
      (turn []).run tape = (.done [], tape))
    (reads : ∀ item ∈ items,
      TurnReads turn (Tape.Faces closing) (written item) fun value => ofValue value = ofItem item)
    {tape : Tape} {rest : List Word}
    (shown : tape.Shows
      (Word.separated (.symbol .comma) (items.map written) ++ .symbol closing :: rest)) :
    ∃ values, values.map ofValue = items.map ofItem ∧
      (loop turn []).run tape =
        (values, tape.past (Word.separated (.symbol .comma) (items.map written))) := by
  obtain ⟨shownItems, shownClosing⟩ := (Tape.shows_append _ _ _).mp shown
  by_cases isEmpty : items = []
  · subst isEmpty
    exact ⟨[], rfl, run_loop_of_settles (.done (stops tape shown.isSymbol))⟩
  · have noComma : (tape.past (Word.separated (.symbol .comma) (items.map written))).current.kind ≠
        .symbol .comma := by
      rw [shownClosing.isSymbol]
      exact fun isComma => notComma (Kind.symbol.inj isComma)
    obtain ⟨values, same, settles⟩ :=
      settles_separated isEmpty reads [] shownItems shownClosing.1 noComma
    exact ⟨values, same, run_loop_of_settles settles⟩

end Stencil.Grammar
