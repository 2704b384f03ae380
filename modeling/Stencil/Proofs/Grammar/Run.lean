import Stencil.Grammar.Tape

/-!
Contract: what the actions on a tape do, one equation for each.

Owns:
- the equations of the single actions and of their sequencing;
- loops that settle: a finite run of turns, each of which but the last shortens the tape.

Does not own: what the grammar reads with these actions (`Stencil.Proofs.Grammar.Precedence`,
`Stencil.Proofs.Grammar.Statement`).
-/

set_option autoImplicit false

namespace Stencil.Grammar

open Stencil.Text (Span)
open Stencil.Token (Kind Symbol)

namespace Tape

/-- Looking ahead sees the token that advancing leads to. -/
@[simp] theorem ahead_one (tape : Tape) : tape.ahead 1 = tape.advance.current := by
  obtain ⟨previous, current, following, enclosing, problems⟩ := tape
  cases following <;> rfl

theorem ahead_two (tape : Tape) : tape.ahead 2 = tape.advance.advance.current := by
  obtain ⟨previous, current, following, enclosing, problems⟩ := tape
  match following with
  | [] => rfl
  | [_] => rfl
  | _ :: _ :: _ => rfl

@[simp] theorem enclosing_advance (tape : Tape) : tape.advance.enclosing = tape.enclosing := by
  unfold advance
  split <;> rfl

@[simp] theorem problems_advance (tape : Tape) : tape.advance.problems = tape.problems := by
  unfold advance
  split <;> rfl

theorem length_following_advance (tape : Tape) :
    tape.advance.following.length = tape.following.length - 1 := by
  unfold advance
  split
  · rename_i isLast
    simp [isLast]
  · rename_i next rest isNext
    simp [isNext]

end Tape

namespace Read

variable {α β : Type}

/-! ### Sequencing -/

theorem run_pure (value : α) (tape : Tape) : (pure value : Read α).run tape = (value, tape) := rfl

theorem run_bind (first : Read α) (next : α → Read β) (tape : Tape) :
    (first >>= next).run tape = (next (first.run tape).1).run (first.run tape).2 := rfl

theorem run_map (f : α → β) (action : Read α) (tape : Tape) :
    (f <$> action).run tape = (f (action.run tape).1, (action.run tape).2) := rfl

theorem run_get (tape : Tape) : (get : Read Tape).run tape = (tape, tape) := rfl

theorem run_modify (f : Tape → Tape) (tape : Tape) :
    (modify f : Read Unit).run tape = ((), f tape) := rfl

theorem run_ite (condition : Prop) {_ : Decidable condition} (yes no : Read α) (tape : Tape) :
    (if condition then yes else no).run tape =
      if condition then yes.run tape else no.run tape := by
  split <;> rfl

/-! ### Looking

The equations for what conditions look at are proved by a term in parentheses, so that rewriting
with them goes through the congruence of conditionals. -/

theorem run_peek (tape : Tape) : peek.run tape = (tape.current, tape) := rfl

theorem run_peekAhead (distance : Nat) (tape : Tape) :
    (peekAhead distance).run tape = (tape.ahead distance, tape) := rfl

theorem run_atKind (kind : Kind) (tape : Tape) :
    (atKind kind).run tape = (tape.current.kind == kind, tape) := (rfl)

theorem run_atSymbol (symbol : Symbol) (tape : Tape) :
    (atSymbol symbol).run tape = (tape.current.kind == .symbol symbol, tape) := (rfl)

theorem run_atWord (word : String) (tape : Tape) :
    (atWord word).run tape = (tape.current.isName word, tape) := (rfl)

theorem run_atTagEnd (tape : Tape) : atTagEnd.run tape = (tape.current.kind.isTagEnd, tape) := (rfl)

theorem run_atClose (tape : Tape) :
    atClose.run tape =
      (tape.current.kind.isTagEnd || tape.current.kind == .endOfInput, tape) := (rfl)

theorem run_previousSpan (tape : Tape) : previousSpan.run tape = (tape.previousSpan, tape) := rfl

theorem run_spanFrom (start : Span) (tape : Tape) :
    (spanFrom start).run tape = (start.cover tape.previousSpan, tape) := rfl

/-! ### Passing over tokens -/

theorem run_advance (tape : Tape) : advance.run tape = (tape.current, tape.advance) := rfl

theorem run_take? (kind : Kind) (tape : Tape) :
    (take? kind).run tape =
      if tape.current.kind = kind then (some tape.current, tape.advance) else (none, tape) := by
  simp only [take?, run_bind, run_atKind, run_ite, run_map, run_advance, run_pure, beq_iff_eq]

theorem run_takeSymbol (symbol : Symbol) (tape : Tape) :
    (takeSymbol symbol).run tape =
      if tape.current.kind = .symbol symbol then (true, tape.advance) else (false, tape) := by
  simp only [takeSymbol, run_bind, run_take?, run_pure]
  split <;> rfl

theorem run_takeWord (word : String) (tape : Tape) :
    (takeWord word).run tape =
      if tape.current.isName word then (true, tape.advance) else (false, tape) := by
  simp only [takeWord, run_bind, run_atWord, run_ite, run_advance, run_pure]

/-! ### Demanding tokens -/

theorem run_expectSymbol_of_present {symbol : Symbol} {tape : Tape}
    (present : tape.current.kind = .symbol symbol) :
    (expectSymbol symbol).run tape = (true, tape.advance) := by
  simp only [expectSymbol, run_bind, run_takeSymbol, if_pos present, if_true, run_pure]

theorem run_expectWord_of_present {word : String} {tape : Tape}
    (present : tape.current.isName word = true) :
    (expectWord word).run tape = ((), tape.advance) := by
  simp only [expectWord, run_bind, run_takeWord, if_pos present, if_true, run_pure]

theorem run_expectName_of_present {what : String} {tape : Tape}
    (present : tape.current.kind = .name) :
    (expectName what).run tape = (some tape.current.lexeme, tape.advance) := by
  simp only [expectName, run_bind, run_take?, if_pos present, run_pure]

theorem run_expectTagEnd_of_present {what : Kind} {tape : Tape}
    (present : tape.current.kind.isTagEnd = true) :
    (expectTagEnd what).run tape = ((), tape.advance) := by
  simp only [expectTagEnd, run_bind, run_atTagEnd, if_pos present, run_advance, run_pure]

theorem run_expectBlockEnd_of_present {tape : Tape}
    (present : tape.current.kind.isTagEnd = true) :
    expectBlockEnd.run tape = ((), tape.advance) :=
  run_expectTagEnd_of_present present

/-! ### Loops -/

/-- A finite run of turns from a value and a tape to a last value and a last tape. Each turn that is
not the last one shortens the tape. -/
inductive Settles (turn : α → Read (Turn α)) : α → Tape → α → Tape → Prop where
  | done {value result : α} {tape final : Tape}
      (last : (turn value).run tape = (.done result, final)) :
      Settles turn value tape result final
  | again {value next result : α} {tape middle final : Tape}
      (goesOn : (turn value).run tape = (.again next, middle))
      (shorter : middle.following.length < tape.following.length)
      (rest : Settles turn next middle result final) :
      Settles turn value tape result final

theorem run_turns_of_settles {turn : α → Read (Turn α)} {value result : α} {tape final : Tape}
    (settles : Settles turn value tape result final) (limit : Nat)
    (enough : tape.following.length < limit) :
    (turns turn limit value).run tape = (result, final) := by
  induction settles generalizing limit with
  | done last =>
      obtain ⟨fewer, rfl⟩ := Nat.exists_eq_add_of_lt enough
      simp only [turns, run_bind, last, run_pure]
  | again goesOn shorter _ inductionHypothesis =>
      cases limit with
      | zero => omega
      | succ fewer =>
          simp only [turns, run_bind, goesOn]
          exact inductionHypothesis fewer (by omega)

/-- The turns that a loop allows itself suffice for every run that settles. -/
theorem run_loop_of_settles {turn : α → Read (Turn α)} {value result : α} {tape final : Tape}
    (settles : Settles turn value tape result final) :
    (loop turn value).run tape = (result, final) := by
  simp only [loop, run_bind, run_get]
  exact run_turns_of_settles settles _ (Nat.lt_succ_self _)

end Read

end Stencil.Grammar
