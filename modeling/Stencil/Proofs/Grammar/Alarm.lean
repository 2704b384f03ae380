import Stencil.Proofs.Grammar.Synchrony

/-!
Contract: reading never loses its place, whatever the text is and whatever a host's tags ask for.

Owns:
- what it means that a turn of a body went as it should;
- the reader of templates that raises an alarm after every other turn, in bodies of any depth;
- the alarm is never raised in the tokens of a text, and what it would do makes no difference.

Does not own: why single statements keep their place (`Stencil.Proofs.Grammar.Synchrony`).
-/

set_option autoImplicit false

namespace Stencil.Grammar

open Stencil.Syntax
open Stencil.Token (Kind Region)
open Read Statement

/-! ### Bodies with an alarm -/

/-- Whether a turn of a body went as it should. What the body found under the head stands outside
tags: text, a comment, an opening delimiter or the end of the input. Afterwards the head has not
moved back, and the same closing tags are waited for. -/
def Orderly (before after : Tape) : Prop :=
  before.current.kind.isOuter = true ∧ after.remaining <:+ before.remaining ∧
    after.enclosing = before.enclosing

instance (before after : Tape) : Decidable (Orderly before after) :=
  inferInstanceAs (Decidable (_ ∧ _ ∧ _))

/-- An action after which the alarm is raised unless it went as a turn should. -/
def alarmed {α : Type} (alarm : Tape → Tape → Read Unit) (action : Read α) : Read α := do
  let before ← get
  let result ← action
  let after ← get
  if Orderly before after then return result
  else
    alarm before after
    return result

/-- The reader of bodies with an alarm after each turn whose nested bodies are read by `inner`. -/
def alarmedAround (register : Register) (alarm : Tape → Tape → Read Unit) (inner : BodyReader) :
    BodyReader := fun endings => do
  let turn := fun body => alarmed alarm (nextNode register inner endings body)
  let body ← within endings (loop turn ⟨#[], none⟩)
  return (body.nodes.toList, body.found)

/-- The reader of bodies with an alarm that are nested less than `depth` times. Bodies nested deeper
are left to another reader. -/
def alarmedNested (register : Register) (alarm : Tape → Tape → Read Unit) (deeper : BodyReader) :
    Nat → BodyReader
  | 0 => deeper
  | depth + 1 => alarmedAround register alarm (alarmedNested register alarm deeper depth)

/-- Reads a body with an alarm, and nested bodies of any depth that the remaining tokens allow. -/
def alarmedBody (register : Register) (alarm : Tape → Tape → Read Unit) (deeper : BodyReader) :
    BodyReader := fun endings => do
  alarmedNested register alarm deeper ((← get).following.length + 1) endings

/-- The template that the tape holds, read with an alarm in all bodies. -/
def alarmedTemplate (register : Register) (alarm : Tape → Tape → Read Unit)
    (deeper : BodyReader) : Read Template := do
  let start := (← peek).span
  let (nodes, _) ← alarmedBody register alarm deeper []
  return ⟨none, nodes, start.cover (← peek).span⟩

/-! ### The alarm is not raised -/

variable {tape : Tape} {bound : Nat} {reader other : BodyReader}

/-- A turn that starts outside tags and leads onward goes as it should. -/
theorem Tape.Onward.orderly {after : Tape} (onward : tape.Onward after)
    (stands : tape.Stands bound .outside) : Orderly tape after := by
  obtain ⟨passed, isPassed, _⟩ := onward.moved
  exact ⟨stands.isOuter, ⟨passed, isPassed.symm⟩, onward.enclosing⟩

theorem run_alarmed {α : Type} (alarm : Tape → Tape → Read Unit) {action : Read α}
    (orderly : Orderly tape (action.run tape).2) :
    (alarmed alarm action).run tape = action.run tape := by
  rw [alarmed, run_bind, run_get, run_bind, run_bind, run_get]
  dsimp only
  rw [if_pos orderly]
  rfl

/-- The alarm after an action that keeps its place is not raised. -/
theorem Lockstep.alarmed {α : Type} {action otherAction : Read α} {ends : α → Tape → Prop}
    (lockstep : Lockstep tape action otherAction ends) (alarm : Tape → Tape → Read Unit)
    (stands : tape.Stands bound .outside) :
    Lockstep tape action (alarmed alarm otherAction) ends := by
  have orderly : Orderly tape (otherAction.run tape).2 := by
    rw [lockstep.same]
    exact lockstep.onward.orderly stands
  exact ⟨(run_alarmed alarm orderly).trans lockstep.same, lockstep.onward, lockstep.arrives⟩

/-- Bodies around readers that are alike are alike, also in one token more. -/
theorem alike_alarmedAround (register : Register) (alarm : Tape → Tape → Read Unit)
    (alike : Alike bound reader other) :
    Alike (bound + 1) (bodyAround register reader) (alarmedAround register alarm other) := by
  intro endings tape stands
  have turns : Lockstep { tape with enclosing := endings :: tape.enclosing }
      (loop (nextNode register reader endings) ⟨#[], none⟩)
      (loop (fun body => alarmed alarm (nextNode register other endings body)) ⟨#[], none⟩)
      fun result final =>
        Stops (bound + 1) endings final.enclosing.tail result.found final := by
    refine Lockstep.loop (fun body => body.found = none)
      (fun fewer body here isFewer unfound standsHere => ?_) rfl ⟨stands.leads, stands.short⟩
    have plain := lockstep_nextNode (alike.mono (Nat.le_of_lt_succ isFewer)) register endings body
      unfound standsHere
    refine (plain.alarmed alarm standsHere).weaken fun result final _ ended => ?_
    cases result with
    | again next => exact ended
    | done result => exact ended.mono isFewer
  refine (Lockstep.within turns).bind fun body final ended => ?_
  obtain ⟨last, stops, isOuter, rfl⟩ := ended
  exact .pure (isOuter ▸ stops.waiting tape.enclosing)

/-- Bodies with an alarm are read like bodies without one, as long as there are no more bodies in
one another than tokens. -/
theorem alike_alarmedNested (register : Register) (alarm : Tape → Tape → Read Unit)
    (deeper : BodyReader) (depth : Nat) :
    Alike depth (nestedBody register depth) (alarmedNested register alarm deeper depth) := by
  induction depth with
  | zero => exact fun _ _ stands => absurd stands.short (Nat.not_lt_zero _)
  | succ depth inductionHypothesis => exact alike_alarmedAround register alarm inductionHypothesis

theorem alike_body (register : Register) (alarm : Tape → Tape → Read Unit) (deeper : BodyReader) :
    Alike bound (body register) (alarmedBody register alarm deeper) := by
  intro endings tape stands
  have nested := alike_alarmedNested register alarm deeper (tape.following.length + 1) endings tape
    ⟨stands.leads, Nat.lt_succ_self _⟩
  have whole : Lockstep tape (nestedBody register (tape.following.length + 1) endings)
      (alarmedNested register alarm deeper (tape.following.length + 1) endings)
      fun result final => Stops bound endings final.enclosing result.2 final :=
    nested.weaken fun _ _ _ stops => stops.mono stands.short
  refine whole.of_runs ?_ ?_
  · rw [body, run_bind, run_get]
  · rw [alarmedBody, run_bind, run_get]

theorem lockstep_alarmedTemplate (register : Register) (alarm : Tape → Tape → Read Unit)
    (deeper : BodyReader) (stands : tape.Stands bound .outside) :
    Lockstep tape (template register) (alarmedTemplate register alarm deeper) fun _ final =>
      ∃ found, Stops bound [] final.enclosing found final := by
  refine .seeing (run_peek tape) ?_
  refine (alike_body register alarm deeper [] tape stands).bind fun result final stops => ?_
  refine .seeing (run_peek final) ?_
  exact .pure ⟨_, stops⟩

/-! ### Texts -/

/-- The tokens of a text lead from its start, outside tags, to the end of the input. -/
theorem stands_ofTokens_scan (source : String) :
    ∃ bound, (Tape.ofTokens (Token.scan source).tokens).Stands bound .outside := by
  obtain ⟨tokens, last, first, rest, _, led, isEnd, areReadable, isTape⟩ := ofTokens_scan source
  have leads := Region.leads_of_after? led isEnd
  rw [areReadable] at leads
  rw [isTape]
  exact ⟨rest.length + 1, leads, Nat.lt_succ_self _⟩

theorem enclosing_ofTokens (tokens : List Token) : (Tape.ofTokens tokens).enclosing = [] := by
  unfold Tape.ofTokens
  split <;> rfl

/-- No alarm is raised in the tokens of a text, in no body at any depth, whatever tags a host has
added and whatever their hooks ask for: what the alarm would do makes no difference, and neither
does what would read the bodies for which no depth is left. The head ends up at the end of the
input, with all that was reported on the way, and no closing tag is waited for any more. -/
theorem alarm_unraised (register : Register) (alarm : Tape → Tape → Read Unit)
    (deeper : BodyReader) (source : String) :
    let start := Tape.ofTokens (Token.scan source).tokens
    let final := ((template register).run start).2
    (alarmedTemplate register alarm deeper).run start = (template register).run start ∧
      start.Onward final ∧ final.current.kind = .endOfInput := by
  intro start final
  obtain ⟨bound, stands⟩ := stands_ofTokens_scan source
  obtain ⟨same, onward, found, stops⟩ := lockstep_alarmedTemplate register alarm deeper stands
  refine ⟨same, onward, ?_⟩
  have noneWaiting : final.enclosing = [] := onward.enclosing.trans (enclosing_ofTokens _)
  have reason := stops.reason
  cases found with
  | some name => cases reason.1
  | none =>
      rcases reason with isEnd | ⟨name, _, isOuter⟩
      · exact isEnd
      · rw [noneWaiting] at isOuter
        cases isOuter

/-- The alarm is raised where a name stands outside tags, as it does in no text. -/
example :
    let alarm : Tape → Tape → Read Unit := fun before _ =>
      mistake (.unexpected before.current.describe) before.current.span
    let start := Tape.ofTokens [⟨.name, "x", default⟩]
    ((template .empty).run start).2.problems.size = 1 ∧
      ((alarmedTemplate .empty alarm (body .empty)).run start).2.problems.size = 2 := by
  decide +kernel

end Stencil.Grammar
