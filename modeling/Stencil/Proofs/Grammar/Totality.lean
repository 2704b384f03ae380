import Stencil.Proofs.Grammar.Alarm
import Stencil.Proofs.Grammar.Spending

/-!
Contract: reading tokens of any kinds in any order comes to an end, with no more statements than
tokens.

Owns:
- the loops of the grammar, all of which come to a last turn;
- the tape that tokens form, whatever they are;
- what holds of the reading of every sequence of tokens.

Does not own: what single statements cost (`Stencil.Proofs.Grammar.Spending`).
-/

set_option autoImplicit false

namespace Stencil.Grammar

open Stencil.Syntax
open Stencil.Text (Span)
open Stencil.Token (Kind Symbol)
open Levels Read Statement

/-! ### Loops -/

/-- The loops of the grammar. Those over expressions are in the grammar for every depth of nesting,
those over statements in the readers of bodies for every depth. -/
inductive GrammarLoop (register : Register) : {α : Type} → (α → Read (Turn α)) → Prop where
  | literals : GrammarLoop register stringTurn
  | tuple (depth : Nat) : GrammarLoop register (tupleTurn (nested depth))
  | items (depth : Nat) :
      GrammarLoop register (itemTurn .rightBracket (nested depth).expression)
  | entries (depth : Nat) : GrammarLoop register (entryTurn (nested depth))
  | arguments (depth : Nat) :
      GrammarLoop register (itemTurn .rightParen (argument (nested depth).expression))
  | plainLinks (depth : Nat) (withCalls : Bool) :
      GrammarLoop register (plainTurn (nested depth) withCalls)
  | bareArguments (depth : Nat) : GrammarLoop register (bareTurn (nested depth))
  | dotted : GrammarLoop register dottedTurn
  | links (depth : Nat) : GrammarLoop register (chainTurn (nested depth))
  | products (depth : Nat) :
      GrammarLoop register (leftTurn productOperator? (signedLevel (nested depth)))
  | sums (depth : Nat) :
      GrammarLoop register (leftTurn sumOperator? (productLevel (nested depth)))
  | concats (depth : Nat) :
      GrammarLoop register (leftTurn concatOperator? (sumLevel (nested depth)))
  | memberships (depth : Nat) : GrammarLoop register (membershipTurn (nested depth))
  | comparisons (depth : Nat) :
      GrammarLoop register (leftTurn comparisonOperator? (membershipLevel (nested depth)))
  | conjunctions (depth : Nat) :
      GrammarLoop register (leftTurn (wordOperator? "and" .and) (negationLevel (nested depth)))
  | disjunctions (depth : Nat) :
      GrammarLoop register (leftTurn (wordOperator? "or" .or) (conjunctionLevel (nested depth)))
  | listed : GrammarLoop register listedTurn
  | targets : GrammarLoop register targetTurn
  | params : GrammarLoop register paramTurn
  | filters : GrammarLoop register filterTurn
  | blockWords : GrammarLoop register blockWordTurn
  | clauses : GrammarLoop register clauseTurn
  | imports : GrammarLoop register importTurn
  | bindings : GrammarLoop register bindingTurn
  | hooked (words : List String) : GrammarLoop register (hookTurn words)
  | branches (depth : Nat) (start : Span) :
      GrammarLoop register (nextBranch (nestedBody register depth) start)
  | statements (depth : Nat) (endings : List String) :
      GrammarLoop register (nextNode register (nestedBody register depth) endings)

/-- The loop over the branches of a choice comes to a last turn, whatever was read before. -/
theorem terminates_nextBranch {register : Register} (generic : register.IsGeneric) (depth : Nat)
    (start : Span) : Terminates (nextBranch (nestedBody register depth) start) := by
  intro choice tape bound isSealed
  have each := paid_choiceTurn (bodiesAgree_self generic depth (bound + choice.count)) start
  have kept : tape.Sealed (bound + choice.count - choice.count) := isSealed.mono (by omega)
  obtain ⟨result, final, settles, -, onward, -⟩ := settle_together
    (fun (next : Choice) here => here.Sealed (bound + choice.count - next.count)) each kept
  exact ⟨(each choice tape kept).onward, result, final, settles, onward⟩

theorem terminates_nextNode {register : Register} (generic : register.IsGeneric) (depth : Nat)
    (endings : List String) :
    Terminates (nextNode register (nestedBody register depth) endings) := by
  intro body tape bound isSealed
  let room := bound + countOf body.nodes.toList
  have each (value : Body) (here : Tape) (kept : BodyKept room body.found value here) :=
    paid_nextNode (bodiesAgree_self generic depth here.following.length) generic endings body.found
      value here (Nat.le_refl _) kept
  have kept : BodyKept room body.found body tape := ⟨rfl, isSealed.mono (by omega)⟩
  obtain ⟨result, final, settles, -, onward, -⟩ :=
    settle_together (BodyKept room body.found) each kept
  exact ⟨(each body tape kept).onward, result, final, settles, onward⟩

theorem GrammarLoop.terminates {register : Register} (generic : register.IsGeneric) {α : Type}
    {turn : α → Read (Turn α)} (isLoop : GrammarLoop register turn) : Terminates turn := by
  have self (depth bound : Nat) : (nested depth).AllAgree bound (nested depth) :=
    (areConfined_nested depth).agree bound
  have operators {operator? : Token → Option BinaryOp} (operates : OperatesInside operator?)
      {tighter : Read Expr} (agree : ∀ bound, Agree (bound + 1) tighter tighter) :
      Terminates (leftTurn operator? tighter) :=
    (Progresses.of_succ fun bound => turnsAgree_leftTurn operates (agree bound)).terminates
  cases isLoop with
  | literals => exact progresses_stringTurn.terminates
  | tuple depth =>
      exact Progresses.terminates fun bound => turnsAgree_tupleTurn (self depth bound)
  | items depth =>
      exact Progresses.terminates fun bound => turnsAgree_itemTurn (self depth bound).expression _
  | entries depth =>
      exact Progresses.terminates fun bound => turnsAgree_entryTurn (self depth bound)
  | arguments depth =>
      exact Progresses.terminates fun bound =>
        turnsAgree_itemTurn (agree_argument (self depth bound).expression) _
  | plainLinks depth withCalls =>
      exact (Progresses.of_succ fun bound =>
        turnsAgree_plainTurn (self depth bound) withCalls).terminates
  | bareArguments depth =>
      exact (Progresses.of_succ fun bound => turnsAgree_bareTurn (self depth bound)).terminates
  | dotted => exact progresses_dottedTurn.terminates
  | links depth =>
      exact (Progresses.of_succ fun bound => turnsAgree_chainTurn (self depth bound)).terminates
  | products depth =>
      exact operators operatesInside_product fun bound => agree_signedLevel (self depth bound)
  | sums depth =>
      exact operators operatesInside_sum fun bound => agree_productLevel (self depth bound)
  | concats depth =>
      exact operators operatesInside_concat fun bound => agree_sumLevel (self depth bound)
  | memberships depth =>
      exact (Progresses.of_succ fun bound =>
        turnsAgree_membershipTurn (self depth bound)).terminates
  | comparisons depth =>
      exact operators operatesInside_comparison fun bound =>
        agree_membershipLevel (self depth bound)
  | conjunctions depth =>
      exact operators (operatesInside_word "and" .and) fun bound =>
        agree_negationLevel (self depth bound)
  | disjunctions depth =>
      exact operators (operatesInside_word "or" .or) fun bound =>
        agree_conjunctionLevel (self depth bound)
  | listed => exact progresses_listedTurn.terminates
  | targets => exact progresses_targetTurn.terminates
  | params => exact progresses_paramTurn.terminates
  | filters => exact progresses_filterTurn.terminates
  | blockWords => exact progresses_blockWordTurn.terminates
  | clauses => exact progresses_clauseTurn.terminates
  | imports => exact progresses_importTurn.terminates
  | bindings => exact progresses_bindingTurn.terminates
  | hooked words => exact (progresses_hookTurn words).terminates
  | branches depth start => exact terminates_nextBranch generic depth start
  | statements depth endings => exact terminates_nextNode generic depth endings

/-! ### Whole templates -/

/-- The end of the input comes last among the tokens that matter, and is the only one that may have
been added. -/
theorem readable_ends (tokens : List Token) :
    ∃ (before : List Token) (last : Token), Tape.readable tokens = before ++ [last] ∧
      last.kind = .endOfInput ∧ before.length ≤ tokens.length := by
  unfold Tape.readable
  dsimp only
  have fewer : (tokens.filter fun token => !token.kind.isTrivia).length ≤ tokens.length :=
    List.length_filter_le _ _
  split
  · exact ⟨[], _, rfl, rfl, Nat.zero_le _⟩
  · rename_i last isLast
    split
    · rename_i isEnd
      obtain ⟨before, isBefore⟩ := List.getLast?_eq_some_iff.mp isLast
      rw [isBefore, List.length_append, List.length_singleton] at fewer
      exact ⟨before, last, isBefore, isEnd, by omega⟩
    · exact ⟨_, _, rfl, rfl, fewer⟩

/-- The tape that tokens form, of any kinds and in any order. -/
theorem sealed_ofTokens (tokens : List Token) :
    (Tape.ofTokens tokens).Sealed (tokens.length + 1) := by
  obtain ⟨before, last, isReadable, isEnd, isShort⟩ := readable_ends tokens
  cases areTokens : Tape.readable tokens with
  | nil =>
      rw [areTokens] at isReadable
      simp at isReadable
  | cons first rest =>
      have lengths := congrArg List.length (areTokens.symm.trans isReadable)
      rw [List.length_cons, List.length_append, List.length_singleton] at lengths
      rw [Tape.ofTokens, areTokens]
      refine ⟨⟨before, last, areTokens.symm.trans isReadable, isEnd⟩, ?_⟩
      dsimp only
      omega

/-- Reading tokens of any kinds in any order comes to an end. Every loop of the grammar comes to a
last turn, none of whose turns moves the head back; no expressions and no bodies are nested too
deeply to be read, so that what would read deeper ones makes no difference. The head ends up at the
end of the input, which comes last, and there are at most as many statements, in all bodies
together, as there are tokens. -/
theorem parse_bounded {register : Register} (generic : register.IsGeneric) (tokens : List Token) :
    let start := Tape.ofTokens tokens
    let final := ((template register).run start).2
    (∀ {α : Type} (turn : α → Read (Turn α)), GrammarLoop register turn → Terminates turn) ∧
      (∀ {α : Type} (part : Levels → Read α), Levels.Entry part →
        ∀ (deeper : Levels) (depth : Nat) (tape : Tape), tape.Sealed depth →
          (part (nestedOver deeper depth)).run tape = (withNesting part).run tape) ∧
      (∀ (deeper : BodyReader) (endings : List String) (depth : Nat) (tape : Tape),
        tape.Sealed depth → (nestedBodyOver register deeper depth endings).run tape =
          (body register endings).run tape) ∧
      start.Sealed (tokens.length + 1) ∧ start.Onward final ∧ final.current.kind = .endOfInput ∧
      countOf (parseTokens register tokens).template.body ≤ tokens.length := by
  intro start final
  have isSealed := sealed_ofTokens tokens
  obtain ⟨same, onward, read, atEnd⟩ := lockstep_body generic [] isSealed
  have isFinal : final = ((body register []).run start).2 := by
    rw [show final = ((template register).run start).2 from rfl, run_template]
  have noneFound : ((body register []).run start).1.2 = none := by
    cases isFound : ((body register []).run start).1.2 with
    | none => rfl
    | some name => exact nomatch (read.atTag name isFound).1
  have noneWaiting : final.enclosing = [] := by
    rw [isFinal]
    exact onward.enclosing.trans (enclosing_ofTokens tokens)
  refine ⟨fun turn isLoop => isLoop.terminates generic,
    fun part entry deeper depth tape short => run_nestedOver entry deeper short,
    fun deeper endings depth tape short => run_nestedBodyOver generic deeper endings short,
    isSealed, ?_, ?_, ?_⟩
  · rw [isFinal]
    exact onward
  · rcases atEnd noneFound with isEnd | isWaiting
    · rw [isFinal]
      exact isEnd
    · rw [← isFinal] at isWaiting
      exact absurd noneWaiting isWaiting
  · have counts : (parseTokens register tokens).template.body =
        ((body register []).run (Tape.ofTokens tokens)).1.1 := by
      rw [parseTokens, run_template]
    rw [counts]
    have spent := read.isSealed.short
    have short := isSealed.short
    omega

/-- A host's tag that is never closed, with the end of the input in its midst. -/
theorem parse_bounded_note :
    let register : Register := ⟨[("note", .enclosing "endnote"), ("mark", .inline)], false⟩
    let tokens : List Token := [⟨.blockStart false, "\x7b%", default⟩, ⟨.name, "note", default⟩,
      ⟨.endOfInput, "", default⟩, ⟨.blockEnd false, "%\x7d", default⟩, ⟨.text, "a", default⟩]
    register.IsGeneric ∧ countOf (parseTokens register tokens).template.body ≤ 5 := by
  intro register tokens
  have generic : register.IsGeneric := by
    intro entry isEntry
    rcases List.mem_cons.mp isEntry with rfl | isOther
    · exact .inr ⟨"endnote", rfl⟩
    · rw [List.mem_singleton.mp isOther]
      exact .inl rfl
  exact ⟨generic, (parse_bounded generic tokens).2.2.2.2.2.2⟩

end Stencil.Grammar
