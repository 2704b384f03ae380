import Stencil.Proofs.Grammar.Run

/-!
Contract: tapes that show given words from the head on.

Owns:
- words, the tokens of a text without their places;
- a tape whose head moves over several tokens, and what it shows on the way.

Does not own: the words of an expression or a statement (`Stencil.Proofs.Grammar.Written`).
-/

set_option autoImplicit false

namespace Stencil.Grammar

open Stencil.Token (Kind Symbol)

/-- A token without its place: what it is and how it is written. -/
structure Word where
  kind : Kind
  lexeme : String
deriving DecidableEq, Repr

namespace Word

def name (text : String) : Word := ⟨.name, text⟩

def symbol (symbol : Symbol) : Word := ⟨.symbol symbol, symbol.text⟩

/-- Words with a separator between every two groups of them. -/
def separated (separator : Word) : List (List Word) → List Word
  | [] => []
  | first :: rest => first ++ rest.flatMap (separator :: ·)

theorem separated_singleton (separator : Word) (words : List Word) :
    separated separator [words] = words := List.append_nil words

theorem separated_cons_cons (separator : Word) (first second : List Word)
    (rest : List (List Word)) :
    separated separator (first :: second :: rest) =
      first ++ separator :: separated separator (second :: rest) := by
  rw [separated, separated, List.flatMap_cons, List.cons_append]

end Word

def wordOf (token : Token) : Word := ⟨token.kind, token.lexeme⟩

def kept (tokens : List Token) : List Token := tokens.filter fun token => !token.kind.isTrivia

theorem kept_append (first second : List Token) :
    kept (first ++ second) = kept first ++ kept second :=
  List.filter_append _ _

@[simp] theorem kind_wordOf (token : Token) : (wordOf token).kind = token.kind := rfl

namespace Tape

/-- The tape with its head behind as many tokens as there are words. -/
def past (tape : Tape) : List Word → Tape
  | [] => tape
  | _ :: words => tape.advance.past words

@[simp] theorem past_nil (tape : Tape) : tape.past [] = tape := rfl

@[simp] theorem past_cons (tape : Tape) (word : Word) (words : List Word) :
    tape.past (word :: words) = tape.advance.past words := rfl

@[simp] theorem past_append (tape : Tape) (first second : List Word) :
    tape.past (first ++ second) = (tape.past first).past second := by
  induction first generalizing tape with
  | nil => rfl
  | cons word first inductionHypothesis => exact inductionHypothesis tape.advance

@[simp] theorem enclosing_past (tape : Tape) (words : List Word) :
    (tape.past words).enclosing = tape.enclosing := by
  induction words generalizing tape with
  | nil => rfl
  | cons word words inductionHypothesis => rw [past_cons, inductionHypothesis, enclosing_advance]

@[simp] theorem problems_past (tape : Tape) (words : List Word) :
    (tape.past words).problems = tape.problems := by
  induction words generalizing tape with
  | nil => rfl
  | cons word words inductionHypothesis => rw [past_cons, inductionHypothesis, problems_advance]

/-- Whether the words are the next tokens from the head on, with at least one token behind them. -/
def Shows : Tape → List Word → Prop
  | _, [] => True
  | tape, word :: words =>
      wordOf tape.current = word ∧ tape.following ≠ [] ∧ tape.advance.Shows words

@[simp] theorem shows_nil (tape : Tape) : tape.Shows [] := trivial

@[simp] theorem shows_cons (tape : Tape) (word : Word) (words : List Word) :
    tape.Shows (word :: words) ↔
      wordOf tape.current = word ∧ tape.following ≠ [] ∧ tape.advance.Shows words := Iff.rfl

@[simp] theorem shows_append (tape : Tape) (first second : List Word) :
    tape.Shows (first ++ second) ↔ tape.Shows first ∧ (tape.past first).Shows second := by
  induction first generalizing tape with
  | nil => simp
  | cons word first inductionHypothesis =>
      rw [List.cons_append, shows_cons, shows_cons, inductionHypothesis, past_cons]
      constructor
      · rintro ⟨isWord, more, shown, rest⟩
        exact ⟨⟨isWord, more, shown⟩, rest⟩
      · rintro ⟨⟨isWord, more, shown⟩, rest⟩
        exact ⟨isWord, more, shown, rest⟩

/-- Moving past words that are shown shortens the tape by as many tokens. -/
theorem Shows.length_following {tape : Tape} {words : List Word} (shown : tape.Shows words) :
    (tape.past words).following.length + words.length = tape.following.length := by
  induction words generalizing tape with
  | nil => rfl
  | cons word words inductionHypothesis =>
      obtain ⟨isWord, more, rest⟩ := shown
      have positive : 0 < tape.following.length := List.length_pos_iff.mpr more
      have shorter := length_following_advance tape
      have moved := inductionHypothesis rest
      rw [List.length_cons, past_cons]
      omega

/-- The tape behind a word that is shown is shorter. -/
theorem Shows.shorter {tape : Tape} {first : List Word} {word : Word} {rest : List Word}
    (shown : tape.Shows (first ++ word :: rest)) :
    (tape.past first).advance.following.length < tape.following.length := by
  rw [shows_append] at shown
  obtain ⟨shownFirst, _, more, _⟩ := shown
  have positive := List.length_pos_iff.mpr more
  have passed := shownFirst.length_following
  have shorter := length_following_advance (tape.past first)
  omega

theorem Shows.kind {tape : Tape} {word : Word} {words : List Word}
    (shown : tape.Shows (word :: words)) : tape.current.kind = word.kind :=
  congrArg Word.kind shown.1

theorem Shows.isSymbol {tape : Tape} {symbol : Symbol} {words : List Word}
    (shown : tape.Shows (.symbol symbol :: words)) : tape.current.kind = .symbol symbol :=
  shown.kind

theorem Shows.lexeme {tape : Tape} {word : Word} {words : List Word}
    (shown : tape.Shows (word :: words)) : tape.current.lexeme = word.lexeme :=
  congrArg Word.lexeme shown.1

theorem Shows.tail {tape : Tape} {word : Word} {words : List Word}
    (shown : tape.Shows (word :: words)) : tape.advance.Shows words :=
  shown.2.2

/-- A tape shows the words of its tokens, and has the other tokens behind them. -/
theorem shows_of_tokens {tape : Tape} {tokens : List Token} {next : Token} {rest : List Token}
    (holds : tape.current :: tape.following = tokens ++ next :: rest) :
    tape.Shows (tokens.map wordOf) ∧ (tape.past (tokens.map wordOf)).current = next ∧
      (tape.past (tokens.map wordOf)).following = rest := by
  induction tokens generalizing tape with
  | nil =>
      obtain ⟨isNext, isRest⟩ := List.cons.inj holds
      exact ⟨trivial, isNext, isRest⟩
  | cons token tokens inductionHypothesis =>
      obtain ⟨isToken, isRest⟩ := List.cons.inj holds
      have more : tape.following ≠ [] := by simp [isRest]
      have moved : tape.advance.current :: tape.advance.following = tape.following := by
        unfold advance
        split
        · contradiction
        · rename_i following
          exact following.symm
      obtain ⟨shown, behind⟩ := inductionHypothesis (moved.trans isRest)
      rw [List.map_cons, shows_cons, past_cons, isToken]
      exact ⟨⟨rfl, more, shown⟩, behind⟩

end Tape

end Stencil.Grammar
