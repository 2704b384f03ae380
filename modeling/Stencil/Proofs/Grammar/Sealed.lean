import Stencil.Proofs.Grammar.Lockstep

/-!
Contract: tapes on which the end of the input comes last, and turns that use them up.

Owns:
- such tapes, with a bound on the tokens that are left;
- actions that do the same from every such tape;
- turns each of which passes over a token unless it is the last: their loops do the same, and they
  come to a last turn.

Nothing is said about the order in which other tokens stand.

Does not own: which parts of the grammar are such actions and turns
(`Stencil.Proofs.Grammar.Progress`).
-/

set_option autoImplicit false

namespace Stencil.Grammar

open Stencil.Text (Span)
open Stencil.Token (Kind Symbol)
open Read

/-- Whether the end of the input comes last, and fewer tokens than `bound` follow the head. -/
structure Tape.Sealed (bound : Nat) (tape : Tape) : Prop where
  last : ∃ (before : List Token) (last : Token),
    tape.remaining = before ++ [last] ∧ last.kind = .endOfInput
  short : tape.following.length < bound

namespace Tape

variable {bound fewer : Nat} {tape final : Tape}

theorem Sealed.mono (isSealed : tape.Sealed fewer) (isFewer : fewer ≤ bound) : tape.Sealed bound :=
  ⟨isSealed.last, Nat.lt_of_lt_of_le isSealed.short isFewer⟩

theorem Sealed.exists_succ (isSealed : tape.Sealed bound) : ∃ fewer, bound = fewer + 1 :=
  Nat.exists_eq_add_one_of_ne_zero (Nat.ne_zero_of_lt isSealed.short)

/-- The tightest bound. -/
theorem Sealed.tight (isSealed : tape.Sealed bound) : tape.Sealed (tape.following.length + 1) :=
  ⟨isSealed.last, Nat.lt_succ_self _⟩

theorem Sealed.onward (isSealed : tape.Sealed bound) (onward : tape.Onward final) :
    final.Sealed bound := by
  refine ⟨?_, Nat.lt_of_le_of_lt onward.length_le isSealed.short⟩
  obtain ⟨before, last, isBefore, isEnd⟩ := isSealed.last
  obtain ⟨passed, isPassed, _⟩ := onward.moved
  rw [isBefore] at isPassed
  rcases List.append_eq_append_iff.mp isPassed with ⟨rest, -, isLast⟩ | ⟨rest, -, isFinal⟩
  · cases rest with
    | nil => exact ⟨[], last, isLast.symm, isEnd⟩
    | cons token rest =>
        have isEmpty : rest ++ final.remaining = [] := (List.cons.inj isLast).2.symm
        simp [remaining] at isEmpty
  · exact ⟨rest, last, isFinal, isEnd⟩

/-- Passing over a token that is not the end of the input uses one up. -/
theorem Sealed.advance (isSealed : tape.Sealed (bound + 1))
    (notEnd : tape.current.kind ≠ .endOfInput) : tape.advance.Sealed bound := by
  have short := isSealed.short
  have isNext := (isSealed.onward (passes_advance trivial)).last
  refine ⟨isNext, ?_⟩
  rw [length_following_advance]
  obtain ⟨before, last, isBefore, isEnd⟩ := isSealed.last
  cases isFollowing : tape.following with
  | cons next rest =>
      rw [isFollowing, List.length_cons] at short
      exact Nat.lt_of_succ_lt_succ short
  | nil =>
      cases before with
      | nil =>
          rw [remaining, isFollowing] at isBefore
          rw [(List.cons.inj isBefore).1] at notEnd
          exact absurd isEnd notEnd
      | cons token rest =>
          rw [remaining, isFollowing] at isBefore
          simp at isBefore

theorem Sealed.waiting (isSealed : tape.Sealed bound) (enclosing : List (List String)) :
    Sealed bound { tape with enclosing := enclosing } :=
  ⟨isSealed.last, isSealed.short⟩

end Tape

/-! ### Actions and turns -/

section Actions

variable {α β : Type} {tape : Tape} {bound fewer : Nat} {action other : Read α}

theorem ne_end_of_isInner {kind : Kind} (inner : kind.isInner = true) : kind ≠ .endOfInput := by
  rintro rfl
  cases inner

/-- Whether two actions do the same from every tape with fewer tokens left than `bound`. -/
def Agree (bound : Nat) (action other : Read α) : Prop :=
  ∀ tape : Tape, tape.Sealed bound → Lockstep tape action other fun _ => Tape.Sealed bound

/-- Whether two sequences of turns do the same, and each turn but the last passes over a token. -/
def TurnsAgree (bound : Nat) (turn other : α → Read (Turn α)) : Prop :=
  ∀ fewer < bound, ∀ (value : α) (tape : Tape), tape.Sealed (fewer + 1) →
    Lockstep tape (turn value) (other value)
      (turnEnds (fun _ => Tape.Sealed fewer) fun _ => Tape.Sealed (fewer + 1))

/-- Turns of any number, whatever the tape is, as long as the end of the input comes last. -/
def Progresses (turn : α → Read (Turn α)) : Prop := ∀ bound, TurnsAgree bound turn turn

/-- An action whose value the next turn starts from. -/
theorem Lockstep.again {done : α → Tape → Prop}
    (lockstep : Lockstep tape action other fun _ => Tape.Sealed bound) :
    Lockstep tape (Turn.again <$> action) (Turn.again <$> other)
      (turnEnds (fun _ => Tape.Sealed bound) done) where
  same := by rw [run_map, run_map, lockstep.same]
  onward := lockstep.onward
  arrives := lockstep.arrives

theorem Lockstep.sealed {ends : α → Tape → Prop} (lockstep : Lockstep tape action other ends)
    (isSealed : tape.Sealed bound) : Lockstep tape action other fun _ => Tape.Sealed bound :=
  lockstep.weaken fun _ _ onward _ => isSealed.onward onward

theorem Agree.mono (agree : Agree bound action other) (isFewer : fewer ≤ bound) :
    Agree fewer action other :=
  fun tape isSealed => (agree tape (isSealed.mono isFewer)).sealed isSealed

theorem Agree.bind {next otherNext : α → Read β} (first : Agree bound action other)
    (rest : ∀ value, Agree bound (next value) (otherNext value)) :
    Agree bound (action >>= next) (other >>= otherNext) :=
  fun tape isSealed => (first tape isSealed).bind fun value here => rest value here

theorem Agree.map (agree : Agree bound action other) (f : α → β) :
    Agree bound (f <$> action) (f <$> other) := by
  intro tape isSealed
  have goes := agree tape isSealed
  exact ⟨by rw [run_map, run_map, goes.same], goes.onward, goes.arrives⟩

theorem Agree.pure (value : α) : Agree bound (Pure.pure value) (Pure.pure value) :=
  fun _ isSealed => .pure isSealed

theorem Agree.ite {condition : Prop} {_ : Decidable condition} {yes no otherYes otherNo : Read α}
    (left : Agree bound yes otherYes) (right : Agree bound no otherNo) :
    Agree bound (if condition then yes else no) (if condition then otherYes else otherNo) :=
  fun tape isSealed => .ite (fun _ => left tape isSealed) fun _ => right tape isSealed

/-- An action that passes over tokens from the inside of tags only does what it does. -/
theorem Confined.agree (confined : Confined action) : Agree bound action action :=
  fun tape isSealed => ⟨rfl, (confined tape).onward, isSealed.onward (confined tape).onward⟩

/-- What comes first may be done before fewer tokens are left. -/
theorem Agree.on {bound : Nat} (agree : Agree bound action other) (isSealed : tape.Sealed fewer)
    (isFewer : fewer ≤ bound) : Lockstep tape action other fun _ => Tape.Sealed fewer :=
  agree.mono isFewer tape isSealed

/-- A token under the head that is not the end of the input is passed over. -/
theorem lockstep_pass (isSealed : tape.Sealed (bound + 1))
    (notEnd : tape.current.kind ≠ .endOfInput) :
    Lockstep tape Read.advance Read.advance fun token final =>
      token = tape.current ∧ final = tape.advance ∧ final.Sealed bound :=
  ⟨rfl, Tape.passes_advance trivial, rfl, rfl, isSealed.advance notEnd⟩

/-- An action that comes to nothing but passing over a token from the inside of a tag. -/
theorem lockstep_of_run_advance {value : α} (isSealed : tape.Sealed (bound + 1))
    (inner : tape.current.kind.isInner = true) (runs : action.run tape = (value, tape.advance)) :
    Lockstep tape action action fun result final => result = value ∧ final.Sealed bound := by
  refine ⟨rfl, ?_, ?_⟩
  · rw [runs]
    exact Tape.passes_advance trivial
  · rw [runs]
    exact ⟨rfl, isSealed.advance (ne_end_of_isInner inner)⟩

/-- An action that begins with passing over a token from the inside of a tag. -/
theorem Agree.passing {next otherNext : Token → Read α}
    (rest : ∀ token, Agree bound (next token) (otherNext token))
    (isSealed : tape.Sealed (bound + 1)) (inner : tape.current.kind.isInner = true) :
    Lockstep tape (Read.advance >>= next) (Read.advance >>= otherNext) fun _ =>
      Tape.Sealed bound :=
  (lockstep_pass isSealed (ne_end_of_isInner inner)).bind fun token here passed =>
    rest token here passed.2.2

/-- What is done behind a token that may be there, and without it. -/
theorem lockstep_take? {kind : Kind} (inner : kind.isInner = true) {ends : β → Tape → Prop}
    {next otherNext : Option Token → Read β} (isSealed : tape.Sealed (bound + 1))
    (found : ∀ token here, here.Sealed bound →
      Lockstep here (next (some token)) (otherNext (some token)) ends)
    (missing : Lockstep tape (next none) (otherNext none) ends) :
    Lockstep tape (take? kind >>= next) (take? kind >>= otherNext) ends := by
  by_cases isKind : tape.current.kind = kind
  · have takes : (take? kind).run tape = (some tape.current, tape.advance) := by
      rw [run_take?, if_pos isKind]
    refine (lockstep_of_run_advance isSealed (isKind ▸ inner) takes).bind fun value here taken => ?_
    rw [taken.1]
    exact found _ here taken.2
  · refine .seeing ?_ missing
    rw [run_take?, if_neg isKind]

theorem lockstep_takeSymbol {symbol : Symbol} {ends : β → Tape → Prop}
    {next otherNext : Bool → Read β} (isSealed : tape.Sealed (bound + 1))
    (found : ∀ here, here.Sealed bound → Lockstep here (next true) (otherNext true) ends)
    (missing : Lockstep tape (next false) (otherNext false) ends) :
    Lockstep tape (takeSymbol symbol >>= next) (takeSymbol symbol >>= otherNext) ends := by
  have goes : Lockstep tape (take? (.symbol symbol) >>= fun found => next found.isSome)
      (take? (.symbol symbol) >>= fun found => otherNext found.isSome) ends :=
    lockstep_take? rfl isSealed (fun _ here => found here) missing
  exact goes.of_runs rfl rfl

theorem lockstep_takeWord {word : String} {ends : β → Tape → Prop}
    {next otherNext : Bool → Read β} (isSealed : tape.Sealed (bound + 1))
    (found : ∀ here, here.Sealed bound → Lockstep here (next true) (otherNext true) ends)
    (missing : Lockstep tape (next false) (otherNext false) ends) :
    Lockstep tape (takeWord word >>= next) (takeWord word >>= otherNext) ends := by
  by_cases isWord : tape.current.isName word = true
  · have takes : (takeWord word).run tape = (true, tape.advance) := by
      rw [run_takeWord, if_pos isWord]
    refine (lockstep_of_run_advance isSealed (isInner_of_isName isWord) takes).bind fun value here taken => ?_
    rw [taken.1]
    exact found here taken.2
  · refine .seeing ?_ missing
    rw [run_takeWord, if_neg isWord]

/-- What is done where a symbol is passed over, and where it is not there. -/
theorem lockstep_ifSymbol {symbol : Symbol} {ends : β → Tape → Prop}
    {yes otherYes no otherNo : Read β} (isSealed : tape.Sealed (bound + 1))
    (found : ∀ here, here.Sealed bound → Lockstep here yes otherYes ends)
    (missing : Lockstep tape no otherNo ends) :
    Lockstep tape (do if ← takeSymbol symbol then yes else no)
      (do if ← takeSymbol symbol then otherYes else otherNo) ends := by
  refine lockstep_takeSymbol isSealed (fun here isSealed => ?_) ?_
  · rw [if_pos rfl, if_pos rfl]
    exact found here isSealed
  · rw [if_neg Bool.false_ne_true, if_neg Bool.false_ne_true]
    exact missing

theorem lockstep_ifWord {word : String} {ends : β → Tape → Prop}
    {yes otherYes no otherNo : Read β} (isSealed : tape.Sealed (bound + 1))
    (found : ∀ here, here.Sealed bound → Lockstep here yes otherYes ends)
    (missing : Lockstep tape no otherNo ends) :
    Lockstep tape (do if ← takeWord word then yes else no)
      (do if ← takeWord word then otherYes else otherNo) ends := by
  refine lockstep_takeWord isSealed (fun here isSealed => ?_) ?_
  · rw [if_pos rfl, if_pos rfl]
    exact found here isSealed
  · rw [if_neg Bool.false_ne_true, if_neg Bool.false_ne_true]
    exact missing

/-! ### Loops -/

variable {turn otherTurn : α → Read (Turn α)} {value : α}

/-- Turns that keep a condition, and pass over a token each unless they are the last, come to a
last one. The induction is on the tokens that are left. -/
theorem settle_together {ends : α → Tape → Prop} (kept : α → Tape → Prop)
    (each : ∀ value here, kept value here → Lockstep here (turn value) (otherTurn value)
      (turnEnds (fun next final => kept next final ∧
        final.following.length < here.following.length) ends))
    (holds : kept value tape) :
    ∃ result final, Settles turn value tape result final ∧
      Settles otherTurn value tape result final ∧ tape.Onward final ∧ ends result final := by
  induction isLeft : tape.following.length using Nat.strongRecOn generalizing value tape with
  | ind left inductionHypothesis =>
      obtain ⟨same, onward, arrives⟩ := each value tape holds
      cases isTurn : (turn value).run tape with
      | mk outcome after =>
          rw [isTurn] at same onward arrives
          cases outcome with
          | done result => exact ⟨result, after, .done isTurn, .done same, onward, arrives⟩
          | again next =>
              obtain ⟨keeps, shorter⟩ := arrives
              obtain ⟨result, final, settles, otherSettles, further, ended⟩ :=
                inductionHypothesis _ (isLeft ▸ shorter) keeps rfl
              exact ⟨result, final, .again isTurn shorter settles,
                .again same shorter otherSettles, onward.trans further, ended⟩

theorem lockstep_loop {ends : α → Tape → Prop} (kept : α → Tape → Prop)
    (each : ∀ value here, kept value here → Lockstep here (turn value) (otherTurn value)
      (turnEnds (fun next final => kept next final ∧
        final.following.length < here.following.length) ends))
    (holds : kept value tape) :
    Lockstep tape (loop turn value) (loop otherTurn value) ends := by
  obtain ⟨result, final, settles, otherSettles, onward, ended⟩ :=
    settle_together kept each holds
  have runs := run_loop_of_settles settles
  refine ⟨?_, ?_, ?_⟩
  · rw [run_loop_of_settles otherSettles, runs]
  · rw [runs]
    exact onward
  · rw [runs]
    exact ended

/-- Turns that agree keep the bound. -/
theorem TurnsAgree.each (agree : TurnsAgree bound turn otherTurn) (value : α) (here : Tape)
    (isSealed : here.Sealed bound) :
    Lockstep here (turn value) (otherTurn value)
      (turnEnds (fun _ final => final.Sealed bound ∧
        final.following.length < here.following.length) fun _ => Tape.Sealed bound) := by
  have goes := agree here.following.length isSealed.short value here isSealed.tight
  refine goes.weaken fun result final _ ended => ?_
  cases result with
  | again next => exact ⟨ended.mono (Nat.le_of_lt isSealed.short), ended.short⟩
  | done result => exact ended.mono isSealed.short

theorem TurnsAgree.loop (agree : TurnsAgree bound turn otherTurn) (value : α) :
    Agree bound (loop turn value) (loop otherTurn value) :=
  fun _ isSealed => lockstep_loop (fun _ => Tape.Sealed bound) agree.each isSealed

theorem TurnsAgree.mono (agree : TurnsAgree bound turn otherTurn) (isFewer : fewer ≤ bound) :
    TurnsAgree fewer turn otherTurn :=
  fun left isLeft => agree left (Nat.lt_of_lt_of_le isLeft isFewer)

theorem Progresses.of_succ (agree : ∀ bound, TurnsAgree (bound + 1) turn turn) :
    Progresses turn :=
  fun bound => (agree bound).mono (Nat.le_succ bound)

/-- From every tape that the end of the input ends, a turn leads onward and the loop comes to a last
turn. -/
def Terminates (turn : α → Read (Turn α)) : Prop :=
  ∀ (value : α) (tape : Tape) (bound : Nat), tape.Sealed bound →
    tape.Onward ((turn value).run tape).2 ∧
      ∃ result final, Settles turn value tape result final ∧ tape.Onward final

theorem Progresses.terminates (progresses : Progresses turn) : Terminates turn := by
  intro value tape bound isSealed
  obtain ⟨result, final, settles, -, onward, -⟩ :=
    settle_together (fun _ => Tape.Sealed bound) (progresses bound).each isSealed
  exact ⟨((progresses bound).each value tape isSealed).onward, result, final, settles, onward⟩

end Actions

end Stencil.Grammar
