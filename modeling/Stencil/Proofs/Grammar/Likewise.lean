import Stencil.Proofs.Grammar.Beside
import Stencil.Proofs.Grammar.Confined
import Stencil.Proofs.Syntax.Unplaced

/-!
Contract: what is read inside a tag depends on nothing but the words of the tag.

Owns:
- pairs of actions that, side by side inside a tag, give the same up to places;
- every reader of the expression grammar is paired with itself, whatever follows the tag and
  wherever the tag stands.

Does not own: the clauses of tags (`Stencil.Proofs.Grammar.Alongside`).
-/

set_option autoImplicit false

namespace Stencil.Grammar

open Stencil.Syntax
open Stencil.Text (Span)
open Stencil.Token (Kind Symbol Delimiter)
open Levels Read

variable {α β γ : Type}

/-! ### Up to places -/

/-- Whether two values are the same once a part of them, such as their places, is left out. -/
def Upto (reduced : α → β) (value same : α) : Prop := reduced same = reduced value

/-- Whether two values are the same. -/
def Same (value same : α) : Prop := same = value

/-- Nothing is said about two values. -/
def Anything (_ _ : α) : Prop := True

abbrev SameExpr : Expr → Expr → Prop := Upto Expr.unplaced

abbrev SameExprs : List Expr → List Expr → Prop := Upto (List.map Expr.unplaced)

theorem SameExprs.concat {items twins : List Expr} {item twin : Expr}
    (same : SameExprs items twins) (sameItem : SameExpr item twin) :
    SameExprs (items ++ [item]) (twins ++ [twin]) := by
  unfold SameExprs Upto at *
  rw [List.map_append, List.map_append, same, List.map_singleton, List.map_singleton, sameItem]

theorem SameExpr.isMissing {expr twin : Expr} (same : SameExpr expr twin) :
    twin.isMissing = expr.isMissing := by
  rw [← isMissing_unplaced, same, isMissing_unplaced]

/-! ### Pairs of actions inside a tag -/

/-- Where two tapes are read side by side: inside a tag. -/
structure Lane where
  like : Likeness
  margin : Margin
  delimiter : Delimiter

namespace Lane

abbrev Beside (lane : Lane) (bound : Nat) (tape other : Tape) : Prop :=
  Grammar.Beside lane.like lane.margin bound (.inside lane.delimiter) tape other

/-- Whether two actions, started side by side inside a tag before fewer than `bound` shared tokens,
give values that are related and leave their tapes side by side. -/
def Likewise (lane : Lane) (bound : Nat) (rel : α → α → Prop) (action twin : Read α) : Prop :=
  ∀ fewer ≤ bound, ∀ tape other : Tape, lane.Beside fewer tape other →
    Twin tape other action twin fun value same here there =>
      rel value same ∧ lane.Beside fewer here there

end Lane

variable {lane : Lane} {bound fewer : Nat} {tape other : Tape} {rel : α → α → Prop}
  {relNext : β → β → Prop} {action twin : Read α}

namespace Lane.Likewise

theorem mono (likewise : lane.Likewise bound rel action twin) (isFewer : fewer ≤ bound) :
    lane.Likewise fewer rel action twin :=
  fun least isLeast => likewise least (Nat.le_trans isLeast isFewer)

theorem on (likewise : lane.Likewise bound rel action twin)
    (beside : lane.Beside bound tape other) :
    Twin tape other action twin fun value same here there =>
      rel value same ∧ lane.Beside bound here there :=
  likewise bound (Nat.le_refl bound) tape other beside

/-- Side by side there is always a shared token left, the end of the tag. -/
theorem intro
    (each : ∀ fewer < bound, ∀ tape other : Tape, lane.Beside (fewer + 1) tape other →
      Twin tape other action twin fun value same here there =>
        rel value same ∧ lane.Beside (fewer + 1) here there) :
    lane.Likewise bound rel action twin := by
  intro fewer isFewer tape other beside
  obtain ⟨least, rfl⟩ := beside.exists_succ
  exact each least isFewer tape other beside

theorem bind {next others : α → Read β} (first : lane.Likewise bound rel action twin)
    (rest : ∀ value same, rel value same →
      lane.Likewise bound relNext (next value) (others same)) :
    lane.Likewise bound relNext (action >>= next) (twin >>= others) :=
  fun fewer isFewer tape other beside =>
    (first fewer isFewer tape other beside).bind fun value same here there ended =>
      rest value same ended.1 fewer isFewer here there ended.2

theorem weaken {weaker : α → α → Prop} (likewise : lane.Likewise bound rel action twin)
    (weakens : ∀ value same, rel value same → weaker value same) :
    lane.Likewise bound weaker action twin :=
  fun fewer isFewer tape other beside =>
    (likewise fewer isFewer tape other beside).weaken fun value same _ _ ended =>
      ⟨weakens value same ended.1, ended.2⟩

theorem pure {value same : α} (holds : rel value same) :
    lane.Likewise bound rel (Pure.pure value) (Pure.pure same) :=
  fun _ _ _ _ beside => ⟨holds, beside⟩

theorem map {f g : α → β}
    (likewise : lane.Likewise bound (fun value same => relNext (f value) (g same)) action twin) :
    lane.Likewise bound relNext (f <$> action) (g <$> twin) := likewise

theorem ite {condition twinCondition : Prop} {_ : Decidable condition}
    {_ : Decidable twinCondition} {yes no otherYes otherNo : Read α}
    (same : twinCondition ↔ condition) (left : lane.Likewise bound rel yes otherYes)
    (right : lane.Likewise bound rel no otherNo) :
    lane.Likewise bound rel (if condition then yes else no)
      (if twinCondition then otherYes else otherNo) :=
  fun fewer isFewer tape other beside =>
    .ite same (fun _ => left fewer isFewer tape other beside)
      fun _ => right fewer isFewer tape other beside

theorem some {reader twinReader : Read Expr}
    (likewise : lane.Likewise bound SameExpr reader twinReader) :
    lane.Likewise bound (Upto (Option.map Expr.unplaced)) (some <$> reader)
      (some <$> twinReader) :=
  .map (likewise.weaken fun _ _ same => congrArg Option.some same)

end Lane.Likewise

/-! ### Single actions -/

theorem likewise_peek : lane.Likewise bound lane.like.token peek peek :=
  fun _ _ _ _ beside => ⟨beside.current, beside⟩

theorem likewise_atKind (kind : Kind) :
    lane.Likewise bound Same (atKind kind) (atKind kind) :=
  fun _ _ _ _ beside => ⟨congrArg (· == kind) (Likeness.kind beside.current), beside⟩

theorem likewise_atWord (word : String) :
    lane.Likewise bound Same (atWord word) (atWord word) :=
  fun _ _ _ _ beside => ⟨Likeness.isName beside.current word, beside⟩

theorem likewise_atTagEnd : lane.Likewise bound Same atTagEnd atTagEnd :=
  fun _ _ _ _ beside => ⟨congrArg Kind.isTagEnd (Likeness.kind beside.current), beside⟩

theorem likewise_atClose : lane.Likewise bound Same atClose atClose :=
  fun _ _ _ _ beside =>
    ⟨congrArg (fun kind : Kind => kind.isTagEnd || kind == .endOfInput)
      (Likeness.kind beside.current), beside⟩

theorem likewise_previousSpan : lane.Likewise bound Anything previousSpan previousSpan :=
  fun _ _ _ _ beside => ⟨trivial, beside⟩

theorem likewise_spanFrom (start twinStart : Span) :
    lane.Likewise bound Anything (spanFrom start) (spanFrom twinStart) :=
  fun _ _ _ _ beside => ⟨trivial, beside⟩

/-- What is wrong at tokens that stand for each other is reported on both tapes. -/
theorem likewise_mistake {token twin : Token} (same : lane.like.token token twin)
    (cause : Mistake) :
    lane.Likewise bound Same (mistake cause token.span) (mistake cause twin.span) :=
  fun _ _ _ _ beside => ⟨rfl, beside.report (lane.like.mistake same cause)⟩

theorem likewise_expected (what : String) :
    lane.Likewise bound Same (expected what) (expected what) := by
  refine likewise_peek.bind fun token twin same => ?_
  rw [Likeness.describe same]
  exact likewise_mistake same _

theorem twin_advance (beside : lane.Beside (bound + 1) tape other)
    (inner : tape.current.kind.isInner = true) :
    Twin tape other advance advance fun token twin here there =>
      lane.like.token token twin ∧ lane.Beside bound here there :=
  ⟨beside.current, beside.advance inner⟩

theorem twin_pass (beside : lane.Beside bound tape other)
    (inner : tape.current.kind.isInner = true) :
    Twin tape other advance advance fun token twin here there =>
      lane.like.token token twin ∧ lane.Beside bound here there :=
  twin_advance (beside.mono (Nat.le_succ bound)) inner

/-- A token of a kind from the inside of tags is passed over on both tapes or on none. -/
theorem twin_take? {kind : Kind} (inner : kind.isInner = true)
    (beside : lane.Beside (bound + 1) tape other) :
    Twin tape other (take? kind) (take? kind) fun found twin here there =>
      match found, twin with
      | none, none => lane.Beside (bound + 1) here there
      | some token, some twin => lane.like.token token twin ∧ token.kind = kind ∧
          lane.Beside bound here there
      | _, _ => False := by
  unfold Twin
  rw [run_take?, run_take?, Likeness.kind beside.current]
  by_cases isKind : tape.current.kind = kind
  · rw [if_pos isKind, if_pos isKind]
    exact ⟨beside.current, isKind, beside.advance (isKind ▸ inner)⟩
  · rw [if_neg isKind, if_neg isKind]
    exact beside

/-- Whether a token was passed over on both tapes or on none, and where that leads. -/
def Lane.Taken (lane : Lane) (bound : Nat) (taken twin : Bool) (here there : Tape) : Prop :=
  twin = taken ∧ lane.Beside (bound + 1) here there ∧ (taken = true → lane.Beside bound here there)

theorem twin_takeSymbol (symbol : Symbol) (beside : lane.Beside (bound + 1) tape other) :
    Twin tape other (takeSymbol symbol) (takeSymbol symbol) (lane.Taken bound) := by
  unfold Twin
  rw [run_takeSymbol, run_takeSymbol, Likeness.kind beside.current]
  by_cases isSymbol : tape.current.kind = .symbol symbol
  · rw [if_pos isSymbol, if_pos isSymbol]
    have moved := beside.advance (isSymbol ▸ rfl)
    exact ⟨rfl, moved.mono (Nat.le_succ bound), fun _ => moved⟩
  · rw [if_neg isSymbol, if_neg isSymbol]
    exact ⟨rfl, beside, nofun⟩

theorem twin_takeWord (word : String) (beside : lane.Beside (bound + 1) tape other) :
    Twin tape other (takeWord word) (takeWord word) (lane.Taken bound) := by
  unfold Twin
  rw [run_takeWord, run_takeWord, Likeness.isName beside.current]
  by_cases isWord : tape.current.isName word = true
  · rw [if_pos isWord, if_pos isWord]
    have moved := beside.advance (isInner_of_isName isWord)
    exact ⟨rfl, moved.mono (Nat.le_succ bound), fun _ => moved⟩
  · rw [if_neg isWord, if_neg isWord]
    exact ⟨rfl, beside, nofun⟩

theorem likewise_takeSymbol (symbol : Symbol) :
    lane.Likewise bound Same (takeSymbol symbol) (takeSymbol symbol) :=
  .intro fun _ _ _ _ beside =>
    (twin_takeSymbol symbol beside).weaken fun _ _ _ _ taken => ⟨taken.1, taken.2.1⟩

theorem likewise_takeWord (word : String) :
    lane.Likewise bound Same (takeWord word) (takeWord word) :=
  .intro fun _ _ _ _ beside =>
    (twin_takeWord word beside).weaken fun _ _ _ _ taken => ⟨taken.1, taken.2.1⟩

theorem likewise_expectSymbol (symbol : Symbol) :
    lane.Likewise bound Same (expectSymbol symbol) (expectSymbol symbol) := by
  refine (likewise_takeSymbol symbol).bind fun taken _ same => ?_
  rw [same]
  exact .ite Iff.rfl (.pure rfl) ((likewise_expected _).bind fun _ _ _ => .pure rfl)

theorem likewise_expectWord (word : String) :
    lane.Likewise bound Same (expectWord word) (expectWord word) := by
  refine (likewise_takeWord word).bind fun taken _ same => ?_
  rw [same]
  exact .ite Iff.rfl (.pure rfl) (likewise_expected _)

theorem twin_expectName (what : String) (beside : lane.Beside (bound + 1) tape other) :
    Twin tape other (expectName what) (expectName what) fun name twin here there =>
      twin = name ∧ lane.Beside (bound + 1) here there := by
  refine (twin_take? rfl beside).bind fun found twin here there ended => ?_
  match found, twin, ended with
  | none, none, beside =>
      refine ((likewise_expected what).on beside).bind fun _ _ _ _ ended => ?_
      exact .pure ⟨rfl, ended.2⟩
  | some token, some twin, ⟨same, _, beside⟩ =>
      exact .pure ⟨congrArg some (Likeness.lexeme same), beside.mono (Nat.le_succ bound)⟩

theorem likewise_expectName (what : String) :
    lane.Likewise bound Same (expectName what) (expectName what) :=
  .intro fun _ _ _ _ beside => twin_expectName what beside

/-! ### Loops -/

/-- Whether two turns, started side by side, give related values and leave their tapes side by
side, behind a shared token unless they are the last. -/
def Lane.TurnsLikewise (lane : Lane) (bound : Nat) (rel : α → α → Prop)
    (turn twin : α → Read (Turn α)) : Prop :=
  ∀ limit < bound, ∀ value same : α, rel value same → ∀ tape other : Tape,
    lane.Beside (limit + 1) tape other →
      Twin tape other (turn value) (twin same)
        (turnsEnd (fun value same here there => rel value same ∧ lane.Beside limit here there)
          fun value same here there => rel value same ∧ lane.Beside (limit + 1) here there)

theorem likewise_loop {turn others : α → Read (Turn α)} {value same : α}
    (turns : lane.TurnsLikewise bound rel turn others) (holds : rel value same) :
    lane.Likewise bound rel (loop turn value) (loop others same) := by
  intro fewer isFewer tape other beside
  refine twin_loop (fun limit value same here there isLess holds beside => ?_) holds beside
  refine (turns limit (Nat.lt_of_lt_of_le isLess isFewer) value same holds here there beside).weaken
    fun result twin here there ended => ?_
  match result, twin, ended with
  | .again _, .again _, ended => exact ended
  | .done _, .done _, ended => exact ⟨ended.1, ended.2.mono isLess⟩

/-! ### Operands -/

section Operands

variable {token mate : Token}

theorem likewise_numberValue (same : lane.like.token token mate) (isFloat : Bool) :
    lane.Likewise bound Same (numberValue token isFloat) (numberValue mate isFloat) := by
  unfold numberValue
  rw [Likeness.lexeme same, Likeness.describe same]
  dsimp only
  split
  · exact .pure rfl
  · split
    · exact .pure rfl
    · exact (likewise_mistake same _).bind fun _ _ _ => .pure rfl

/-- Whether a point that follows an integer belongs to the chain: a name or a number stands behind
it. -/
def continuesChain (token : Token) : Bool :=
  match token.kind with
  | .name => true
  | .integer => true
  | .float => true
  | _ => false

theorem twin_integerOperand (same : lane.like.token token mate)
    (beside : lane.Beside (bound + 1) tape other) (inner : tape.current.kind.isInner = true) :
    Twin tape other (integerOperand token) (integerOperand mate) fun value same here there =>
      SameExpr value same ∧ lane.Beside bound here there := by
  refine (twin_advance beside inner).bind fun _ _ here there ended => ?_
  obtain ⟨_, beside⟩ := ended
  refine .seeing (run_peekAhead 1 here) (run_peekAhead 1 there) ?_
  refine .seeing (run_atSymbol .dot here) (run_atSymbol .dot there) ?_
  rw [Tape.ahead_one, Tape.ahead_one]
  have sameGuard := beside.guardedKind (show (Kind.symbol .dot).isInner = true from rfl) (!continuesChain ·)
    fun same => by rw [continuesChain, continuesChain, Likeness.kind same]
  refine .ite (Bool.eq_iff_iff.mp sameGuard) (fun isPoint => ?_) fun _ => ?_
  · rw [Bool.and_eq_true, beq_iff_eq] at isPoint
    have point : here.current.kind.isInner = true := by rw [isPoint.1]; rfl
    obtain ⟨least, rfl⟩ := beside.exists_succ
    refine (twin_advance beside point).bind fun _ _ _ _ ended => ?_
    refine ((likewise_numberValue same true).on ended.2).bind fun value _ _ _ ended => ?_
    obtain ⟨rfl, beside⟩ := ended
    exact .pure ⟨rfl, beside.mono (Nat.le_succ least)⟩
  · refine ((likewise_numberValue same false).on beside).bind fun value _ _ _ ended => ?_
    obtain ⟨rfl, beside⟩ := ended
    exact .pure ⟨rfl, beside⟩

theorem turnsLikewise_string : lane.TurnsLikewise bound (Upto Prod.fst) stringTurn stringTurn := by
  intro limit _ sum twinSum same tape other beside
  refine (twin_take? rfl beside).bind fun found twin here there ended => ?_
  match found, twin, ended with
  | none, none, beside => exact .pure ⟨same, beside⟩
  | some token, some twin, ⟨sameToken, _, beside⟩ =>
      refine .pure ⟨?_, beside⟩
      have sameValue : stringValue twin = stringValue token := by
        rw [stringValue, stringValue, Likeness.lexeme sameToken]
      exact congrArg₂ (· ++ ·) same sameValue

theorem twin_stringOperand (beside : lane.Beside (bound + 1) tape other)
    (inner : tape.current.kind.isInner = true) :
    Twin tape other stringOperand stringOperand fun value same here there =>
      SameExpr value same ∧ lane.Beside bound here there := by
  refine (twin_advance beside inner).bind fun token twin here there ended => ?_
  have sameValue : stringValue twin = stringValue token := by
    rw [stringValue, stringValue, Likeness.lexeme ended.1]
  have sameSum : Upto Prod.fst (stringValue token, token.span) (stringValue twin, twin.span) :=
    sameValue
  refine Lane.Likewise.on ?_ ended.2
  refine (likewise_loop turnsLikewise_string sameSum).bind fun _ _ same => .pure ?_
  exact congrArg (fun text => Expr.literal (.text text) default) same

theorem sameExpr_wordOperand (same : lane.like.token token mate) :
    SameExpr (wordOperand token) (wordOperand mate) := by
  unfold wordOperand
  rw [Likeness.lexeme same]
  split <;> rfl

/-- Whether the readers of the grammar one nesting deeper are paired. -/
structure Levels.Likewise (lane : Lane) (bound : Nat) (inner twin : Levels) : Prop where
  expression : lane.Likewise bound SameExpr inner.expression twin.expression
  negation : lane.Likewise bound SameExpr inner.negation twin.negation
  signed : lane.Likewise bound SameExpr inner.signed twin.signed
  chain : lane.Likewise bound SameExpr inner.chain twin.chain

variable {inner others : Levels}

theorem Levels.Likewise.mono (likewise : Levels.Likewise lane bound inner others)
    (isFewer : fewer ≤ bound) : Levels.Likewise lane fewer inner others :=
  ⟨likewise.expression.mono isFewer, likewise.negation.mono isFewer,
    likewise.signed.mono isFewer, likewise.chain.mono isFewer⟩

theorem turnsLikewise_tuple (likewise : Levels.Likewise lane bound inner others) :
    lane.TurnsLikewise bound SameExprs (tupleTurn inner) (tupleTurn others) := by
  intro limit isLess items twins same tape other beside
  refine (twin_takeSymbol .comma beside).bind fun taken _ here there ended => ?_
  obtain ⟨rfl, stays, passed⟩ := ended
  refine .ite Iff.rfl (fun isTaken => ?_) fun _ => .pure ⟨same, stays⟩
  refine ((likewise_atKind _).on (passed isTaken)).bind fun closes _ here there ended => ?_
  obtain ⟨rfl, beside⟩ := ended
  refine .ite Iff.rfl (fun _ => .pure ⟨same, beside.mono (Nat.le_succ limit)⟩) fun _ => ?_
  have reads := likewise.expression.mono (Nat.le_of_lt isLess)
  refine (reads.on beside).bind fun item twin here there ended => ?_
  obtain ⟨sameItem, beside⟩ := ended
  refine .pure ?_
  rw [sameItem.isMissing]
  cases item.isMissing with
  | true => exact ⟨same.concat sameItem, beside.mono (Nat.le_succ limit)⟩
  | false => exact ⟨same.concat sameItem, beside⟩

theorem twin_parenthesized (likewise : Levels.Likewise lane bound inner others)
    (beside : lane.Beside (bound + 1) tape other) (opens : tape.current.kind.isInner = true) :
    Twin tape other (parenthesized inner) (parenthesized others) fun value same here there =>
      SameExpr value same ∧ lane.Beside bound here there := by
  refine (twin_advance beside opens).bind fun token twin here there ended => ?_
  refine Lane.Likewise.on ?_ ended.2
  refine (likewise_takeSymbol .rightParen).bind fun isEmpty _ same => ?_
  rw [same]
  refine .ite Iff.rfl ?_ ?_
  · refine (likewise_spanFrom _ _).bind fun _ _ _ => .pure ?_
    rw [SameExpr, Upto, Expr.unplaced_tuple, Expr.unplaced_tuple]
  · refine likewise.expression.bind fun first twinFirst sameFirst => ?_
    refine (likewise_atKind _).bind fun isTuple _ same => ?_
    rw [same]
    refine .ite Iff.rfl ?_ ?_
    · have sameItems : SameExprs [first] [twinFirst] := congrArg (fun item => [item]) sameFirst
      refine (likewise_loop (turnsLikewise_tuple likewise) sameItems).bind
        fun items twins sameItems => ?_
      refine (likewise_expectSymbol _).bind fun _ _ _ => ?_
      refine (likewise_spanFrom _ _).bind fun _ _ _ => .pure ?_
      rw [SameExpr, Upto, Expr.unplaced_tuple, Expr.unplaced_tuple, sameItems]
    · refine (likewise_expectSymbol _).bind fun _ _ _ => ?_
      refine (likewise_spanFrom _ _).bind fun _ _ _ => .pure ?_
      exact congrArg (Expr.group · default) sameFirst

theorem turnsLikewise_item {item twinItem : Read Expr}
    (likewise : lane.Likewise bound SameExpr item twinItem) (closing : Symbol) :
    lane.TurnsLikewise bound SameExprs (itemTurn closing item) (itemTurn closing twinItem) := by
  intro limit isLess items twins same tape other beside
  refine ((likewise_atKind _).on beside).bind fun closes _ here there ended => ?_
  obtain ⟨rfl, beside⟩ := ended
  refine (likewise_atClose.on beside).bind fun ends _ here there ended => ?_
  obtain ⟨rfl, beside⟩ := ended
  refine .ite Iff.rfl (fun _ => .pure ⟨same, beside⟩) fun _ => ?_
  refine ((likewise.mono isLess).on beside).bind fun item twin here there ended => ?_
  obtain ⟨sameItem, beside⟩ := ended
  have sameItems := same.concat sameItem
  refine .ite (by rw [sameItem.isMissing]) (fun _ => .pure ⟨sameItems, beside⟩) fun _ => ?_
  refine (twin_takeSymbol .comma beside).bind fun taken _ here there ended => ?_
  obtain ⟨rfl, stays, passed⟩ := ended
  exact .ite Iff.rfl (fun isTaken => .pure ⟨sameItems, passed isTaken⟩)
    fun _ => .pure ⟨sameItems, stays⟩

theorem twin_listOperand (likewise : Levels.Likewise lane bound inner others)
    (beside : lane.Beside (bound + 1) tape other) (opens : tape.current.kind.isInner = true) :
    Twin tape other (listOperand inner) (listOperand others) fun value same here there =>
      SameExpr value same ∧ lane.Beside bound here there := by
  refine (twin_advance beside opens).bind fun token twin here there ended => ?_
  refine Lane.Likewise.on ?_ ended.2
  refine (likewise_loop (turnsLikewise_item likewise.expression _) rfl).bind
    fun items twins sameItems => ?_
  refine (likewise_expectSymbol _).bind fun _ _ _ => ?_
  refine (likewise_spanFrom _ _).bind fun _ _ _ => .pure ?_
  rw [SameExpr, Upto, Expr.unplaced_list, Expr.unplaced_list, sameItems]

theorem turnsLikewise_entry (likewise : Levels.Likewise lane bound inner others) :
    lane.TurnsLikewise bound (Upto (List.map Expr.unplacedEntry)) (entryTurn inner)
      (entryTurn others) := by
  intro limit isLess entries twins same tape other beside
  have reads := likewise.expression.mono isLess
  refine ((likewise_atKind _).on beside).bind fun closes _ here there ended => ?_
  obtain ⟨rfl, beside⟩ := ended
  refine (likewise_atClose.on beside).bind fun ends _ here there ended => ?_
  obtain ⟨rfl, beside⟩ := ended
  refine .ite Iff.rfl (fun _ => .pure ⟨same, beside⟩) fun _ => ?_
  refine (reads.on beside).bind fun key twinKey here there ended => ?_
  obtain ⟨sameKey, beside⟩ := ended
  refine .ite (by rw [sameKey.isMissing]) (fun _ => .pure ⟨same, beside⟩) fun _ => ?_
  refine ((likewise_expectSymbol _).on beside).bind fun isThere _ here there ended => ?_
  obtain ⟨rfl, beside⟩ := ended
  refine .ite Iff.rfl (fun _ => .pure ⟨same, beside⟩) fun _ => ?_
  refine (reads.on beside).bind fun value twinValue here there ended => ?_
  obtain ⟨sameValue, beside⟩ := ended
  have sameEntries : Upto (List.map Expr.unplacedEntry) (entries ++ [(key, value)])
      (twins ++ [(twinKey, twinValue)]) := by
    unfold Upto at same ⊢
    rw [List.map_append, List.map_append, same, List.map_singleton, List.map_singleton,
      Expr.unplacedEntry, Expr.unplacedEntry, sameKey, sameValue]
  refine .ite (by rw [sameValue.isMissing]) (fun _ => .pure ⟨sameEntries, beside⟩) fun _ => ?_
  refine (twin_takeSymbol .comma beside).bind fun taken _ here there ended => ?_
  obtain ⟨rfl, stays, passed⟩ := ended
  exact .ite Iff.rfl (fun isTaken => .pure ⟨sameEntries, passed isTaken⟩)
    fun _ => .pure ⟨sameEntries, stays⟩

theorem twin_dictOperand (likewise : Levels.Likewise lane bound inner others)
    (beside : lane.Beside (bound + 1) tape other) (opens : tape.current.kind.isInner = true) :
    Twin tape other (dictOperand inner) (dictOperand others) fun value same here there =>
      SameExpr value same ∧ lane.Beside bound here there := by
  refine (twin_advance beside opens).bind fun token twin here there ended => ?_
  refine Lane.Likewise.on ?_ ended.2
  refine (likewise_loop (turnsLikewise_entry likewise) rfl).bind fun entries twins sameEntries => ?_
  refine (likewise_expectSymbol _).bind fun _ _ _ => ?_
  refine (likewise_spanFrom _ _).bind fun _ _ _ => .pure ?_
  rw [SameExpr, Upto, Expr.unplaced_dict, Expr.unplaced_dict, sameEntries]

theorem likewise_operand (likewise : Levels.Likewise lane bound inner others) :
    lane.Likewise (bound + 1) SameExpr (operand inner) (operand others) := by
  refine .intro fun fewer isFewer tape other beside => ?_
  have likewise := likewise.mono (Nat.le_of_lt_succ isFewer)
  have same := beside.current
  have settles : ∀ {reader twinReader : Read Expr},
      (Twin tape other reader twinReader fun value same here there =>
        SameExpr value same ∧ lane.Beside fewer here there) →
      Twin tape other reader twinReader fun value same here there =>
        SameExpr value same ∧ lane.Beside (fewer + 1) here there :=
    fun read => read.weaken fun _ _ _ _ ended => ⟨ended.1, ended.2.mono (Nat.le_succ fewer)⟩
  refine .seeing (run_peek tape) (run_peek other) ?_
  rw [Likeness.kind same]
  split
  · rename_i isName
    refine settles ((twin_advance beside (by rw [isName]; rfl)).bind fun _ _ _ _ ended => ?_)
    exact .pure ⟨sameExpr_wordOperand same, ended.2⟩
  · rename_i isInteger
    exact settles (twin_integerOperand same beside (by rw [isInteger]; rfl))
  · rename_i isFloat
    refine settles ((twin_advance beside (by rw [isFloat]; rfl)).bind fun _ _ _ _ ended => ?_)
    refine Lane.Likewise.on ?_ ended.2
    refine (likewise_numberValue same true).bind fun value _ same => .pure ?_
    rw [same]
    rfl
  · rename_i isString
    exact settles (twin_stringOperand beside (by rw [isString]; rfl))
  · rename_i isParen
    exact settles (twin_parenthesized likewise beside (by rw [isParen]; rfl))
  · rename_i isBracket
    exact settles (twin_listOperand likewise beside (by rw [isBracket]; rfl))
  · rename_i isBrace
    exact settles (twin_dictOperand likewise beside (by rw [isBrace]; rfl))
  · refine Lane.Likewise.on ?_ beside
    exact (likewise_expected _).bind fun _ _ _ => .pure rfl

/-! ### The chain after an operand -/

variable {value mateValue : Expr}

theorem sameExpr_items {span mateSpan : Span} (segments : List (List Char))
    (same : SameExpr value mateValue) :
    SameExpr
      (segments.foldl (fun value segment =>
        .item value (.literal (segmentKey segment) span) (value.span.cover span)) value)
      (segments.foldl (fun value segment =>
        .item value (.literal (segmentKey segment) mateSpan) (value.span.cover mateSpan))
        mateValue) := by
  induction segments generalizing value mateValue with
  | nil => exact same
  | cons segment rest inductionHypothesis =>
      refine inductionHypothesis ?_
      exact congrArg (Expr.item · (.literal (segmentKey segment) default) default) same

theorem twin_attributeOf (same : SameExpr value mateValue)
    (beside : lane.Beside (bound + 1) tape other) (inner : tape.current.kind.isInner = true) :
    Twin tape other (attributeOf value) (attributeOf mateValue) fun value same here there =>
      SameExpr value same ∧ lane.Beside bound here there := by
  refine (twin_advance beside inner).bind fun _ _ here there ended => ?_
  obtain ⟨_, beside⟩ := ended
  have sameToken := beside.current
  refine .seeing (run_peek here) (run_peek there) ?_
  rw [Likeness.kind sameToken]
  have passes : here.current.kind.isInner = true → ∀ {value same : Expr}, SameExpr value same →
      Twin here there (do let _ ← advance; return value) (do let _ ← advance; return same)
        fun value same here there => SameExpr value same ∧ lane.Beside bound here there :=
    fun inner _ _ same =>
      (twin_advance (beside.mono (Nat.le_succ bound)) inner).bind fun _ _ _ _ ended =>
        .pure ⟨same, ended.2⟩
  split
  · rename_i isName
    refine passes (by rw [isName]; rfl) ?_
    rw [SameExpr, Upto, Likeness.lexeme sameToken]
    exact congrArg (Expr.attribute · here.current.lexeme default) same
  · rename_i isInteger
    refine passes (by rw [isInteger]; rfl) ?_
    rw [Likeness.lexeme sameToken]
    exact sameExpr_items _ same
  · rename_i isFloat
    refine passes (by rw [isFloat]; rfl) ?_
    rw [Likeness.lexeme sameToken]
    exact sameExpr_items _ same
  · refine Lane.Likewise.on ?_ beside
    exact (likewise_expected _).bind fun _ _ _ => .pure same

theorem twin_subscriptOf (likewise : Levels.Likewise lane bound inner others)
    (same : SameExpr value mateValue) (beside : lane.Beside (bound + 1) tape other)
    (opens : tape.current.kind.isInner = true) :
    Twin tape other (subscriptOf inner value) (subscriptOf others mateValue)
      fun value same here there => SameExpr value same ∧ lane.Beside bound here there := by
  refine (twin_advance beside opens).bind fun _ _ here there ended => ?_
  refine Lane.Likewise.on ?_ ended.2
  refine likewise.expression.bind fun index twinIndex sameIndex => ?_
  refine (likewise_expectSymbol _).bind fun _ _ _ => ?_
  refine likewise_previousSpan.bind fun _ _ _ => .pure ?_
  exact congrArg₂ (Expr.item · · default) same sameIndex

theorem sameExpr_keyword {name : String} {span twinSpan : Span} (same : SameExpr value mateValue) :
    SameExpr (.keyword name value span) (.keyword name mateValue twinSpan) :=
  congrArg (Expr.keyword name · default) same

theorem likewise_namedArgument? {reader twinReader : Read Expr}
    (likewise : lane.Likewise bound SameExpr reader twinReader) :
    lane.Likewise bound (Upto (Option.map Expr.unplaced)) (namedArgument? reader)
      (namedArgument? twinReader) := by
  intro fewer isFewer tape other beside
  have sameGuard := beside.guardedKind (show Kind.name.isInner = true from rfl) (·.isSymbol .assign)
    fun same => Likeness.isSymbol same _
  refine .seeing (run_peekAhead 1 tape) (run_peekAhead 1 other) ?_
  refine .seeing (run_atKind .name tape) (run_atKind .name other) ?_
  rw [Tape.ahead_one, Tape.ahead_one]
  refine .ite (Bool.eq_iff_iff.mp sameGuard) (fun named => ?_) fun _ => .pure ⟨rfl, beside⟩
  rw [Bool.and_eq_true, beq_iff_eq, Token.isSymbol, beq_iff_eq] at named
  have passesName := beside.pass (by rw [named.1]; rfl)
  refine (show Twin tape other advance advance _ from
    ⟨beside.current, rfl, rfl⟩ : Twin tape other advance advance fun token twin here there =>
      lane.like.token token twin ∧ here = tape.advance ∧ there = other.advance).bind
    fun token twin here there ended => ?_
  obtain ⟨sameToken, rfl, rfl⟩ := ended
  have assigns : tape.advance.current.kind.isInner = true := by rw [named.2]; rfl
  refine (twin_advance (passesName.mono (Nat.le_succ fewer)) assigns).bind fun _ _ _ _ ended => ?_
  refine Lane.Likewise.on ?_ ended.2
  refine (likewise.mono isFewer).bind fun value twinValue same => .pure ?_
  rw [Likeness.lexeme sameToken]
  exact congrArg some (sameExpr_keyword same)

theorem likewise_argument {reader twinReader : Read Expr}
    (likewise : lane.Likewise bound SameExpr reader twinReader) :
    lane.Likewise bound SameExpr (argument reader) (argument twinReader) := by
  refine (likewise_namedArgument? likewise).bind fun found twin same => ?_
  match found, twin, same with
  | none, none, _ => exact likewise
  | some arg, some twin, same => exact .pure (Option.some.inj same)

theorem twin_arguments (likewise : Levels.Likewise lane bound inner others)
    (beside : lane.Beside (bound + 1) tape other) (opens : tape.current.kind.isInner = true) :
    Twin tape other (arguments inner) (arguments others) fun args twins here there =>
      SameExprs args twins ∧ lane.Beside bound here there := by
  refine (twin_advance beside opens).bind fun _ _ here there ended => ?_
  refine Lane.Likewise.on ?_ ended.2
  have reads := likewise_argument likewise.expression
  refine (likewise_loop (turnsLikewise_item reads _) rfl).bind fun args twins sameArgs => ?_
  exact (likewise_expectSymbol _).bind fun _ _ _ => .pure sameArgs

theorem twin_callOf (likewise : Levels.Likewise lane bound inner others)
    (same : SameExpr value mateValue) (beside : lane.Beside (bound + 1) tape other)
    (opens : tape.current.kind.isInner = true) :
    Twin tape other (callOf inner value) (callOf others mateValue)
      fun value same here there => SameExpr value same ∧ lane.Beside bound here there := by
  refine (twin_arguments likewise beside opens).bind fun args twins here there ended => ?_
  refine Lane.Likewise.on ?_ ended.2
  refine likewise_previousSpan.bind fun _ _ _ => .pure ?_
  rw [SameExpr, Upto, Expr.unplaced_call, Expr.unplaced_call, same, ended.1]

/-- A turn that goes on with what was read where it passed over a token. -/
theorem twin_again {reader twinReader : Read Expr}
    {done : Expr → Expr → Tape → Tape → Prop}
    (reads : Twin tape other reader twinReader fun value same here there =>
      SameExpr value same ∧ lane.Beside bound here there) :
    Twin tape other (Turn.again <$> reader) (Turn.again <$> twinReader)
      (turnsEnd (fun value same here there => SameExpr value same ∧ lane.Beside bound here there)
        done) :=
  .map reads

theorem turnsLikewise_plain (likewise : Levels.Likewise lane bound inner others)
    (withCalls : Bool) :
    lane.TurnsLikewise (bound + 1) SameExpr (plainTurn inner withCalls)
      (plainTurn others withCalls) := by
  intro limit isLess value twin same tape other beside
  have likewise := likewise.mono (Nat.le_of_lt_succ isLess)
  refine .seeing (run_peek tape) (run_peek other) ?_
  rw [Likeness.kind beside.current]
  split
  · rename_i isPoint
    exact twin_again (twin_attributeOf same beside (by rw [isPoint]; rfl))
  · rename_i isBracket
    exact twin_again (twin_subscriptOf likewise same beside (by rw [isBracket]; rfl))
  · rename_i isParen
    refine .ite Iff.rfl (fun _ => ?_) fun _ => .pure ⟨same, beside⟩
    exact twin_again (twin_callOf likewise same beside (by rw [isParen]; rfl))
  · exact .pure ⟨same, beside⟩

theorem likewise_plainChain (likewise : Levels.Likewise lane bound inner others)
    (withCalls : Bool) :
    lane.Likewise (bound + 1) SameExpr (plainChain inner withCalls)
      (plainChain others withCalls) :=
  (likewise_operand likewise).bind fun _ _ same =>
    likewise_loop (turnsLikewise_plain likewise withCalls) same

theorem beginsBareArgument_of_like (same : lane.like.token token mate) :
    beginsBareArgument mate = beginsBareArgument token := by
  rw [beginsBareArgument, beginsBareArgument, Likeness.kind same, Likeness.lexeme same]

theorem isInner_of_beginsBareArgument (begins : beginsBareArgument token = true) :
    token.kind.isInner = true := by
  unfold beginsBareArgument at begins
  split at begins
  · rename_i isKind
    rw [isKind]
    rfl
  · rename_i isKind
    rw [isKind]
    rfl
  · rename_i isKind
    rw [isKind]
    rfl
  · rename_i isKind
    rw [isKind]
    rfl
  · cases begins

theorem turnsLikewise_bare (likewise : Levels.Likewise lane bound inner others) :
    lane.TurnsLikewise (bound + 1) SameExprs (bareTurn inner) (bareTurn others) := by
  intro limit isLess args twins same tape other beside
  have reads := (likewise_argument (likewise_plainChain likewise true)).mono isLess
  refine (reads.on beside).bind fun arg twin here there ended => ?_
  obtain ⟨sameArg, beside⟩ := ended
  refine .seeing (run_peekAhead 1 here) (run_peekAhead 1 there) ?_
  refine .seeing (run_peekAhead 2 here) (run_peekAhead 2 there) ?_
  refine .seeing (run_atSymbol .comma here) (run_atSymbol .comma there) ?_
  rw [Tape.ahead_one, Tape.ahead_one, Tape.ahead_two, Tape.ahead_two, Bool.and_assoc,
    Bool.and_assoc]
  have sameGuard := beside.guarded (fun token => token.kind == .symbol .comma)
    (fun _ isComma => by rw [beq_iff_eq.mp isComma]; rfl) (fun same => by rw [Likeness.kind same])
    fun moved => moved.guarded beginsBareArgument (fun _ => isInner_of_beginsBareArgument)
      beginsBareArgument_of_like
      fun moved => congrArg (!·) (Likeness.isSymbol moved.current .assign)
  refine .ite (Bool.eq_iff_iff.mp sameGuard) (fun goesOn => ?_)
    fun _ => .pure ⟨same.concat sameArg, beside⟩
  rw [Bool.and_eq_true, beq_iff_eq] at goesOn
  refine (twin_advance beside (by rw [goesOn.1]; rfl)).bind fun _ _ _ _ ended => ?_
  exact .pure ⟨same.concat sameArg, ended.2⟩

theorem likewise_bareArguments (likewise : Levels.Likewise lane bound inner others) :
    lane.Likewise (bound + 1) SameExprs (bareArguments inner) (bareArguments others) := by
  refine likewise_peek.bind fun token twin same => ?_
  exact .ite (by rw [beginsBareArgument_of_like same]) (.pure rfl)
    (likewise_loop (turnsLikewise_bare likewise) rfl)

theorem turnsLikewise_dotted : lane.TurnsLikewise bound Same dottedTurn dottedTurn := by
  intro limit _ name _ same tape other beside
  rw [same]
  refine .seeing (run_peekAhead 1 tape) (run_peekAhead 1 other) ?_
  refine .seeing (run_atSymbol .dot tape) (run_atSymbol .dot other) ?_
  rw [Tape.ahead_one, Tape.ahead_one]
  have sameGuard := beside.guardedKind (show (Kind.symbol .dot).isInner = true from rfl)
    (fun token => token.kind == .name) fun same => by rw [Likeness.kind same]
  refine .ite (Bool.eq_iff_iff.mp sameGuard) (fun goesOn => ?_) fun _ => .pure ⟨rfl, beside⟩
  rw [Bool.and_eq_true, beq_iff_eq, beq_iff_eq] at goesOn
  have moved := beside.advance (by rw [goesOn.1]; rfl)
  have named : tape.advance.current.kind.isInner = true := by rw [goesOn.2]; rfl
  have part := moved.current
  refine .pure ⟨?_, moved.pass named⟩
  exact congrArg (name ++ "." ++ ·) (Likeness.lexeme part)

theorem likewise_dottedName (what : String) :
    lane.Likewise bound Same (dottedName what) (dottedName what) := by
  refine (likewise_expectName what).bind fun found _ same => ?_
  rw [same]
  cases found with
  | none => exact .pure rfl
  | some first => exact likewise_loop turnsLikewise_dotted rfl

theorem likewise_filterCall (likewise : Levels.Likewise lane bound inner others) :
    lane.Likewise (bound + 1) (Upto FilterCall.unplaced) (Levels.filterCall inner)
      (Levels.filterCall others) := by
  refine likewise_peek.bind fun token twin _ => ?_
  refine (likewise_dottedName _).bind fun name _ sameName => ?_
  rw [sameName]
  have ends : ∀ args twins : List Expr, SameExprs args twins →
      lane.Likewise (bound + 1) (Upto FilterCall.unplaced)
        (do return ⟨name, args, ← spanFrom token.span⟩)
        (do return ⟨name, twins, ← spanFrom twin.span⟩) := by
    intro args twins same
    refine (likewise_spanFrom _ _).bind fun _ _ _ => .pure ?_
    rw [Upto, FilterCall.unplaced, FilterCall.unplaced, same]
  refine .intro fun fewer isFewer tape other beside => ?_
  refine .seeing (run_atSymbol _ tape) (run_atSymbol _ other) ?_
  have likewise := likewise.mono (Nat.le_of_lt_succ isFewer)
  refine .ite (by rw [Likeness.kind beside.current]) (fun isParen => ?_) fun _ => ?_
  · refine (twin_arguments likewise beside (by rw [beq_iff_eq.mp isParen]; rfl)).bind
      fun args twins here there ended => ?_
    exact ((ends args twins ended.1).mono isFewer).on (ended.2.mono (Nat.le_succ fewer))
  · refine ((likewise_bareArguments likewise).on beside).bind fun args twins here there ended => ?_
    exact ((ends args twins ended.1).mono isFewer).on ended.2

theorem twin_testOf (likewise : Levels.Likewise lane bound inner others)
    (same : SameExpr value mateValue) (beside : lane.Beside (bound + 1) tape other)
    (opens : tape.current.kind.isInner = true) :
    Twin tape other (testOf inner value) (testOf others mateValue)
      fun value same here there => SameExpr value same ∧ lane.Beside bound here there := by
  refine (twin_advance beside opens).bind fun _ _ here there ended => ?_
  refine Lane.Likewise.on ?_ ended.2
  refine (likewise_takeWord _).bind fun negated _ sameNegated => ?_
  rw [sameNegated]
  refine (likewise_dottedName _).bind fun name _ sameName => ?_
  rw [sameName]
  have ends : ∀ args twins : List Expr, SameExprs args twins →
      lane.Likewise bound SameExpr
        (do return .test value negated name args (value.span.cover (← previousSpan)))
        (do return .test mateValue negated name twins (mateValue.span.cover (← previousSpan))) := by
    intro args twins sameArgs
    refine likewise_previousSpan.bind fun _ _ _ => .pure ?_
    rw [SameExpr, Upto, Expr.unplaced_test, Expr.unplaced_test, same, sameArgs]
  refine .intro fun fewer isFewer tape other beside => ?_
  refine .seeing (run_peek tape) (run_peek other) ?_
  rw [Likeness.isSymbol beside.current, Likeness.isSymbol beside.current,
    beginsBareArgument_of_like beside.current]
  by_cases isParen : tape.current.isSymbol .leftParen = true
  · simp only [if_pos isParen]
    have opens : tape.current.kind.isInner = true := by rw [beq_iff_eq.mp isParen]; rfl
    have likewise := likewise.mono (Nat.le_of_lt isFewer)
    refine (twin_arguments likewise beside opens).bind fun args twins here there ended => ?_
    exact ((ends args twins ended.1).mono isFewer).on (ended.2.mono (Nat.le_succ fewer))
  · simp only [if_neg isParen]
    refine Lane.Likewise.on ?_ beside
    refine Lane.Likewise.mono ?_ isFewer
    refine .ite Iff.rfl ?_ ?_
    · refine likewise.chain.bind fun arg twin sameArg => ?_
      exact ends [arg] [twin] (congrArg (fun expr => [expr]) sameArg)
    · exact ends [] [] rfl

theorem sameExpr_on {call twinCall : FilterCall} (sameCall : Upto FilterCall.unplaced call twinCall)
    (same : SameExpr value mateValue) : SameExpr (call.on value) (twinCall.on mateValue) := by
  obtain ⟨name, args, span⟩ := call
  obtain ⟨twinName, twinArgs, twinSpan⟩ := twinCall
  obtain ⟨sameName, sameArgs, _⟩ := FilterCall.mk.inj sameCall
  rw [SameExpr, Upto, FilterCall.on, FilterCall.on, Expr.unplaced_filter, Expr.unplaced_filter,
    same]
  dsimp only at sameName sameArgs ⊢
  rw [sameName, sameArgs]

theorem turnsLikewise_chain (likewise : Levels.Likewise lane bound inner others) :
    lane.TurnsLikewise (bound + 1) SameExpr (chainTurn inner) (chainTurn others) := by
  intro limit isLess value twin same tape other beside
  have likewise := likewise.mono (Nat.le_of_lt_succ isLess)
  refine .seeing (run_peek tape) (run_peek other) ?_
  rw [Likeness.kind beside.current]
  split
  · rename_i isPoint
    exact twin_again (twin_attributeOf same beside (by rw [isPoint]; rfl))
  · rename_i isBracket
    exact twin_again (twin_subscriptOf likewise same beside (by rw [isBracket]; rfl))
  · rename_i isParen
    exact twin_again (twin_callOf likewise same beside (by rw [isParen]; rfl))
  · rename_i isPipe
    refine (twin_advance beside (by rw [isPipe]; rfl)).bind fun _ _ here there ended => ?_
    have reads := (likewise_filterCall likewise).mono (Nat.le_succ limit)
    refine (reads.on ended.2).bind fun call twinCall here there ended => ?_
    exact .pure ⟨sameExpr_on ended.1 same, ended.2⟩
  · rename_i isName
    refine .seeing (run_atWord "is" tape) (run_atWord "is" other) ?_
    refine .ite (by rw [Likeness.isName beside.current]) (fun _ => ?_)
      fun _ => .pure ⟨same, beside⟩
    exact twin_again (twin_testOf likewise same beside (by rw [isName]; rfl))
  · exact .pure ⟨same, beside⟩

theorem likewise_chainLevel (likewise : Levels.Likewise lane bound inner others) :
    lane.Likewise (bound + 1) SameExpr (chainLevel inner) (chainLevel others) :=
  (likewise_operand likewise).bind fun _ _ same =>
    likewise_loop (turnsLikewise_chain likewise) same

/-! ### Operators -/

/-- Whether an operator is recognized by its word. -/
def OperatesByWord (operator? : Token → Option BinaryOp) : Prop :=
  ∀ {first second : Token}, wordOf second = wordOf first → operator? second = operator? first

theorem operatesByWord_of_kind {operator? : Token → Option BinaryOp}
    (byKind : ∀ {first second : Token}, second.kind = first.kind →
      operator? second = operator? first) : OperatesByWord operator? :=
  fun same => byKind (congrArg Word.kind same)

theorem turnsLikewise_left {operator? : Token → Option BinaryOp}
    (operates : OperatesInside operator?) (byWord : OperatesByWord operator?)
    {tighter twinTighter : Read Expr}
    (likewise : lane.Likewise bound SameExpr tighter twinTighter) :
    lane.TurnsLikewise bound SameExpr (leftTurn operator? tighter)
      (leftTurn operator? twinTighter) := by
  intro limit isLess left twin same tape other beside
  refine .seeing (run_peek tape) (run_peek other) ?_
  rw [byWord (lane.like.word beside.current)]
  cases isOperator : operator? tape.current with
  | none => exact .pure ⟨same, beside⟩
  | some op =>
      refine (twin_advance beside (operates _ op isOperator)).bind fun _ _ _ _ ended => ?_
      refine ((likewise.mono (Nat.le_of_lt isLess)).on ended.2).bind
        fun right twinRight _ _ ended => ?_
      exact .pure ⟨congrArg₂ (Expr.binary op · · default) same ended.1, ended.2⟩

theorem likewise_leftAssociative {operator? : Token → Option BinaryOp}
    (operates : OperatesInside operator?) (byWord : OperatesByWord operator?)
    {tighter twinTighter : Read Expr}
    (likewise : lane.Likewise bound SameExpr tighter twinTighter) :
    lane.Likewise bound SameExpr (leftAssociative operator? tighter)
      (leftAssociative operator? twinTighter) :=
  likewise.bind fun _ _ same => likewise_loop (turnsLikewise_left operates byWord likewise) same

theorem likewise_powerLevel (likewise : Levels.Likewise lane bound inner others) :
    lane.Likewise (bound + 1) SameExpr (powerLevel inner) (powerLevel others) := by
  refine (likewise_chainLevel likewise).bind fun base twinBase same => ?_
  refine .intro fun fewer isFewer tape other beside => ?_
  refine (twin_takeSymbol _ beside).bind fun taken _ here there ended => ?_
  obtain ⟨rfl, stays, passed⟩ := ended
  refine .ite Iff.rfl (fun isTaken => ?_) fun _ => .pure ⟨same, stays⟩
  have reads := likewise.signed.mono (Nat.le_of_lt_succ isFewer)
  refine (reads.on (passed isTaken)).bind fun power twinPower _ _ ended => ?_
  refine .pure ⟨?_, ended.2.mono (Nat.le_succ fewer)⟩
  exact congrArg₂ (Expr.binary .power · · default) same ended.1

theorem likewise_signedLevel (likewise : Levels.Likewise lane bound inner others) :
    lane.Likewise (bound + 1) SameExpr (signedLevel inner) (signedLevel others) := by
  refine .intro fun fewer isFewer tape other beside => ?_
  refine .seeing (run_peek tape) (run_peek other) ?_
  rw [Likeness.kind beside.current]
  dsimp only
  split
  · rename_i op isOperator
    have inner : tape.current.kind.isInner = true := by
      split at isOperator
      · rename_i isMinus
        rw [isMinus]
        rfl
      · rename_i isPlus
        rw [isPlus]
        rfl
      · cases isOperator
    refine (twin_advance beside inner).bind fun _ _ _ _ ended => ?_
    have reads := likewise.signed.mono (Nat.le_of_lt_succ isFewer)
    refine (reads.on ended.2).bind fun operand twinOperand _ _ ended => ?_
    refine .pure ⟨?_, ended.2.mono (Nat.le_succ fewer)⟩
    exact congrArg (Expr.unary op · default) ended.1
  · exact ((likewise_powerLevel likewise).mono isFewer).on beside

theorem likewise_concatLevel (likewise : Levels.Likewise lane bound inner others) :
    lane.Likewise (bound + 1) SameExpr (concatLevel inner) (concatLevel others) := by
  refine likewise_leftAssociative operatesInside_concat (operatesByWord_of_kind fun same => ?_) <|
    likewise_leftAssociative operatesInside_sum (operatesByWord_of_kind fun same => ?_) <|
      likewise_leftAssociative operatesInside_product (operatesByWord_of_kind fun same => ?_)
        (likewise_signedLevel likewise)
  · rw [concatOperator?, concatOperator?, Token.isSymbol, Token.isSymbol, same]
  · rw [sumOperator?, sumOperator?, same]
  · rw [productOperator?, productOperator?, same]

/-- Whether a membership test begins depends on the word behind the head only where that stands in
the same tag. -/
theorem membershipOperator?_of_beside (beside : lane.Beside bound tape other) :
    membershipOperator? other.current other.advance.current =
      membershipOperator? tape.current tape.advance.current := by
  unfold membershipOperator?
  rw [beside.guardedWord "not" (·.isName "in") fun same => Likeness.isName same _,
    Likeness.isName beside.current]

theorem turnsLikewise_membership (likewise : Levels.Likewise lane bound inner others) :
    lane.TurnsLikewise (bound + 1) SameExpr (membershipTurn inner) (membershipTurn others) := by
  intro limit isLess element twin same tape other beside
  have reads := (likewise_concatLevel likewise).mono (Nat.le_of_lt isLess)
  have ends : ∀ (negated : Bool) (here there : Tape), lane.Beside limit here there →
      Twin here there
        (do
          let container ← concatLevel inner
          return Turn.again (.membership negated element container
            (element.span.cover container.span)))
        (do
          let container ← concatLevel others
          return Turn.again (.membership negated twin container
            (twin.span.cover container.span)))
        (turnsEnd (fun value same here there => SameExpr value same ∧ lane.Beside limit here there)
          fun value same here there => SameExpr value same ∧ lane.Beside (limit + 1) here there) :=
    fun negated here there beside =>
      (reads.on beside).bind fun container twinContainer _ _ ended =>
        .pure ⟨congrArg₂ (Expr.membership negated · · default) same ended.1, ended.2⟩
  refine .seeing (run_peek tape) (run_peek other) ?_
  refine .seeing (run_peekAhead 1 tape) (run_peekAhead 1 other) ?_
  rw [Tape.ahead_one, Tape.ahead_one, membershipOperator?_of_beside beside]
  cases isOperator : membershipOperator? tape.current tape.advance.current with
  | none => exact .pure ⟨same, beside⟩
  | some negated =>
      unfold membershipOperator? at isOperator
      split at isOperator
      · rename_i isIn
        cases isOperator
        refine (twin_advance beside (isInner_of_isName isIn)).bind fun _ _ here there ended => ?_
        exact ends false here there ended.2
      · split at isOperator
        · rename_i isNotIn
          cases isOperator
          rw [Bool.and_eq_true] at isNotIn
          have passesNot := beside.advance (isInner_of_isName isNotIn.1)
          have passesIn := passesNot.pass (isInner_of_isName isNotIn.2)
          exact ends true _ _ passesIn
        · cases isOperator

theorem likewise_comparisonLevel (likewise : Levels.Likewise lane bound inner others) :
    lane.Likewise (bound + 1) SameExpr (comparisonLevel inner) (comparisonLevel others) := by
  refine likewise_leftAssociative operatesInside_comparison
    (operatesByWord_of_kind fun same => ?_) ?_
  · rw [comparisonOperator?, comparisonOperator?, same]
  · exact (likewise_concatLevel likewise).bind fun _ _ same =>
      likewise_loop (turnsLikewise_membership likewise) same

theorem likewise_negationLevel (likewise : Levels.Likewise lane bound inner others) :
    lane.Likewise (bound + 1) SameExpr (negationLevel inner) (negationLevel others) := by
  refine .intro fun fewer isFewer tape other beside => ?_
  refine .seeing (run_peek tape) (run_peek other) ?_
  rw [Likeness.isName beside.current]
  refine .ite Iff.rfl (fun isNot => ?_) fun _ => ?_
  · refine (twin_advance beside (isInner_of_isName isNot)).bind fun _ _ _ _ ended => ?_
    have reads := likewise.negation.mono (Nat.le_of_lt_succ isFewer)
    refine (reads.on ended.2).bind fun operand twinOperand _ _ ended => ?_
    refine .pure ⟨?_, ended.2.mono (Nat.le_succ fewer)⟩
    exact congrArg (Expr.unary .not · default) ended.1
  · exact ((likewise_comparisonLevel likewise).mono isFewer).on beside

theorem operatesByWord_word (word : String) (op : BinaryOp) :
    OperatesByWord (wordOperator? word op) := by
  intro first second same
  have sameKind : second.kind = first.kind := congrArg Word.kind same
  have sameLexeme : second.lexeme = first.lexeme := congrArg Word.lexeme same
  rw [wordOperator?, wordOperator?, Token.isName, Token.isName, sameKind, sameLexeme]

theorem likewise_disjunctionLevel (likewise : Levels.Likewise lane bound inner others) :
    lane.Likewise (bound + 1) SameExpr (disjunctionLevel inner) (disjunctionLevel others) :=
  likewise_leftAssociative (operatesInside_word _ _) (operatesByWord_word _ _) <|
    likewise_leftAssociative (operatesInside_word _ _) (operatesByWord_word _ _) <|
      likewise_negationLevel likewise

theorem likewise_conditionalLevel (likewise : Levels.Likewise lane bound inner others) :
    lane.Likewise (bound + 1) SameExpr (conditionalLevel inner) (conditionalLevel others) := by
  have reads := likewise_disjunctionLevel likewise
  refine reads.bind fun chosen twinChosen sameChosen => ?_
  have ends : ∀ (test twinTest : Expr) (otherwise twinOtherwise : Option Expr),
      SameExpr test twinTest → Upto (Option.map Expr.unplaced) otherwise twinOtherwise →
      lane.Likewise (bound + 1) SameExpr
        (do return .conditional test chosen otherwise (chosen.span.cover (← previousSpan)))
        (do return .conditional twinTest twinChosen twinOtherwise
              (twinChosen.span.cover (← previousSpan))) := by
    intro test twinTest otherwise twinOtherwise sameTest sameOtherwise
    refine likewise_previousSpan.bind fun _ _ _ => .pure ?_
    rw [SameExpr, Upto, Expr.unplaced_conditional, Expr.unplaced_conditional, sameTest, sameChosen,
      sameOtherwise]
  refine (likewise_takeWord _).bind fun hasTest _ same => ?_
  rw [same]
  refine .ite Iff.rfl ?_ (.pure sameChosen)
  refine reads.bind fun test twinTest sameTest => ?_
  refine .intro fun fewer isFewer tape other beside => ?_
  refine (twin_takeWord _ beside).bind fun taken _ here there ended => ?_
  obtain ⟨rfl, stays, passed⟩ := ended
  refine .ite Iff.rfl (fun isTaken => ?_) fun _ => ?_
  · have reads := likewise.expression.mono (Nat.le_of_lt_succ isFewer)
    refine (reads.some.on (passed isTaken)).bind fun _ _ here there ended => ?_
    have moved := ended.2.mono (Nat.le_succ fewer)
    exact ((ends _ _ _ _ sameTest ended.1).mono isFewer).on moved
  · exact ((ends _ _ none none sameTest rfl).mono isFewer).on stays

end Operands

/-! ### All nestings -/

/-- Expressions nested deeply enough for the shared tokens are read alike, however many tokens
follow those. -/
theorem likewise_nested {depth otherDepth : Nat} (enough : bound ≤ depth)
    (otherEnough : bound ≤ otherDepth) :
    Levels.Likewise lane bound (nested depth) (nested otherDepth) := by
  induction bound generalizing depth otherDepth with
  | zero =>
      have never : ∀ {action twin : Read Expr}, lane.Likewise 0 SameExpr action twin :=
        .intro fun _ impossible => absurd impossible (Nat.not_lt_zero _)
      exact ⟨never, never, never, never⟩
  | succ fewer inductionHypothesis =>
      obtain ⟨depth, rfl⟩ := Nat.exists_eq_add_of_le' (Nat.le_trans (Nat.succ_pos fewer) enough)
      obtain ⟨otherDepth, rfl⟩ :=
        Nat.exists_eq_add_of_le' (Nat.le_trans (Nat.succ_pos fewer) otherEnough)
      have likewise := inductionHypothesis (Nat.le_of_succ_le_succ enough)
        (Nat.le_of_succ_le_succ otherEnough)
      exact ⟨likewise_conditionalLevel likewise, likewise_negationLevel likewise,
        likewise_signedLevel likewise, likewise_chainLevel likewise⟩

theorem likewise_withNesting {part : Levels → Read α}
    (likewise : ∀ {bound : Nat} {inner others : Levels}, Levels.Likewise lane bound inner others →
      lane.Likewise (bound + 1) rel (part inner) (part others)) :
    lane.Likewise bound rel (withNesting part) (withNesting part) := by
  intro fewer _ tape other beside
  obtain ⟨least, beside, isLeast, enough, otherEnough⟩ := beside.least
  obtain ⟨least, rfl⟩ := beside.exists_succ
  have nestings : Levels.Likewise lane least (nested _) (nested _) :=
    likewise_nested (Nat.le_of_lt enough) (Nat.le_of_lt otherEnough)
  have reads := (likewise nestings).on beside
  refine (reads.weaken fun _ _ _ _ ended => ⟨ended.1, ended.2.mono isLeast⟩).of_runs ?_ ?_
  · exact run_withNesting _ tape
  · exact run_withNesting _ other

theorem likewise_expression : lane.Likewise bound SameExpr expression expression :=
  likewise_withNesting likewise_conditionalLevel

theorem likewise_disjunction : lane.Likewise bound SameExpr disjunction disjunction :=
  likewise_withNesting likewise_disjunctionLevel

theorem likewise_targetOperand : lane.Likewise bound SameExpr targetOperand targetOperand :=
  likewise_withNesting fun likewise => likewise_plainChain likewise false

theorem likewise_filter :
    lane.Likewise bound (Upto FilterCall.unplaced) filterCall filterCall :=
  likewise_withNesting likewise_filterCall

end Stencil.Grammar
