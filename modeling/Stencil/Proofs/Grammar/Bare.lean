import Stencil.Proofs.Grammar.Abreast

/-!
Contract: tapes whose marks are carried out, and actions that do the same on them.

Owns:
- tokens without marks: a text has lost the blanks that its neighbours take off;
- a tape and the one that is left when all its marks are carried out;
- actions that give the same on both, and how they are put together.

Does not own: which parts of the grammar are such actions (`Stencil.Proofs.Grammar.Unmarked`).
-/

set_option autoImplicit false

namespace Stencil.Token

/-- A kind of token without the marks that take blanks off. -/
def Kind.unmarked : Kind → Kind
  | .comment _ _ => .comment false false
  | .variableStart _ => .variableStart false
  | .variableEnd _ => .variableEnd false
  | .blockStart _ => .blockStart false
  | .blockEnd _ => .blockEnd false
  | kind => kind

end Stencil.Token

namespace Stencil.Grammar

open Stencil.Token (Kind Delimiter)
open Statement

/-! ### Tokens without marks -/

/-- The comment that says the given and has no marks. -/
def commentText (content : String) : String :=
  String.ofList (Token.commentOpener ++ content.toList ++ Token.commentCloser)

/-- How a word is written without marks, when the words around it take off the blanks before or
after it. -/
def Word.unmarkedLexeme (before after : Bool) (word : Word) : String :=
  match word.kind with
  | .text => trimmed before after word.lexeme
  | .comment trimBefore trimAfter =>
      commentText (commentContent word.lexeme trimBefore trimAfter)
  | .variableStart _ => String.ofList Delimiter.output.opener
  | .variableEnd _ => String.ofList Delimiter.output.closer
  | .blockStart _ => String.ofList Delimiter.block.opener
  | .blockEnd _ => String.ofList Delimiter.block.closer
  | _ => word.lexeme

def Word.unmarked (before after : Bool) (word : Word) : Word :=
  ⟨word.kind.unmarked, word.unmarkedLexeme before after⟩

/-- Words with all marks carried out; `before` tells whether the first one loses its leading
blanks. -/
def unmarkedWords : Bool → List Word → List Word
  | _, [] => []
  | before, word :: rest =>
      word.unmarked before (rest.head?.any (·.kind.trimsBefore)) ::
        unmarkedWords word.kind.trimsAfter rest

end Stencil.Grammar

namespace Stencil.Token

open Stencil.Grammar

def unmarked (before after : Bool) (token : Token) : Token :=
  ⟨token.kind.unmarked, (wordOf token).unmarkedLexeme before after, token.span⟩

variable (before after : Bool) (token : Token)

theorem kind_unmarked : (token.unmarked before after).kind = token.kind.unmarked := rfl

theorem trimsAfter_unmarked : (token.unmarked before after).kind.trimsAfter = false := by
  obtain ⟨kind, lexeme, span⟩ := token
  cases kind <;> rfl

theorem trimsBefore_unmarked : (token.unmarked before after).kind.trimsBefore = false := by
  obtain ⟨kind, lexeme, span⟩ := token
  cases kind <;> rfl

variable {token}

theorem unmarked_of_isInner (inner : token.kind.isInner = true) :
    token.unmarked before after = token := by
  obtain ⟨kind, lexeme, span⟩ := token
  cases kind <;> first | rfl | cases inner

theorem unmarked_of_text (isText : token.kind = .text) :
    token.unmarked before after = { token with lexeme := trimmed before after token.lexeme } := by
  obtain ⟨kind, lexeme, span⟩ := token
  subst isText
  rfl

end Stencil.Token

namespace Stencil.Grammar

open Stencil.Syntax
open Stencil.Text (Span)
open Stencil.Token (Kind Symbol)
open Read Statement

variable {α β : Type}

/-- Tokens with all marks carried out; `before` tells whether the first one loses its leading
blanks. -/
def unmarkedTokens : Bool → List Token → List Token
  | _, [] => []
  | before, token :: rest =>
      token.unmarked before (rest.head?.any (·.kind.trimsBefore)) ::
        unmarkedTokens token.kind.trimsAfter rest

theorem map_wordOf_unmarkedTokens (before : Bool) (tokens : List Token) :
    (unmarkedTokens before tokens).map wordOf = unmarkedWords before (tokens.map wordOf) := by
  induction tokens generalizing before with
  | nil => rfl
  | cons token rest inductionHypothesis =>
      rw [unmarkedTokens, List.map_cons, inductionHypothesis, List.map_cons, unmarkedWords]
      cases rest <;> rfl

theorem length_unmarkedTokens (before : Bool) (tokens : List Token) :
    (unmarkedTokens before tokens).length = tokens.length := by
  induction tokens generalizing before with
  | nil => rfl
  | cons token rest inductionHypothesis =>
      rw [unmarkedTokens, List.length_cons, inductionHypothesis, List.length_cons]

/-! ### Tapes without marks -/

/-- Whether the second tape is what is left of the first one when all marks are carried out. -/
structure Tape.Bare (tape bare : Tape) : Prop where
  previous : bare.previous.map (·.span) = tape.previous.map (·.span)
  trims : bare.trims = false
  current : bare.current = tape.current.unmarked tape.trims tape.trimsEnd
  following : bare.following = unmarkedTokens tape.current.kind.trimsAfter tape.following
  enclosing : bare.enclosing = tape.enclosing
  problems : bare.problems = tape.problems

namespace Tape.Bare

variable {tape bare : Tape}

theorem length_following (is : tape.Bare bare) :
    bare.following.length = tape.following.length := by
  rw [is.following, length_unmarkedTokens]

theorem trimsEnd (is : tape.Bare bare) : bare.trimsEnd = false := by
  rw [Tape.trimsEnd, is.following]
  cases tape.following with
  | nil => rfl
  | cons next rest => exact Token.trimsBefore_unmarked _ _ next

theorem span (is : tape.Bare bare) : bare.current.span = tape.current.span := by
  rw [is.current]
  rfl

theorem previousSpan (is : tape.Bare bare) : bare.previousSpan = tape.previousSpan := by
  have same := is.previous
  unfold Tape.previousSpan
  match isPrevious : tape.previous, isBare : bare.previous with
  | none, none => exact is.span
  | some token, some other =>
      rw [isPrevious, isBare] at same
      exact Option.some.inj same
  | none, some _ =>
      rw [isPrevious, isBare] at same
      cases same
  | some _, none =>
      rw [isPrevious, isBare] at same
      cases same

theorem advance (is : tape.Bare bare) : tape.advance.Bare bare.advance := by
  obtain ⟨previous, current, following, enclosing, problems⟩ := tape
  obtain ⟨barePrevious, bareCurrent, bareFollowing, bareEnclosing, bareProblems⟩ := bare
  obtain rfl : bareFollowing = _ := is.following
  cases following with
  | nil => exact is
  | cons next rest =>
      obtain rfl : bareCurrent = _ := is.current
      exact ⟨rfl, Token.trimsAfter_unmarked _ _ current, rfl, rfl, is.enclosing, is.problems⟩

theorem report (is : tape.Bare bare) (diagnostic : Report.Diagnostic) :
    (tape.report diagnostic).Bare (bare.report diagnostic) :=
  ⟨is.previous, is.trims, is.current, is.following, is.enclosing,
    congrArg (·.push diagnostic) is.problems⟩

theorem surrounded (is : tape.Bare bare) (enclosing : List (List String)) :
    Bare { tape with enclosing := enclosing } { bare with enclosing := enclosing } :=
  ⟨is.previous, is.trims, is.current, is.following, rfl, is.problems⟩

theorem ahead (is : tape.Bare bare) (distance : Nat) :
    ∃ before after, bare.ahead distance = (tape.ahead distance).unmarked before after := by
  induction distance generalizing tape bare with
  | zero => exact ⟨_, _, is.current⟩
  | succ distance inductionHypothesis =>
      have same (tape : Tape) : tape.ahead (distance + 1) = tape.advance.ahead distance := by
        obtain ⟨previous, current, following, enclosing, problems⟩ := tape
        cases following with
        | nil => cases distance <;> rfl
        | cons next rest => rfl
      rw [same, same]
      exact inductionHypothesis is.advance

/-- Skipping stops at the same token, if it stops at a kind of token whatever its marks are. -/
theorem skipTo (is : tape.Bare bare) {stop : Kind → Bool}
    (unmarked : ∀ kind : Kind, stop kind.unmarked = stop kind) :
    (tape.skipTo stop).Bare (bare.skipTo stop) := by
  have skips (tape : Tape) : tape.skipTo stop =
      if tape.following = [] ∨ stop tape.current.kind = true then tape
      else tape.advance.skipTo stop := by
    obtain ⟨previous, current, following, enclosing, problems⟩ := tape
    cases following with
    | nil => rfl
    | cons next rest =>
        cases stops : stop current.kind <;>
          simp [Tape.skipTo, seek, stops, Tape.advance]
  obtain ⟨length, isLength⟩ : ∃ length, tape.following.length = length := ⟨_, rfl⟩
  induction length generalizing tape bare with
  | zero =>
      have bareLength := is.length_following.trans isLength
      rw [skips tape, skips bare, if_pos (.inl (List.length_eq_zero_iff.mp isLength)),
        if_pos (.inl (List.length_eq_zero_iff.mp bareLength))]
      exact is
  | succ length inductionHypothesis =>
      have more : tape.following ≠ [] := List.ne_nil_of_length_eq_add_one isLength
      have bareMore : bare.following ≠ [] :=
        List.ne_nil_of_length_eq_add_one (is.length_following.trans isLength)
      have sameStop : stop bare.current.kind = stop tape.current.kind := by
        rw [is.current]
        exact unmarked _
      rw [skips tape, skips bare, sameStop]
      by_cases stops : stop tape.current.kind = true
      · rw [if_pos (.inr stops), if_pos (.inr stops)]
        exact is
      · rw [if_neg (not_or.mpr ⟨more, stops⟩), if_neg (not_or.mpr ⟨bareMore, stops⟩)]
        refine inductionHypothesis is.advance ?_
        rw [length_following_advance, isLength, Nat.add_sub_cancel]

end Tape.Bare

/-! ### Actions -/

/-- Whether an action gives the same, and leads to the same place, once all marks of a tape are
carried out. -/
class Indifferent (action : Read α) : Prop where
  bare : ∀ {tape bare : Tape}, tape.Bare bare →
    (action.run bare).1 = (action.run tape).1 ∧ (action.run tape).2.Bare (action.run bare).2

/-- Whether something depends on a token only as far as it has no marks. -/
def Unseen (next : Token → β) : Prop :=
  ∀ (token : Token) (before after : Bool), next (token.unmarked before after) = next token

namespace Indifferent

variable {first action : Read α} {next : α → Read β}

instance (value : α) : Indifferent (pure value : Read α) := ⟨fun is => ⟨rfl, is⟩⟩

theorem bind (here : Indifferent first) (rest : ∀ value, Indifferent (next value)) :
    Indifferent (first >>= next) := by
  refine ⟨fun {tape bare} is => ?_⟩
  obtain ⟨same, moved⟩ := here.bare is
  rw [run_bind, run_bind, same]
  exact (rest _).bare moved

instance [here : Indifferent first] [rest : ∀ value, Indifferent (next value)] :
    Indifferent (first >>= next) := here.bind rest

instance {f : α → β} [here : Indifferent action] : Indifferent (f <$> action) := by
  refine ⟨fun is => ?_⟩
  rw [run_map, run_map, (here.bare is).1]
  exact ⟨rfl, (here.bare is).2⟩

instance {condition : Prop} {_ : Decidable condition} {yes no : Read α} [Indifferent yes]
    [Indifferent no] : Indifferent (if condition then yes else no) := by
  split <;> infer_instance

instance {turn : α → Read (Turn α)} [∀ value, Indifferent (turn value)] (limit : Nat) (value : α) :
    Indifferent (turns turn limit value) := by
  induction limit generalizing value with
  | zero => exact inferInstanceAs (Indifferent (pure value))
  | succ fewer inductionHypothesis =>
      refine bind inferInstance fun result => ?_
      cases result with
      | again next => exact inductionHypothesis next
      | done result => exact inferInstanceAs (Indifferent (pure result))

instance {turn : α → Read (Turn α)} [∀ value, Indifferent (turn value)] (value : α) :
    Indifferent (loop turn value) := by
  refine ⟨fun {tape bare} is => ?_⟩
  have read : Indifferent (turns turn (tape.following.length + 1) value) := inferInstance
  rw [loop, run_bind, run_bind, run_get, run_get, is.length_following]
  exact read.bare is

/-! #### Looking -/

/-- The head's token is looked at, but not its marks. -/
theorem peek {next : Token → Read β} (unseen : Unseen next)
    (rest : ∀ token, Indifferent (next token)) : Indifferent (Read.peek >>= next) := by
  refine ⟨fun {tape bare} is => ?_⟩
  rw [run_bind, run_bind, run_peek, run_peek, is.current, unseen]
  exact (rest _).bare is

theorem peekAhead {next : Token → Read β} (distance : Nat) (unseen : Unseen next)
    (rest : ∀ token, Indifferent (next token)) :
    Indifferent (Read.peekAhead distance >>= next) := by
  refine ⟨fun {tape bare} is => ?_⟩
  obtain ⟨before, after, isAhead⟩ := is.ahead distance
  rw [run_bind, run_bind, run_peekAhead, run_peekAhead, isAhead, unseen]
  exact (rest _).bare is

theorem advance {next : Token → Read β} (unseen : Unseen next)
    (rest : ∀ token, Indifferent (next token)) : Indifferent (Read.advance >>= next) := by
  refine ⟨fun {tape bare} is => ?_⟩
  rw [run_bind, run_bind, run_advance, run_advance, is.current, unseen]
  exact (rest _).bare is.advance

instance [rest : Indifferent action] : Indifferent (Read.advance >>= fun _ => action) :=
  advance (fun _ _ _ => rfl) fun _ => rest

theorem atKind {kind : Kind} (plain : ∀ other : Kind, other.unmarked = kind ↔ other = kind) :
    Indifferent (Read.atKind kind) := by
  refine ⟨fun {tape bare} is => ?_⟩
  rw [run_atKind, run_atKind, is.current, Token.kind_unmarked]
  exact ⟨Bool.eq_iff_iff.mpr (by simpa using plain tape.current.kind), is⟩

instance : Indifferent (Read.atKind .name) :=
  atKind fun other => by cases other <;> simp [Kind.unmarked]

instance : Indifferent (Read.atKind .text) :=
  atKind fun other => by cases other <;> simp [Kind.unmarked]

instance (symbol : Symbol) : Indifferent (atSymbol symbol) :=
  atKind fun other => by cases other <;> simp [Kind.unmarked]

theorem unseen_isName (word : String) : Unseen (·.isName word) := by
  intro token before after
  dsimp only
  by_cases isName : token.kind = .name
  · rw [Token.unmarked_of_isInner before after (by rw [isName]; rfl)]
  · have notName : token.kind.unmarked ≠ .name := by
      revert isName
      cases token.kind <;> simp [Kind.unmarked]
    rw [Token.isName, Token.isName, Token.kind_unmarked, beq_eq_false_iff_ne.mpr isName,
      beq_eq_false_iff_ne.mpr notName, Bool.false_and, Bool.false_and]

instance (word : String) : Indifferent (atWord word) := by
  refine ⟨fun {tape bare} is => ?_⟩
  rw [run_atWord, run_atWord, is.current]
  exact ⟨unseen_isName word _ _ _, is⟩

instance : Indifferent atTagEnd := by
  refine ⟨fun {tape bare} is => ?_⟩
  rw [run_atTagEnd, run_atTagEnd, is.current]
  have unseen : Unseen (·.kind.isTagEnd) := by rintro ⟨⟨⟩, _, _⟩ _ _ <;> rfl
  exact ⟨unseen _ _ _, is⟩

instance : Indifferent atClose := by
  refine ⟨fun {tape bare} is => ?_⟩
  rw [run_atClose, run_atClose, is.current]
  have unseen : Unseen fun token => token.kind.isTagEnd || token.kind == .endOfInput := by
    rintro ⟨⟨⟩, _, _⟩ _ _ <;> rfl
  exact ⟨unseen _ _ _, is⟩

instance : Indifferent previousSpan :=
  ⟨fun is => ⟨is.previousSpan, is⟩⟩

instance (start : Span) : Indifferent (spanFrom start) :=
  ⟨fun is => ⟨congrArg start.cover is.previousSpan, is⟩⟩

/-! #### Reports -/

instance (diagnostic : Report.Diagnostic) : Indifferent (Read.report diagnostic) :=
  ⟨fun is => ⟨rfl, is.report diagnostic⟩⟩

instance (cause : Mistake) (span : Span) : Indifferent (mistake cause span) :=
  inferInstanceAs (Indifferent (Read.report _))

instance (what : String) : Indifferent (expected what) :=
  peek (by rintro ⟨⟨⟩, _, _⟩ _ _ <;> rfl) fun _ => inferInstance

/-! #### Taking tokens -/

theorem plain_of_isInner {kind : Kind} (inner : kind.isInner = true) (other : Kind) :
    other.unmarked = kind ↔ other = kind := by
  cases other <;> cases kind <;> simp [Kind.unmarked] <;> cases inner

theorem take? {kind : Kind} (inner : kind.isInner = true) : Indifferent (Read.take? kind) := by
  refine ⟨fun {tape bare} is => ?_⟩
  have plain := plain_of_isInner inner
  rw [run_take?, run_take?, is.current, Token.kind_unmarked]
  by_cases isKind : tape.current.kind = kind
  · rw [if_pos isKind, if_pos ((plain _).mpr isKind)]
    exact ⟨congrArg some (Token.unmarked_of_isInner _ _ (isKind ▸ inner)), is.advance⟩
  · rw [if_neg isKind, if_neg (mt (plain _).mp isKind)]
    exact ⟨rfl, is⟩

instance : Indifferent (Read.take? .name) := take? rfl

instance : Indifferent (Read.take? .string) := take? rfl

instance (symbol : Symbol) : Indifferent (takeSymbol symbol) := by
  have taken : Indifferent (Read.take? (.symbol symbol)) := take? rfl
  unfold takeSymbol
  infer_instance

instance (word : String) : Indifferent (takeWord word) := by
  unfold takeWord
  infer_instance

instance (symbol : Symbol) : Indifferent (expectSymbol symbol) := by
  unfold expectSymbol
  infer_instance

instance (word : String) : Indifferent (expectWord word) := by
  unfold expectWord
  infer_instance

instance (what : String) : Indifferent (expectName what) := by
  unfold expectName
  refine bind inferInstance fun found => ?_
  cases found <;> infer_instance

instance : Indifferent skipTag := by
  have skips : Indifferent (modify (·.skipTo resumes) : Read Unit) :=
    ⟨fun is => ⟨rfl, is.skipTo fun kind => by cases kind <;> rfl⟩⟩
  unfold skipTag
  infer_instance

instance (what : Kind) : Indifferent (expectTagEnd what) := by
  unfold expectTagEnd
  infer_instance

instance : Indifferent expectBlockEnd := inferInstanceAs (Indifferent (expectTagEnd _))

end Indifferent

/-! ### Actions within tags -/

/-- Whether an action gives the same once all marks are carried out, where a token from the inside
of a tag is under the head. -/
structure IndifferentInside (action : Read α) : Prop where
  bare : ∀ {tape bare : Tape}, tape.Bare bare → tape.current.kind.isInner = true →
    (action.run bare).1 = (action.run tape).1 ∧ (action.run tape).2.Bare (action.run bare).2

theorem Tape.Bare.current_of_isInner {tape bare : Tape} (is : tape.Bare bare)
    (inner : tape.current.kind.isInner = true) : bare.current = tape.current :=
  is.current.trans (Token.unmarked_of_isInner _ _ inner)

theorem Indifferent.inside {action : Read α} (indifferent : Indifferent action) :
    IndifferentInside action :=
  ⟨fun is _ => indifferent.bare is⟩

/-- Tokens from the inside of tags have no marks. -/
theorem IndifferentInside.advance {next : Token → Read β}
    (rest : ∀ token, Indifferent (next token)) : IndifferentInside (Read.advance >>= next) := by
  refine ⟨fun {tape bare} is inner => ?_⟩
  rw [run_bind, run_bind, run_advance, run_advance, is.current_of_isInner inner]
  exact (rest _).bare is.advance

/-- An action that only looks leaves the head where it is. -/
theorem IndifferentInside.seeing {first : Read α} {next : α → Read β} (here : Indifferent first)
    (looks : ∀ tape : Tape, (first.run tape).2 = tape)
    (rest : ∀ value, IndifferentInside (next value)) : IndifferentInside (first >>= next) := by
  refine ⟨fun {tape bare} is inner => ?_⟩
  rw [run_bind, run_bind, (here.bare is).1, looks, looks]
  exact (rest _).bare is inner

namespace Indifferent

/-- What is done where a token of a kind from the inside of tags is under the head, and where none
is. -/
theorem whether {kind : Kind} (inner : kind.isInner = true) {next : Bool → Read β}
    (left : IndifferentInside (next true)) (right : Indifferent (next false)) :
    Indifferent (Read.atKind kind >>= next) := by
  refine ⟨fun {tape bare} is => ?_⟩
  have same : (bare.current.kind == kind) = (tape.current.kind == kind) :=
    ((atKind (plain_of_isInner inner)).bare is).1
  rw [run_bind, run_bind, run_atKind, run_atKind, same]
  cases isHere : tape.current.kind == kind with
  | true => exact left.bare is (by rw [beq_iff_eq.mp isHere]; exact inner)
  | false => exact right.bare is

/-- What is done with the token under the head depends on its kind. -/
theorem peekInside {next : Token → Read β} (unseen : Unseen next)
    (rest : ∀ token, token.kind.isInner = true → IndifferentInside (next token))
    (others : ∀ token, token.kind.isInner = false → Indifferent (next token)) :
    Indifferent (Read.peek >>= next) := by
  refine ⟨fun {tape bare} is => ?_⟩
  rw [run_bind, run_bind, run_peek, run_peek, is.current, unseen]
  cases inner : tape.current.kind.isInner with
  | true => exact (rest _ inner).bare is inner
  | false => exact (others _ inner).bare is

end Indifferent

end Stencil.Grammar
