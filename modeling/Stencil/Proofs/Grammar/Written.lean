import Stencil.Proofs.Grammar.Spelling

/-!
Contract: the words of an expression.

Owns:
- how every expression is written, word by word;
- which words begin an expression of a level.

Does not own: reading the words back (`Stencil.Proofs.Grammar.Precedence`).
-/

set_option autoImplicit false

namespace Stencil.Grammar

open Stencil.Syntax
open Stencil.Token (Symbol)

namespace Word

/-- Groups of words with commas between them, in brackets. -/
def enclosed (opening closing : Symbol) (groups : List (List Word)) : List Word :=
  symbol opening :: (separated (symbol .comma) groups ++ [symbol closing])

/-- The items of a tuple. A comma follows a single item. -/
def tupled : List (List Word) → List Word
  | [only] => symbol .leftParen :: (only ++ [symbol .comma, symbol .rightParen])
  | groups => enclosed .leftParen .rightParen groups

def dotted (text : String) : List Word :=
  separated (symbol .dot) ((nameParts text).map fun part => [name part])

def membership : Bool → List Word
  | false => [name "in"]
  | true => [name "not", name "in"]

def testing : Bool → List Word
  | false => [name "is"]
  | true => [name "is", name "not"]

end Word

end Stencil.Grammar

namespace Stencil.Syntax.Expr

open Stencil.Grammar (Word)
open Stencil.Text (Span)

mutual

/-- The words of an expression. Arguments always stand in parentheses. -/
def written : Expr → List Word
  | .literal value _ => [value.word]
  | .name text _ => [.name text]
  | .group inner _ => .symbol .leftParen :: (written inner ++ [.symbol .rightParen])
  | .unary op operand _ => op.word :: written operand
  | .binary op left right _ => written left ++ op.word :: written right
  | .membership negated element container _ =>
      written element ++ (Word.membership negated ++ written container)
  | .conditional condition whenTrue otherwise _ =>
      written whenTrue ++ Word.name "if" :: (written condition ++ writtenOtherwise otherwise)
  | .call callee args _ =>
      written callee ++ Word.enclosed .leftParen .rightParen (writtenAll args)
  | .filter value text args _ _ =>
      written value ++ .symbol .pipe ::
        (Word.dotted text ++ Word.enclosed .leftParen .rightParen (writtenAll args))
  | .test value negated text args _ =>
      written value ++ (Word.testing negated ++
        (Word.dotted text ++ Word.enclosed .leftParen .rightParen (writtenAll args)))
  | .attribute value attr _ => written value ++ [.symbol .dot, .name attr]
  | .item value index _ =>
      written value ++ .symbol .leftBracket :: (written index ++ [.symbol .rightBracket])
  | .list items _ => Word.enclosed .leftBracket .rightBracket (writtenAll items)
  | .tuple items _ => Word.tupled (writtenAll items)
  | .dict entries _ => Word.enclosed .leftBrace .rightBrace (writtenEntries entries)
  | .keyword text value _ => .name text :: .symbol .assign :: written value
  | .missing _ => []

def writtenAll : List Expr → List (List Word)
  | [] => []
  | expr :: rest => written expr :: writtenAll rest

/-- The words of what a conditional is worth otherwise. -/
def writtenOtherwise : Option Expr → List Word
  | none => []
  | some expr => .name "else" :: written expr

def writtenEntries : List (Expr × Expr) → List (List Word)
  | [] => []
  | (key, value) :: rest =>
      (written key ++ .symbol .colon :: written value) :: writtenEntries rest

end

theorem writtenAll_eq_map (exprs : List Expr) : writtenAll exprs = exprs.map written := by
  induction exprs with
  | nil => rfl
  | cons expr rest inductionHypothesis => rw [writtenAll, inductionHypothesis, List.map_cons]

def argumentWords (args : List Expr) : List Word :=
  Word.enclosed .leftParen .rightParen (args.map written)

theorem written_call (callee : Expr) (args : List Expr) (span : Span) :
    (call callee args span).written = callee.written ++ argumentWords args := by
  rw [written, writtenAll_eq_map]
  rfl

theorem written_filter (value : Expr) (text : String) (args : List Expr) (callSpan span : Span) :
    (filter value text args callSpan span).written =
      value.written ++ .symbol .pipe :: (Word.dotted text ++ argumentWords args) := by
  rw [written, writtenAll_eq_map]
  rfl

theorem written_test (value : Expr) (negated : Bool) (text : String) (args : List Expr)
    (span : Span) :
    (test value negated text args span).written =
      value.written ++ (Word.testing negated ++ (Word.dotted text ++ argumentWords args)) := by
  rw [written, writtenAll_eq_map]
  rfl

def writtenEntry (entry : Expr × Expr) : List Word :=
  written entry.1 ++ .symbol .colon :: written entry.2

theorem writtenEntries_eq_map (entries : List (Expr × Expr)) :
    writtenEntries entries = entries.map writtenEntry := by
  induction entries with
  | nil => rfl
  | cons entry rest inductionHypothesis =>
      rw [writtenEntries, inductionHypothesis, List.map_cons, writtenEntry]

end Stencil.Syntax.Expr

namespace Stencil.Grammar

open Stencil.Syntax
open Stencil.Token (Symbol)

/-! ### Parts are shorter -/

theorem length_le_separated (separator : Word) {words : List Word} {groups : List (List Word)}
    (member : words ∈ groups) : words.length ≤ (Word.separated separator groups).length := by
  induction groups with
  | nil => cases member
  | cons first rest inductionHypothesis =>
      rcases List.mem_cons.mp member with rfl | memberRest
      · rw [Word.separated, List.length_append]
        exact Nat.le_add_right _ _
      · cases rest with
        | nil => cases memberRest
        | cons second others =>
            have bound := inductionHypothesis memberRest
            rw [Word.separated_cons_cons, List.length_append, List.length_cons]
            omega

theorem length_lt_enclosed (opening closing : Symbol) {words : List Word}
    {groups : List (List Word)} (member : words ∈ groups) :
    words.length < (Word.enclosed opening closing groups).length := by
  have bound := length_le_separated (.symbol .comma) member
  rw [Word.enclosed, List.length_cons, List.length_append]
  omega

theorem length_lt_tupled {words : List Word} {groups : List (List Word)}
    (member : words ∈ groups) : words.length < (Word.tupled groups).length := by
  rw [Word.tupled.eq_def]
  split
  · rw [List.mem_singleton.mp member, List.length_cons, List.length_append]
    omega
  · exact length_lt_enclosed _ _ member

theorem length_argumentValue_le (arg : Expr) :
    arg.argumentValue.written.length ≤ arg.written.length := by
  cases arg with
  | keyword text value span => exact Nat.le_add_right _ 2
  | _ => exact Nat.le_refl _

/-! ### How expressions begin -/

/-- The loosest level of the expressions that begin with the word, if some do. -/
def Word.opened? (word : Word) : Option Level :=
  match word.kind with
  | .name => some (if word.lexeme = "not" then .negation else .operand)
  | .integer => some .operand
  | .float => some .operand
  | .string => some .operand
  | .symbol .minus => some .sign
  | .symbol .plus => some .sign
  | .symbol .leftParen => some .operand
  | .symbol .leftBracket => some .operand
  | .symbol .leftBrace => some .operand
  | _ => none

/-- Whether the words begin like an expression of the level. No name with `=` behind it does. -/
def Begins (level : Level) : List Word → Prop
  | [] => False
  | first :: rest =>
      (∃ opened, first.opened? = some opened ∧ level ≤ opened) ∧
        (first.kind = .name → rest.head?.map Word.kind ≠ some (.symbol .assign))

theorem Begins.loosen {level looser : Level} {words : List Word} (begins : Begins level words)
    (le : looser ≤ level) : Begins looser words := by
  cases words with
  | nil => exact begins
  | cons first rest =>
      obtain ⟨⟨opened, opens, admits⟩, notAssigned⟩ := begins
      exact ⟨⟨opened, opens, Level.le_trans le admits⟩, notAssigned⟩

theorem Begins.append {level : Level} {words : List Word} (begins : Begins level words)
    {next : Word} (others : List Word) (notAssign : next.kind ≠ .symbol .assign) :
    Begins level (words ++ next :: others) := by
  cases words with
  | nil => exact begins.elim
  | cons first rest =>
      refine ⟨begins.1, fun isName => ?_⟩
      cases rest with
      | nil => exact fun isAssign => notAssign (Option.some.inj isAssign)
      | cons second _ => exact begins.2 isName

/-- Words in front of an expression begin one, if their first one may. -/
theorem begins_cons {level inner : Level} {first : Word} {rest : List Word}
    (opens : ∃ opened, first.opened? = some opened ∧ level ≤ opened) (begins : Begins inner rest) :
    Begins level (first :: rest) := by
  refine ⟨opens, fun _ => ?_⟩
  cases rest with
  | nil => exact begins.elim
  | cons second others =>
      intro isAssign
      obtain ⟨⟨opened, opensSecond, _⟩, _⟩ := begins
      have secondIsAssign : second.kind = .symbol .assign := Option.some.inj isAssign
      rw [Word.opened?, secondIsAssign] at opensSecond
      cases opensSecond

theorem begins_of_not_name {level : Level} {first : Word} (rest : List Word)
    (opens : ∃ opened, first.opened? = some opened ∧ level ≤ opened) (other : first.kind ≠ .name) :
    Begins level (first :: rest) :=
  ⟨opens, fun isName => (other isName).elim⟩

theorem begins_enclosed (level : Level) {opening : Symbol} (closing : Symbol)
    (groups : List (List Word)) (opens : (Word.symbol opening).opened? = some .operand) :
    Begins level (Word.enclosed opening closing groups) :=
  begins_of_not_name _ ⟨.operand, opens, level.le_operand⟩ nofun

theorem begins_literal (level : Level) (value : Literal) : Begins level [value.word] := by
  have single (word : Word) (opens : word.opened? = some .operand) : Begins level [word] :=
    ⟨⟨.operand, opens, level.le_operand⟩, fun _ => nofun⟩
  cases value with
  | none => exact single _ rfl
  | bool value => cases value <;> exact single _ rfl
  | int value => exact single _ rfl
  | float value => exact single _ rfl
  | text value => exact single _ rfl

/-- An expression that is written as it is begins like the expressions of its level. -/
theorem begins_written {expr : Expr} (tight : expr.Tight) : Begins expr.level expr.written := by
  induction tight with
  | literal span exact => exact begins_literal _ _
  | @name text span free =>
      have notNegation : text ≠ "not" := fun isNot => free (isNot ▸ by decide)
      exact ⟨⟨.operand, by simp [Word.opened?, Word.name, notNegation], Level.le_refl _⟩,
        fun _ => nofun⟩
  | group span innerTight _ =>
      exact begins_of_not_name _ ⟨.operand, rfl, Level.le_refl _⟩ nofun
  | @unary op operand span _ _ operandBegins =>
      refine begins_cons ⟨op.level, ?_, Level.le_refl _⟩ operandBegins
      cases op <;> rfl
  | @binary op left right span leftFits _ _ _ leftBegins _ =>
      have looser : op.level ≤ left.level := Level.le_trans op.level_le_leftLevel leftFits
      exact (leftBegins.loosen looser).append _ op.kind_word_ne_assign
  | @membership negated element container span elementFits _ _ _ elementBegins _ =>
      have elementLooser := elementBegins.loosen elementFits
      cases negated with
      | false => exact elementLooser.append _ (by decide)
      | true => exact elementLooser.append _ (by decide)
  | @conditional condition whenTrue otherwise span _ whenTrueFits _ _ _ _ whenTrueBegins _ =>
      have looser : Level.conditional ≤ whenTrue.level := whenTrue.level.conditional_le
      exact (whenTrueBegins.loosen looser).append _ (by decide)
  | call span calleeFits _ _ calleeBegins _ =>
      exact (calleeBegins.loosen calleeFits).append _ (by decide)
  | filter callSpan span valueFits _ _ valueBegins _ =>
      exact (valueBegins.loosen valueFits).append _ (by decide)
  | @test value negated text args span _ valueFits _ _ valueBegins _ =>
      have valueLooser := valueBegins.loosen valueFits
      cases negated with
      | false => exact valueLooser.append _ (by decide)
      | true => exact valueLooser.append _ (by decide)
  | attributeOf span valueFits _ valueBegins =>
      exact (valueBegins.loosen valueFits).append _ (by decide)
  | item span valueFits _ _ valueBegins _ =>
      exact (valueBegins.loosen valueFits).append _ (by decide)
  | list span _ _ => exact begins_enclosed _ _ _ rfl
  | @tuple items span _ _ =>
      rw [Expr.written, Word.tupled.eq_def]
      split
      · exact begins_of_not_name _ ⟨.operand, rfl, Level.le_refl _⟩ nofun
      · exact begins_enclosed _ _ _ rfl
  | dict span _ _ _ _ => exact begins_enclosed _ _ _ rfl

end Stencil.Grammar
