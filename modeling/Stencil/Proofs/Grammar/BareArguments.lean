import Stencil.Proofs.Grammar.SoleOutput

/-!
Contract: arguments of filters with parentheses around them and without.

Owns:
- the values that may be arguments without parentheses: an atom and any steps behind it;
- filters whose arguments are written in either style;
- a chain of such filters is read as one expression, the same in all mixtures of the styles.

Does not own: the expressions between brackets inside an argument, which may be anything that is
read up to its closing bracket (`Stencil.Proofs.Grammar.Precedence`).
-/

set_option autoImplicit false

namespace Stencil.Grammar

open Stencil.Decimal (float? integer?)
open Stencil.Syntax
open Stencil.Text (Span)
open Stencil.Token (Kind Symbol)
open Levels Read

/-! ### What stands between brackets -/

/-- Words that a reader takes in as a whole where one of the symbols stands behind them, and the
expression that it gives then, up to places. -/
structure Passage (reader : Levels → Read Expr) (behind : List Symbol) where
  words : List Word
  expr : Expr
  opens : Opens words
  present : expr.isMissing = false
  reads : ∀ depth, words.length < depth → ∀ tape : Tape, tape.Shows words →
    (∃ symbol ∈ behind, wordOf (tape.past words).current = .symbol symbol) →
      ∃ value, (reader (nested depth)).run tape = (value, tape.past words) ∧
        value.unplaced = expr.unplaced

/-- What stands between square brackets. -/
abbrev IndexPassage := Passage Levels.expression [.rightBracket]

/-- One argument between parentheses, with its name or without. -/
abbrev ArgumentPassage :=
  Passage (fun inner => argument inner.expression) [.comma, .rightParen]

/-- Every expression that is written as it is may stand between brackets. -/
def IndexPassage.written (expr : Expr) (tight : expr.Tight) : IndexPassage where
  words := expr.written
  expr := expr
  opens := (begins_written tight).opens
  present := not_missing_of_tight tight
  reads depth enough tape shown behind := by
    obtain ⟨symbol, member, isSymbol⟩ := behind
    have delimits : symbol ∈ delimiters := by
      rw [List.mem_singleton.mp member]
      decide
    exact ((reads_of_tight tight).givesItem tight enough).gives tape shown ⟨symbol, delimits, isSymbol⟩

/-- Every argument that is written as it is may stand between parentheses. -/
def ArgumentPassage.written (arg : Expr) (tight : arg.argumentValue.Tight)
    (present : arg.isMissing = false) : ArgumentPassage where
  words := arg.written
  expr := arg
  opens := (givesItem_argument tight (givesBack_expression tight)).opens
  present := present
  reads depth enough tape shown behind := by
    obtain ⟨symbol, member, isSymbol⟩ := behind
    have delimits : symbol ∈ delimiters := by
      simp only [List.mem_cons, List.not_mem_nil, or_false] at member
      rcases member with rfl | rfl <;> decide
    have shorter : arg.argumentValue.written.length < depth :=
      Nat.lt_of_le_of_lt (length_argumentValue_le arg) enough
    exact (givesItem_argument tight ((reads_of_tight tight).givesBack_expression shorter)).gives tape
      shown ⟨symbol, delimits, isSymbol⟩

theorem ArgumentPassage.readsItem (passage : ArgumentPassage) {depth : Nat}
    (enough : passage.words.length < depth) :
    ReadsItem (argument (nested depth).expression) .rightParen passage.words passage.expr where
  opens := passage.opens
  present := passage.present
  gives tape shown behind := by
    refine passage.reads depth enough tape shown ?_
    rcases behind with isComma | isClosing
    · exact ⟨.comma, by decide, isComma⟩
    · exact ⟨.rightParen, by decide, isClosing⟩

/-! ### Values -/

/-- What a value that may stand without parentheses begins with: a name or a word for a literal, an
integer or a string. -/
inductive BareAtom where
  | word (text : String) (free : text ∉ reservedWords)
  | integer (digits : List Char) (areDigits : isDigits digits = true)
  | string (lexeme : String)

/-- An integer that does not fit into 64 bits is a float. -/
def integerLiteral (digits : List Char) : Literal :=
  let digits := digits.filter (· != '_')
  match integer? digits with
  | some value => .int value
  | none => .float ((float? digits).getD 0)

namespace BareAtom

def toWord : BareAtom → Word
  | .word text _ => .name text
  | .integer digits _ => ⟨.integer, String.ofList digits⟩
  | .string lexeme => ⟨.string, lexeme⟩

def expr : BareAtom → Expr
  | .word text _ => wordOperand ⟨.name, text, default⟩
  | .integer digits _ => .literal (integerLiteral digits) default
  | .string lexeme => .literal (.text (stringValue ⟨.string, lexeme, default⟩)) default

end BareAtom

/-- A step behind a value: an attribute, an item or a call. -/
inductive BareStep where
  | attr (name : String)
  | item (index : IndexPassage)
  | call (args : List ArgumentPassage)

namespace BareStep

def words : BareStep → List Word
  | .attr name => [.symbol .dot, .name name]
  | .item index => .symbol .leftBracket :: (index.words ++ [.symbol .rightBracket])
  | .call args => Word.enclosed .leftParen .rightParen (args.map Passage.words)

def on (value : Expr) : BareStep → Expr
  | .attr name => .attribute value name default
  | .item index => .item value index.expr default
  | .call args => .call value (args.map Passage.expr) default

end BareStep

/-- A value that may stand without parentheses. -/
structure BareValue where
  atom : BareAtom
  steps : List BareStep

namespace BareValue

def words (value : BareValue) : List Word :=
  value.atom.toWord :: value.steps.flatMap BareStep.words

def expr (value : BareValue) : Expr := value.steps.foldl BareStep.on value.atom.expr

end BareValue

/-! ### Atoms -/

section Atoms

variable {inner : Levels} {tape : Tape} {digits : List Char}

theorem run_numberValue_of_digits {token : Token} (areDigits : isDigits digits = true)
    (isLexeme : token.lexeme = String.ofList digits) (tape : Tape) :
    (numberValue token false).run tape = (integerLiteral digits, tape) := by
  have plain : token.lexeme.toList.filter (· != '_') = digits.filter (· != '_') := by
    rw [isLexeme, String.toList_ofList]
  obtain ⟨first, others, rfl, isDigit, continues⟩ := isDigits_eq_true areDigits
  have notUnderscore : (first != '_') = true := by
    rw [bne_iff_ne]
    rintro rfl
    cases isDigit
  have nonempty : (first :: others).filter (· != '_') ≠ [] := by
    rw [List.filter_cons_of_pos (p := (· != '_')) notUnderscore]
    exact List.cons_ne_nil _ _
  have all : ((first :: others).filter (· != '_')).all Char.isDigit = true := by
    rw [List.all_eq_true]
    intro c member
    obtain ⟨member, notUnderscore⟩ := List.mem_filter.mp member
    rcases List.mem_cons.mp member with rfl | member
    · exact isDigit
    · have goesOn := List.all_eq_true.mp continues c member
      rw [Token.continuesNumber, Bool.or_eq_true] at goesOn
      refine goesOn.resolve_right fun isUnderscore => ?_
      rw [beq_iff_eq.mp isUnderscore] at notUnderscore
      cases notUnderscore
  obtain ⟨value, isValue⟩ := Option.isSome_iff_exists.mp
    (Decimal.float?_of_digits nonempty all)
  simp only [numberValue, plain, integerLiteral, isValue, Bool.false_eq_true, if_false]
  cases integer? ((first :: others).filter (· != '_')) <;> rfl

theorem BareAtom.begins {atom : BareAtom} (isAtom : wordOf tape.current = atom.toWord) :
    beginsBareArgument tape.current = true := by
  have isKind : tape.current.kind = atom.toWord.kind := congrArg Word.kind isAtom
  cases atom with
  | word text free =>
      have isText : tape.current.lexeme = text := congrArg Word.lexeme isAtom
      have isName : tape.current.kind = .name := isKind
      simpa [beginsBareArgument, isName, isText] using free
  | integer digits areDigits =>
      have isInteger : tape.current.kind = .integer := isKind
      rw [beginsBareArgument, isInteger]
  | string lexeme =>
      have isString : tape.current.kind = .string := isKind
      rw [beginsBareArgument, isString]

theorem isMissing_wordOperand (token : Token) : (wordOperand token).isMissing = false := by
  unfold wordOperand
  split <;> rfl

theorem unplaced_wordOperand {token other : Token} (same : other.lexeme = token.lexeme) :
    (wordOperand token).unplaced = (wordOperand other).unplaced := by
  unfold wordOperand
  rw [same]
  split <;> rfl

/-- An atom is an operand where no word behind it belongs to it. -/
theorem BareAtom.run_operand (inner : Levels) {atom : BareAtom} (isAtom : wordOf tape.current = atom.toWord)
    (ends : tape.advance.EndsAt .operand) :
    ∃ value, (operand inner).run tape = (value, tape.advance) ∧
      value.unplaced = atom.expr.unplaced := by
  have isKind : tape.current.kind = atom.toWord.kind := congrArg Word.kind isAtom
  have isLexeme : tape.current.lexeme = atom.toWord.lexeme := congrArg Word.lexeme isAtom
  cases atom with
  | word text free =>
      have isName : tape.current.kind = .name := isKind
      have isText : tape.current.lexeme = text := isLexeme
      refine ⟨wordOperand tape.current, ?_, ?_⟩
      · simp only [operand, run_bind, run_peek, isName, run_advance, run_pure]
      · exact unplaced_wordOperand isText.symm
  | integer digits areDigits =>
      have isInteger : tape.current.kind = .integer := isKind
      have reads := run_integerOperand (run_numberValue_of_digits areDigits isLexeme) ends
      refine ⟨.literal (integerLiteral digits) tape.current.span, ?_, rfl⟩
      simp only [operand, run_bind, run_peek, isInteger, reads]
  | string lexeme =>
      have isString : tape.current.kind = .string := isKind
      have isText : tape.current.lexeme = lexeme := isLexeme
      refine ⟨.literal (.text (stringValue tape.current)) tape.current.span, ?_, ?_⟩
      · simp only [operand, run_bind, run_peek, isString, run_stringOperand ends]
      · rw [stringValue, isText]
        rfl

/-- No atom is an operator. -/
theorem BareAtom.not_operator {atom : BareAtom} (isAtom : wordOf tape.current = atom.toWord) :
    tape.current.isName "not" ≠ true ∧
      tape.current.kind ≠ .symbol .minus ∧ tape.current.kind ≠ .symbol .plus := by
  have isKind : tape.current.kind = atom.toWord.kind := congrArg Word.kind isAtom
  refine ⟨fun isNot => ?_, ?_⟩
  · have isWord := isAtom.symm.trans (isName_eq_true.mp isNot)
    cases atom with
    | word text free =>
        have isText : text = "not" := congrArg Word.lexeme isWord
        exact free (isText ▸ by decide)
    | integer digits areDigits => cases congrArg Word.kind isWord
    | string lexeme => cases congrArg Word.kind isWord
  · rw [isKind]
    cases atom <;> exact ⟨nofun, nofun⟩

end Atoms

/-! ### Steps -/

section Steps

variable {depth : Nat} {tape : Tape} {value expr : Expr}

/-- Whether a step may begin under the head. -/
def Tape.FacesStep (tape : Tape) : Prop :=
  tape.current.kind ∈ [Kind.symbol .dot, .symbol .leftBracket, .symbol .leftParen]

theorem BareStep.faces {step : BareStep} {rest : List Word} (shown : tape.Shows (step.words ++ rest)) :
    tape.FacesStep := by
  have isKind {symbol : Symbol} {words : List Word}
      (shown : tape.Shows (.symbol symbol :: words)) : tape.current.kind = .symbol symbol :=
    shown.isSymbol
  unfold Tape.FacesStep
  cases step with
  | attr name =>
      rw [isKind shown]
      decide
  | item index =>
      rw [isKind shown]
      decide
  | call args =>
      rw [isKind shown]
      decide

/-- One turn takes in one step. -/
theorem BareStep.run_plainTurn (step : BareStep) (enough : step.words.length ≤ depth)
    (shown : tape.Shows step.words) (same : value.unplaced = expr.unplaced) :
    ∃ next, next.unplaced = (step.on expr).unplaced ∧
      (plainTurn (nested depth) true value).run tape = (.again next, tape.past step.words) := by
  cases step with
  | attr name =>
      obtain ⟨span, reads⟩ := run_attributeOf_of_name shown.tail.kind value
      rw [shown.tail.lexeme] at reads
      refine ⟨.attribute value name span, congrArg (Expr.attribute · name default) same, ?_⟩
      simp only [plainTurn, run_bind, run_peek, shown.isSymbol, run_map, reads]
      rfl
  | item index =>
      rw [BareStep.words, List.length_cons, List.length_append] at enough
      obtain ⟨shownIndex, shownClosing⟩ := (Tape.shows_append _ _ _).mp shown.tail
      obtain ⟨key, reads, sameKey⟩ := index.reads depth (by omega) _ shownIndex
        ⟨.rightBracket, by decide, shownClosing.1⟩
      refine ⟨.item value key ?_, ?same, ?run⟩
      case run =>
        simp only [plainTurn, run_bind, run_peek, shown.isSymbol, run_map, subscriptOf, run_advance,
          reads, run_expectSymbol_of_present shownClosing.isSymbol, run_previousSpan, run_pure,
          BareStep.words, Tape.past_cons, Tape.past_append]
        rfl
      case same =>
        show Expr.item value.unplaced key.unplaced default = _
        rw [same, sameKey]
        rfl
  | call args =>
      have reads (arg : ArgumentPassage) (member : arg ∈ args) :
          ReadsItem (argument (nested depth).expression) .rightParen arg.words arg.expr := by
        have shorter : arg.words.length < depth :=
          Nat.lt_of_lt_of_le (length_lt_enclosed .leftParen .rightParen
            (List.mem_map_of_mem (f := Passage.words) member)) enough
        exact arg.readsItem shorter
      obtain ⟨values, sameArgs, areRead⟩ := run_arguments_of_reads reads shown
      refine ⟨.call value values ?_, ?same, ?run⟩
      case run =>
        simp only [plainTurn, run_bind, run_peek, shown.isSymbol, if_true, run_map, callOf, areRead,
          run_previousSpan, run_pure]
        rfl
      case same =>
        rw [BareStep.on, Expr.unplaced_call, Expr.unplaced_call, same, sameArgs, List.map_map]
        rfl

/-- A chain goes on with a step as a plain value does. -/
theorem run_chainTurn_of_step {inner : Levels} (faces : tape.FacesStep) (value : Expr) :
    (chainTurn inner value).run tape = (plainTurn inner true value).run tape := by
  simp only [Tape.FacesStep, List.mem_cons, List.not_mem_nil, or_false] at faces
  rcases faces with isKind | isKind | isKind <;>
    simp only [chainTurn, plainTurn, run_bind, run_peek, isKind, if_true]

/-- Turns that go on with a step as a plain value does take in all steps. What they come to behind
the steps is what they come to. -/
theorem settles_steps (turn : Expr → Read (Turn Expr))
    (plain : ∀ (value : Expr) (tape : Tape), tape.FacesStep →
      (turn value).run tape = (plainTurn (nested depth) true value).run tape)
    {steps : List BareStep} (enough : (steps.flatMap BareStep.words).length ≤ depth)
    (shown : tape.Shows (steps.flatMap BareStep.words)) (same : value.unplaced = expr.unplaced) :
    ∃ next, next.unplaced = (steps.foldl BareStep.on expr).unplaced ∧ ∀ result final,
      Settles turn next (tape.past (steps.flatMap BareStep.words)) result final →
        Settles turn value tape result final := by
  induction steps generalizing tape value expr with
  | nil => exact ⟨value, same, fun _ _ settles => settles⟩
  | cons step steps inductionHypothesis =>
      have faces := BareStep.faces shown
      rw [List.flatMap_cons] at shown enough ⊢
      rw [List.length_append] at enough
      obtain ⟨shownStep, shownSteps⟩ := (Tape.shows_append _ _ _).mp shown
      have fits : step.words.length ≤ depth ∧ (steps.flatMap BareStep.words).length ≤ depth := by
        omega
      obtain ⟨next, sameNext, turns⟩ := step.run_plainTurn fits.1 shownStep same
      obtain ⟨last, sameLast, goesOn⟩ := inductionHypothesis fits.2 shownSteps sameNext
      refine ⟨last, sameLast, fun result final settles => .again ?_ ?_ (goesOn result final ?_)⟩
      · rw [plain value tape faces]
        exact turns
      · have positive : 0 < step.words.length := by
          cases step <;> exact Nat.succ_pos _
        have passed := shownStep.length_following
        omega
      · rw [← Tape.past_append]
        exact settles

end Steps

/-! ### Values -/

section Values

variable {depth : Nat} {tape : Tape}

/-- Whether a value that is an argument ends at the head. -/
def Tape.EndsValue (tape : Tape) : Prop :=
  tape.current.kind.isTagEnd = true ∨
    tape.current.kind ∈ [Kind.symbol .comma, .symbol .pipe, .symbol .rightParen]

theorem Tape.EndsValue.not_step (ends : tape.EndsValue) : ¬ tape.FacesStep := by
  intro faces
  simp only [Tape.FacesStep, List.mem_cons, List.not_mem_nil, or_false] at faces
  unfold Tape.EndsValue at ends
  rcases faces with isKind | isKind | isKind <;> rw [isKind] at ends <;> revert ends <;> decide

/-- A plain value goes on with steps only. -/
theorem run_plainTurn_of_not_step {inner : Levels} (ends : ¬ tape.FacesStep) (value : Expr) :
    (plainTurn inner true value).run tape = (.done value, tape) := by
  simp only [Tape.FacesStep, List.mem_cons, List.not_mem_nil, or_false, not_or] at ends
  simp only [plainTurn, run_bind, run_peek]
  split
  · rename_i isDot
    exact (ends.1 isDot).elim
  · rename_i isBracket
    exact (ends.2.1 isBracket).elim
  · rename_i isParen
    exact (ends.2.2 isParen).elim
  · rfl

/-- Behind an atom and its steps neither the atom goes on nor a name becomes that of an argument. -/
theorem endsAt_behind_atom {steps : List BareStep}
    (shown : tape.Shows (steps.flatMap BareStep.words))
    (ends : (tape.past (steps.flatMap BareStep.words)).EndsValue) :
    tape.EndsAt .operand ∧ tape.current.kind ≠ .symbol .assign := by
  cases steps with
  | nil =>
      have ends : tape.EndsValue := ends
      rcases ends with closes | isKind
      · refine ⟨Tape.endsAt_of_isTagEnd .operand closes, fun isAssign => ?_⟩
        rw [isAssign] at closes
        cases closes
      · simp only [List.mem_cons, List.not_mem_nil, or_false] at isKind
        rcases isKind with isKind | isKind | isKind <;> rw [isKind] <;> refine ⟨?_, by decide⟩
        · exact Tape.endsAt_of_none _ (by simp [Word.continuation?, isKind])
        · have continues : (wordOf tape.current).continuation? (wordOf tape.advance.current) =
              some .chain := by simp [Word.continuation?, isKind]
          exact Tape.endsAt_of_continuation continues (by decide)
        · exact Tape.endsAt_of_none _ (by simp [Word.continuation?, isKind])
  | cons step steps =>
      rw [List.flatMap_cons] at shown
      cases step with
      | attr name =>
          have continues : (Word.symbol .dot).continuation? (.name name) = some .chain := rfl
          have shown : tape.Shows (.symbol .dot :: .name name :: _) := shown
          refine ⟨shown.endsAt_pair continues (by decide), ?_⟩
          rw [shown.isSymbol]
          decide
      | item index =>
          have shown : tape.Shows (.symbol .leftBracket :: _) := shown
          refine ⟨shown.endsAt (fun _ => rfl) (by decide), ?_⟩
          rw [shown.isSymbol]
          decide
      | call args =>
          have shown : tape.Shows (.symbol .leftParen :: _) := shown
          refine ⟨shown.endsAt (fun _ => rfl) (by decide), ?_⟩
          rw [shown.isSymbol]
          decide

variable {value : BareValue}

theorem BareValue.length_steps_le (enough : value.words.length ≤ depth) :
    (value.steps.flatMap BareStep.words).length ≤ depth := by
  rw [BareValue.words, List.length_cons] at enough
  omega

/-- Without parentheses a value is read up to what ends it. -/
theorem BareValue.run_bareValue (value : BareValue) (enough : value.words.length ≤ depth)
    (shown : tape.Shows value.words) (ends : (tape.past value.words).EndsValue) :
    ∃ given, (bareValue (nested depth)).run tape = (given, tape.past value.words) ∧
      given.unplaced = value.expr.unplaced := by
  obtain ⟨first, reads, same⟩ := value.atom.run_operand (nested depth) shown.1
    (endsAt_behind_atom shown.tail ends).1
  obtain ⟨next, sameNext, goesOn⟩ := settles_steps (plainTurn (nested depth) true)
    (fun _ _ _ => rfl) (BareValue.length_steps_le enough) shown.tail same
  refine ⟨next, ?_, sameNext⟩
  simp only [bareValue, plainChain, run_bind, reads]
  exact run_loop_of_settles
    (goesOn _ _ (.done (run_plainTurn_of_not_step ends.not_step next)))

/-- A chain has a value, up to places, as what it has read so far once it is behind its words. -/
theorem BareValue.run_chainLevel (value : BareValue) (enough : value.words.length ≤ depth)
    (shown : tape.Shows value.words) (ends : (tape.past value.words).EndsValue) :
    ∃ given, given.unplaced = value.expr.unplaced ∧ ∀ result final,
      Settles (chainTurn (nested depth)) given (tape.past value.words) result final →
        (chainLevel (nested depth)).run tape = (result, final) := by
  obtain ⟨first, reads, same⟩ := value.atom.run_operand (nested depth) shown.1
    (endsAt_behind_atom shown.tail ends).1
  obtain ⟨next, sameNext, goesOn⟩ := settles_steps (chainTurn (nested depth))
    (fun value _ faces => run_chainTurn_of_step faces value) (BareValue.length_steps_le enough)
    shown.tail same
  refine ⟨next, sameNext, fun result final settles => ?_⟩
  simp only [chainLevel, run_bind, reads]
  exact run_loop_of_settles (goesOn result final settles)

/-- Between parentheses a value is read as a whole expression, up to the delimiter behind it. -/
theorem BareValue.run_expression (value : BareValue) (enough : value.words.length ≤ depth)
    (shown : tape.Shows value.words) (ends : (tape.past value.words).EndsValue)
    (delimited : (tape.past value.words).Delimited) :
    ∃ given, (nested (depth + 1)).expression.run tape = (given, tape.past value.words) ∧
      given.unplaced = value.expr.unplaced := by
  obtain ⟨given, same, goesOn⟩ := value.run_chainLevel enough shown ends
  refine ⟨given, ?_, same⟩
  have reads := goesOn _ _ (.done (run_chainTurn_of_endsAt (delimited.endsAt .chain) given))
  obtain ⟨notNegation, notSign⟩ := value.atom.not_operator shown.1
  exact run_conditionalLevel_of_chain notNegation notSign reads (delimited.endsAt .conditional)

end Values

/-! ### Arguments and filters -/

/-- An argument, with a name or without. -/
inductive BareArgument where
  | plain (value : BareValue)
  | named (name : String) (free : name ∉ reservedWords) (value : BareValue)

namespace BareArgument

def value : BareArgument → BareValue
  | .plain value => value
  | .named _ _ value => value

def words : BareArgument → List Word
  | .plain value => value.words
  | .named name _ value => .name name :: .symbol .assign :: value.words

def expr : BareArgument → Expr
  | .plain value => value.expr
  | .named name _ value => .keyword name value.expr default

/-- Arguments with commas between them. -/
def listed (args : List BareArgument) : List Word :=
  Word.separated (.symbol .comma) (args.map words)

theorem listed_singleton (arg : BareArgument) : listed [arg] = arg.words :=
  Word.separated_singleton _ _

theorem listed_cons_cons (arg next : BareArgument) (others : List BareArgument) :
    listed (arg :: next :: others) = arg.words ++ .symbol .comma :: listed (next :: others) :=
  Word.separated_cons_cons _ _ _ _

end BareArgument

/-- Whether the arguments of a filter stand between parentheses. -/
inductive ArgumentStyle where
  | bare
  | parenthesized

/-- A filter with at least one argument. Only the first one may have a name. -/
structure ArguedFilter where
  name : String
  first : BareArgument
  others : List BareValue

namespace ArguedFilter

def args (filter : ArguedFilter) : List BareArgument :=
  filter.first :: filter.others.map .plain

def argumentWords (filter : ArguedFilter) : ArgumentStyle → List Word
  | .bare => BareArgument.listed filter.args
  | .parenthesized => Word.enclosed .leftParen .rightParen (filter.args.map BareArgument.words)

/-- The words of a filter in one of the two styles. -/
def words (filter : ArguedFilter) (style : ArgumentStyle) : List Word :=
  .symbol .pipe :: (Word.dotted filter.name ++ filter.argumentWords style)

/-- The expression that applies the filter to a value, whatever its style. -/
def on (value : Expr) (filter : ArguedFilter) : Expr :=
  .filter value filter.name (filter.args.map BareArgument.expr) default default

end ArguedFilter

section Arguments

variable {depth : Nat} {tape : Tape} {arg : BareArgument}

theorem BareArgument.opens (arg : BareArgument) : Opens arg.words := by
  have ofAtom (atom : BareAtom) (rest : List Word) : Opens (atom.toWord :: rest) := by
    refine ⟨_, rest, rfl, ?_⟩
    cases atom <;> exact nofun
  cases arg with
  | plain value => exact ofAtom value.atom _
  | named name free value => exact ⟨_, _, rfl, nofun⟩

theorem BareArgument.present (arg : BareArgument) : arg.expr.isMissing = false := by
  have ofAtom (atom : BareAtom) : atom.expr.isMissing = false := by
    cases atom with
    | word text free => exact isMissing_wordOperand _
    | integer digits areDigits => rfl
    | string lexeme => rfl
  have ofSteps (steps : List BareStep) (expr : Expr) (present : expr.isMissing = false) :
      (steps.foldl BareStep.on expr).isMissing = false := by
    induction steps generalizing expr with
    | nil => exact present
    | cons step steps inductionHypothesis =>
        refine inductionHypothesis _ ?_
        cases step <;> rfl
  cases arg with
  | plain value => exact ofSteps value.steps _ (ofAtom value.atom)
  | named name free value => rfl

/-- An argument may begin one without parentheses. -/
theorem BareArgument.begins (shown : tape.Shows arg.words) :
    beginsBareArgument tape.current = true := by
  cases arg with
  | plain value => exact value.atom.begins shown.1
  | named name free value =>
      have isWord : wordOf tape.current = (BareAtom.word name free).toWord := shown.1
      exact BareAtom.begins isWord

/-- An argument is read, with its name or without, if its value is. -/
theorem BareArgument.run_argument (arg : BareArgument) (reader : Read Expr)
    (shown : tape.Shows arg.words)
    (ends : (tape.past arg.words).EndsValue)
    (reads : ∀ start : Tape, start.Shows arg.value.words →
      start.past arg.value.words = tape.past arg.words →
        ∃ given, reader.run start = (given, start.past arg.value.words) ∧
          given.unplaced = arg.value.expr.unplaced) :
    ∃ given, (argument reader).run tape = (given, tape.past arg.words) ∧
      given.unplaced = arg.expr.unplaced := by
  cases arg with
  | plain value =>
      have notNamed : ¬ (tape.current.kind = .name ∧ tape.advance.current.kind = .symbol .assign) :=
        fun named => (endsAt_behind_atom shown.tail ends).2 named.2
      obtain ⟨given, isRead, same⟩ := reads tape shown rfl
      refine ⟨given, ?_, same⟩
      rw [argument, run_bind, run_namedArgument?, if_neg notNamed]
      exact isRead
  | named name free value =>
      have named : tape.current.kind = .name ∧ tape.advance.current.kind = .symbol .assign :=
        ⟨shown.kind, shown.tail.kind⟩
      have isName : tape.current.lexeme = name := shown.lexeme
      obtain ⟨given, isRead, same⟩ := reads tape.advance.advance shown.tail.tail rfl
      refine ⟨.keyword name given (tape.current.span.cover given.span), ?_,
        congrArg (Expr.keyword name · default) same⟩
      have isRead : reader.run tape.advance.advance =
        (given, tape.past (BareArgument.named name free value).words) := isRead
      rw [argument, run_bind, run_namedArgument?, if_pos named, isRead, isName]
      rfl

theorem BareArgument.length_value_le (arg : BareArgument) :
    arg.value.words.length ≤ arg.words.length := by
  cases arg with
  | plain value => exact Nat.le_refl _
  | named name free value => exact Nat.le_add_right _ 2

/-- Between parentheses every argument is read as one of several. -/
theorem BareArgument.readsItem (arg : BareArgument) (enough : arg.words.length ≤ depth) :
    ReadsItem (argument (nested (depth + 1)).expression) .rightParen arg.words arg.expr where
  opens := arg.opens
  present := arg.present
  gives tape shown behind := by
    have isSymbol : ∃ symbol ∈ [Symbol.comma, .rightParen],
        wordOf (tape.past arg.words).current = .symbol symbol := by
      rcases behind with isComma | isClosing
      · exact ⟨.comma, by decide, isComma⟩
      · exact ⟨.rightParen, by decide, isClosing⟩
    obtain ⟨symbol, member, isSymbol⟩ := isSymbol
    have isKind : (tape.past arg.words).current.kind = .symbol symbol := congrArg Word.kind isSymbol
    have ends : (tape.past arg.words).EndsValue := by
      refine .inr ?_
      rw [isKind]
      revert member
      cases symbol <;> decide
    have delimited : (tape.past arg.words).Delimited := by
      refine ⟨symbol, ?_, isSymbol⟩
      revert member
      cases symbol <;> decide
    refine arg.run_argument _ shown ends fun start shownValue isPast => ?_
    rw [← isPast] at ends delimited
    exact arg.value.run_expression (Nat.le_trans arg.length_value_le enough) shownValue ends delimited

/-- Whether the arguments of a filter without parentheses end at the head. -/
def Tape.ClosesFilter (tape : Tape) : Prop :=
  tape.current.kind.isTagEnd = true ∨ tape.current.kind = .symbol .pipe

theorem Tape.ClosesFilter.endsValue (ends : tape.ClosesFilter) : tape.EndsValue := by
  rcases ends with closes | isPipe
  · exact .inl closes
  · refine .inr ?_
    rw [isPipe]
    decide

theorem Tape.ClosesFilter.not_comma (ends : tape.ClosesFilter) : tape.current.kind ≠ .symbol .comma := by
  intro isComma
  rcases ends with closes | isPipe
  · rw [isComma] at closes
    cases closes
  · rw [isComma] at isPipe
    cases isPipe

/-- Without parentheses one turn reads one argument. It goes on behind a comma if an argument without
a name begins there. -/
theorem BareArgument.run_bareTurn (arg : BareArgument) (enough : arg.words.length ≤ depth)
    (shown : tape.Shows arg.words) (ends : (tape.past arg.words).EndsValue) (before : List Expr) :
    ∃ given, given.unplaced = arg.expr.unplaced ∧
      (bareTurn (nested depth) before).run tape =
        if (tape.past arg.words).current.kind = .symbol .comma ∧
            beginsBareArgument (tape.past arg.words).advance.current = true ∧
            (tape.past arg.words).advance.advance.current.kind ≠ .symbol .assign then
          (.again (before ++ [given]), (tape.past arg.words).advance)
        else (.done (before ++ [given]), tape.past arg.words) := by
  obtain ⟨given, reads, same⟩ := arg.run_argument (bareValue (nested depth)) shown ends
    fun start shownValue isPast => arg.value.run_bareValue
      (Nat.le_trans arg.length_value_le enough) shownValue (isPast ▸ ends)
  refine ⟨given, same, ?_⟩
  simp only [bareTurn, run_bind, reads, run_peekAhead, Tape.ahead_one, Tape.ahead_two, run_atSymbol,
    Token.isSymbol, Bool.and_eq_true, beq_iff_eq, Bool.not_eq_true', beq_eq_false_iff_ne, and_assoc,
    run_ite, run_advance, run_pure]

/-- The first of several arguments ends before a comma or where all of them end. -/
theorem BareArgument.shows_first {others : List BareArgument}
    (shown : tape.Shows (listed (arg :: others)))
    (ends : (tape.past (listed (arg :: others))).ClosesFilter) :
    tape.Shows arg.words ∧ (tape.past arg.words).EndsValue := by
  cases others with
  | nil =>
      rw [listed_singleton] at shown ends
      exact ⟨shown, ends.endsValue⟩
  | cons next others =>
      rw [listed_cons_cons] at shown
      obtain ⟨shownArg, shownComma⟩ := (Tape.shows_append _ _ _).mp shown
      refine ⟨shownArg, .inr ?_⟩
      rw [shownComma.isSymbol]
      decide

/-- Arguments without parentheses are read one by one, up to the next filter or the end of the tag. -/
theorem BareArgument.settles_bareTurn {others : List BareValue}
    (enough : (listed (arg :: others.map .plain)).length ≤ depth)
    (shown : tape.Shows (listed (arg :: others.map .plain)))
    (ends : (tape.past (listed (arg :: others.map .plain))).ClosesFilter) (before : List Expr) :
    ∃ values, values.map Expr.unplaced =
        (arg :: others.map plain).map (fun arg => arg.expr.unplaced) ∧
      Settles (bareTurn (nested depth)) before tape (before ++ values)
        (tape.past (listed (arg :: others.map .plain))) := by
  induction others generalizing tape arg before with
  | nil =>
      rw [List.map_nil, listed_singleton] at enough shown ends ⊢
      obtain ⟨given, same, turns⟩ := arg.run_bareTurn enough shown ends.endsValue before
      rw [if_neg fun both => ends.not_comma both.1] at turns
      exact ⟨[given], congrArg (· :: []) same, .done turns⟩
  | cons next others inductionHypothesis =>
      obtain ⟨shownArg, endsArg⟩ := shows_first shown ends
      have areWords : listed (arg :: (next :: others).map plain) =
          arg.words ++ .symbol .comma :: listed (plain next :: others.map plain) :=
        listed_cons_cons _ _ _
      rw [areWords] at enough shown
      rw [areWords, Tape.past_append, Tape.past_cons] at ends ⊢
      rw [List.length_append, List.length_cons] at enough
      obtain ⟨-, shownComma⟩ := (Tape.shows_append _ _ _).mp shown
      obtain ⟨shownNext, endsNext⟩ := shows_first shownComma.tail ends
      have fitsArg : arg.words.length ≤ depth := by omega
      obtain ⟨given, same, turns⟩ := arg.run_bareTurn fitsArg shownArg endsArg before
      have begins : beginsBareArgument (tape.past arg.words).advance.current = true :=
        next.atom.begins shownComma.tail.1
      have notNamed : (tape.past arg.words).advance.advance.current.kind ≠ .symbol .assign :=
        (endsAt_behind_atom shownNext.tail endsNext).2
      rw [if_pos ⟨shownComma.isSymbol, begins, notNamed⟩] at turns
      have fits : (listed (plain next :: others.map plain)).length ≤ depth := by omega
      obtain ⟨values, sameValues, settles⟩ :=
        inductionHypothesis fits shownComma.tail ends (before ++ [given])
      rw [List.append_assoc] at settles
      exact ⟨given :: values, congrArg₂ List.cons same sameValues, .again turns shown.shorter settles⟩

end Arguments

/-! ### Filters -/

section Filters

variable {depth : Nat} {tape : Tape} {filter : ArguedFilter} {style : ArgumentStyle}

/-- The arguments of a filter are read in either style, with the same result up to places. -/
theorem ArguedFilter.run_arguments (enough : (filter.argumentWords style).length < depth)
    (shown : tape.Shows (filter.argumentWords style))
    (ends : (tape.past (filter.argumentWords style)).ClosesFilter) :
    ∃ values, values.map Expr.unplaced = filter.args.map (fun arg => arg.expr.unplaced) ∧
      (if tape.current.kind = .symbol .leftParen then arguments (nested depth)
        else bareArguments (nested depth)).run tape =
          (values, tape.past (filter.argumentWords style)) := by
  cases style with
  | bare =>
      have begins := BareArgument.begins (BareArgument.shows_first shown ends).1
      have notParen : tape.current.kind ≠ .symbol .leftParen := by
        intro isParen
        rw [beginsBareArgument, isParen] at begins
        cases begins
      obtain ⟨values, same, settles⟩ :=
        BareArgument.settles_bareTurn (Nat.le_of_lt enough) shown ends []
      refine ⟨values, same, ?_⟩
      simp only [if_neg notParen, bareArguments, run_bind, run_peek, begins, Bool.not_true,
        Bool.false_eq_true, if_false]
      exact run_loop_of_settles settles
  | parenthesized =>
      obtain ⟨fewer, rfl⟩ := Nat.exists_eq_add_of_lt enough
      have reads (arg : BareArgument) (member : arg ∈ filter.args) :
          ReadsItem (argument (nested ((filter.argumentWords .parenthesized).length + fewer + 1)).expression)
            .rightParen arg.words arg.expr := by
        have shorter : arg.words.length < (filter.argumentWords .parenthesized).length :=
          length_lt_enclosed .leftParen .rightParen
            (List.mem_map_of_mem (f := BareArgument.words) member)
        exact arg.readsItem (by omega)
      obtain ⟨values, same, areRead⟩ := run_arguments_of_reads reads shown
      refine ⟨values, same, ?_⟩
      rw [if_pos (Tape.Shows.isSymbol shown)]
      exact areRead

/-- A filter is read in either style. -/
theorem ArguedFilter.run_filterCall (enough : (filter.words style).length ≤ depth)
    (shown : tape.Shows (Word.dotted filter.name ++ filter.argumentWords style))
    (ends : (tape.past (Word.dotted filter.name ++ filter.argumentWords style)).ClosesFilter) :
    ∃ values span, values.map Expr.unplaced = filter.args.map (fun arg => arg.expr.unplaced) ∧
      (Levels.filterCall (nested depth)).run tape =
        (⟨filter.name, values, span⟩,
          tape.past (Word.dotted filter.name ++ filter.argumentWords style)) := by
  obtain ⟨shownName, shownArgs⟩ := (Tape.shows_append _ _ _).mp shown
  rw [Tape.past_append] at ends ⊢
  rw [ArguedFilter.words, List.length_cons, List.length_append] at enough
  have fits : (filter.argumentWords style).length < depth := by omega
  obtain ⟨values, same, reads⟩ := ArguedFilter.run_arguments fits shownArgs ends
  have noPoint : (tape.past (Word.dotted filter.name)).current.kind ≠ .symbol .dot := by
    intro isPoint
    cases style with
    | bare =>
        have begins := BareArgument.begins (BareArgument.shows_first shownArgs ends).1
        rw [beginsBareArgument, isPoint] at begins
        cases begins
    | parenthesized =>
        rw [Tape.Shows.isSymbol shownArgs] at isPoint
        cases isPoint
  refine ⟨values, ?_, same, ?run⟩
  case run =>
    simp only [Levels.filterCall, run_bind, run_peek, run_dottedName shownName noPoint, run_atSymbol,
      beq_iff_eq]
    split at reads
    · rename_i isParen
      simp only [isParen, if_true, run_bind, reads, run_spanFrom, run_pure]
      rfl
    · rename_i notParen
      simp only [notParen, if_false, run_bind, reads, run_spanFrom, run_pure]

/-- Filters are applied one after the other up to the end of the tag, each in its style. -/
theorem settles_filters {filters : List (ArguedFilter × ArgumentStyle)} {value expr : Expr}
    (enough : (filters.flatMap fun styled => styled.1.words styled.2).length ≤ depth)
    (shown : tape.Shows (filters.flatMap fun styled => styled.1.words styled.2))
    (closes : (tape.past (filters.flatMap fun styled =>
      styled.1.words styled.2)).current.kind.isTagEnd = true)
    (same : value.unplaced = expr.unplaced) :
    ∃ result, result.unplaced = ((filters.map Prod.fst).foldl ArguedFilter.on expr).unplaced ∧
      Settles (chainTurn (nested depth)) value tape result
        (tape.past (filters.flatMap fun styled => styled.1.words styled.2)) := by
  induction filters generalizing tape value expr with
  | nil =>
      exact ⟨value, same,
        .done (run_chainTurn_of_endsAt (Tape.endsAt_of_isTagEnd .chain closes) value)⟩
  | cons styled filters inductionHypothesis =>
      obtain ⟨filter, style⟩ := styled
      rw [List.flatMap_cons] at enough shown
      rw [List.flatMap_cons, Tape.past_append] at closes ⊢
      rw [List.length_append] at enough
      dsimp only at enough
      obtain ⟨shownFilter, shownFilters⟩ := (Tape.shows_append _ _ _).mp shown
      have ends : (tape.past (filter.words style)).ClosesFilter := by
        cases filters with
        | nil => exact .inl closes
        | cons next filters =>
            rw [List.flatMap_cons] at shownFilters
            exact .inr (Tape.Shows.isSymbol shownFilters)
      have fits : (filter.words style).length ≤ depth := by omega
      obtain ⟨values, span, sameArgs, reads⟩ :=
        ArguedFilter.run_filterCall fits shownFilter.tail ends
      have sameNext : ((⟨filter.name, values, span⟩ : FilterCall).on value).unplaced =
          (filter.on expr).unplaced := by
        rw [FilterCall.on, ArguedFilter.on, Expr.unplaced_filter, Expr.unplaced_filter, same,
          sameArgs, List.map_map]
        rfl
      have fitsRest : (filters.flatMap fun styled => styled.1.words styled.2).length ≤ depth := by
        omega
      obtain ⟨result, sameResult, settles⟩ :=
        inductionHypothesis fitsRest shownFilters closes sameNext
      refine ⟨result, sameResult, .again ?_ ?_ settles⟩
      · simp only [chainTurn, run_bind, run_peek, shownFilter.isSymbol, run_advance, reads, run_pure]
        rfl
      · have passed := shownFilter.length_following
        rw [ArguedFilter.words, List.length_cons] at passed
        rw [ArguedFilter.words]
        omega

end Filters

/-! ### Whole chains -/

/-- The words of a value and the filters behind it, each in its style. -/
def filteredWords (value : BareValue) (filters : List (ArguedFilter × ArgumentStyle)) : List Word :=
  value.words ++ filters.flatMap fun styled => styled.1.words styled.2

/-- The expression that applies filters to a value; styles play no part in it. -/
def filteredExpr (value : BareValue) (filters : List ArguedFilter) : Expr :=
  filters.foldl ArguedFilter.on value.expr

/-- A value with filters behind it, up to the end of a tag, is read as the application of the
filters. -/
theorem run_expression_of_filtered {value : BareValue} {filters : List (ArguedFilter × ArgumentStyle)}
    {tape : Tape} (shown : tape.Shows (filteredWords value filters))
    (closes : (tape.past (filteredWords value filters)).current.kind.isTagEnd = true) :
    ∃ result, result.unplaced = (filteredExpr value (filters.map Prod.fst)).unplaced ∧
      expression.run tape = (result, tape.past (filteredWords value filters)) := by
  have passed := shown.length_following
  rw [filteredWords, List.length_append] at passed
  rw [filteredWords] at shown closes ⊢
  rw [Tape.past_append] at closes ⊢
  obtain ⟨shownValue, shownFilters⟩ := (Tape.shows_append _ _ _).mp shown
  obtain ⟨notNegation, notSign⟩ := value.atom.not_operator shownValue.1
  have ends : (tape.past value.words).EndsValue := by
    cases filters with
    | nil => exact .inl closes
    | cons styled filters =>
        refine .inr ?_
        rw [List.flatMap_cons] at shownFilters
        rw [Tape.Shows.isSymbol shownFilters]
        decide
  have fits : value.words.length ≤ tape.following.length + 1 ∧
      (filters.flatMap fun styled => styled.1.words styled.2).length ≤ tape.following.length + 1 := by
    omega
  obtain ⟨given, same, goesOn⟩ := value.run_chainLevel fits.1 shownValue ends
  obtain ⟨result, sameResult, settles⟩ := settles_filters fits.2 shownFilters closes same
  refine ⟨result, sameResult, ?_⟩
  rw [expression, run_withNesting]
  exact run_conditionalLevel_of_chain notNegation notSign (goesOn _ _ settles)
    (Tape.endsAt_of_isTagEnd .conditional closes)

/-- A template of one output tag with a value and filters in it, each with its arguments between
parentheses or without them, prints the expression that applies the filters, and nothing is wrong
with it. Since this expression does not depend on the styles, all mixtures of them mean the same. A
word that may follow an expression is no name of a first argument. -/
theorem parse_filtered (register : Register) (name : String) (value : BareValue)
    (filters : List (ArguedFilter × ArgumentStyle)) {source : String} {marksFront marksBack : Bool}
    (scanned : ScannedAs source (outputWords marksFront marksBack (filteredWords value filters))) :
    ∃ result span, (parse register name source).template.body = [.output result span] ∧
      result.unplaced = (filteredExpr value (filters.map Prod.fst)).unplaced ∧
      (parse register name source).problems = [] := by
  obtain ⟨result, span, same, isBody, quiet⟩ := parse_of_reads register name scanned
    fun tape shown closes => run_expression_of_filtered shown closes
  exact ⟨result, span, isBody, same, quiet⟩

/-- A value `x` with two filters behind it. The first one has an argument with a name and one with
three steps, and no parentheses; the second one has parentheses. -/
theorem parse_filtered_mixed :
    let source := "\x7b\x7b x|f k=1, 'a'[0].b(c)|g(true) \x7d\x7d"
    let name (text : String) : Expr := .name text default
    let int (value : Int) : Expr := .literal (.int value) default
    let zero : IndexPassage := .written (int 0) (.literal default ⟨by decide, by decide⟩)
    let c : ArgumentPassage := .written (name "c") (.name default (by decide)) rfl
    let value : BareValue := ⟨.word "x" (by decide), []⟩
    let first : BareArgument := .named "k" (by decide) ⟨.integer ['1'] (by decide), []⟩
    let other : BareValue := ⟨.string "'a'", [.item zero, .attr "b", .call [c]]⟩
    let yes : BareValue := ⟨.word "true" (by decide), []⟩
    let filters : List (ArguedFilter × ArgumentStyle) :=
      [(⟨"f", first, [other]⟩, .bare), (⟨"g", .plain yes, []⟩, .parenthesized)]
    ScannedAs source (outputWords false false (filteredWords value filters)) ∧
      ∃ result span, (parse .empty "page" source).template.body = [.output result span] ∧
        result.unplaced =
          .filter (.filter (name "x") "f" [.keyword "k" (int 1) default,
            .call (.attribute (.item (.literal (.text "a") default) (int 0) default) "b" default)
              [name "c"] default] default default) "g" [.literal (.bool true) default] default
            default ∧
        (parse .empty "page" source).problems = [] := by
  intro source name int zero c value first other yes filters
  have scanned : ScannedAs source (outputWords false false (filteredWords value filters)) :=
    ⟨by decide +kernel, by decide +kernel⟩
  exact ⟨scanned, parse_filtered .empty "page" value filters scanned⟩

/-- A word of the language may be the name of an argument between parentheses, but it begins no
argument without them. -/
theorem bare_argument_named_in :
    (parse .empty "page" "\x7b\x7b x|f(in=1) \x7d\x7d").problems = [] ∧
      (parse .empty "page" "\x7b\x7b x|f in=1 \x7d\x7d").problems ≠ [] := by
  decide +kernel

end Stencil.Grammar
