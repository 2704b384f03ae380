import Stencil.Proofs.Grammar.Climbing
import Stencil.Proofs.Grammar.Sequence

/-!
Contract: operands, and expressions with commas between them, read back from their words.

Owns:
- items, arguments and entries between brackets;
- literals, names, groups, lists, tuples and dictionaries.

Does not own: operators and the chain (`Stencil.Proofs.Grammar.Precedence`).
-/

set_option autoImplicit false

namespace Stencil.Grammar

open Stencil.Decimal (integer? maxInt)
open Stencil.Syntax
open Stencil.Text (Span)
open Stencil.Token (Kind Symbol)
open Levels Read

/-! ### Delimiters -/

/-- The symbols that stand behind an expression that is a part of something larger. -/
def delimiters : List Symbol := [.comma, .colon, .rightParen, .rightBracket, .rightBrace]


def Tape.Delimited (tape : Tape) : Prop :=
  ∃ symbol, symbol ∈ delimiters ∧ wordOf tape.current = .symbol symbol

theorem Tape.Shows.delimited {tape : Tape} {symbol : Symbol} {words : List Word}
    (shown : tape.Shows (.symbol symbol :: words)) (delimits : symbol ∈ delimiters) :
    tape.Delimited :=
  ⟨symbol, delimits, shown.1⟩

theorem Tape.Delimited.endsAt {tape : Tape} (delimited : tape.Delimited) (level : Level) :
    tape.EndsAt level := by
  obtain ⟨symbol, delimits, isSymbol⟩ := delimited
  apply Tape.endsAt_of_none
  rw [isSymbol]
  revert delimits
  cases symbol <;> first | exact fun _ => rfl | exact fun delimits => absurd delimits (by decide)

/-! ### Items -/

/-- Whether the words begin with one that an expression begins with. -/
def Opens (words : List Word) : Prop := ∃ first rest, words = first :: rest ∧ first.opened? ≠ none

theorem Begins.opens {level : Level} {words : List Word} (begins : Begins level words) :
    Opens words := by
  cases words with
  | nil => exact begins.elim
  | cons first rest =>
      obtain ⟨⟨opened, opens, _⟩, _⟩ := begins
      refine ⟨first, rest, rfl, ?_⟩
      rw [opens]
      exact nofun

/-- Where an expression begins, no delimiter is under the head and nothing ends. -/
theorem Opens.current {tape : Tape} {words : List Word} (opens : Opens words)
    (shown : tape.Shows words) :
    (∀ symbol, symbol ∈ delimiters → tape.current.kind ≠ .symbol symbol) ∧
      tape.current.kind.isTagEnd = false ∧ tape.current.kind ≠ .endOfInput := by
  obtain ⟨first, rest, rfl, some⟩ := opens
  rw [shown.kind]
  refine ⟨fun symbol delimits isSymbol => some ?_, ?_, fun isEnd => some ?_⟩
  · revert delimits
    rw [Word.opened?, isSymbol]
    cases symbol <;> first | exact fun _ => rfl | exact fun delimits => absurd delimits (by decide)
  · cases isKind : first.kind <;> first | rfl | exact (some (by rw [Word.opened?, isKind])).elim
  · rw [Word.opened?, isEnd]

/-- An item that a reader gives back, up to places, where a delimiter stands behind it. -/
structure GivesItem (reader : Read Expr) (item : Expr) : Prop where
  opens : Opens item.written
  present : item.isMissing = false
  gives : ∀ tape : Tape, tape.Shows item.written → (tape.past item.written).Delimited →
    ∃ value, reader.run tape = (value, tape.past item.written) ∧ value.unplaced = item.unplaced

theorem isMissing_unplaced (expr : Expr) : expr.unplaced.isMissing = expr.isMissing := by
  cases expr <;> rfl

theorem isMissing_of_unplaced {value expr : Expr} (same : value.unplaced = expr.unplaced)
    (present : expr.isMissing = false) : value.isMissing = false := by
  rw [← isMissing_unplaced, same, isMissing_unplaced, present]

theorem not_missing_of_tight {expr : Expr} (tight : expr.Tight) : expr.isMissing = false := by
  cases tight <;> rfl

theorem GivesBack.givesItem {reader : Read Expr} {level : Level} {expr : Expr}
    (tight : expr.Tight) (gives : GivesBack reader level expr) : GivesItem reader expr where
  opens := (begins_written tight).opens
  present := not_missing_of_tight tight
  gives tape shown delimited := gives tape shown (delimited.endsAt level)

/-- Whether a reader takes in the words as one item of several, up to the comma or the closing
bracket behind them, and gives the expression up to places. -/
structure ReadsItem (reader : Read Expr) (closing : Symbol) (words : List Word) (expr : Expr) :
    Prop where
  opens : Opens words
  present : expr.isMissing = false
  gives : ∀ tape : Tape, tape.Shows words →
    wordOf (tape.past words).current = .symbol .comma ∨ (tape.past words).Faces closing →
      ∃ value, reader.run tape = (value, tape.past words) ∧ value.unplaced = expr.unplaced

theorem GivesItem.readsItem {reader : Read Expr} {item : Expr} (given : GivesItem reader item)
    {closing : Symbol} (closes : closing ∈ delimiters) :
    ReadsItem reader closing item.written item where
  opens := given.opens
  present := given.present
  gives tape shown behind := by
    refine given.gives tape shown ?_
    rcases behind with isComma | isClosing
    · exact ⟨.comma, by decide, isComma⟩
    · exact ⟨closing, closes, isClosing⟩

/-- One turn reads one item, and the comma behind it if there is one. -/
theorem ReadsItem.turnReads {reader : Read Expr} {closing : Symbol} {words : List Word} {expr : Expr}
    (reads : ReadsItem reader closing words expr) (closes : closing ∈ delimiters) :
    TurnReads (itemTurn closing reader) (Tape.Faces closing) words
      fun value => value.unplaced = expr.unplaced := by
  intro before tape shown behind
  obtain ⟨notDelimiter, notTagEnd, notEnd⟩ := reads.opens.current shown
  have notClosing : tape.current.kind ≠ .symbol closing := notDelimiter closing closes
  obtain ⟨value, isRead, same⟩ := reads.gives tape shown behind
  refine ⟨value, same, ?_⟩
  have present := isMissing_of_unplaced same reads.present
  simp only [itemTurn, run_bind, run_atSymbol, run_atClose, beq_eq_false_iff_ne.mpr notClosing,
    notTagEnd, beq_eq_false_iff_ne.mpr notEnd, Bool.or_self, Bool.false_eq_true, if_false, isRead,
    present, run_takeSymbol]
  split <;> rfl

section Items

variable {α : Type} {reader : Read Expr} {closing : Symbol} {items : List α}
  {words : α → List Word} {expr : α → Expr}

/-- Items between commas, read up to their closing bracket. -/
theorem run_loop_items (closes : closing ∈ delimiters) (notComma : closing ≠ .comma)
    (reads : ∀ item ∈ items, ReadsItem reader closing (words item) (expr item)) {tape : Tape}
    {rest : List Word}
    (shown : tape.Shows
      (Word.separated (.symbol .comma) (items.map words) ++ .symbol closing :: rest)) :
    ∃ values, values.map Expr.unplaced = items.map (fun item => (expr item).unplaced) ∧
      (loop (itemTurn closing reader) []).run tape =
        (values, tape.past (Word.separated (.symbol .comma) (items.map words))) := by
  refine run_loop_enclosed notComma (fun tape isClosing => ?_)
    (fun item member => (reads item member).turnReads closes) shown
  simp only [itemTurn, run_bind, run_atSymbol, isClosing, beq_self_eq_true, Bool.true_or, if_true,
    run_pure]
  rfl

theorem run_loop_itemTurn {items : List Expr} (closes : closing ∈ delimiters)
    (notComma : closing ≠ .comma) (given : ∀ item ∈ items, GivesItem reader item) {tape : Tape}
    {rest : List Word}
    (shown : tape.Shows
      (Word.separated (.symbol .comma) (items.map Expr.written) ++ .symbol closing :: rest)) :
    ∃ values, values.map Expr.unplaced = items.map Expr.unplaced ∧
      (loop (itemTurn closing reader) []).run tape =
        (values, tape.past (Word.separated (.symbol .comma) (items.map Expr.written))) :=
  run_loop_items closes notComma (fun item member => (given item member).readsItem closes) shown

end Items

/-! ### Arguments -/

theorem run_namedArgument? (reader : Read Expr) (tape : Tape) :
    (namedArgument? reader).run tape =
      if tape.current.kind = .name ∧ tape.advance.current.kind = .symbol .assign then
        let read := reader.run tape.advance.advance
        (some (.keyword tape.current.lexeme read.1 (tape.current.span.cover read.1.span)), read.2)
      else (none, tape) := by
  simp only [namedArgument?, run_bind, run_peekAhead, run_atKind, Tape.ahead_one, Token.isSymbol]
  by_cases named : tape.current.kind = .name ∧ tape.advance.current.kind = .symbol .assign
  · rw [if_pos named, if_pos (by simp [named])]
    rfl
  · rw [if_neg named, if_neg (by simpa using named)]
    rfl

/-- An expression that a delimiter follows is no argument with a name. -/
theorem not_named {expr : Expr} (tight : expr.Tight) {tape : Tape} (shown : tape.Shows expr.written)
    (delimited : (tape.past expr.written).Delimited) :
    ¬ (tape.current.kind = .name ∧ tape.advance.current.kind = .symbol .assign) := by
  rintro ⟨isName, isAssign⟩
  have begins := begins_written tight
  cases isWritten : expr.written with
  | nil => exact (isWritten ▸ begins).elim
  | cons first rest =>
      rw [isWritten] at begins shown delimited
      cases rest with
      | nil =>
          obtain ⟨symbol, delimits, isSymbol⟩ := delimited
          have isDelimiter : tape.advance.current.kind = .symbol symbol :=
            congrArg Word.kind isSymbol
          rw [isAssign] at isDelimiter
          exact absurd (Kind.symbol.inj isDelimiter ▸ delimits) (by decide)
      | cons second others =>
          have secondIsAssign : second.kind = .symbol .assign := shown.tail.kind.symm.trans isAssign
          exact begins.2 (shown.kind.symm.trans isName) (congrArg some secondIsAssign)

theorem givesItem_positional {reader : Read Expr} {expr : Expr} (tight : expr.Tight)
    (gives : GivesBack reader .conditional expr) : GivesItem (argument reader) expr where
  opens := (begins_written tight).opens
  present := not_missing_of_tight tight
  gives tape shown delimited := by
    obtain ⟨value, reads, same⟩ := gives tape shown (delimited.endsAt _)
    refine ⟨value, ?_, same⟩
    rw [argument, run_bind, run_namedArgument?, if_neg (not_named tight shown delimited)]
    exact reads

theorem givesItem_named {reader : Read Expr} {text : String} {value : Expr} (span : Span)
    (gives : GivesBack reader .conditional value) :
    GivesItem (argument reader) (.keyword text value span) where
  opens := ⟨.name text, _, rfl, nofun⟩
  present := rfl
  gives tape shown delimited := by
    obtain ⟨isName, _, isAssign, _, shownValue⟩ := shown
    have named : tape.current.kind = .name ∧ tape.advance.current.kind = .symbol .assign :=
      ⟨congrArg Word.kind isName, congrArg Word.kind isAssign⟩
    have isText : tape.current.lexeme = text := congrArg Word.lexeme isName
    obtain ⟨given, reads, same⟩ := gives tape.advance.advance shownValue (delimited.endsAt _)
    refine ⟨.keyword text given (tape.current.span.cover given.span), ?_,
      congrArg (Expr.keyword text · default) same⟩
    rw [argument, run_bind, run_namedArgument?, if_pos named, reads, isText]
    rfl

/-- An argument is given back, with its name or without, if its value is. -/
theorem givesItem_argument {reader : Read Expr} {arg : Expr} (tight : arg.argumentValue.Tight)
    (gives : GivesBack reader .conditional arg.argumentValue) :
    GivesItem (argument reader) arg := by
  cases arg with
  | keyword text value span => exact givesItem_named span gives
  | _ => exact givesItem_positional tight gives

theorem Tape.past_enclosed (tape : Tape) (opening closing : Symbol) (groups : List (List Word)) :
    tape.past (Word.enclosed opening closing groups) =
      (tape.advance.past (Word.separated (.symbol .comma) groups)).advance := by
  rw [Word.enclosed, past_cons, past_append]
  rfl

/-- Arguments in parentheses are read one by one. -/
theorem run_arguments_of_reads {α : Type} {inner : Levels} {args : List α} {words : α → List Word}
    {expr : α → Expr}
    (reads : ∀ arg ∈ args, ReadsItem (argument inner.expression) .rightParen (words arg) (expr arg))
    {tape : Tape} (shown : tape.Shows (Word.enclosed .leftParen .rightParen (args.map words))) :
    ∃ values, values.map Expr.unplaced = args.map (fun arg => (expr arg).unplaced) ∧
      (arguments inner).run tape =
        (values, tape.past (Word.enclosed .leftParen .rightParen (args.map words))) := by
  obtain ⟨values, same, areRead⟩ := run_loop_items (by decide) (by decide) reads shown.tail
  have closing := ((Tape.shows_append _ _ _).mp shown.tail).2.isSymbol
  refine ⟨values, same, ?_⟩
  rw [Tape.past_enclosed]
  simp only [arguments, run_bind, run_advance, areRead, run_expectSymbol_of_present closing, run_pure]

theorem run_arguments {inner : Levels} {args : List Expr}
    (given : ∀ arg ∈ args, GivesItem (argument inner.expression) arg) {tape : Tape}
    (shown : tape.Shows (Word.enclosed .leftParen .rightParen (args.map Expr.written))) :
    ∃ values, values.map Expr.unplaced = args.map Expr.unplaced ∧
      (arguments inner).run tape =
        (values, tape.past (Word.enclosed .leftParen .rightParen (args.map Expr.written))) :=
  run_arguments_of_reads (fun arg member => (given arg member).readsItem (by decide)) shown

/-! ### Operands -/

theorem givesBack_list {inner : Levels} {items : List Expr} (span : Span)
    (given : ∀ item ∈ items, GivesItem inner.expression item) :
    GivesBack (operand inner) .operand (.list items span) := by
  intro tape shown _
  rw [Expr.written, Expr.writtenAll_eq_map] at shown ⊢
  obtain ⟨values, same, reads⟩ := run_loop_itemTurn (by decide) (by decide) given shown.tail
  have closing := ((Tape.shows_append _ _ _).mp shown.tail).2.isSymbol
  refine ⟨.list values ?_, ?run, ?same⟩
  case run =>
    rw [Tape.past_enclosed]
    simp only [operand, run_bind, run_peek, shown.isSymbol, listOperand, run_advance, reads,
      run_expectSymbol_of_present closing, run_spanFrom, run_pure]
    rfl
  case same => rw [Expr.unplaced_list, Expr.unplaced_list, same]

/-- One turn reads one entry of a dictionary, and the comma behind it if there is one. -/
theorem turnReads_entry {inner : Levels} {entry : Expr × Expr}
    (givenKey : GivesItem inner.expression entry.1)
    (givenValue : GivesItem inner.expression entry.2) :
    TurnReads (entryTurn inner) (Tape.Faces .rightBrace) (Expr.writtenEntry entry)
      fun value => Expr.unplacedEntry value = Expr.unplacedEntry entry := by
  intro before tape shown behind
  rw [Expr.writtenEntry] at shown behind ⊢
  obtain ⟨shownKey, shownColon⟩ := (Tape.shows_append _ _ _).mp shown
  rw [Tape.past_append, Tape.past_cons] at behind ⊢
  have delimited : ((tape.past entry.1.written).advance.past entry.2.written).Delimited := by
    rcases behind with isComma | isBrace
    · exact ⟨.comma, by decide, isComma⟩
    · exact ⟨.rightBrace, by decide, isBrace⟩
  obtain ⟨notDelimiter, notTagEnd, notEnd⟩ := givenKey.opens.current shownKey
  have notBrace : tape.current.kind ≠ .symbol .rightBrace := notDelimiter _ (by decide)
  obtain ⟨key, readsKey, sameKey⟩ := givenKey.gives tape shownKey
    (shownColon.delimited (by decide))
  obtain ⟨value, readsValue, sameValue⟩ := givenValue.gives _ shownColon.tail delimited
  have keyPresent := isMissing_of_unplaced sameKey givenKey.present
  have valuePresent := isMissing_of_unplaced sameValue givenValue.present
  refine ⟨(key, value), Prod.ext sameKey sameValue, ?_⟩
  simp only [entryTurn, run_bind, run_atSymbol, run_atClose, beq_eq_false_iff_ne.mpr notBrace,
    notTagEnd, beq_eq_false_iff_ne.mpr notEnd, Bool.or_self, Bool.false_eq_true, if_false,
    readsKey, keyPresent, run_expectSymbol_of_present shownColon.isSymbol, Bool.not_true,
    readsValue, valuePresent, run_takeSymbol]
  split <;> rfl

theorem givesBack_dict {inner : Levels} {entries : List (Expr × Expr)} (span : Span)
    (givenKeys : ∀ entry ∈ entries, GivesItem inner.expression entry.1)
    (givenValues : ∀ entry ∈ entries, GivesItem inner.expression entry.2) :
    GivesBack (operand inner) .operand (.dict entries span) := by
  intro tape shown _
  rw [Expr.written, Expr.writtenEntries_eq_map] at shown ⊢
  have stops (tape : Tape) (isBrace : tape.current.kind = .symbol .rightBrace) :
      (entryTurn inner []).run tape = (.done [], tape) := by
    simp only [entryTurn, run_bind, run_atSymbol, isBrace, beq_self_eq_true, Bool.true_or, if_true,
      run_pure]
    rfl
  have turns (entry : Expr × Expr) (member : entry ∈ entries) :=
    turnReads_entry (givenKeys entry member) (givenValues entry member)
  obtain ⟨values, same, reads⟩ := run_loop_enclosed (by decide) stops turns shown.tail
  have closing := ((Tape.shows_append _ _ _).mp shown.tail).2.isSymbol
  refine ⟨.dict values ?_, ?run, ?same⟩
  case run =>
    rw [Tape.past_enclosed]
    simp only [operand, run_bind, run_peek, shown.isSymbol, dictOperand, run_advance, reads,
      run_expectSymbol_of_present closing, run_spanFrom, run_pure]
    rfl
  case same => rw [Expr.unplaced_dict, Expr.unplaced_dict, same]

/-! ### Parentheses -/

/-- Behind an item of a tuple there is a comma or the closing parenthesis. -/
theorem delimited_of_rest {groups : List (List Word)} {tape : Tape}
    (shown : tape.Shows (groups.flatMap (.symbol .comma :: ·) ++ [.symbol .rightParen])) :
    tape.Delimited := by
  cases groups with
  | nil => exact shown.delimited (by decide)
  | cons words rest => exact ⟨.comma, by decide, shown.1⟩

/-- Each turn of a tuple reads a comma and the item behind it. -/
theorem settles_tupleTurn {inner : Levels} {items : List Expr}
    (given : ∀ item ∈ items, GivesItem inner.expression item) (before : List Expr) {tape : Tape}
    (shown : tape.Shows ((items.map Expr.written).flatMap (.symbol .comma :: ·) ++
      [.symbol .rightParen])) :
    ∃ values, values.map Expr.unplaced = items.map Expr.unplaced ∧
      Settles (tupleTurn inner) before tape (before ++ values)
        (tape.past ((items.map Expr.written).flatMap (.symbol .comma :: ·))) := by
  induction items generalizing before tape with
  | nil =>
      have closing : tape.current.kind = .symbol .rightParen := shown.isSymbol
      have noComma : tape.current.kind ≠ .symbol .comma := by
        rw [closing]
        decide
      refine ⟨[], rfl, .done ?_⟩
      simp only [tupleTurn, run_bind, run_takeSymbol, if_neg noComma, Bool.false_eq_true, if_false,
        run_pure, List.append_nil]
      rfl
  | cons item rest inductionHypothesis =>
      have words : ((item :: rest).map Expr.written).flatMap (.symbol .comma :: ·) =
          .symbol .comma ::
            (item.written ++ (rest.map Expr.written).flatMap (.symbol .comma :: ·)) := rfl
      rw [words] at shown ⊢
      rw [List.cons_append, List.append_assoc] at shown
      have shownRest := (Tape.shows_append _ _ _).mp shown.tail
      have givenItem := given item List.mem_cons_self
      obtain ⟨notDelimiter, _⟩ := givenItem.opens.current shownRest.1
      have notClosing : tape.advance.current.kind ≠ .symbol .rightParen :=
        notDelimiter _ (by decide)
      obtain ⟨value, reads, same⟩ := givenItem.gives _ shownRest.1 (delimited_of_rest shownRest.2)
      have present := isMissing_of_unplaced same givenItem.present
      obtain ⟨values, sameRest, settles⟩ := inductionHypothesis
        (fun other member => given other (List.mem_cons_of_mem _ member)) (before ++ [value])
        shownRest.2
      rw [List.append_assoc] at settles
      refine ⟨value :: values, by rw [List.map_cons, same, sameRest, List.map_cons], ?_⟩
      rw [Tape.past_cons, Tape.past_append]
      refine .again ?_ ?_ settles
      · simp only [tupleTurn, run_bind, run_takeSymbol, if_pos shown.isSymbol, if_true,
          run_atSymbol, beq_eq_false_iff_ne.mpr notClosing, Bool.false_eq_true, if_false, reads,
          present, run_pure]
      · have passed := shownRest.1.length_following
        have shorter := Tape.length_following_advance tape
        have positive := List.length_pos_iff.mpr shown.2.1
        omega

theorem givesBack_group {inner : Levels} {expr : Expr} (span : Span)
    (given : GivesItem inner.expression expr) :
    GivesBack (operand inner) .operand (.group expr span) := by
  intro tape shown _
  rw [Expr.written] at shown ⊢
  obtain ⟨shownExpr, shownClosing⟩ := (Tape.shows_append _ _ _).mp shown.tail
  obtain ⟨notDelimiter, _⟩ := given.opens.current shownExpr
  have notClosing : tape.advance.current.kind ≠ .symbol .rightParen := notDelimiter _ (by decide)
  have noComma : (tape.advance.past expr.written).current.kind ≠ .symbol .comma := by
    rw [shownClosing.isSymbol]
    decide
  obtain ⟨value, reads, same⟩ := given.gives _ shownExpr (shownClosing.delimited (by decide))
  refine ⟨.group value ?_, ?run, ?same⟩
  case run =>
    simp only [operand, run_bind, run_peek, shown.isSymbol, parenthesized, run_advance,
      run_takeSymbol, if_neg notClosing, Bool.false_eq_true, if_false, reads, run_atSymbol,
      beq_eq_false_iff_ne.mpr noComma, run_expectSymbol_of_present shownClosing.isSymbol,
      run_spanFrom, run_pure, Tape.past_cons, Tape.past_append]
    rfl
  case same => exact congrArg (Expr.group · default) same

/-- A tuple is what its turns come to after the first item. -/
theorem run_operand_of_settles {inner : Levels} {first : Expr} {values : List Expr}
    {tape comma final : Tape} (opening : tape.current.kind = .symbol .leftParen)
    (notClosing : tape.advance.current.kind ≠ .symbol .rightParen)
    (reads : inner.expression.run tape.advance = (first, comma))
    (atComma : comma.current.kind = .symbol .comma)
    (settles : Settles (tupleTurn inner) [first] comma values final)
    (closing : final.current.kind = .symbol .rightParen) :
    ∃ span, (operand inner).run tape = (.tuple values span, final.advance) := by
  refine ⟨?_, ?run⟩
  case run =>
    simp only [operand, run_bind, run_peek, opening, parenthesized, run_advance, run_takeSymbol,
      if_neg notClosing, Bool.false_eq_true, if_false, reads, run_atSymbol, atComma,
      beq_self_eq_true, if_true, run_loop_of_settles settles, run_expectSymbol_of_present closing,
      run_spanFrom, run_pure]
    rfl

theorem givesBack_tuple {inner : Levels} {items : List Expr} (span : Span)
    (given : ∀ item ∈ items, GivesItem inner.expression item) :
    GivesBack (operand inner) .operand (.tuple items span) := by
  intro tape shown _
  rw [Expr.written, Expr.writtenAll_eq_map] at shown ⊢
  cases items with
  | nil =>
      refine ⟨.tuple [] ?_, ?run, ?same⟩
      case run =>
        simp only [operand, run_bind, run_peek, shown.isSymbol, parenthesized, run_advance,
          run_takeSymbol, if_pos shown.tail.isSymbol, if_true, run_spanFrom, run_pure]
        rfl
      case same => rw [Expr.unplaced_tuple, Expr.unplaced_tuple]
  | cons first rest =>
      have givenFirst := given first List.mem_cons_self
      cases rest with
      | nil =>
          have words : Word.tupled ([first].map Expr.written) =
              .symbol .leftParen :: (first.written ++ [.symbol .comma, .symbol .rightParen]) := rfl
          rw [words] at shown ⊢
          obtain ⟨shownFirst, shownComma⟩ := (Tape.shows_append _ _ _).mp shown.tail
          obtain ⟨notDelimiter, _⟩ := givenFirst.opens.current shownFirst
          obtain ⟨value, reads, same⟩ :=
            givenFirst.gives _ shownFirst (shownComma.delimited (by decide))
          -- The only turn passes over the comma and finds nothing more.
          have settles : Settles (tupleTurn inner) [value] (tape.advance.past first.written) [value]
              (tape.advance.past first.written).advance := by
            refine .done ?_
            simp only [tupleTurn, run_bind, run_takeSymbol, if_pos shownComma.isSymbol, if_true,
              run_atSymbol, shownComma.tail.isSymbol, beq_self_eq_true, run_pure]
          obtain ⟨given, reads⟩ := run_operand_of_settles shown.isSymbol
            (notDelimiter _ (by decide)) reads shownComma.isSymbol settles
            shownComma.tail.isSymbol
          refine ⟨.tuple [value] given, ?_, ?_⟩
          · rw [reads, Tape.past_cons, Tape.past_append]
            rfl
          · rw [Expr.unplaced_tuple, Expr.unplaced_tuple, List.map_singleton, same]
            rfl
      | cons second others =>
          have words : Word.tupled ((first :: second :: others).map Expr.written) =
              .symbol .leftParen :: (first.written ++
                ((second :: others).map Expr.written).flatMap (.symbol .comma :: ·) ++
                [.symbol .rightParen]) := rfl
          rw [words] at shown ⊢
          obtain ⟨shownItems, shownClosing⟩ := (Tape.shows_append _ _ _).mp shown.tail
          obtain ⟨shownFirst, shownRest⟩ := (Tape.shows_append _ _ _).mp shownItems
          rw [Tape.past_append] at shownClosing
          have shownBehind := (Tape.shows_append _ _ _).mpr ⟨shownRest, shownClosing⟩
          obtain ⟨notDelimiter, _⟩ := givenFirst.opens.current shownFirst
          obtain ⟨value, reads, same⟩ :=
            givenFirst.gives _ shownFirst (delimited_of_rest shownBehind)
          obtain ⟨values, sameRest, settles⟩ := settles_tupleTurn
            (fun other member => given other (List.mem_cons_of_mem _ member)) [value] shownBehind
          obtain ⟨span, reads⟩ := run_operand_of_settles shown.isSymbol
            (notDelimiter _ (by decide)) reads (Tape.Shows.isSymbol shownRest) settles
            shownClosing.isSymbol
          refine ⟨.tuple (value :: values) span, ?_, ?_⟩
          · rw [Tape.past_cons, Tape.past_append, Tape.past_append]
            exact reads
          · rw [Expr.unplaced_tuple, Expr.unplaced_tuple, List.map_cons, same, sameRest]
            rfl

/-! ### Literals and names -/

/-- A name that stands for itself is an operand. -/
theorem run_operand_of_name {inner : Levels} {text : String} (free : text ∉ reservedNames)
    {tape : Tape} (isName : wordOf tape.current = .name text) :
    (operand inner).run tape = (.name text tape.current.span, tape.advance) := by
  have isKind : tape.current.kind = .name := congrArg Word.kind isName
  have isText : tape.current.lexeme = text := congrArg Word.lexeme isName
  have isWord : wordOperand tape.current = .name text tape.current.span := by
    simp only [reservedNames, List.mem_cons, not_or] at free
    rw [wordOperand, isText]
    split <;> simp_all
  simp only [operand, run_bind, run_peek, isKind, run_advance, run_pure, isWord]

theorem givesBack_name {inner : Levels} {text : String} (span : Span)
    (free : text ∉ reservedNames) : GivesBack (operand inner) .operand (.name text span) :=
  fun tape shown _ => ⟨.name text tape.current.span, run_operand_of_name free shown.1, rfl⟩

theorem run_numberValue_of_integer {token : Token} {value : Nat}
    (fits : (value : Int) ≤ maxInt)
    (digits : token.lexeme = String.ofList (Nat.toDigits 10 value)) (tape : Tape) :
    (numberValue token false).run tape = (.int value, tape) := by
  have plain : token.lexeme.toList.filter (· != '_') = Nat.toDigits 10 value := by
    rw [digits, String.toList_ofList, List.filter_eq_self]
    intro digit member
    have notUnderscore : digit ≠ '_' := fun isUnderscore =>
      Nat.underscore_not_in_toDigits (isUnderscore ▸ member)
    simpa using notUnderscore
  simp only [numberValue, plain, Bool.false_eq_true, if_false, Decimal.integer?_toDigits fits]
  rfl

/-- An integer is read without a point that its chain begins with. -/
theorem run_integerOperand {token : Token} {value : Literal}
    (isValue : ∀ tape, (numberValue token false).run tape = (value, tape)) {tape : Tape}
    (ends : tape.advance.EndsAt .operand) :
    (integerOperand token).run tape = (.literal value token.span, tape.advance) := by
  have noPoint : tape.advance.current.kind = .symbol .dot →
      tape.advance.advance.current.kind = .name := by
    intro isPoint
    refine Decidable.byContradiction fun notName => ends .operand ?_ (Level.le_refl _)
    simp [Word.continuation?, isPoint, notName]
  simp only [integerOperand, run_bind, run_advance, run_peekAhead, Tape.ahead_one, run_atSymbol]
  by_cases isPoint : tape.advance.current.kind = .symbol .dot
  · simp only [noPoint isPoint, Bool.not_true, Bool.and_false, Bool.false_eq_true, if_false,
      run_bind, isValue, run_pure]
  · simp only [beq_eq_false_iff_ne.mpr isPoint, Bool.false_and, Bool.false_eq_true, if_false,
      run_bind, isValue, run_pure]

/-- A string literal is read alone where no other one follows it. -/
theorem run_stringOperand {tape : Tape} (ends : tape.advance.EndsAt .operand) :
    stringOperand.run tape =
      (.literal (.text (stringValue tape.current)) tape.current.span, tape.advance) := by
  have alone : tape.advance.current.kind ≠ .string := by
    intro isString
    refine ends .operand ?_ (Level.le_refl _)
    simp [Word.continuation?, isString]
  have settles (sum : String × Span) : Settles stringTurn sum tape.advance sum tape.advance := by
    refine .done ?_
    simp only [stringTurn, run_bind, run_take?, if_neg alone, run_pure]
  simp only [stringOperand, run_bind, run_advance, run_loop_of_settles (settles _), run_pure]

/-- Words that stand for literals are read as these. -/
theorem run_operand_of_word {inner : Levels} {tape : Tape} {meant : Literal}
    (isName : tape.current.kind = .name)
    (isWord : wordOperand tape.current = .literal meant tape.current.span) :
    (operand inner).run tape = (.literal meant tape.current.span, tape.advance) := by
  simp only [operand, run_bind, run_peek, isName, run_advance, run_pure, isWord]

/-- A literal that can be written down exactly is given back. -/
theorem givesBack_literal {inner : Levels} {value : Literal} (span : Span) (exact : value.Exact) :
    GivesBack (operand inner) .operand (.literal value span) := by
  intro tape shown ends
  refine ⟨.literal value tape.current.span, ?_, rfl⟩
  have isKind := shown.kind
  have isLexeme := shown.lexeme
  cases value with
  | none => exact run_operand_of_word isKind (by rw [wordOperand, isLexeme]; rfl)
  | bool value =>
      cases value with
      | false => exact run_operand_of_word isKind (by rw [wordOperand, isLexeme]; rfl)
      | true => exact run_operand_of_word isKind (by rw [wordOperand, isLexeme]; rfl)
  | int value =>
      obtain ⟨positive, fits⟩ := exact
      have whole : (value.toNat : Int) = value := Int.toNat_of_nonneg positive
      have reads := run_integerOperand
        (run_numberValue_of_integer (whole.symm ▸ fits) isLexeme) ends
      rw [whole] at reads
      have isInteger : tape.current.kind = .integer := isKind
      simp only [operand, run_bind, run_peek, isInteger, reads]
      rfl
  | float value => exact exact.elim
  | text value =>
      have isString : tape.current.kind = .string := isKind
      have isText : stringValue tape.current = value := by
        rw [stringValue, isLexeme, Literal.word, String.toList_ofList,
          Text.Quoted.decode_encode rfl, String.ofList_toList]
      simp only [operand, run_bind, run_peek, isString, run_stringOperand ends, isText]
      rfl

end Stencil.Grammar
