import Stencil.Proofs.Grammar.Written

/-!
Contract: the levels of the grammar as readers, from the tightest one to looser ones.

Owns:
- the reader of each level, and the turn of each level that is a loop;
- where an expression of a level ends;
- what it means that a reader gives an expression back, and that this carries over to looser levels;
- an operand that stands alone, at every level.

Does not own: what each form of expression needs to be given back
(`Stencil.Proofs.Grammar.Operand`, `Stencil.Proofs.Grammar.Precedence`).
-/

set_option autoImplicit false

namespace Stencil.Grammar

open Stencil.Syntax
open Stencil.Token (Kind Symbol)
open Levels Read

/-! ### Levels as readers -/

def levelReader (inner : Levels) : Level → Read Expr
  | .conditional => conditionalLevel inner
  | .disjunction => disjunctionLevel inner
  | .conjunction => conjunctionLevel inner
  | .negation => negationLevel inner
  | .comparison => comparisonLevel inner
  | .membership => membershipLevel inner
  | .concat => concatLevel inner
  | .sum => sumLevel inner
  | .product => productLevel inner
  | .sign => signedLevel inner
  | .power => powerLevel inner
  | .chain => chainLevel inner
  | .operand => operand inner

/-- Whether a level reads any number of operators or links after one another. -/
def Loops : Level → Prop
  | .disjunction => True
  | .conjunction => True
  | .comparison => True
  | .membership => True
  | .concat => True
  | .sum => True
  | .product => True
  | .chain => True
  | _ => False

def levelTurn (inner : Levels) : Level → Expr → Read (Turn Expr)
  | .disjunction => leftTurn (wordOperator? "or" .or) (conjunctionLevel inner)
  | .conjunction => leftTurn (wordOperator? "and" .and) (negationLevel inner)
  | .comparison => leftTurn comparisonOperator? (membershipLevel inner)
  | .membership => membershipTurn inner
  | .concat => leftTurn concatOperator? (sumLevel inner)
  | .sum => leftTurn sumOperator? (productLevel inner)
  | .product => leftTurn productOperator? (signedLevel inner)
  | .chain => chainTurn inner
  | _ => fun value => return .done value

/-- A level that loops reads something of the next tighter level and then turns. -/
theorem levelReader_of_loops (inner : Levels) {level : Level} (loops : Loops level) :
    levelReader inner level = levelReader inner level.tighter >>= loop (levelTurn inner level) := by
  cases level <;> first | exact loops.elim | rfl

/-! ### Where expressions end -/

/-- The level of the expressions that go on with a word and the one after it, if some do. -/
def Word.continuation? (word next : Word) : Option Level :=
  match word.kind with
  | .name =>
      match word.lexeme with
      | "if" => some .conditional
      | "else" => some .conditional
      | "or" => some .disjunction
      | "and" => some .conjunction
      | "not" => if next = .name "in" then some .membership else none
      | "in" => some .membership
      | "is" => some .chain
      | _ => none
  | .string => some .operand
  | .symbol symbol =>
      match symbol with
      | .equal => some .comparison
      | .notEqual => some .comparison
      | .less => some .comparison
      | .lessEqual => some .comparison
      | .greater => some .comparison
      | .greaterEqual => some .comparison
      | .tilde => some .concat
      | .plus => some .sum
      | .minus => some .sum
      | .star => some .product
      | .slash => some .product
      | .slashSlash => some .product
      | .percent => some .product
      | .starStar => some .power
      | .dot => some (if next.kind = .name then .chain else .operand)
      | .leftBracket => some .chain
      | .leftParen => some .chain
      | .pipe => some .chain
      | _ => none
  | _ => none

theorem Word.continuation?_ne_sign (word next : Word) : word.continuation? next ≠ some .sign := by
  unfold Word.continuation?
  grind

namespace Tape

/-- Whether an expression of the level that has been read up to the head ends there. -/
def EndsAt (tape : Tape) (level : Level) : Prop :=
  ∀ other, (wordOf tape.current).continuation? (wordOf tape.advance.current) = some other →
    ¬ level ≤ other

theorem EndsAt.tighten {tape : Tape} {level tighter : Level} (ends : tape.EndsAt level)
    (le : level ≤ tighter) : tape.EndsAt tighter :=
  fun other continues fits => ends other continues (Level.le_trans le fits)

theorem endsAt_of_continuation {tape : Tape} {level other : Level}
    (continues : (wordOf tape.current).continuation? (wordOf tape.advance.current) = some other)
    (looser : ¬ level ≤ other) : tape.EndsAt level := by
  intro another continuesToo
  rw [continues] at continuesToo
  rwa [← Option.some.inj continuesToo]

theorem endsAt_of_none {tape : Tape} (level : Level)
    (stops : (wordOf tape.current).continuation? (wordOf tape.advance.current) = none) :
    tape.EndsAt level := by
  intro other continues
  rw [stops] at continues
  cases continues

theorem endsAt_of_isTagEnd {tape : Tape} (level : Level)
    (closes : tape.current.kind.isTagEnd = true) : tape.EndsAt level := by
  apply endsAt_of_none
  cases isKind : tape.current.kind <;> simp_all [Kind.isTagEnd, Word.continuation?]

/-- Where a level ends, nothing that continues it stands under the head. -/
theorem EndsAt.continuation_ne {tape : Tape} {level : Level} (ends : tape.EndsAt level) :
    (wordOf tape.current).continuation? (wordOf tape.advance.current) ≠ some level :=
  fun continues => ends level continues (Level.le_refl level)

theorem EndsAt.at_sign {tape : Tape} (ends : tape.EndsAt .power) : tape.EndsAt .sign := by
  intro other continues fits
  rcases Level.eq_or_tighter_le fits with rfl | tighter
  · exact Word.continuation?_ne_sign _ _ continues
  · exact ends other continues tighter

end Tape

theorem isName_eq_true {token : Token} {word : String} :
    token.isName word = true ↔ wordOf token = .name word := by
  simp [Token.isName, wordOf, Word.name]

theorem run_leftTurn_of_none {operator? : Token → Option BinaryOp} {tape : Tape}
    (stops : operator? tape.current = none) (tighter : Read Expr) (left : Expr) :
    (leftTurn operator? tighter left).run tape = (.done left, tape) := by
  simp only [leftTurn, run_bind, run_peek, stops, run_pure]

theorem wordOperator?_eq_none {tape : Tape} {word : String} {op : BinaryOp}
    (ends : wordOf tape.current ≠ .name word) : wordOperator? word op tape.current = none := by
  rw [wordOperator?, if_neg (fun isWord => ends (isName_eq_true.mp isWord))]

theorem membershipOperator?_eq_none {tape : Tape} (ends : tape.EndsAt .membership) :
    membershipOperator? tape.current tape.advance.current = none := by
  have stops := ends.continuation_ne
  unfold membershipOperator?
  split
  · rename_i isIn
    rw [isName_eq_true.mp isIn] at stops
    exact (stops rfl).elim
  · split
    · rename_i isNotIn
      rw [Bool.and_eq_true, isName_eq_true, isName_eq_true] at isNotIn
      rw [isNotIn.1, isNotIn.2] at stops
      exact (stops rfl).elim
    · rfl

/-- A point goes on with a chain or, behind a number, with an operand. -/
theorem Tape.EndsAt.not_point {tape : Tape} (ends : tape.EndsAt .chain) :
    tape.current.kind ≠ .symbol .dot := by
  intro isPoint
  by_cases isName : tape.advance.current.kind = .name
  · refine ends .chain ?_ (Level.le_refl _)
    simp [Word.continuation?, isPoint, isName]
  · refine ends .operand ?_ (Level.le_operand _)
    simp [Word.continuation?, isPoint, isName]

theorem run_chainTurn_of_endsAt {inner : Levels} {tape : Tape} (ends : tape.EndsAt .chain)
    (value : Expr) : (chainTurn inner value).run tape = (.done value, tape) := by
  have stops := ends.continuation_ne
  simp only [chainTurn, run_bind, run_peek]
  split
  · rename_i isPoint
    exact (ends.not_point isPoint).elim
  · rename_i isBracket
    simp [Word.continuation?, isBracket] at stops
  · rename_i isParen
    simp [Word.continuation?, isParen] at stops
  · rename_i isPipe
    simp [Word.continuation?, isPipe] at stops
  · have notIs : tape.current.isName "is" ≠ true := by
      intro isWord
      rw [isName_eq_true.mp isWord] at stops
      exact stops rfl
    simp only [run_bind, run_atWord, if_neg notIs, run_pure]
  · rfl

/-- A level that loops turns no more where it ends. -/
theorem Tape.EndsAt.run_levelTurn {inner : Levels} {level : Level} (loops : Loops level)
    {tape : Tape} (ends : tape.EndsAt level) (value : Expr) :
    (levelTurn inner level value).run tape = (.done value, tape) := by
  have stops := ends.continuation_ne
  cases level with
  | disjunction =>
      have ended : wordOf tape.current ≠ .name "or" := fun isOr => stops (by rw [isOr]; rfl)
      exact run_leftTurn_of_none (wordOperator?_eq_none ended) _ value
  | conjunction =>
      have ended : wordOf tape.current ≠ .name "and" := fun isAnd => stops (by rw [isAnd]; rfl)
      exact run_leftTurn_of_none (wordOperator?_eq_none ended) _ value
  | comparison =>
      apply run_leftTurn_of_none
      unfold comparisonOperator?
      split <;> first | rfl | simp_all [Word.continuation?]
  | membership =>
      simp only [levelTurn, membershipTurn, run_bind, run_peek, run_peekAhead, Tape.ahead_one,
        membershipOperator?_eq_none ends, run_pure]
  | concat =>
      apply run_leftTurn_of_none
      unfold concatOperator?
      split <;> first | rfl | simp_all [Word.continuation?, Token.isSymbol]
  | sum =>
      apply run_leftTurn_of_none
      unfold sumOperator?
      split <;> first | rfl | simp_all [Word.continuation?]
  | product =>
      apply run_leftTurn_of_none
      unfold productOperator?
      split <;> first | rfl | simp_all [Word.continuation?]
  | chain => exact run_chainTurn_of_endsAt ends value
  | _ => exact loops.elim

/-! ### Expressions given back -/

/-- Whether the reader gives the expression back, up to places, wherever its words stand and the
level ends behind them. -/
def GivesBack (reader : Read Expr) (level : Level) (expr : Expr) : Prop :=
  ∀ tape : Tape, tape.Shows expr.written → (tape.past expr.written).EndsAt level →
    ∃ value, reader.run tape = (value, tape.past expr.written) ∧ value.unplaced = expr.unplaced

/-- Whether a level that loops has the expression, up to places, as what it has read so far once it
is behind the words: what the loop then comes to is what the level reads. -/
def Carries (inner : Levels) (level : Level) (expr : Expr) : Prop :=
  ∀ tape : Tape, tape.Shows expr.written → (tape.past expr.written).EndsAt level.tighter →
    ∃ value, value.unplaced = expr.unplaced ∧ ∀ result final,
      Settles (levelTurn inner level) value (tape.past expr.written) result final →
        (levelReader inner level).run tape = (result, final)

/-- A level carries what the next tighter level gives back. -/
theorem GivesBack.carries {inner : Levels} {level : Level} (loops : Loops level) {expr : Expr}
    (gives : GivesBack (levelReader inner level.tighter) level.tighter expr) :
    Carries inner level expr := by
  intro tape shown ends
  obtain ⟨value, reads, same⟩ := gives tape shown ends
  refine ⟨value, same, fun result final settles => ?_⟩
  rw [levelReader_of_loops inner loops, run_bind, reads]
  exact run_loop_of_settles settles

theorem Carries.givesBack {inner : Levels} {level : Level} (loops : Loops level) {expr : Expr}
    (carries : Carries inner level expr) : GivesBack (levelReader inner level) level expr := by
  intro tape shown ends
  obtain ⟨value, same, goesOn⟩ := carries tape shown (ends.tighten level.le_tighter)
  exact ⟨value, goesOn _ _ (.done (ends.run_levelTurn loops value)), same⟩

/-! ### Looser levels -/

theorem Begins.not_negation {level : Level} {tape : Tape} {words : List Word}
    (begins : Begins level words) (shown : tape.Shows words) (tighter : ¬ level ≤ .negation) :
    tape.current.isName "not" ≠ true := by
  intro isNot
  cases words with
  | nil => exact begins
  | cons first rest =>
      obtain ⟨⟨opened, opens, le⟩, _⟩ := begins
      rw [← shown.1, isName_eq_true.mp isNot] at opens
      have isNegation : Level.negation = opened := Option.some.inj opens
      exact tighter (isNegation ▸ le)

theorem Begins.not_sign {level : Level} {tape : Tape} {words : List Word}
    (begins : Begins level words) (shown : tape.Shows words) (tighter : ¬ level ≤ .sign) :
    tape.current.kind ≠ .symbol .minus ∧ tape.current.kind ≠ .symbol .plus := by
  cases words with
  | nil => exact begins.elim
  | cons first rest =>
      obtain ⟨⟨opened, opens, le⟩, _⟩ := begins
      rw [shown.kind]
      constructor
      · intro isMinus
        rw [Word.opened?, isMinus] at opens
        exact tighter (Option.some.inj opens ▸ le)
      · intro isPlus
        rw [Word.opened?, isPlus] at opens
        exact tighter (Option.some.inj opens ▸ le)

/-- What the next tighter level reads, a level reads as well, unless it goes on behind that or begins
with an operator of its own. -/
theorem run_levelReader_of_tighter {inner : Levels} {level : Level} {tape final : Tape} {value : Expr}
    (proper : level ≠ .operand) (notNegation : level = .negation → tape.current.isName "not" ≠ true)
    (notSign : level = .sign →
      tape.current.kind ≠ .symbol .minus ∧ tape.current.kind ≠ .symbol .plus)
    (reads : (levelReader inner level.tighter).run tape = (value, final))
    (ends : final.EndsAt level) : (levelReader inner level).run tape = (value, final) := by
  by_cases loops : Loops level
  · rw [levelReader_of_loops inner loops, run_bind, reads]
    exact run_loop_of_settles (.done (ends.run_levelTurn loops value))
  · cases level with
    | conditional =>
        have reads : (disjunctionLevel inner).run tape = (value, final) := reads
        have notIf : final.current.isName "if" ≠ true := by
          intro isIf
          have stops := ends.continuation_ne
          rw [isName_eq_true.mp isIf] at stops
          exact stops rfl
        simp only [levelReader, conditionalLevel, run_bind, reads, run_takeWord, if_neg notIf,
          Bool.false_eq_true, if_false, run_pure]
    | negation =>
        show (if tape.current.isName "not" then _ else comparisonLevel inner).run tape = _
        rw [if_neg (notNegation rfl)]
        exact reads
    | sign =>
        have reads : (powerLevel inner).run tape = (value, final) := reads
        obtain ⟨notMinus, notPlus⟩ := notSign rfl
        simp only [levelReader, signedLevel, run_bind, run_peek]
        exact reads
    | power =>
        have reads : (chainLevel inner).run tape = (value, final) := reads
        have notPower : final.current.kind ≠ .symbol .starStar := by
          intro isPower
          have stops := ends.continuation_ne
          simp [Word.continuation?, isPower] at stops
        simp only [levelReader, powerLevel, run_bind, reads, run_takeSymbol, if_neg notPower,
          Bool.false_eq_true, if_false, run_pure]
    | operand => exact (proper rfl).elim
    | _ => exact (loops trivial).elim

/-- What a level reads, every looser level reads, if nothing goes on with it. -/
theorem run_levelReader_of_reads {inner : Levels} {level tight : Level} {tape final : Tape}
    {value : Expr} (le : level ≤ tight) (notNegation : tape.current.isName "not" ≠ true)
    (notSign : tape.current.kind ≠ .symbol .minus ∧ tape.current.kind ≠ .symbol .plus)
    (reads : (levelReader inner tight).run tape = (value, final)) (ends : final.EndsAt level) :
    (levelReader inner level).run tape = (value, final) := by
  by_cases same : level = tight
  · subst same
    exact reads
  · have bound : tight ≤ .operand := tight.le_operand
    have proper : level ≠ .operand := fun isOperand =>
      same (Level.le_antisymm le (isOperand ▸ bound))
    have next := Level.tightness_tighter proper
    have tighterLe := (Level.eq_or_tighter_le le).resolve_left same
    exact run_levelReader_of_tighter proper (fun _ => notNegation) (fun _ => notSign)
      (run_levelReader_of_reads tighterLe notNegation notSign reads
        (ends.tighten level.le_tighter)) ends
termination_by tight.tightness - level.tightness
decreasing_by
  have further : level.tighter.tightness ≤ tight.tightness := tighterLe
  omega

/-- An operand that nothing goes on with is what every level reads. -/
theorem run_levelReader_of_operand {inner : Levels} {level : Level} {tape final : Tape} {value : Expr}
    (notNegation : tape.current.isName "not" ≠ true)
    (notSign : tape.current.kind ≠ .symbol .minus ∧ tape.current.kind ≠ .symbol .plus)
    (reads : (operand inner).run tape = (value, final)) (ends : final.EndsAt level) :
    (levelReader inner level).run tape = (value, final) :=
  run_levelReader_of_reads level.le_operand notNegation notSign reads ends

/-- A chain that nothing goes on with is a whole expression. -/
theorem run_conditionalLevel_of_chain {inner : Levels} {tape final : Tape} {value : Expr}
    (notNegation : tape.current.isName "not" ≠ true)
    (notSign : tape.current.kind ≠ .symbol .minus ∧ tape.current.kind ≠ .symbol .plus)
    (reads : (chainLevel inner).run tape = (value, final)) (ends : final.EndsAt .conditional) :
    (conditionalLevel inner).run tape = (value, final) := by
  have reads : (levelReader inner .chain).run tape = (value, final) := reads
  have le : Level.conditional ≤ .chain := by decide
  show (levelReader inner .conditional).run tape = (value, final)
  exact run_levelReader_of_reads le notNegation notSign reads ends

/-- What a level gives back, the next looser one gives back as well. -/
theorem GivesBack.looser {inner : Levels} {level : Level} {expr : Expr} (tight : expr.Tight)
    (le : level.tighter ≤ expr.level) (proper : level ≠ .operand)
    (gives : GivesBack (levelReader inner level.tighter) level.tighter expr) :
    GivesBack (levelReader inner level) level expr := by
  intro tape shown ends
  have begins := begins_written tight
  obtain ⟨value, reads, same⟩ := gives tape shown (ends.tighten level.le_tighter)
  refine ⟨value, run_levelReader_of_tighter proper ?_ ?_ reads ends, same⟩
  · rintro rfl
    exact begins.not_negation shown fun looser => absurd (Level.le_trans le looser) (by decide)
  · rintro rfl
    exact begins.not_sign shown fun looser => absurd (Level.le_trans le looser) (by decide)

/-- What an expression's own level gives back, every looser level gives back. -/
theorem GivesBack.descend {inner : Levels} {expr : Expr} (tight : expr.Tight)
    (gives : GivesBack (levelReader inner expr.level) expr.level expr) {level : Level}
    (le : level ≤ expr.level) : GivesBack (levelReader inner level) level expr := by
  -- The induction is on the number of levels between the two.
  induction steps : expr.level.tightness - level.tightness generalizing level with
  | zero =>
      have same : level = expr.level := Level.le_antisymm le (Nat.sub_eq_zero_iff_le.mp steps)
      exact same ▸ gives
  | succ fewer inductionHypothesis =>
      rcases Level.eq_or_tighter_le le with same | tighterLe
      · exact same ▸ gives
      · have proper : level ≠ .operand := by
          rintro rfl
          have bound : expr.level.tightness ≤ 12 := expr.level.le_operand
          have full : Level.operand.tightness = 12 := rfl
          omega
        have next : level.tighter.tightness = level.tightness + 1 := Level.tightness_tighter proper
        exact (inductionHypothesis tighterLe (by omega)).looser tight tighterLe proper

/-- An expression that is given back at its own level, or carried there, is given back at every
looser level and carried at every one that loops. -/
theorem GivesBack.ladder {inner : Levels} {expr : Expr} (tight : expr.Tight)
    (gives : GivesBack (levelReader inner expr.level) expr.level expr)
    (carries : Loops expr.level → Carries inner expr.level expr) {level : Level}
    (le : level ≤ expr.level) :
    GivesBack (levelReader inner level) level expr ∧ (Loops level → Carries inner level expr) := by
  refine ⟨gives.descend tight le, fun loops => ?_⟩
  rcases Level.eq_or_tighter_le le with rfl | tighterLe
  · exact carries loops
  · exact (gives.descend tight tighterLe).carries loops

end Stencil.Grammar
