import Stencil.Grammar.Expression

/-!
Contract: how tightly expressions bind, and expressions rebuilt node by node.

Owns:
- the levels of expressions from a conditional down to a single operand, and the level that each
  position of an operand admits;
- expressions without places, without parentheses, and with the parentheses they need;
- the expressions that can be written down.

Does not own: the words of an expression (`Stencil.Proofs.Grammar.Written`).
-/

set_option autoImplicit false

namespace Stencil.Syntax

open Stencil.Text (Span)

/-! ### Levels -/

/-- How tightly an expression binds, from loosest to tightest. -/
inductive Level where
  | conditional
  | disjunction
  | conjunction
  | negation
  | comparison
  | membership
  | concat
  | sum
  | product
  | sign
  | power
  | chain
  | operand
deriving DecidableEq, Repr

namespace Level

def tightness : Level → Nat
  | .conditional => 0
  | .disjunction => 1
  | .conjunction => 2
  | .negation => 3
  | .comparison => 4
  | .membership => 5
  | .concat => 6
  | .sum => 7
  | .product => 8
  | .sign => 9
  | .power => 10
  | .chain => 11
  | .operand => 12

instance : LE Level := ⟨fun level other => level.tightness ≤ other.tightness⟩

instance (level other : Level) : Decidable (level ≤ other) :=
  inferInstanceAs (Decidable (level.tightness ≤ other.tightness))

/-- The next tighter level; there is none beyond a single operand. -/
def tighter : Level → Level
  | .conditional => .disjunction
  | .disjunction => .conjunction
  | .conjunction => .negation
  | .negation => .comparison
  | .comparison => .membership
  | .membership => .concat
  | .concat => .sum
  | .sum => .product
  | .product => .sign
  | .sign => .power
  | .power => .chain
  | .chain => .operand
  | .operand => .operand

theorem le_refl (level : Level) : level ≤ level := Nat.le_refl level.tightness

theorem le_trans {first second third : Level} (left : first ≤ second) (right : second ≤ third) :
    first ≤ third :=
  Nat.le_trans (m := second.tightness) left right

theorem le_antisymm {level other : Level} (left : level ≤ other) (right : other ≤ level) :
    level = other := by
  revert left right
  cases level <;> cases other <;> decide

theorem tightness_tighter {level : Level} (proper : level ≠ .operand) :
    level.tighter.tightness = level.tightness + 1 := by
  cases level <;> first | rfl | exact absurd rfl proper

theorem conditional_le (level : Level) : .conditional ≤ level := by cases level <;> decide

theorem le_operand (level : Level) : level ≤ .operand := by cases level <;> decide

theorem le_tighter (level : Level) : level ≤ level.tighter := by cases level <;> decide

/-- A level is either the one it is compared with or at least one step tighter. -/
theorem eq_or_tighter_le {level other : Level} (le : level ≤ other) :
    level = other ∨ level.tighter ≤ other := by
  revert le
  cases level <;> cases other <;> decide

end Level

def UnaryOp.level : UnaryOp → Level
  | .not => .negation
  | .negative => .sign
  | .positive => .sign

theorem UnaryOp.level_of_ne_not {op : UnaryOp} (isSign : op ≠ .not) : op.level = .sign := by
  cases op <;> first | rfl | exact (isSign rfl).elim

def BinaryOp.level : BinaryOp → Level
  | .or => .disjunction
  | .and => .conjunction
  | .equal => .comparison
  | .notEqual => .comparison
  | .less => .comparison
  | .lessEqual => .comparison
  | .greater => .comparison
  | .greaterEqual => .comparison
  | .concat => .concat
  | .add => .sum
  | .subtract => .sum
  | .multiply => .product
  | .divide => .product
  | .floorDivide => .product
  | .modulo => .product
  | .power => .power

/-- The level that the left position of an operator admits. Operators associate to the left, but for
the power. -/
def BinaryOp.leftLevel : BinaryOp → Level
  | .power => .chain
  | op => op.level

/-- The level that the right position of an operator admits. -/
def BinaryOp.rightLevel : BinaryOp → Level
  | .power => .sign
  | op => op.level.tighter

/-- Operators other than the power associate to the left. -/
theorem BinaryOp.leftLevel_of_ne_power {op : BinaryOp} (proper : op ≠ .power) :
    op.leftLevel = op.level := by
  cases op <;> first | rfl | exact (proper rfl).elim

theorem BinaryOp.rightLevel_of_ne_power {op : BinaryOp} (proper : op ≠ .power) :
    op.rightLevel = op.level.tighter := by
  cases op <;> first | rfl | exact (proper rfl).elim

theorem BinaryOp.level_le_leftLevel (op : BinaryOp) : op.level ≤ op.leftLevel := by
  cases op <;> decide

namespace Expr

def level : Expr → Level
  | .unary op _ _ => op.level
  | .binary op _ _ _ => op.level
  | .membership _ _ _ _ => .membership
  | .conditional _ _ _ _ => .conditional
  | .call _ _ _ => .chain
  | .filter _ _ _ _ _ => .chain
  | .test _ _ _ _ _ => .chain
  | .attribute _ _ _ => .chain
  | .item _ _ _ => .chain
  | _ => .operand

/-! ### Rebuilding -/

/-- What happens to the parts of an expression that is rebuilt: to its places, to an operand in a
position that admits a level, and to parentheses. -/
structure Rebuilding where
  place : Span → Span
  operand : Level → Expr → Expr
  group : Expr → Span → Expr

mutual

def rebuild (how : Rebuilding) : Expr → Expr
  | .literal value span => .literal value (how.place span)
  | .name word span => .name word (how.place span)
  | .group inner span => how.group (rebuild how inner) (how.place span)
  | .unary op operand span =>
      .unary op (how.operand op.level (rebuild how operand)) (how.place span)
  | .binary op left right span =>
      .binary op (how.operand op.leftLevel (rebuild how left))
        (how.operand op.rightLevel (rebuild how right)) (how.place span)
  | .membership negated element container span =>
      .membership negated (how.operand .membership (rebuild how element))
        (how.operand .concat (rebuild how container)) (how.place span)
  | .conditional condition whenTrue otherwise span =>
      .conditional (how.operand .disjunction (rebuild how condition))
        (how.operand .disjunction (rebuild how whenTrue)) (rebuildOption how otherwise)
        (how.place span)
  | .call callee args span =>
      .call (how.operand .chain (rebuild how callee)) (rebuildAll how args) (how.place span)
  | .filter value word args callSpan span =>
      .filter (how.operand .chain (rebuild how value)) word (rebuildAll how args)
        (how.place callSpan) (how.place span)
  | .test value negated word args span =>
      .test (how.operand .chain (rebuild how value)) negated word (rebuildAll how args)
        (how.place span)
  | .attribute value attr span =>
      .attribute (how.operand .chain (rebuild how value)) attr (how.place span)
  | .item value index span =>
      .item (how.operand .chain (rebuild how value)) (rebuild how index) (how.place span)
  | .list items span => .list (rebuildAll how items) (how.place span)
  | .tuple items span => .tuple (rebuildAll how items) (how.place span)
  | .dict entries span => .dict (rebuildEntries how entries) (how.place span)
  | .keyword word value span => .keyword word (rebuild how value) (how.place span)
  | .missing span => .missing (how.place span)

def rebuildAll (how : Rebuilding) : List Expr → List Expr
  | [] => []
  | expr :: rest => rebuild how expr :: rebuildAll how rest

def rebuildOption (how : Rebuilding) : Option Expr → Option Expr
  | none => none
  | some expr => some (rebuild how expr)

def rebuildEntries (how : Rebuilding) : List (Expr × Expr) → List (Expr × Expr)
  | [] => []
  | (key, value) :: rest => (rebuild how key, rebuild how value) :: rebuildEntries how rest

end

@[simp] theorem rebuildAll_eq_map (how : Rebuilding) (exprs : List Expr) :
    rebuildAll how exprs = exprs.map (rebuild how) := by
  induction exprs with
  | nil => rfl
  | cons expr rest inductionHypothesis => rw [rebuildAll, inductionHypothesis, List.map_cons]

@[simp] theorem rebuildOption_eq_map (how : Rebuilding) (expr : Option Expr) :
    rebuildOption how expr = expr.map (rebuild how) := by
  cases expr <;> rfl

@[simp] theorem rebuildEntries_eq_map (how : Rebuilding) (entries : List (Expr × Expr)) :
    rebuildEntries how entries =
      entries.map fun entry => (rebuild how entry.1, rebuild how entry.2) := by
  induction entries with
  | nil => rfl
  | cons entry rest inductionHypothesis =>
      rw [rebuildEntries, inductionHypothesis, List.map_cons]

def Rebuilding.unplaced : Rebuilding := ⟨fun _ => default, fun _ expr => expr, .group⟩

def unplaced : Expr → Expr := rebuild .unplaced

def Rebuilding.ungrouped : Rebuilding := ⟨id, fun _ expr => expr, fun inner _ => inner⟩

def ungrouped : Expr → Expr := rebuild .ungrouped

/-- The expression in parentheses, if it is looser than a position admits. -/
def fit (position : Level) (expr : Expr) : Expr :=
  if position ≤ expr.level then expr else .group expr expr.span

/-- Operands that are too loose for their positions get parentheses. -/
def Rebuilding.bracketed : Rebuilding := ⟨id, fit, .group⟩

/-- The expression with the parentheses it needs to be written down. -/
def bracketed : Expr → Expr := rebuild .bracketed

/-! ### Expressions that can be written down -/

end Expr

def reservedNames : List String :=
  ["and", "or", "not", "in", "is", "if", "else", "true", "True", "false", "False", "none", "None"]

/-- Whether a literal can be written down exactly: integers of 64 bits without a sign can. -/
def Literal.Exact : Literal → Prop
  | .int value => 0 ≤ value ∧ value ≤ Decimal.maxInt
  | .float _ => False
  | _ => True

def nameParts (text : String) : List String :=
  (Grammar.Levels.segments text.toList).map String.ofList

namespace Expr

/-- What an argument of a call is worth; it may stand behind a name. -/
def argumentValue : Expr → Expr
  | .keyword _ value _ => value
  | expr => expr

/-- Expressions that can be written down, where operands that fit may stand in a position. Keyword
arguments stand in calls, filters and tests only, and nothing is missing. The name of a test does
not begin with the word that negates it. -/
inductive Writable (fits : Level → Expr → Prop) : Expr → Prop where
  | literal {value : Literal} (span : Span) (exact : value.Exact) :
      Writable fits (.literal value span)
  | name {text : String} (span : Span) (free : text ∉ reservedNames) :
      Writable fits (.name text span)
  | group {inner : Expr} (span : Span) (innerWritable : Writable fits inner) :
      Writable fits (.group inner span)
  | unary {op : UnaryOp} {operand : Expr} (span : Span) (fit : fits op.level operand)
      (operandWritable : Writable fits operand) : Writable fits (.unary op operand span)
  | binary {op : BinaryOp} {left right : Expr} (span : Span) (leftFits : fits op.leftLevel left)
      (rightFits : fits op.rightLevel right) (leftWritable : Writable fits left)
      (rightWritable : Writable fits right) : Writable fits (.binary op left right span)
  | membership {negated : Bool} {element container : Expr} (span : Span)
      (elementFits : fits .membership element) (containerFits : fits .concat container)
      (elementWritable : Writable fits element) (containerWritable : Writable fits container) :
      Writable fits (.membership negated element container span)
  | conditional {condition whenTrue : Expr} {otherwise : Option Expr} (span : Span)
      (conditionFits : fits .disjunction condition) (whenTrueFits : fits .disjunction whenTrue)
      (conditionWritable : Writable fits condition) (whenTrueWritable : Writable fits whenTrue)
      (otherwiseWritable : ∀ expr, otherwise = some expr → Writable fits expr) :
      Writable fits (.conditional condition whenTrue otherwise span)
  | call {callee : Expr} {args : List Expr} (span : Span) (calleeFits : fits .chain callee)
      (calleeWritable : Writable fits callee)
      (argsWritable : ∀ arg ∈ args, Writable fits arg.argumentValue) :
      Writable fits (.call callee args span)
  | filter {value : Expr} {text : String} {args : List Expr} (callSpan span : Span)
      (valueFits : fits .chain value) (valueWritable : Writable fits value)
      (argsWritable : ∀ arg ∈ args, Writable fits arg.argumentValue) :
      Writable fits (.filter value text args callSpan span)
  | test {value : Expr} {negated : Bool} {text : String} {args : List Expr} (span : Span)
      (affirmative : (nameParts text).head? ≠ some "not") (valueFits : fits .chain value)
      (valueWritable : Writable fits value)
      (argsWritable : ∀ arg ∈ args, Writable fits arg.argumentValue) :
      Writable fits (.test value negated text args span)
  | attributeOf {value : Expr} {attr : String} (span : Span) (valueFits : fits .chain value)
      (valueWritable : Writable fits value) : Writable fits (.attribute value attr span)
  | item {value index : Expr} (span : Span) (valueFits : fits .chain value)
      (valueWritable : Writable fits value) (indexWritable : Writable fits index) :
      Writable fits (.item value index span)
  | list {items : List Expr} (span : Span) (itemsWritable : ∀ item ∈ items, Writable fits item) :
      Writable fits (.list items span)
  | tuple {items : List Expr} (span : Span) (itemsWritable : ∀ item ∈ items, Writable fits item) :
      Writable fits (.tuple items span)
  | dict {entries : List (Expr × Expr)} (span : Span)
      (keysWritable : ∀ entry ∈ entries, Writable fits entry.1)
      (valuesWritable : ∀ entry ∈ entries, Writable fits entry.2) :
      Writable fits (.dict entries span)

/-- Expressions that can be written down with the parentheses they need. -/
def Plain (expr : Expr) : Prop := expr.Writable fun _ _ => True

/-- Expressions that can be written down as they are: every operand is at least as tight as its
position admits. -/
def Tight (expr : Expr) : Prop := expr.Writable fun position operand => position ≤ operand.level

/-! ### Laws of rebuilding -/

theorem unplaced_conditional (condition whenTrue : Expr) (otherwise : Option Expr) (span : Span) :
    (Expr.conditional condition whenTrue otherwise span).unplaced =
      .conditional condition.unplaced whenTrue.unplaced (otherwise.map unplaced) default := by
  cases otherwise <;> rfl

theorem unplaced_call (callee : Expr) (args : List Expr) (span : Span) :
    (Expr.call callee args span).unplaced = .call callee.unplaced (args.map unplaced) default :=
  congrArg (Expr.call callee.unplaced · default) (rebuildAll_eq_map .unplaced args)

theorem unplaced_filter (value : Expr) (text : String) (args : List Expr) (callSpan span : Span) :
    (Expr.filter value text args callSpan span).unplaced =
      .filter value.unplaced text (args.map unplaced) default default :=
  congrArg (Expr.filter value.unplaced text · default default) (rebuildAll_eq_map .unplaced args)

theorem unplaced_test (value : Expr) (negated : Bool) (text : String) (args : List Expr)
    (span : Span) :
    (Expr.test value negated text args span).unplaced =
      .test value.unplaced negated text (args.map unplaced) default :=
  congrArg (Expr.test value.unplaced negated text · default) (rebuildAll_eq_map .unplaced args)

theorem unplaced_list (items : List Expr) (span : Span) :
    (Expr.list items span).unplaced = .list (items.map unplaced) default :=
  congrArg (Expr.list · default) (rebuildAll_eq_map .unplaced items)

theorem unplaced_tuple (items : List Expr) (span : Span) :
    (Expr.tuple items span).unplaced = .tuple (items.map unplaced) default :=
  congrArg (Expr.tuple · default) (rebuildAll_eq_map .unplaced items)

def unplacedEntry (entry : Expr × Expr) : Expr × Expr := (entry.1.unplaced, entry.2.unplaced)

theorem unplaced_dict (entries : List (Expr × Expr)) (span : Span) :
    (Expr.dict entries span).unplaced = .dict (entries.map unplacedEntry) default :=
  congrArg (Expr.dict · default) (rebuildEntries_eq_map .unplaced entries)

/-- An expression fits a position once it is put in parentheses where it is too loose. -/
theorem le_level_fit (position : Level) (expr : Expr) : position ≤ (expr.fit position).level := by
  unfold fit
  split
  · assumption
  · exact position.le_operand

theorem Writable.fit {fits : Level → Expr → Prop} {expr : Expr} (writable : expr.Writable fits)
    (position : Level) : (expr.fit position).Writable fits := by
  unfold Expr.fit
  split
  · exact writable
  · exact .group _ writable

theorem ungrouped_fit (position : Level) (expr : Expr) :
    (expr.fit position).ungrouped = expr.ungrouped := by
  unfold fit
  split <;> rfl

theorem argumentValue_bracketed (arg : Expr) :
    arg.bracketed.argumentValue = arg.argumentValue.bracketed := by
  cases arg <;> rfl

/-- An expression that can be written down is one as it is, once it has the parentheses it needs. -/
theorem Plain.tight_bracketed {expr : Expr} (plain : expr.Plain) : expr.bracketed.Tight := by
  have tightArgs {args : List Expr} (argsTight : ∀ arg ∈ args, arg.argumentValue.bracketed.Tight) :
      ∀ arg ∈ args.map bracketed, arg.argumentValue.Tight := by
    intro arg member
    obtain ⟨original, isOriginal, rfl⟩ := List.mem_map.mp member
    rw [argumentValue_bracketed]
    exact argsTight original isOriginal
  induction plain with
  | literal span exact => exact .literal span exact
  | name span free => exact .name span free
  | group span _ innerTight => exact .group span innerTight
  | unary span _ _ operandTight => exact .unary span (le_level_fit _ _) (operandTight.fit _)
  | binary span _ _ _ _ leftTight rightTight =>
      exact .binary span (le_level_fit _ _) (le_level_fit _ _) (leftTight.fit _) (rightTight.fit _)
  | membership span _ _ _ _ elementTight containerTight =>
      exact .membership span (le_level_fit _ _) (le_level_fit _ _) (elementTight.fit _)
        (containerTight.fit _)
  | conditional span _ _ _ _ _ conditionTight whenTrueTight otherwiseTight =>
      refine .conditional span (le_level_fit _ _) (le_level_fit _ _) (conditionTight.fit _)
        (whenTrueTight.fit _) ?_
      intro expr isSome
      rw [rebuildOption_eq_map] at isSome
      obtain ⟨original, isOriginal, rfl⟩ := Option.map_eq_some_iff.mp isSome
      exact otherwiseTight original isOriginal
  | call span _ _ _ calleeTight argsTight =>
      rw [bracketed, rebuild, rebuildAll_eq_map]
      exact .call span (le_level_fit _ _) (calleeTight.fit _) (tightArgs argsTight)
  | filter callSpan span _ _ _ valueTight argsTight =>
      rw [bracketed, rebuild, rebuildAll_eq_map]
      exact .filter callSpan span (le_level_fit _ _) (valueTight.fit _) (tightArgs argsTight)
  | test span affirmative _ _ _ valueTight argsTight =>
      rw [bracketed, rebuild, rebuildAll_eq_map]
      exact .test span affirmative (le_level_fit _ _) (valueTight.fit _) (tightArgs argsTight)
  | attributeOf span _ _ valueTight =>
      exact .attributeOf span (le_level_fit _ _) (valueTight.fit _)
  | item span _ _ _ valueTight indexTight =>
      exact .item span (le_level_fit _ _) (valueTight.fit _) indexTight
  | list span _ itemsTight =>
      rw [bracketed, rebuild, rebuildAll_eq_map]
      exact .list span (List.forall_mem_map.mpr itemsTight)
  | tuple span _ itemsTight =>
      rw [bracketed, rebuild, rebuildAll_eq_map]
      exact .tuple span (List.forall_mem_map.mpr itemsTight)
  | dict span _ _ keysTight valuesTight =>
      rw [bracketed, rebuild, rebuildEntries_eq_map]
      exact .dict span (List.forall_mem_map.mpr keysTight) (List.forall_mem_map.mpr valuesTight)

/-- Whether rebuilding in one way and then in another is rebuilding in a third. -/
structure Rebuilding.Composes (first second third : Rebuilding) : Prop where
  place : ∀ span, second.place (first.place span) = third.place span
  operand : ∀ position expr,
    second.operand position (rebuild second (first.operand position expr)) =
      third.operand position (rebuild second expr)
  group : ∀ inner span, rebuild second (first.group inner (first.place span)) =
    third.group (rebuild second inner) (third.place span)

section Composition

variable {first second third : Rebuilding}

mutual

theorem rebuild_rebuild (composes : first.Composes second third) :
    ∀ expr : Expr, rebuild second (rebuild first expr) = rebuild third expr
  | .literal value span => by simp only [rebuild, composes.place]
  | .name word span => by simp only [rebuild, composes.place]
  | .group inner span => by simp only [rebuild, composes.group, rebuild_rebuild composes inner]
  | .unary op operand span => by
      simp only [rebuild, composes.place, composes.operand, rebuild_rebuild composes operand]
  | .binary op left right span => by
      simp only [rebuild, composes.place, composes.operand, rebuild_rebuild composes left,
        rebuild_rebuild composes right]
  | .membership negated element container span => by
      simp only [rebuild, composes.place, composes.operand, rebuild_rebuild composes element,
        rebuild_rebuild composes container]
  | .conditional condition whenTrue none span => by
      simp only [rebuild, rebuildOption, composes.place, composes.operand,
        rebuild_rebuild composes condition, rebuild_rebuild composes whenTrue]
  | .conditional condition whenTrue (some otherwise) span => by
      simp only [rebuild, rebuildOption, composes.place, composes.operand,
        rebuild_rebuild composes condition, rebuild_rebuild composes whenTrue,
        rebuild_rebuild composes otherwise]
  | .call callee args span => by
      simp only [rebuild, composes.place, composes.operand, rebuild_rebuild composes callee,
        rebuildAll_rebuildAll composes args]
  | .filter value word args callSpan span => by
      simp only [rebuild, composes.place, composes.operand, rebuild_rebuild composes value,
        rebuildAll_rebuildAll composes args]
  | .test value negated word args span => by
      simp only [rebuild, composes.place, composes.operand, rebuild_rebuild composes value,
        rebuildAll_rebuildAll composes args]
  | .attribute value attr span => by
      simp only [rebuild, composes.place, composes.operand, rebuild_rebuild composes value]
  | .item value index span => by
      simp only [rebuild, composes.place, composes.operand, rebuild_rebuild composes value,
        rebuild_rebuild composes index]
  | .list items span => by
      simp only [rebuild, composes.place, rebuildAll_rebuildAll composes items]
  | .tuple items span => by
      simp only [rebuild, composes.place, rebuildAll_rebuildAll composes items]
  | .dict entries span => by
      simp only [rebuild, composes.place, rebuildEntries_rebuildEntries composes entries]
  | .keyword word value span => by
      simp only [rebuild, composes.place, rebuild_rebuild composes value]
  | .missing span => by simp only [rebuild, composes.place]

theorem rebuildAll_rebuildAll (composes : first.Composes second third) :
    ∀ exprs : List Expr,
    rebuildAll second (rebuildAll first exprs) = rebuildAll third exprs
  | [] => rfl
  | expr :: rest => by
      rw [rebuildAll, rebuildAll, rebuildAll, rebuild_rebuild composes expr,
        rebuildAll_rebuildAll composes rest]

theorem rebuildEntries_rebuildEntries (composes : first.Composes second third) :
    ∀ entries : List (Expr × Expr),
    rebuildEntries second (rebuildEntries first entries) = rebuildEntries third entries
  | [] => rfl
  | (key, value) :: rest => by
      rw [rebuildEntries, rebuildEntries, rebuildEntries, rebuild_rebuild composes key,
        rebuild_rebuild composes value, rebuildEntries_rebuildEntries composes rest]

end

end Composition

/-- The parentheses that an expression needs are the only ones it gets. -/
theorem ungrouped_bracketed (expr : Expr) : expr.bracketed.ungrouped = expr.ungrouped :=
  rebuild_rebuild ⟨fun _ => rfl, ungrouped_fit, fun _ _ => rfl⟩ expr

def Rebuilding.bare : Rebuilding := ⟨fun _ => default, fun _ expr => expr, fun inner _ => inner⟩

/-- It does not matter whether places go first or parentheses. -/
theorem unplaced_ungrouped (expr : Expr) : expr.ungrouped.unplaced = expr.unplaced.ungrouped :=
  calc expr.ungrouped.unplaced
    _ = rebuild .bare expr := rebuild_rebuild ⟨fun _ => rfl, fun _ _ => rfl, fun _ _ => rfl⟩ expr
    _ = expr.unplaced.ungrouped :=
      (rebuild_rebuild ⟨fun _ => rfl, fun _ _ => rfl, fun _ _ => rfl⟩ expr).symm

end Expr

end Stencil.Syntax
