import Stencil.Value.Operate
import Mathlib.Data.Ordering.Basic

/-!
Contract: the order of integers, texts, and sequences of such values.

Owns:
- the values that are ordered without floating-point numbers, and induction over two of them;
- the order of two of them from both sides, and that only equal ones are on a par;
- what is ordered along three values, and what the operators of comparison answer.

Values of different kinds have no order, and neither have two sequences if their first items that
differ have none.

Does not own: other operators (`Stencil.Value.Operate`).
-/

set_option autoImplicit false

namespace Stencil.Value

open Stencil.Syntax (BinaryOp)

/-- Whether a value is an integer, a text, or a sequence of such values, nested to any depth. -/
inductive Sortable : Value → Prop where
  | int (value : Int) : Sortable (.int value)
  | text (value : String) : Sortable (.text value)
  | seq {items : List Value} (areSortable : ∀ item ∈ items, Sortable item) : Sortable (.seq items)

variable {a b c : Value} {as bs cs : List Value}

/-- Whether two values are different and have no order. -/
structure Apart (a b : Value) : Prop where
  ordered : a.compare b = none
  reversed : b.compare a = none
  same : a.same b = false
  ne : a ≠ b

/-- What holds of two integers, of two texts, of two sequences if it holds of their items, and of
values of different kinds, holds of any two sortable values. -/
theorem Sortable.both {motive : Value → Value → Prop}
    (ints : ∀ x y, motive (.int x) (.int y)) (texts : ∀ x y, motive (.text x) (.text y))
    (seqs : ∀ as bs, (∀ item ∈ as, ∀ other ∈ bs, item.Sortable ∧ other.Sortable ∧ motive item other) →
      motive (.seq as) (.seq bs))
    (apart : ∀ a b, Apart a b → motive a b) (first : a.Sortable) (second : b.Sortable) :
    motive a b := by
  induction first generalizing b with
  | int x =>
      cases second with
      | int y => exact ints x y
      | text y => exact apart _ _ ⟨rfl, rfl, rfl, nofun⟩
      | seq areSortable => exact apart _ _ ⟨rfl, rfl, rfl, nofun⟩
  | text x =>
      cases second with
      | int y => exact apart _ _ ⟨rfl, rfl, rfl, nofun⟩
      | text y => exact texts x y
      | seq areSortable => exact apart _ _ ⟨rfl, rfl, rfl, nofun⟩
  | @seq as areSortable inductionHypothesis =>
      cases second with
      | int y => exact apart _ _ ⟨rfl, rfl, rfl, nofun⟩
      | text y => exact apart _ _ ⟨rfl, rfl, rfl, nofun⟩
      | @seq bs areOthers =>
          apply seqs
          intro item isItem other isOther
          have otherSortable := areOthers other isOther
          exact ⟨areSortable item isItem, otherSortable,
            inductionHypothesis item isItem otherSortable⟩

/-- What holds of all pairs of items of two sequences holds of the first pair and of the others. -/
theorem each_of_cons {relation : Value → Value → Prop}
    (each : ∀ item ∈ a :: as, ∀ other ∈ b :: bs, relation item other) :
    relation a b ∧ ∀ item ∈ as, ∀ other ∈ bs, relation item other := by
  constructor
  · exact each a List.mem_cons_self b List.mem_cons_self
  · intro item isItem other isOther
    exact each item (List.mem_cons_of_mem _ isItem) other (List.mem_cons_of_mem _ isOther)

/-! ### Equality -/

theorem sameItems_iff (each : ∀ item ∈ as, ∀ other ∈ bs, item.same other = true ↔ item = other) :
    sameItems as bs = true ↔ as = bs := by
  induction as generalizing bs with
  | nil => cases bs <;> simp [sameItems]
  | cons a as inductionHypothesis =>
      cases bs with
      | nil => simp [sameItems]
      | cons b bs =>
          obtain ⟨first, others⟩ := each_of_cons each
          rw [sameItems, Bool.and_eq_true, first, inductionHypothesis others, List.cons.injEq]

/-- Sortable values are equal only to themselves. -/
theorem Sortable.same_iff (first : a.Sortable) (second : b.Sortable) : a.same b = true ↔ a = b := by
  apply Sortable.both (motive := fun a b => a.same b = true ↔ a = b) _ _ _ _ first second
  · intro x y
    simp [same]
  · intro x y
    simp [same]
  · intro as bs each
    rw [same, seq.injEq]
    exact sameItems_iff fun item isItem other isOther => (each item isItem other isOther).2.2
  · intro a b apart
    simp [apart.same, apart.ne]

/-! ### The order of two values -/

theorem compareItems_eq_iff
    (each : ∀ item ∈ as, ∀ other ∈ bs, item.compare other = some .eq ↔ item = other) :
    compareItems as bs = some .eq ↔ as = bs := by
  induction as generalizing bs with
  | nil => cases bs <;> simp [compareItems]
  | cons a as inductionHypothesis =>
      cases bs with
      | nil => simp [compareItems]
      | cons b bs =>
          obtain ⟨first, others⟩ := each_of_cons each
          rw [compareItems, List.cons.injEq, ← first, ← inductionHypothesis others]
          cases a.compare b with
          | none => simp
          | some order => cases order <;> simp

/-- Two values are on a par only if they are the same. -/
theorem Sortable.compare_eq_iff (first : a.Sortable) (second : b.Sortable) :
    a.compare b = some .eq ↔ a = b := by
  apply Sortable.both (motive := fun a b => a.compare b = some .eq ↔ a = b) _ _ _ _ first second
  · intro x y
    simp [compare]
  · intro x y
    simp [compare]
  · intro as bs each
    rw [compare, seq.injEq]
    exact compareItems_eq_iff fun item isItem other isOther => (each item isItem other isOther).2.2
  · intro a b apart
    simp [apart.ordered, apart.ne]

theorem compareItems_swap
    (each : ∀ item ∈ as, ∀ other ∈ bs, other.compare item = (item.compare other).map Ordering.swap) :
    compareItems bs as = (compareItems as bs).map Ordering.swap := by
  induction as generalizing bs with
  | nil => cases bs <;> rfl
  | cons a as inductionHypothesis =>
      cases bs with
      | nil => rfl
      | cons b bs =>
          obtain ⟨first, others⟩ := each_of_cons each
          rw [compareItems, compareItems, first]
          cases a.compare b with
          | none => rfl
          | some order =>
              cases order with
              | lt => rfl
              | eq => exact inductionHypothesis others
              | gt => rfl

/-- Seen from the other value, the order is the reverse. -/
theorem Sortable.compare_swap (first : a.Sortable) (second : b.Sortable) :
    b.compare a = (a.compare b).map Ordering.swap := by
  apply Sortable.both (motive := fun a b => b.compare a = (a.compare b).map Ordering.swap) _ _ _ _
    first second
  · intro x y
    exact congrArg some Std.OrientedOrd.eq_swap
  · intro x y
    exact congrArg some Std.OrientedOrd.eq_swap
  · intro as bs each
    exact compareItems_swap fun item isItem other isOther => (each item isItem other isOther).2.2
  · intro a b apart
    rw [apart.ordered, apart.reversed]
    rfl

/-! ### The order of three values -/

/-- One sequence is before another one exactly if the first of their items are in order, or they are
the same and the rest of one is before the rest of the other. -/
theorem compareItems_cons_lt (first : a.Sortable) (second : b.Sortable) :
    compareItems (a :: as) (b :: bs) = some .lt ↔
      a.compare b = some .lt ∨ a = b ∧ compareItems as bs = some .lt := by
  rw [compareItems, ← first.compare_eq_iff second]
  cases a.compare b with
  | none => simp
  | some order => cases order <;> simp

theorem compareItems_lt_trans (first : ∀ item ∈ as, item.Sortable)
    (second : ∀ item ∈ bs, item.Sortable) (third : ∀ item ∈ cs, item.Sortable)
    (each : ∀ a ∈ as, ∀ b ∈ bs, ∀ c ∈ cs, a.compare b = some .lt → b.compare c = some .lt →
      a.compare c = some .lt)
    (less : compareItems as bs = some .lt) (lessAgain : compareItems bs cs = some .lt) :
    compareItems as cs = some .lt := by
  induction as generalizing bs cs with
  | nil =>
      cases bs with
      | nil => simp [compareItems] at less
      | cons b bs =>
          cases cs with
          | nil => simp [compareItems] at lessAgain
          | cons c cs => rfl
  | cons a as inductionHypothesis =>
      cases bs with
      | nil => simp [compareItems] at less
      | cons b bs =>
          cases cs with
          | nil => simp [compareItems] at lessAgain
          | cons c cs =>
              rw [List.forall_mem_cons] at first second third
              rw [compareItems_cons_lt first.1 second.1] at less
              rw [compareItems_cons_lt second.1 third.1] at lessAgain
              rw [compareItems_cons_lt first.1 third.1]
              rcases less with less | ⟨rfl, less⟩
              · rcases lessAgain with lessAgain | ⟨rfl, -⟩
                · exact .inl (each a List.mem_cons_self b List.mem_cons_self c List.mem_cons_self
                    less lessAgain)
                · exact .inl less
              · rcases lessAgain with lessAgain | ⟨rfl, lessAgain⟩
                · exact .inl lessAgain
                · refine .inr ⟨rfl, inductionHypothesis first.2 second.2 third.2 ?_ less lessAgain⟩
                  intro x isFirst y isSecond z isThird
                  exact each x (List.mem_cons_of_mem _ isFirst) y (List.mem_cons_of_mem _ isSecond) z
                    (List.mem_cons_of_mem _ isThird)

theorem Sortable.compare_lt_trans (first : a.Sortable) (second : b.Sortable) (third : c.Sortable)
    (less : a.compare b = some .lt) (lessAgain : b.compare c = some .lt) :
    a.compare c = some .lt := by
  induction first generalizing b c with
  | int x =>
      cases second with
      | int y =>
          cases third with
          | int z =>
              rw [compare, Option.some.injEq] at less lessAgain ⊢
              exact Std.TransCmp.lt_trans less lessAgain
          | _ => cases lessAgain
      | _ => cases less
  | text x =>
      cases second with
      | text y =>
          cases third with
          | text z =>
              rw [compare, Option.some.injEq] at less lessAgain ⊢
              exact Std.TransCmp.lt_trans less lessAgain
          | _ => cases lessAgain
      | _ => cases less
  | @seq as areFirst inductionHypothesis =>
      cases second with
      | @seq bs areSecond =>
          cases third with
          | @seq cs areThird =>
              apply compareItems_lt_trans areFirst areSecond areThird _ less lessAgain
              intro a isFirst b isSecond c isThird less lessAgain
              exact inductionHypothesis a isFirst (areSecond b isSecond) (areThird c isThird) less
                lessAgain
          | _ => cases lessAgain
      | _ => cases less

/-- What is no later than something that is no later than a third value is no later than that one; it
is earlier if one of the two steps is. -/
theorem Sortable.compare_trans (first : a.Sortable) (second : b.Sortable) (third : c.Sortable)
    {order next : Ordering} (isOrder : a.compare b = some order) (isNext : b.compare c = some next)
    (noLater : order ≠ .gt) (noLaterAgain : next ≠ .gt) :
    a.compare c = some (if order = .lt ∨ next = .lt then .lt else .eq) := by
  cases order with
  | gt => contradiction
  | eq =>
      obtain rfl := (first.compare_eq_iff second).mp isOrder
      rw [isNext]
      cases next <;> simp at noLaterAgain ⊢
  | lt =>
      cases next with
      | gt => contradiction
      | eq =>
          obtain rfl := (second.compare_eq_iff third).mp isNext
          exact isOrder
      | lt => exact first.compare_lt_trans second third isOrder isNext

/-! ### Operators -/

/-- The operators of comparison. -/
def orderOperators : List BinaryOp := [.less, .lessEqual, .greater, .greaterEqual]

/-- Operators of comparison refuse values that have no order. -/
theorem operate_of_unordered (noOrder : a.compare b = none) {op : BinaryOp}
    (isOperator : op ∈ orderOperators) :
    operate op a b = .error (.operands op.symbol a.typeName b.typeName) := by
  have isOrdered : operate op a b = ordered op a b := by
    simp only [orderOperators, List.mem_cons, List.not_mem_nil, or_false] at isOperator
    rcases isOperator with rfl | rfl | rfl | rfl <;> rfl
  rw [isOrdered, ordered, noOrder]
  rfl

/-- The order of integers, texts, and sequences of such values is the reverse seen from the other
side, and there is none from either side or from both; only equal values are on a par; and it is
transitive. The operators of comparison all refuse two values, or all go by their order. -/
theorem order_lawful (first : a.Sortable) (second : b.Sortable) (third : c.Sortable) :
    b.compare a = (a.compare b).map Ordering.swap ∧
    (a.compare b = some .eq ↔ a.same b = true) ∧
    (∀ order next, a.compare b = some order → b.compare c = some next →
      order ≠ .gt → next ≠ .gt →
        a.compare c = some (if order = .lt ∨ next = .lt then .lt else .eq)) ∧
    ((a.compare b = none ∧ ∀ op ∈ orderOperators,
        operate op a b = .error (.operands op.symbol a.typeName b.typeName)) ∨
      ∃ order, a.compare b = some order ∧
        operate .less a b = .ok (.bool (order = .lt)) ∧
        operate .lessEqual a b = .ok (.bool (order = .lt ∨ order = .eq)) ∧
        operate .greater a b = .ok (.bool (order = .gt)) ∧
        operate .greaterEqual a b = .ok (.bool (order = .gt ∨ order = .eq))) := by
  refine ⟨first.compare_swap second, ?_, ?_, ?_⟩
  · rw [first.compare_eq_iff second, first.same_iff second]
  · intro order next isOrder isNext noLater noLaterAgain
    exact first.compare_trans second third isOrder isNext noLater noLaterAgain
  · cases isOrder : a.compare b with
    | none => exact .inl ⟨rfl, fun op isOperator => operate_of_unordered isOrder isOperator⟩
    | some order =>
        refine .inr ⟨order, rfl, ?_⟩
        simp only [operate, ordered, isOrder]
        cases order <;> exact ⟨rfl, rfl, rfl, rfl⟩

/-- Sequences that differ in a nested item, and two of which the first items that differ have no
order. -/
theorem order_lawful_nested :
    let short := Value.seq [.int 1, .seq [.text "a"]]
    let long := Value.seq [.int 1, .seq [.text "a", .int 2]]
    let other := Value.seq [.int 1, .seq [.text "b"]]
    short.Sortable ∧ long.Sortable ∧ other.Sortable ∧
      short.compare long = some .lt ∧ long.compare other = some .lt ∧
      short.compare other = some .lt ∧ other.compare long = some .gt ∧
      (short.same long = true ↔ short.compare long = some .eq) ∧
      operate .less (.seq [.int 1]) (.seq [.text "1"]) =
        .error (.operands "<" "sequence" "sequence") := by
  intro short long other
  have isShort : short.Sortable :=
    .seq (by simpa using ⟨.int 1, .seq (by simpa using .text "a")⟩)
  have isLong : long.Sortable :=
    .seq (by simpa using ⟨.int 1, .seq (by simpa using ⟨.text "a", .int 2⟩)⟩)
  have isOther : other.Sortable :=
    .seq (by simpa using ⟨.int 1, .seq (by simpa using .text "b")⟩)
  have shortLong : short.compare long = some .lt := by decide
  have longOther : long.compare other = some .lt := by decide
  obtain ⟨-, onPar, along, -⟩ := order_lawful isShort isLong isOther
  obtain ⟨reversed, -⟩ := order_lawful isLong isOther isShort
  rw [longOther] at reversed
  exact ⟨isShort, isLong, isOther, shortLong, longOther,
    along .lt .lt shortLong longOther nofun nofun, reversed, onPar.symm, rfl⟩

end Stencil.Value
