/-!
Contract: looking ahead for a place at which reading can resume.

Owns:
- the distance to the first place that satisfies a test, or to the end.

Does not own: the tests, which belong to the passes that recover from malformed input.
-/

set_option autoImplicit false

namespace Stencil.Text

/-- How many items come before the first remainder that satisfies the test; all of them if none
does. -/
def distanceTo {α : Type} (here : List α → Bool) : List α → Nat
  | [] => 0
  | item :: rest => if here (item :: rest) then 0 else distanceTo here rest + 1

theorem distanceTo_le_length {α : Type} (here : List α → Bool) (items : List α) :
    distanceTo here items ≤ items.length := by
  induction items with
  | nil => simp [distanceTo]
  | cons item rest inductionHypothesis =>
      unfold distanceTo
      split
      · omega
      · simp only [List.length_cons]
        omega

/-- What remains at the distance is empty or satisfies the test. -/
theorem drop_distanceTo {α : Type} (here : List α → Bool) (items : List α) :
    items.drop (distanceTo here items) = [] ∨ here (items.drop (distanceTo here items)) = true := by
  induction items with
  | nil => simp [distanceTo]
  | cons item rest inductionHypothesis =>
      unfold distanceTo
      split
      · rename_i found
        exact Or.inr found
      · simpa using inductionHypothesis

/-- The index of the first item from `start` on and before `stop` that satisfies the test; `stop`
if none does, and `start` if the range is empty. -/
def firstIndex {α : Type} (test : α → Bool) (items : List α) (start stop : Nat) : Nat :=
  start + distanceTo (fun rest => rest.head?.any test) ((items.take stop).drop start)

def contains (part text : List Char) : Bool :=
  match text with
  | [] => part.isEmpty
  | c :: rest => part.isPrefixOf (c :: rest) || contains part rest

end Stencil.Text
