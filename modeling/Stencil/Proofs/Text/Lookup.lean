import Stencil.Proofs.Token.Tiling
import Stencil.Text.LineIndex

/-!
Contract: looking an offset up in a table of line starts leads to the point that counting along the
text leads to.

Owns:
- the longest beginning of a text that fits into a number of bytes;
- the starts of lines before and behind a point of a text;
- the position that a look-up gives for any offset, also for one inside a character or past the end.

Does not own: the positions of tokens (`Stencil.Proofs.Token.Tiling`).
-/

set_option autoImplicit false

namespace Stencil.Text

/-! ### Fitting beginnings -/

theorem byteLength_takeFitting_le (count : Nat) (text : List Char) :
    byteLength (takeFitting count text) ≤ count := by
  induction text generalizing count with
  | nil => simp [takeFitting]
  | cons c rest inductionHypothesis =>
      rw [takeFitting]
      split
      · have fits := inductionHypothesis (count - c.utf8Size)
        rw [byteLength_cons]
        omega
      · simp

/-- The character behind a longest fitting beginning does not fit any more. -/
theorem takeFitting_stops (count : Nat) (text : List Char) :
    ∃ rest, text = takeFitting count text ++ rest ∧
      ∀ c ∈ rest.head?, count < byteLength (takeFitting count text) + c.utf8Size := by
  induction text generalizing count with
  | nil => exact ⟨[], rfl, by simp⟩
  | cons c text inductionHypothesis =>
      rw [takeFitting]
      split
      · obtain ⟨rest, isText, stops⟩ := inductionHypothesis (count - c.utf8Size)
        refine ⟨rest, by rw [List.cons_append, ← isText], fun d isNext => ?_⟩
        have isTooLong := stops d isNext
        rw [byteLength_cons]
        omega
      · exact ⟨c :: text, rfl, fun d isNext => by simp_all⟩

/-- What fits behind a beginning that fits. -/
theorem takeFitting_append {count : Nat} {before : List Char} (fits : byteLength before ≤ count)
    (rest : List Char) :
    takeFitting count (before ++ rest) = before ++ takeFitting (count - byteLength before) rest := by
  induction before generalizing count with
  | nil => rfl
  | cons c before inductionHypothesis =>
      rw [byteLength_cons] at fits
      rw [List.cons_append, takeFitting, if_pos (by omega), inductionHypothesis (by omega),
        byteLength_cons, Nat.sub_add_eq, List.cons_append]

/-- Whether a character of a text begins at an offset, or the text ends there. -/
def IsBoundary (text : List Char) (offset : Nat) : Prop :=
  ∃ before, before <+: text ∧ byteLength before = offset

/-- The longest fitting beginning ends at the last boundary that is not too far. -/
theorem isGreatest_takeFitting (text : List Char) (count : Nat) :
    IsGreatest {boundary | IsBoundary text boundary ∧ boundary ≤ count}
      (byteLength (takeFitting count text)) := by
  obtain ⟨rest, isText, stops⟩ := takeFitting_stops count text
  have begins : takeFitting count text <+: text := ⟨rest, isText.symm⟩
  constructor
  · exact ⟨⟨_, begins, rfl⟩, byteLength_takeFitting_le count text⟩
  · rintro _ ⟨⟨before, isBefore, rfl⟩, fits⟩
    rcases List.prefix_or_prefix_of_prefix isBefore begins with ⟨more, isMore⟩ | ⟨more, isMore⟩
    · rw [← isMore, byteLength_append]
      omega
    · cases more with
      | nil => rw [← isMore, List.append_nil]
      | cons c more =>
          obtain ⟨last, isLast⟩ := isBefore
          have same : takeFitting count text ++ c :: more ++ last =
              takeFitting count text ++ rest := by
            rw [isMore, isLast]
            exact isText
          rw [List.append_assoc] at same
          have isNext : c ∈ rest.head? := by
            rw [← List.append_cancel_left same]
            rfl
          have isTooLong := stops c isNext
          rw [← isMore, byteLength_append, byteLength_cons] at fits
          omega

namespace LineIndex

/-! ### Starts of lines -/

theorem laterStarts_append (offset : Nat) (before rest : List Char) :
    laterStarts offset (before ++ rest) =
      laterStarts offset before ++ laterStarts (offset + byteLength before) rest := by
  induction before generalizing offset with
  | nil => rfl
  | cons c before inductionHypothesis =>
      simp only [List.cons_append, laterStarts, inductionHypothesis, byteLength_cons, Nat.add_assoc]
      split <;> rfl

/-- Lines after the first one begin behind a character of the text, and no later than it ends. -/
theorem laterStarts_bounds {offset start : Nat} {text : List Char}
    (isStart : start ∈ laterStarts offset text) :
    (∀ c ∈ text.head?, offset + c.utf8Size ≤ start) ∧ offset < start ∧
      start ≤ offset + byteLength text := by
  induction text generalizing offset with
  | nil => simp [laterStarts] at isStart
  | cons c rest inductionHypothesis =>
      have positive : 0 < c.utf8Size := Char.utf8Size_pos c
      have isHere : start = offset + c.utf8Size ∨ start ∈ laterStarts (offset + c.utf8Size) rest := by
        simp only [laterStarts] at isStart
        split at isStart
        · exact List.mem_cons.mp isStart
        · exact .inr isStart
      have bounds : offset + c.utf8Size ≤ start ∧ start ≤ offset + c.utf8Size + byteLength rest := by
        rcases isHere with rfl | isLater
        · omega
        · have later := inductionHypothesis isLater
          omega
      refine ⟨fun d isFirst => ?_, by omega, by rw [byteLength_cons]; omega⟩
      obtain rfl : c = d := by simpa using isFirst
      exact bounds.1

/-- The lines of a text begin one behind another. -/
theorem starts_ascend (text : String) : (ofText text).starts.Pairwise (· < ·) := by
  have later : ∀ (text : List Char) (offset : Nat),
      (laterStarts offset text).Pairwise (· < ·) := by
    intro text
    induction text with
    | nil => exact fun _ => .nil
    | cons c rest inductionHypothesis =>
        intro offset
        simp only [laterStarts]
        split
        · apply List.pairwise_cons.mpr
          exact ⟨fun start isStart => (laterStarts_bounds isStart).2.1, inductionHypothesis _⟩
        · exact inductionHypothesis _
  apply List.pairwise_cons.mpr
  exact ⟨fun start isStart => (laterStarts_bounds isStart).2.1, later text.toList 0⟩

/-- Of all starts, a look-up passes those of the beginning that fits. -/
theorem passed_eq {before rest : List Char} {reached : Nat} (fits : byteLength before ≤ reached)
    (stops : ∀ c ∈ rest.head?, reached < byteLength before + c.utf8Size) :
    (0 :: laterStarts 0 (before ++ rest)).takeWhile (· ≤ reached) = 0 :: laterStarts 0 before := by
  have inside : ∀ start ∈ 0 :: laterStarts 0 before, decide (start ≤ reached) = true := by
    intro start isStart
    rw [decide_eq_true_eq]
    rcases List.mem_cons.mp isStart with rfl | isLater
    · exact Nat.zero_le _
    · have bounds := laterStarts_bounds isLater
      omega
  have outside : (laterStarts (byteLength before) rest).takeWhile (· ≤ reached) = [] := by
    cases rest with
    | nil => rfl
    | cons c rest =>
        have isTooLong := stops c rfl
        cases areStarts : laterStarts (byteLength before) (c :: rest) with
        | nil => rfl
        | cons start starts =>
            have isStart : start ∈ laterStarts (byteLength before) (c :: rest) := by simp [areStarts]
            have bound := (laterStarts_bounds isStart).1 c rfl
            rw [List.takeWhile_cons_of_neg]
            simp only [decide_eq_true_eq]
            omega
  rw [laterStarts_append, Nat.zero_add, ← List.cons_append, List.takeWhile_append_of_pos inside,
    outside, List.append_nil]

/-- Where the last line of a text begins, how many lines there are, and how far the end is from
there is what counting along the text counts. -/
theorem advanceAll_eq (text : List Char) :
    ∃ before onLine, text = before ++ onLine ∧
      (0 :: laterStarts 0 text).getLastD 0 = byteLength before ∧
      Position.start.advanceAll text =
        ⟨byteLength text, (0 :: laterStarts 0 text).length, onLine.length + 1⟩ := by
  induction text using List.reverseRecOn with
  | nil => exact ⟨[], [], rfl, rfl, rfl⟩
  | append_singleton text c inductionHypothesis =>
      obtain ⟨before, onLine, isText, isLast, counted⟩ := inductionHypothesis
      rw [Position.advanceAll_append, counted, laterStarts_append, Nat.zero_add]
      by_cases isFeed : c = '\n'
      · have isStart : laterStarts (byteLength text) [c] = [byteLength (text ++ [c])] := by
          simp [laterStarts, isFeed]
        refine ⟨text ++ [c], [], (List.append_nil _).symm, ?_, ?_⟩
        · rw [isStart, ← List.cons_append, List.getLastD_concat]
        · simp [laterStarts, isFeed, Position.advance]
      · refine ⟨before, onLine ++ [c], by rw [isText, List.append_assoc], ?_, ?_⟩
        · simpa [laterStarts, isFeed] using isLast
        · simp [laterStarts, isFeed, Position.advance]

/-! ### Positions -/

/-- A look-up gives the point behind the longest beginning that does not go past the offset. -/
theorem position_eq (text : String) (offset : Nat) :
    (ofText text).position text offset =
      Position.start.advanceAll
        (takeFitting (min offset (byteLength text.toList)) text.toList) := by
  let reached := min offset (ofText text).length
  let fitting := takeFitting reached text.toList
  obtain ⟨rest, isText, stops⟩ : ∃ rest, text.toList = fitting ++ rest ∧
      ∀ c ∈ rest.head?, reached < byteLength fitting + c.utf8Size :=
    takeFitting_stops reached text.toList
  have fits : byteLength fitting ≤ reached := byteLength_takeFitting_le reached text.toList
  obtain ⟨before, onLine, isFitting, isLast, counted⟩ := advanceAll_eq fitting
  have isPassed : (ofText text).starts.takeWhile (· ≤ reached) = 0 :: laterStarts 0 fitting := by
    have passed := passed_eq fits stops
    rwa [← isText] at passed
  have isLine : dropBytes? (byteLength before) text.toList = some (onLine ++ rest) := by
    rw [isText, isFitting, List.append_assoc]
    exact dropBytes?_append before (onLine ++ rest)
  have isOnLine : takeFitting (reached - byteLength before) (onLine ++ rest) = onLine := by
    have isBefore : byteLength before ≤ reached := by
      rw [isFitting, byteLength_append] at fits
      omega
    have isWhole : takeFitting reached (before ++ (onLine ++ rest)) = before ++ onLine := by
      rw [← List.append_assoc, ← isFitting, ← isText]
    rw [takeFitting_append isBefore] at isWhole
    exact List.append_cancel_left isWhole
  calc (ofText text).position text offset
      = ⟨byteLength before + byteLength onLine, (0 :: laterStarts 0 fitting).length,
          onLine.length + 1⟩ := by
        unfold position
        dsimp only
        rw [isPassed, isLast, isLine, Option.getD_some, isOnLine]
    _ = Position.start.advanceAll fitting := by
        rw [counted, isFitting, byteLength_append]

/-- For every text that is short enough for positions of 32 bits and every offset, a look-up gives
the point that counting along the text leads to: along the bytes up to the last boundary between
characters that is neither past the offset nor past the end. The table it searches is in ascending
order. -/
theorem lookup_agrees (text : String) (short : byteLength text.toList < 2 ^ 32 - 1) (offset : Nat) :
    (ofText text).starts.Pairwise (· < ·) ∧
    ∃ boundary,
      IsGreatest {boundary | IsBoundary text.toList boundary ∧
        boundary ≤ min offset (byteLength text.toList)} boundary ∧
      Token.pointAt? text boundary = some ((ofText text).position text offset) ∧
      Token.FitsWord ((ofText text).position text offset) := by
  let count := min offset (byteLength text.toList)
  obtain ⟨rest, isText, -⟩ := takeFitting_stops count text.toList
  have place : Token.Cursor.IsPlaceOf ⟨(ofText text).position text offset, rest⟩ text :=
    ⟨takeFitting count text.toList, isText, position_eq text offset⟩
  have isOffset : ((ofText text).position text offset).offset =
      byteLength (takeFitting count text.toList) := by
    rw [position_eq, Position.offset_advanceAll]
    exact Nat.zero_add _
  have counted := place.pointAt?
  rw [isOffset] at counted
  exact ⟨starts_ascend text, _, isGreatest_takeFitting text.toList count, counted,
    place.fitsWord short⟩

/-- An offset inside a character of the second line, and one past the end of the third, which is
empty. -/
theorem lookup_agrees_inside :
    let text := "\x7b% if x %\x7d\né!\n"
    byteLength text.toList < 2 ^ 32 - 1 ∧
      (∃ boundary, IsGreatest {boundary | IsBoundary text.toList boundary ∧
          boundary ≤ min 12 (byteLength text.toList)} boundary ∧
        Token.pointAt? text boundary = some ⟨11, 2, 1⟩) ∧
      ∃ boundary, IsGreatest {boundary | IsBoundary text.toList boundary ∧
          boundary ≤ min 99 (byteLength text.toList)} boundary ∧
        Token.pointAt? text boundary = some ⟨15, 3, 1⟩ := by
  intro text
  have short : byteLength text.toList < 2 ^ 32 - 1 := by decide
  have inside : (ofText text).position text 12 = ⟨11, 2, 1⟩ := by decide +kernel
  have past : (ofText text).position text 99 = ⟨15, 3, 1⟩ := by decide +kernel
  obtain ⟨-, first, isFirst, firstPoint, -⟩ := lookup_agrees text short 12
  obtain ⟨-, second, isSecond, secondPoint, -⟩ := lookup_agrees text short 99
  exact ⟨short, ⟨first, isFirst, inside ▸ firstPoint⟩, second, isSecond, past ▸ secondPoint⟩

end LineIndex

end Stencil.Text
