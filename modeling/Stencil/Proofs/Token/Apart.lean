import Stencil.Proofs.Grammar.Layout

/-!
Contract: what is read at the head of a text does not depend on what stands far behind.

Owns:
- what may stand behind a piece without going on with it;
- what may stand behind a text in which tags and comments are read: nothing, a tag or a comment;
- pieces, delimiters and the ends of verbatim bodies with such a text behind them;
- words that are pieces by themselves are pieces with blanks around them.

Does not own: the tokens of whole texts (`Stencil.Proofs.Token.Joining`).
-/

set_option autoImplicit false

namespace Stencil.Token

open Stencil.Grammar (opensConstruct_of_ne)
open Stencil.Text (isBlank distanceTo)

variable {delimiter : Delimiter} {c : Char} {text rest behind : List Char}

/-! ### Pieces -/

/-- Whether the text behind a piece cannot be taken for its continuation. -/
def Apart (behind : List Char) : Prop :=
  ∀ c ∈ behind.head?, continuesName c = false ∧ c ∉ ['.', '+', '-', '*', '/', '=']

theorem Apart.not_digit (apart : Apart behind) : ∀ c ∈ behind.head?, c.isDigit = false := by
  intro c member
  have notName := (apart c member).1
  rw [continuesName, Char.isAlphanum, Bool.or_eq_false_iff, Bool.or_eq_false_iff] at notName
  exact notName.1.2

theorem Apart.not_number (apart : Apart behind) : ∀ c ∈ behind.head?, continuesNumber c = false := by
  intro c member
  have notName := (apart c member).1
  rw [continuesName, Bool.or_eq_false_iff] at notName
  rw [continuesNumber, apart.not_digit c member, notName.2]
  rfl

theorem takeWhile_append_of_stop {test : Char → Bool} (stops : ∀ c ∈ behind.head?, test c = false) :
    (text ++ behind).takeWhile test = text.takeWhile test := by
  induction text with
  | nil =>
      cases behind with
      | nil => rfl
      | cons c behind => simp [stops c rfl]
  | cons c text inductionHypothesis =>
      rw [List.cons_append, List.takeWhile_cons, List.takeWhile_cons, inductionHypothesis]

theorem fractionLength_append (apart : Apart behind) :
    fractionLength (text ++ behind) = fractionLength text := by
  match text with
  | [] =>
      cases behind with
      | nil => rfl
      | cons c behind =>
          have notPoint : c ≠ '.' := by
            rintro rfl
            exact (apart _ rfl).2 (by decide)
          simp [fractionLength, notPoint]
  | [point] =>
      cases behind with
      | nil => rfl
      | cons c behind =>
          have notDigit := apart.not_digit c rfl
          by_cases isPoint : point = '.'
          · simp [fractionLength, isPoint, notDigit]
          · simp [fractionLength, isPoint]
  | point :: digit :: rest =>
      by_cases isPoint : point = '.'
      · simp only [List.cons_append, isPoint, fractionLength,
          takeWhile_append_of_stop apart.not_number]
      · simp [fractionLength, isPoint]

theorem exponentLength_append (apart : Apart behind) :
    exponentLength (text ++ behind) = exponentLength text := by
  match text with
  | [] =>
      match behind with
      | [] => rfl
      | [_] => rfl
      | c :: _ :: _ =>
          have notName := (apart c rfl).1
          have notLetter : ¬ (c = 'e' ∨ c = 'E') := by
            rintro (rfl | rfl) <;> revert notName <;> decide
          simp [exponentLength, notLetter]
  | [letter] =>
      cases behind with
      | nil => rfl
      | cons c behind =>
          have notDigit := apart.not_digit c rfl
          have notSign : ¬ (c = '+' ∨ c = '-') := by
            rintro (rfl | rfl) <;> exact (apart _ rfl).2 (by decide)
          simp [exponentLength, notDigit, notSign]
  | [letter, sign] =>
      cases behind with
      | nil => rfl
      | cons c behind =>
          have notDigit := apart.not_digit c rfl
          have stops : List.takeWhile Char.isDigit (c :: behind) = [] := by simp [notDigit]
          simp [exponentLength, notDigit]
  | letter :: sign :: digit :: rest =>
      simp only [List.cons_append, exponentLength, List.takeWhile_cons,
        takeWhile_append_of_stop apart.not_digit]

theorem fractionLength_le (text : List Char) : fractionLength text ≤ text.length := by
  unfold fractionLength
  split
  · rename_i digit rest
    have taken := (List.takeWhile_prefix continuesNumber (l := rest)).length_le
    split <;> simp only [List.length_cons] <;> omega
  · exact Nat.zero_le _

theorem exponentLength_le (text : List Char) : exponentLength text ≤ text.length := by
  unfold exponentLength
  split
  · rename_i letter sign rest
    have taken := (List.takeWhile_prefix Char.isDigit (l := rest)).length_le
    simp only [List.length_cons]
    split
    · split
      · omega
      · split
        · split
          · rename_i digit rest
            have taken := (List.takeWhile_prefix Char.isDigit (l := rest)).length_le
            simp only [List.length_cons]
            split <;> omega
          · exact Nat.zero_le _
        · exact Nat.zero_le _
    · exact Nat.zero_le _
  · exact Nat.zero_le _

theorem numberPiece_append (apart : Apart behind) :
    numberPiece (text ++ behind) = numberPiece text := by
  have whole := (List.takeWhile_prefix continuesNumber (l := text)).length_le
  have fraction := fractionLength_le (text.drop (text.takeWhile continuesNumber).length)
  rw [List.length_drop] at fraction
  simp only [numberPiece, takeWhile_append_of_stop apart.not_number,
    List.drop_append_of_le_length whole, fractionLength_append apart]
  rw [List.drop_append_of_le_length (by omega), exponentLength_append apart]

theorem closedBodyLength?_append {quote : Char} {length : Nat}
    (closed : closedBodyLength? quote text = some length) :
    closedBodyLength? quote (text ++ behind) = some length := by
  fun_induction closedBodyLength? quote text generalizing length with
  | case1 => cases closed
  | case2 => cases closed
  | case3 _ rest inductionHypothesis =>
      obtain ⟨inner, isInner, rfl⟩ := Option.map_eq_some_iff.mp closed
      rw [List.cons_append, List.cons_append, closedBodyLength?, inductionHypothesis isInner]
      rfl
  | case4 rest notLast notPair =>
      have plain : quote ≠ '\\' := by
        intro isEscape
        cases rest with
        | nil => exact notLast isEscape rfl
        | cons head rest => exact notPair head rest isEscape rfl
      simpa [closedBodyLength?, plain] using closed
  | case5 first rest notLast notPair notQuote inductionHypothesis =>
      have plain : first ≠ '\\' := by
        intro isEscape
        cases rest with
        | nil => exact notLast isEscape rfl
        | cons head rest => exact notPair head rest isEscape rfl
      obtain ⟨inner, isInner, rfl⟩ := Option.map_eq_some_iff.mp closed
      simp [closedBodyLength?, plain, notQuote, inductionHypothesis isInner]

theorem closedBodyLength?_le {quote : Char} {length : Nat}
    (closed : closedBodyLength? quote text = some length) : length ≤ text.length := by
  fun_induction closedBodyLength? quote text generalizing length with
  | case1 => cases closed
  | case2 => cases closed
  | case3 _ rest inductionHypothesis =>
      obtain ⟨inner, isInner, rfl⟩ := Option.map_eq_some_iff.mp closed
      have shorter := inductionHypothesis isInner
      simp only [List.length_cons]
      omega
  | case4 rest =>
      cases closed
      exact Nat.succ_le_succ (Nat.zero_le _)
  | case5 first rest _ _ _ inductionHypothesis =>
      obtain ⟨inner, isInner, rfl⟩ := Option.map_eq_some_iff.mp closed
      exact Nat.succ_le_succ (inductionHypothesis isInner)

theorem symbolPiece_append (apart : Apart behind) :
    symbolPiece c (rest ++ behind) = symbolPiece c rest := by
  cases rest with
  | cons next rest => rfl
  | nil =>
      cases behind with
      | nil => rfl
      | cons next behind =>
          have noPair : pairSymbol? c next = none := by
            unfold pairSymbol?
            split <;> first | rfl | exact absurd (by decide) (apart _ rfl).2
          simp [symbolPiece, noPair]

/-- A piece in which nothing is wrong is the same with a text behind it that stands apart, unless
both are blanks. -/
theorem pieceAt_append (apart : Apart behind)
    (notBlank : isBlank c = true → ∀ next ∈ behind.head?, isBlank next = false)
    (quiet : (pieceAt delimiter c rest).problem = none) :
    pieceAt delimiter c (rest ++ behind) = pieceAt delimiter c rest := by
  unfold pieceAt at quiet ⊢
  split
  · rename_i blank
    rw [takeWhile_append_of_stop (notBlank blank)]
  · split
    · rw [takeWhile_append_of_stop fun next member => (apart next member).1]
    · split
      · rw [← List.cons_append]
        exact numberPiece_append apart
      · split
        · rename_i notBlank notName notDigit isQuote
          rw [if_neg notBlank, if_neg notName, if_neg notDigit, if_pos isQuote] at quiet
          unfold stringPiece at quiet ⊢
          cases isClosed : closedBodyLength? c rest with
          | none =>
              rw [isClosed] at quiet
              cases quiet
          | some length => rw [closedBodyLength?_append isClosed]
        · exact symbolPiece_append apart

/-- A word that is a piece by itself is one where blanks stand around it. -/
theorem isPiece_of_pieceAt {word : Grammar.Word} (isLexeme : word.lexeme.toList = c :: rest)
    (notBlank : isBlank c = false) (matters : word.kind.isTrivia = false)
    (isPiece : ∀ delimiter, pieceAt delimiter c rest = ⟨word.kind, rest.length + 1, none⟩) :
    word.IsPiece := by
  refine ⟨⟨c, rest, isLexeme, notBlank, fun delimiter behind => ?_⟩, matters⟩
  have apart : Apart (' ' :: behind) := by
    intro next member
    cases member
    decide
  have notBlanks : isBlank c = true → ∀ next ∈ (' ' :: behind).head?, isBlank next = false :=
    fun blank => absurd (notBlank.symm.trans blank) (by decide)
  have quiet : (pieceAt delimiter c rest).problem = none := by rw [isPiece]
  rw [pieceAt_append apart notBlanks quiet, isPiece]

theorem pieceAt_length_le (delimiter : Delimiter) (c : Char) (rest : List Char) :
    (pieceAt delimiter c rest).length ≤ rest.length + 1 := by
  unfold pieceAt
  split
  · have taken := (List.takeWhile_prefix isBlank (l := rest)).length_le
    simp only
    omega
  · split
    · have taken := (List.takeWhile_prefix continuesName (l := rest)).length_le
      simp only
      omega
    · split
      · have whole := (List.takeWhile_prefix continuesNumber (l := c :: rest)).length_le
        have fraction :=
          fractionLength_le ((c :: rest).drop ((c :: rest).takeWhile continuesNumber).length)
        simp only [numberPiece]
        generalize ((c :: rest).takeWhile continuesNumber).length = wholeLength at *
        generalize fractionLength ((c :: rest).drop wholeLength) = fractionLength at *
        have exponent := exponentLength_le ((c :: rest).drop (wholeLength + fractionLength))
        rw [List.length_drop, List.length_cons] at fraction exponent
        rw [List.length_cons] at whole
        omega
      · split
        · unfold stringPiece
          split
          · rename_i length closed
            have short := closedBodyLength?_le closed
            simp only
            omega
          · have short := Text.distanceTo_le_length delimiter.closer.isPrefixOf rest
            simp only
            omega
        · unfold symbolPiece
          split
          · rename_i symbol isPair
            obtain ⟨next, isNext, _⟩ := Option.bind_eq_some_iff.mp isPair
            have nonempty : rest ≠ [] := by
              rintro rfl
              cases isNext
            have positive := List.length_pos_iff.mpr nonempty
            simp only
            omega
          · split <;> exact Nat.succ_le_succ (Nat.zero_le _)

/-! ### Delimiters -/

/-- Whether nothing stands behind a text, or a tag or a comment. -/
def Resumes (behind : List Char) : Prop := behind = [] ∨ opensConstruct behind = true

theorem Resumes.head (resumes : Resumes behind) : ∀ c ∈ behind.head?, c = '{' := by
  rcases resumes with rfl | opens
  · nofun
  · intro c member
    obtain ⟨behind, rfl⟩ := List.head?_eq_some_iff.mp member
    refine Decidable.byContradiction fun notBrace => ?_
    rw [opensConstruct_of_ne notBrace] at opens
    cases opens

theorem Resumes.apart (resumes : Resumes behind) : Apart behind := by
  intro c member
  rw [resumes.head c member]
  decide

theorem Resumes.foreign (resumes : Resumes behind) {pattern : List Char} (plain : '{' ∉ pattern) :
    ∀ c ∈ behind.head?, c ∉ pattern := by
  intro c member
  rw [resumes.head c member]
  exact plain

theorem isPrefixOf_append {pattern : List Char} (foreign : ∀ c ∈ behind.head?, c ∉ pattern) :
    pattern.isPrefixOf (text ++ behind) = pattern.isPrefixOf text := by
  induction pattern generalizing text with
  | nil => simp [List.isPrefixOf]
  | cons first pattern inductionHypothesis =>
      cases text with
      | nil =>
          cases behind with
          | nil => rfl
          | cons c behind =>
              have notFirst : first ≠ c := fun isFirst => foreign c rfl (isFirst ▸ List.mem_cons_self)
              simp [List.isPrefixOf, notFirst]
      | cons c text =>
          have same : pattern.isPrefixOf (text ++ behind) = pattern.isPrefixOf text :=
            inductionHypothesis fun c member isIn => foreign c member (List.mem_cons_of_mem _ isIn)
          simp only [List.cons_append, List.isPrefixOf, same]

theorem closerAt?_append (resumes : Resumes behind) (brackets : List Symbol) :
    closerAt? delimiter brackets (text ++ behind) = closerAt? delimiter brackets text := by
  have plain : '{' ∉ '-' :: delimiter.closer := by
    cases delimiter <;> decide
  have shorter : '{' ∉ delimiter.closer := fun member => plain (List.mem_cons_of_mem _ member)
  rw [closerAt?, closerAt?, isPrefixOf_append (resumes.foreign plain),
    isPrefixOf_append (resumes.foreign shorter)]

theorem closerAt?_length_le {brackets : List Symbol} {length : Nat} {trim : Bool}
    (closes : closerAt? delimiter brackets text = some (length, trim)) : length ≤ text.length := by
  have closerLength : delimiter.closer.length = 2 := by
    cases delimiter <;> rfl
  unfold closerAt? at closes
  split at closes
  · cases closes
  · split at closes
    · rename_i isThere
      cases closes
      have short := (List.isPrefixOf_iff_prefix.mp isThere).length_le
      rwa [List.length_cons, closerLength] at short
    · split at closes
      · rename_i isThere
        cases closes
        have short := (List.isPrefixOf_iff_prefix.mp isThere).length_le
        rwa [closerLength] at short
      · cases closes

/-- What opens at the head of a text does not depend on what stands behind it, unless its only
character is a brace. -/
theorem isPrefixOf_opener_append (nonempty : text ≠ []) (notBrace : text.getLast? ≠ some '{')
    (second : Char) (behind : List Char) :
    ['{', second].isPrefixOf (text ++ behind) = ['{', second].isPrefixOf text := by
  match text with
  | [c] =>
      have notOpening : '{' ≠ c := fun isBrace => notBrace (congrArg some isBrace.symm)
      simp [List.isPrefixOf, notOpening]
  | _ :: _ :: _ => simp [List.isPrefixOf]

theorem opensConstruct_append (nonempty : text ≠ []) (notBrace : text.getLast? ≠ some '{')
    (behind : List Char) : opensConstruct (text ++ behind) = opensConstruct text := by
  simp only [opensConstruct, Delimiter.opener, commentOpener,
    isPrefixOf_opener_append nonempty notBrace]

/-! ### Verbatim bodies -/

theorem after?_append_of_foreign {pattern : List Char}
    (foreign : ∀ c ∈ behind.head?, c ∉ pattern) :
    Text.after? pattern (text ++ behind) = (Text.after? pattern text).map (· ++ behind) := by
  induction pattern generalizing text with
  | nil => rfl
  | cons first pattern inductionHypothesis =>
      cases text with
      | nil =>
          cases behind with
          | nil => rfl
          | cons c behind =>
              have notFirst : first ≠ c := fun isFirst => foreign c rfl (isFirst ▸ List.mem_cons_self)
              simp [Text.after?, notFirst]
      | cons c text =>
          rw [List.cons_append, Text.after?, Text.after?]
          split
          · exact inductionHypothesis fun c member isIn =>
              foreign c member (List.mem_cons_of_mem _ isIn)
          · rfl

theorem withoutPrefix_append {pattern : List Char} (foreign : ∀ c ∈ behind.head?, c ∉ pattern) :
    Text.withoutPrefix pattern (text ++ behind) = Text.withoutPrefix pattern text ++ behind := by
  rw [Text.withoutPrefix, Text.withoutPrefix, after?_append_of_foreign foreign]
  cases Text.after? pattern text <;> rfl

theorem dropWhile_append_of_stop {test : Char → Bool} (stops : ∀ c ∈ behind.head?, test c = false) :
    (text ++ behind).dropWhile test = text.dropWhile test ++ behind := by
  induction text with
  | nil =>
      cases behind with
      | nil => rfl
      | cons c behind => simp [stops c rfl]
  | cons c text inductionHypothesis =>
      rw [List.cons_append, List.dropWhile_cons, List.dropWhile_cons, inductionHypothesis]
      split <;> rfl

/-- Whether the tag that ends a verbatim body stands at the head of a text does not depend on what
resumes behind it. -/
theorem endsVerbatim_append (resumes : Resumes behind) (nonempty : text ≠ []) :
    endsVerbatim (text ++ behind) = endsVerbatim text := by
  have notBlank : ∀ c ∈ behind.head?, isBlank c = false := by
    intro c member
    rw [resumes.head c member]
    decide
  have opener : Text.after? Delimiter.block.opener (text ++ behind) =
      (Text.after? Delimiter.block.opener text).map (· ++ behind) := by
    obtain ⟨c, rest, rfl⟩ := List.exists_cons_of_ne_nil nonempty
    rw [List.cons_append, Delimiter.opener, Text.after?, Text.after?]
    split
    · exact after?_append_of_foreign (resumes.foreign (by decide))
    · rfl
  rw [endsVerbatim, endsVerbatim, opener]
  cases Text.after? Delimiter.block.opener text with
  | none => rfl
  | some rest =>
      simp only [Option.map_some, withoutPrefix_append (resumes.foreign (by decide : '{' ∉ ['-'])),
        dropWhile_append_of_stop notBlank,
        after?_append_of_foreign (resumes.foreign (by decide : '{' ∉ "endraw".toList))]
      cases Text.after? "endraw".toList
          ((Text.withoutPrefix ['-'] rest).dropWhile isBlank) with
      | none => rfl
      | some rest =>
          simp only [Option.map_some, dropWhile_append_of_stop notBlank,
            withoutPrefix_append (resumes.foreign (by decide : '{' ∉ ['-'])),
            isPrefixOf_append (resumes.foreign (by decide : '{' ∉ Delimiter.block.closer))]

/-- A place that is found in a text is found there with another text behind; so is one that the
other text begins with. -/
theorem distanceTo_append {here : List Char → Bool}
    (same : ∀ rest, rest ≠ [] → rest <:+ text → here (rest ++ behind) = here rest)
    (found : distanceTo here text < text.length ∨ behind = [] ∨ here behind = true) :
    distanceTo here (text ++ behind) = distanceTo here text := by
  induction text with
  | nil =>
      rcases found with isLess | rfl | isHere
      · cases isLess
      · rfl
      · cases behind with
        | nil => rfl
        | cons c behind => exact if_pos isHere
  | cons c text inductionHypothesis =>
      have sameHere := same (c :: text) (List.cons_ne_nil c text) (List.suffix_refl _)
      have sameLater (rest : List Char) (nonempty : rest ≠ []) (isSuffix : rest <:+ text) :=
        same rest nonempty (isSuffix.trans (List.suffix_cons c text))
      rw [List.cons_append] at sameHere
      rw [distanceTo] at found
      rw [List.cons_append, distanceTo, distanceTo, sameHere]
      split
      · rfl
      · rename_i notHere
        rw [if_neg notHere] at found
        rw [inductionHypothesis sameLater (found.imp_left Nat.lt_of_succ_lt_succ)]

end Stencil.Token
