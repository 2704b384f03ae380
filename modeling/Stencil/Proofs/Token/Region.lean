import Stencil.Token.Scan

/-!
Contract: in what order kinds of token follow one another in a scanned text.

Owns:
- the regions of a token sequence: outside tags, and inside a tag of one delimiter;
- how a kind of token leads from one region to the next, or cannot stand there;
- token sequences that lead from a region to the end of the input;
- every scanned text leads from outside to outside, with the end of the input behind it.

Does not own: the text that the tokens hold (`Stencil.Proofs.Token.Tiling`).
-/

set_option autoImplicit false

namespace Stencil.Token

/-- Whether tokens of the kind stand inside tags: they are no delimiters, and no text or comment. -/
def Kind.isInner : Kind → Bool
  | .name => true
  | .integer => true
  | .float => true
  | .string => true
  | .symbol _ => true
  | .blank => true
  | .invalid => true
  | _ => false

/-- Whether tokens of the kind stand outside tags: text, comments, opening delimiters before their
tags, and the end of the input. -/
def Kind.isOuter : Kind → Bool
  | .text => true
  | .comment _ _ => true
  | .variableStart _ => true
  | .blockStart _ => true
  | .endOfInput => true
  | _ => false

theorem Kind.isInner_of_isTrivia {kind : Kind} (trivial : kind.isTrivia = true) :
    kind.isInner = true := by
  cases kind <;> first | rfl | cases trivial

inductive Region where
  | outside
  | inside (delimiter : Delimiter)
deriving DecidableEq, Repr

namespace Region

/-- The region after a token of the kind; none if such a token cannot stand in the region. -/
def next? : Region → Kind → Option Region
  | .outside, .text => some .outside
  | .outside, .comment _ _ => some .outside
  | .outside, .variableStart _ => some (.inside .output)
  | .outside, .blockStart _ => some (.inside .block)
  | .inside .output, .variableEnd _ => some .outside
  | .inside .block, .blockEnd _ => some .outside
  | .inside delimiter, kind => if kind.isInner then some (.inside delimiter) else none
  | _, _ => none

/-- The region after tokens that follow one another. -/
def after? (region : Region) (tokens : List Token) : Option Region :=
  tokens.foldlM (fun region token => region.next? token.kind) region

@[simp] theorem after?_nil (region : Region) : region.after? [] = some region := rfl

@[simp] theorem after?_cons (region : Region) (token : Token) (tokens : List Token) :
    region.after? (token :: tokens) =
      (region.next? token.kind).bind fun next => next.after? tokens := rfl

theorem after?_append {region middle : Region} {first : List Token} (second : List Token)
    (led : region.after? first = some middle) :
    region.after? (first ++ second) = middle.after? second := by
  simp only [after?, List.foldlM_append] at led ⊢
  rw [led]
  rfl

@[simp] theorem next?_startKind (delimiter : Delimiter) (trim : Bool) :
    outside.next? (delimiter.startKind trim) = some (.inside delimiter) := by
  cases delimiter <;> rfl

@[simp] theorem next?_endKind (delimiter : Delimiter) (trim : Bool) :
    (inside delimiter).next? (delimiter.endKind trim) = some .outside := by
  cases delimiter <;> rfl

theorem next?_of_isInner (delimiter : Delimiter) {kind : Kind} (inner : kind.isInner = true) :
    (inside delimiter).next? kind = some (.inside delimiter) := by
  cases delimiter <;> cases kind <;> simp_all [next?, Kind.isInner]

theorem after?_of_isInner (delimiter : Delimiter) {tokens : List Token}
    (inner : ∀ token ∈ tokens, token.kind.isInner = true) :
    (inside delimiter).after? tokens = some (inside delimiter) := by
  induction tokens with
  | nil => rfl
  | cons token tokens inductionHypothesis =>
      rw [after?_cons, next?_of_isInner delimiter (inner token List.mem_cons_self)]
      exact inductionHypothesis fun other member => inner other (List.mem_cons_of_mem _ member)

/-- Tokens from the inside of tags lead nowhere else. -/
theorem eq_of_next?_isInner {region next : Region} {kind : Kind}
    (isNext : region.next? kind = some next) (inner : kind.isInner = true) : next = region := by
  rcases region with _ | delimiter
  · have nowhere : outside.next? kind = none := by
      cases kind <;> first | rfl | cases inner
    rw [nowhere] at isNext
    cases isNext
  · rw [next?_of_isInner delimiter inner] at isNext
    exact (Option.some.inj isNext).symm

/-- A tag goes on with tokens from its inside until its end. -/
theorem inner_or_tagEnd {delimiter : Delimiter} {kind : Kind} {next : Region}
    (isNext : (inside delimiter).next? kind = some next) :
    (kind.isInner = true ∧ next = inside delimiter) ∨
      (kind.isTagEnd = true ∧ next = outside) := by
  by_cases inner : kind.isInner = true
  · exact .inl ⟨inner, eq_of_next?_isInner isNext inner⟩
  · refine .inr ?_
    cases delimiter <;> cases kind <;> simp_all [next?, Kind.isInner, Kind.isTagEnd]

@[simp] theorem next?_endOfInput (region : Region) : region.next? .endOfInput = none := by
  rcases region with _ | delimiter
  · rfl
  · cases delimiter <;> rfl

/-- No token that leads from region to region is the end of the input. -/
theorem kind_ne_endOfInput {region last : Region} {tokens : List Token}
    (led : region.after? tokens = some last) :
    ∀ token ∈ tokens, token.kind ≠ .endOfInput := by
  induction tokens generalizing region with
  | nil => simp
  | cons head tail inductionHypothesis =>
      intro token member
      rw [after?_cons, Option.bind_eq_some_iff] at led
      obtain ⟨next, isNext, rest⟩ := led
      rcases List.mem_cons.mp member with isHead | inTail
      · subst isHead
        intro isEnd
        rw [isEnd, next?_endOfInput] at isNext
        contradiction
      · exact inductionHypothesis rest token inTail

/-- Whether tokens lead from the region to the end of the input, outside tags. -/
inductive Leads : Region → List Token → Prop where
  | last {token : Token} (isEnd : token.kind = .endOfInput) : Leads outside [token]
  | next {region next : Region} {token : Token} {rest : List Token}
      (isNext : region.next? token.kind = some next) (leads : Leads next rest) :
      Leads region (token :: rest)

theorem leads_of_after? {region : Region} {body : List Token} {last : Token}
    (led : region.after? body = some outside) (isEnd : last.kind = .endOfInput) :
    region.Leads (body ++ [last]) := by
  induction body generalizing region with
  | nil =>
      rw [Option.some.inj led]
      exact .last isEnd
  | cons head tail inductionHypothesis =>
      rw [after?_cons, Option.bind_eq_some_iff] at led
      obtain ⟨next, isNext, rest⟩ := led
      exact .next isNext (inductionHypothesis rest)

theorem Leads.ne_nil {region : Region} {tokens : List Token} (leads : region.Leads tokens) :
    tokens ≠ [] := by
  cases leads <;> exact List.cons_ne_nil _ _

theorem Leads.of_cons {region : Region} {token : Token} {rest : List Token}
    (leads : region.Leads (token :: rest)) :
    (token.kind = .endOfInput ∧ region = outside) ∨
      ∃ next, region.next? token.kind = some next ∧ next.Leads rest := by
  cases leads with
  | last isEnd => exact .inl ⟨isEnd, rfl⟩
  | next isNext restLeads => exact .inr ⟨_, isNext, restLeads⟩

/-- What follows tokens from the inside of tags stands where these stand. -/
theorem Leads.of_inner {region : Region} {passed rest : List Token}
    (leads : region.Leads (passed ++ rest))
    (inner : ∀ token ∈ passed, token.kind.isInner = true) : region.Leads rest := by
  induction passed with
  | nil => exact leads
  | cons head tail inductionHypothesis =>
      have headInner : head.kind.isInner = true := inner head List.mem_cons_self
      rcases leads.of_cons with ⟨isEnd, _⟩ | ⟨next, isNext, restLeads⟩
      · rw [isEnd] at headInner
        cases headInner
      · rw [eq_of_next?_isInner isNext headInner] at restLeads
        exact inductionHypothesis restLeads fun token member =>
          inner token (List.mem_cons_of_mem head member)

/-- Outside tags nothing stands that belongs inside them. -/
theorem Leads.isOuter {token : Token} {rest : List Token} (leads : outside.Leads (token :: rest)) :
    token.kind.isOuter = true := by
  rcases leads.of_cons with ⟨isEnd, _⟩ | ⟨next, isNext, _⟩
  · rw [isEnd]
    rfl
  · revert isNext
    cases token.kind <;> simp [next?, Kind.isOuter]

end Region

/-! ### Pieces inside a tag -/

/-- Every piece that is read inside a tag is one that stands there. -/
theorem pieceAt_kind_isInner (delimiter : Delimiter) (c : Char) (rest : List Char) :
    (pieceAt delimiter c rest).kind.isInner = true := by
  unfold pieceAt
  split
  · rfl
  · split
    · rfl
    · split
      · simp only [numberPiece]
        split <;> rfl
      · split
        · unfold stringPiece
          split <;> rfl
        · unfold symbolPiece
          split
          · rfl
          · split <;> rfl

theorem after?_scanTag (delimiter : Delimiter) (opened : Text.Position) (brackets : List Symbol)
    (cursor : Cursor) :
    (Region.inside delimiter).after?
      (scanTag delimiter opened brackets cursor).scan.tokens = some .outside := by
  fun_induction scanTag delimiter opened brackets cursor with
  | case1 => simp [abandonTag, Cursor.mark]
  | case2 => simp [Scan.one, Cursor.cut]
  | case3 => simp [abandonTag, Cursor.mark]
  | case4 brackets cursor c rest isRest notClosed notOpened piece problems inner
      inductionHypothesis =>
      have inner : (Region.inside delimiter).next? (cursor.cut piece.kind piece.length).kind =
          some (.inside delimiter) :=
        Region.next?_of_isInner delimiter (pieceAt_kind_isInner delimiter c rest)
      simp only [Scan.tokens_append, List.singleton_append, Region.after?_cons, inner]
      exact inductionHypothesis

/-! ### Whole constructs -/

theorem after?_scanText (cursor : Cursor) (count : Nat) :
    Region.outside.after? (scanText cursor count).tokens = some .outside := by
  unfold scanText
  split <;> rfl

theorem after?_scanWholeTag (delimiter : Delimiter) (cursor : Cursor) :
    Region.outside.after? (scanWholeTag delimiter cursor).1.tokens = some .outside := by
  have opening : Region.outside.after? [cursor.cut (delimiter.startKind (hasMarker cursor))
      (openerLength cursor)] = some (.inside delimiter) := by
    simp [Cursor.cut]
  have whole := Region.after?_append _ opening ▸ after?_scanTag delimiter cursor.position []
    (cursor.skip (openerLength cursor))
  unfold scanWholeTag
  dsimp only
  split
  · simp only [Scan.tokens_append, Scan.one]
    rw [Region.after?_append _ whole]
    exact after?_scanText _ _
  · exact whole

theorem after?_scanComment (cursor : Cursor) :
    Region.outside.after? (scanComment cursor).1.tokens = some .outside := by
  unfold scanComment
  dsimp only
  split <;> rfl

theorem after?_scanConstruct (cursor : Cursor) :
    Region.outside.after? (scanConstruct cursor).1.tokens = some .outside := by
  unfold scanConstruct
  split
  · exact after?_scanWholeTag .output cursor
  · split
    · exact after?_scanWholeTag .block cursor
    · split
      · exact after?_scanComment cursor
      · exact after?_scanText cursor _

/-- What follows a place between constructs leads from outside to outside, and the end of the input
stands behind it. -/
theorem scanFrom_regions (cursor : Cursor) :
    ∃ (body : List Token) (last : Token), (scanFrom cursor).tokens = body ++ [last] ∧
      Region.outside.after? body = some .outside ∧ last.kind = .endOfInput := by
  fun_induction scanFrom cursor with
  | case1 cursor finished => exact ⟨[], cursor.mark .endOfInput, rfl, rfl, rfl⟩
  | case2 cursor unfinished inductionHypothesis =>
      obtain ⟨body, last, tokens, led, isEnd⟩ := inductionHypothesis
      refine ⟨(scanConstruct cursor).1.tokens ++ body, last, ?_, ?_, isEnd⟩
      · rw [Scan.tokens_append, tokens, List.append_assoc]
      · rw [Region.after?_append body (after?_scanConstruct cursor)]
        exact led

end Stencil.Token
