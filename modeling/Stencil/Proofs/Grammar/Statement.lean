import Stencil.Proofs.Grammar.Clause
import Stencil.Proofs.Grammar.Nesting
import Stencil.Proofs.Grammar.Output

/-!
Contract: every statement of the language reads back from its words.

Owns:
- statements of one tag, and statements with bodies and closing tags;
- a printed statement is given back in every body that the language nests it in.

Does not own: the text that the words are scanned from (`Stencil.Proofs.Grammar.RoundTrip`).
-/

set_option autoImplicit false

namespace Stencil.Grammar

open Stencil.Syntax
open Stencil.Text (Span)
open Stencil.Token (Kind Symbol)
open Read Statement

/-! ### Tags -/

def tagOpen : Word := ⟨.blockStart false, "\x7b%"⟩

def tagClose : Word := ⟨.blockEnd false, "%\x7d"⟩

theorem words_blockTag (tag : String) (words : List Word) :
    (blockTag tag words).words = tagOpen :: .name tag :: (words ++ [tagClose]) := rfl

variable {register : Register} {inner : BodyReader} {tape : Tape}

theorem Tape.Shows.tag {words rest : List Word} (shown : tape.Shows (words ++ tagClose :: rest)) :
    tape.Shows words ∧ (tape.past words).current.kind.isTagEnd = true ∧
      (tape.past words).advance.Shows rest := by
  obtain ⟨shownWords, shownClose⟩ := (Tape.shows_append _ _ _).mp shown
  refine ⟨shownWords, ?_, shownClose.tail⟩
  rw [shownClose.kind]
  rfl

theorem Tape.past_tag (tape : Tape) (words rest : List Word) :
    tape.past (words ++ tagClose :: rest) = (tape.past words).advance.past rest := by
  rw [past_append, past_cons]

/-- A statement is given back where its tag's reader gives it back. -/
theorem givesNode_of_builtin (keeps : register.allowOverride = false) {node : Node} {tag : String}
    {words : List Word} (isTag : tag ∈ builtinTags)
    (isWords : nodeWords node = tagOpen :: .name tag :: words)
    (reads : ∀ (start : Span) (tape : Tape), tape.Quiet → tape.Shows words →
      ∃ value : Node, value.unplaced = node.unplaced ∧
        (builtin inner tag start).run tape = (some value, tape.past words)) :
    GivesNode register inner node := by
  intro tape quiet shown endings closing sofar
  rw [isWords] at shown ⊢
  obtain ⟨value, same, run⟩ := reads tape.current.span tape.advance.advance
    quiet.advance.advance shown.tail.tail
  refine ⟨value, same, ?_⟩
  rw [run_nextNode_of_tag keeps quiet closing isTag shown.kind shown.tail.1, run]
  rfl

/-! ### Statements of one tag -/

theorem givesNode_text {content : String} (span : Span) (nonempty : content ≠ "") :
    GivesNode register inner (.text content span) := by
  intro tape quiet shown endings closing sofar
  have isWords : nodeWords (.text content span) = [⟨.text, content⟩] := by
    rw [nodeWords, Node.fragments, List.flatMap_singleton, Fragment.words, String.ofList_toList]
  rw [isWords] at shown ⊢
  have isContent : tape.current.lexeme = content := shown.lexeme
  have present : tape.current.lexeme ≠ "" := by
    rwa [isContent]
  refine ⟨.text tape.current.lexeme tape.current.span, ?_,
    run_nextNode_of_text quiet shown.kind present sofar⟩
  rw [isContent]
  rfl

theorem dropBlanksAtEnd_blank (text : List Char) :
    Text.dropBlanksAtEnd (text ++ [' ']) = Text.dropBlanksAtEnd text := by
  have blank : Text.isBlank ' ' = true := by decide
  rw [Text.dropBlanksAtEnd, List.reverse_append, List.reverse_singleton, List.singleton_append,
    List.dropWhile_cons_of_pos blank, Text.dropBlanksAtEnd]

/-- A comment is what stands between its delimiters without the blanks around it. -/
theorem commentContent_chars {content : String} (trimmed : Text.trim content = content) :
    commentContent (String.ofList (Fragment.comment content.toList).chars) false false =
      content := by
  have blank : Text.isBlank ' ' = true := by decide
  have opened : Text.withoutPrefix ['{', '#'] (Fragment.comment content.toList).chars =
      Fragment.commentBody content.toList ++ ['#', '}'] := by
    rw [Text.withoutPrefix, Fragment.chars]
    exact congrArg (Option.getD · _) (Text.after?_append ['{', '#'] _)
  have closed : Text.withoutSuffix ['#', '}'] (Fragment.commentBody content.toList ++ ['#', '}']) =
      Fragment.commentBody content.toList := by
    rw [Text.withoutSuffix, List.reverse_append, Text.withoutPrefix, Text.after?_append,
      Option.getD_some, List.reverse_reverse]
  have kept : Text.dropBlanksAtEnd (content.toList.dropWhile Text.isBlank) = content.toList := by
    have same := congrArg String.toList trimmed
    simpa only [Text.trim, Text.trimEnd, Text.trimStart, String.toList_ofList] using same
  have inside :
      Text.dropBlanksAtEnd ((Fragment.commentBody content.toList).dropWhile Text.isBlank) =
        content.toList := by
    rw [Fragment.commentBody, List.dropWhile_cons_of_pos blank, List.dropWhile_append]
    split
    · rename_i isEmpty
      rw [List.isEmpty_iff.mp isEmpty] at kept
      rw [← kept, List.dropWhile_cons_of_pos blank]
      rfl
    · rw [dropBlanksAtEnd_blank, kept]
  simp only [commentContent, String.toList_ofList, opened, closed, Bool.false_eq_true, if_false,
    Text.trim, Text.trimEnd, Text.trimStart, inside, String.ofList_toList]

theorem givesNode_comment {content : String} (span : Span)
    (trimmed : Text.trim content = content) :
    GivesNode register inner (.comment content span) := by
  intro tape quiet shown endings closing sofar
  have isWords : nodeWords (.comment content span) =
      [⟨.comment false false, String.ofList (Fragment.comment content.toList).chars⟩] := by
    rw [nodeWords, Node.fragments, List.flatMap_singleton, Fragment.words]
  rw [isWords] at shown ⊢
  have isLexeme : tape.current.lexeme = String.ofList (Fragment.comment content.toList).chars :=
    shown.lexeme
  have isComment : tape.current.kind = .comment false false := shown.kind
  refine ⟨_, ?_, run_nextNode_of_comment isComment sofar⟩
  rw [isLexeme, commentContent_chars trimmed]
  rfl

theorem givesNode_output {value : Expr} (span : Span) (isVariable : value.IsVariable) :
    GivesNode register inner (.output value span) := by
  intro tape quiet shown endings closing sofar
  have isWords : nodeWords (.output value span) =
      ⟨.variableStart false, "\x7b\x7b"⟩ ::
        (value.written ++ [⟨.variableEnd false, "\x7d\x7d"⟩]) := by
    rw [nodeWords, Node.fragments, List.flatMap_singleton]
    rfl
  rw [isWords] at shown ⊢
  obtain ⟨shownValue, shownEnd⟩ := (Tape.shows_append _ _ _).mp shown.tail
  have closes : (tape.advance.past value.written).current.kind.isTagEnd = true := by
    rw [shownEnd.kind]
    rfl
  obtain ⟨given, givenSpan, same, reads⟩ :=
    run_output (tight_of_isVariable isVariable) shownValue closes
  refine ⟨.output given givenSpan, congrArg (Node.output · default) same, ?_⟩
  rw [run_nextNode_of_output shown.kind, reads, Tape.past_cons, Tape.past_append]
  rfl

theorem run_closingExpression {value : Expr} (tight : value.Tight)
    (shown : tape.Shows (value.written ++ [tagClose])) :
    ∃ given, given.unplaced = value.unplaced ∧
      expression.run tape = (given, tape.past value.written) ∧
      expectBlockEnd.run (tape.past value.written) =
        ((), tape.past (value.written ++ [tagClose])) := by
  obtain ⟨shownValue, closes, _⟩ := shown.tag
  obtain ⟨given, reads, same⟩ :=
    run_expression tight shownValue fun level => Tape.endsAt_of_isTagEnd level closes
  refine ⟨given, same, reads, ?_⟩
  rw [run_expectBlockEnd_of_present closes, Tape.past_tag]
  rfl

/-- Targets end at words and symbols that go on with no operand. -/
theorem endsTarget_of_word {word : Word} {words : List Word} (shown : tape.Shows (word :: words))
    (ends : word = .symbol .assign ∨ word = .symbol .pipe ∨ word = .name "in" ∨ word = tagClose) :
    tape.EndsTarget := by
  have isWord := shown.1
  rw [Tape.EndsTarget, shown.kind]
  refine ⟨?_, ?_⟩
  · intro other continues
    rw [isWord] at continues
    rcases ends with rfl | rfl | rfl | rfl
    · cases continues
    · cases continues
      decide
    · cases continues
      decide
    · cases continues
  · rcases ends with rfl | rfl | rfl | rfl <;> decide

theorem run_expressionList_of_end {value : Expr} (isVariable : value.IsVariable)
    (shown : tape.Shows (value.written ++ [tagClose])) :
    ∃ given, given.unplaced = value.unplaced ∧
      expressionList.run tape = (given, tape.past value.written) ∧
      expectBlockEnd.run (tape.past value.written) =
        ((), tape.past (value.written ++ [tagClose])) := by
  obtain ⟨given, same, reads, ends⟩ := run_closingExpression (tight_of_isVariable isVariable) shown
  have noComma := beq_eq_false_iff_ne.mpr (not_symbol_of_isTagEnd shown.tag.2.1 .comma)
  refine ⟨given, same, ?_, ends⟩
  simp only [expressionList, run_bind, reads, run_atSymbol, noComma, Bool.false_eq_true, if_false,
    run_pure]

theorem givesNode_assign (keeps : register.allowOverride = false) {target : Target} {value : Expr}
    (span : Span) (plain : target.IsPlain) (isVariable : value.IsVariable) :
    GivesNode register inner (.assign target value span) := by
  have isWords : nodeWords (.assign target value span) = tagOpen :: .name "set" ::
      (target.written ++ .symbol .assign :: (value.written ++ [tagClose])) := by
    rw [nodeWords, Node.fragments, List.flatMap_singleton, words_blockTag, List.append_assoc,
      List.cons_append]
  refine givesNode_of_builtin keeps (by decide) isWords fun start tape quiet shown => ?_
  obtain ⟨shownTarget, shownAssign⟩ := (Tape.shows_append _ _ _).mp shown
  obtain ⟨place, readsTarget, sameTarget⟩ := run_assignTarget "set" plain shownTarget
    (endsTarget_of_word shownAssign (Or.inl rfl))
  obtain ⟨given, same, reads, ends⟩ := run_expressionList_of_end isVariable shownAssign.tail
  refine ⟨.assign place given ?_, ?same, ?run⟩
  case run =>
    show (some <$> assign inner start).run tape = _
    simp only [run_map, assign, run_bind, readsTarget, run_takeSymbol, if_pos shownAssign.isSymbol,
      if_true, reads, ends, run_spanFrom, run_pure, Tape.past_append, Tape.past_cons]
    rfl
  case same => rw [Node.unplaced, Node.unplaced, sameTarget, same]

theorem givesNode_inherit (keeps : register.allowOverride = false) {template : Expr} (span : Span)
    (isVariable : template.IsVariable) : GivesNode register inner (.inherit template span) := by
  have isWords : nodeWords (.inherit template span) =
      tagOpen :: .name "extends" :: (template.written ++ [tagClose]) := by
    rw [nodeWords, Node.fragments, List.flatMap_singleton, words_blockTag]
  refine givesNode_of_builtin keeps (by decide) isWords fun start tape quiet shown => ?_
  obtain ⟨given, same, reads, ends⟩ := run_closingExpression (tight_of_isVariable isVariable) shown
  refine ⟨.inherit given ?_, ?same, ?run⟩
  case run =>
    show (some <$> inherit start).run tape = _
    simp only [run_map, inherit, run_bind, reads, ends, run_spanFrom, run_pure]
    rfl
  case same => rw [Node.unplaced, Node.unplaced, same]

/-- A value in front of clauses, the first of which no expression goes on with. -/
theorem run_boundedExpression {value : Expr} (isVariable : value.IsVariable) {word : Word}
    {words : List Word} (shown : tape.Shows (value.written ++ word :: words))
    (bound : word = tagClose ∨ ∃ text ∈ bounds, word = .name text) :
    ∃ given, given.unplaced = value.unplaced ∧
      expression.run tape = (given, tape.past value.written) ∧
      (tape.past value.written).Shows (word :: words) := by
  obtain ⟨shownValue, shownWord⟩ := (Tape.shows_append _ _ _).mp shown
  have bounded : (tape.past value.written).Bounded := by
    rcases bound with rfl | ⟨text, isBound, rfl⟩
    · refine Or.inl ?_
      rw [shownWord.kind]
      rfl
    · exact Or.inr ⟨text, isBound, shownWord.1⟩
  obtain ⟨given, reads, same⟩ :=
    run_expression (tight_of_isVariable isVariable) shownValue bounded.endsAt
  exact ⟨given, same, reads, shownWord⟩

theorem givesNode_embed (keeps : register.allowOverride = false) {template : Expr}
    (withContext ignoreMissing : Bool) (span : Span) (isVariable : template.IsVariable) :
    GivesNode register inner (.embed template withContext ignoreMissing span) := by
  have isWords : nodeWords (.embed template withContext ignoreMissing span) =
      tagOpen :: .name "include" :: (template.written ++
        ((missingWords ignoreMissing ++ contextWords withContext) ++ [tagClose])) := by
    rw [nodeWords, Node.fragments, List.flatMap_singleton, words_blockTag, List.append_assoc]
  refine givesNode_of_builtin keeps (by decide) isWords fun start tape quiet shown => ?_
  have bounded : ∃ word words, (missingWords ignoreMissing ++ contextWords withContext) ++
      [tagClose] = word :: words ∧ (word = tagClose ∨ ∃ text ∈ bounds, word = .name text) := by
    cases ignoreMissing with
    | true => exact ⟨_, _, rfl, Or.inr ⟨"ignore", by decide, rfl⟩⟩
    | false =>
        cases withContext with
        | true => exact ⟨_, _, rfl, Or.inr ⟨"with", by decide, rfl⟩⟩
        | false => exact ⟨_, _, rfl, Or.inl rfl⟩
  obtain ⟨word, words, isFirst, bound⟩ := bounded
  obtain ⟨given, same, reads, shownClauses⟩ :=
    run_boundedExpression isVariable (isFirst ▸ shown) bound
  rw [← isFirst] at shownClauses
  obtain ⟨shownWords, closes, _⟩ := shownClauses.tag
  refine ⟨.embed given withContext ignoreMissing ?_, ?same, ?run⟩
  case run =>
    show (some <$> embed start).run tape = _
    rw [Tape.past_append, Tape.past_tag, Tape.past_nil]
    simp only [run_map, embed, run_bind, reads, run_clauses shownWords closes,
      run_expectBlockEnd_of_present closes, run_spanFrom, run_pure]
    rfl
  case same => rw [Node.unplaced, Node.unplaced, same]

/-- A context clause and the end of the tag behind it. -/
theorem run_closingContext {withContext : Bool}
    (shown : tape.Shows (contextWords withContext ++ [tagClose])) :
    ∃ clause, clause.getD false = withContext ∧
      contextClause?.run tape = (clause, tape.past (contextWords withContext)) ∧
      expectBlockEnd.run (tape.past (contextWords withContext)) =
        ((), tape.past (contextWords withContext ++ [tagClose])) := by
  obtain ⟨shownWords, closes, _⟩ := shown.tag
  obtain ⟨clause, isClause, reads⟩ := run_contextClause? shownWords closes
  refine ⟨clause, isClause, reads, ?_⟩
  rw [run_expectBlockEnd_of_present closes, Tape.past_tag]
  rfl

theorem givesNode_importAs (keeps : register.allowOverride = false) {template : Expr}
    {boundAs : String} (withContext : Bool) (span : Span) (isVariable : template.IsVariable) :
    GivesNode register inner (.importAs template boundAs withContext span) := by
  have isWords : nodeWords (.importAs template boundAs withContext span) =
      tagOpen :: .name "import" :: (template.written ++
        .name "as" :: .name boundAs :: (contextWords withContext ++ [tagClose])) := by
    rw [nodeWords, Node.fragments, List.flatMap_singleton, words_blockTag, List.append_assoc]
    rfl
  refine givesNode_of_builtin keeps (by decide) isWords fun start tape quiet shown => ?_
  obtain ⟨given, same, reads, shownAs⟩ :=
    run_boundedExpression isVariable shown (Or.inr ⟨"as", by decide, rfl⟩)
  have isAs := isName_eq_true.mpr shownAs.1
  have isName : (tape.past template.written).advance.current.kind = .name := shownAs.tail.kind
  have isBound : (tape.past template.written).advance.current.lexeme = boundAs :=
    shownAs.tail.lexeme
  obtain ⟨clause, isClause, readsContext, ends⟩ := run_closingContext shownAs.tail.tail
  refine ⟨.importAs given boundAs withContext ?_, ?same, ?run⟩
  case run =>
    show (some <$> importAs start).run tape = _
    simp only [run_map, importAs, run_bind, reads, run_expectWord_of_present isAs,
      run_expectName_of_present isName, readsContext, ends, run_spanFrom, run_pure, isBound,
      isClause, Tape.past_append, Tape.past_cons]
    rfl
  case same => rw [Node.unplaced, Node.unplaced, same]

theorem givesNode_importNames (keeps : register.allowOverride = false) {template : Expr}
    {names : List ImportName} (withContext : Bool) (span : Span)
    (isVariable : template.IsVariable) (nonempty : names ≠ [])
    (plain : ∀ imported ∈ names, imported.IsPlain) :
    GivesNode register inner (.importNames template names withContext span) := by
  have isWords : nodeWords (.importNames template names withContext span) =
      tagOpen :: .name "from" :: (template.written ++ .name "import" ::
        (Word.separated (.symbol .comma) (names.map ImportName.written) ++
          (contextWords withContext ++ [tagClose]))) := by
    rw [nodeWords, Node.fragments, List.flatMap_singleton, words_blockTag, List.append_assoc,
      List.cons_append, List.append_assoc]
  refine givesNode_of_builtin keeps (by decide) isWords fun start tape quiet shown => ?_
  obtain ⟨given, same, reads, shownImport⟩ :=
    run_boundedExpression isVariable shown (Or.inr ⟨"import", by decide, rfl⟩)
  have isImport := isName_eq_true.mpr shownImport.1
  obtain ⟨shownNames, shownContext⟩ := (Tape.shows_append _ _ _).mp shownImport.tail
  have endsNames : ((tape.past template.written).advance.past
      (Word.separated (.symbol .comma) (names.map ImportName.written))).EndsNames := by
    cases withContext with
    | true => exact Or.inl shownContext.1
    | false =>
        refine Or.inr ?_
        rw [Tape.Shows.kind shownContext]
        rfl
  obtain ⟨values, sameNames, readsNames⟩ := run_importNames nonempty plain shownNames endsNames
  obtain ⟨clause, isClause, readsContext, ends⟩ := run_closingContext shownContext
  have present : values.isEmpty = false := by
    cases values with
    | nil => exact (nonempty (List.map_eq_nil_iff.mp sameNames.symm)).elim
    | cons value rest => rfl
  refine ⟨.importNames given values withContext ?_, ?same, ?run⟩
  case run =>
    show (some <$> importNames start).run tape = _
    simp only [run_map, importNames, run_bind, reads, run_expectWord_of_present isImport,
      readsNames, present, Bool.false_eq_true, if_false, readsContext, ends, run_spanFrom,
      run_pure, isClause, Tape.past_append, Tape.past_cons]
    rfl
  case same => rw [Node.unplaced, Node.unplaced, same, sameNames]

/-! ### Statements with a body -/

def closedWords (body : List Node) (ending : String) : List Word :=
  bodyWords body ++ (blockTag ending []).words

/-- A body is given back together with its closing tag. -/
theorem run_closedBody {body : List Node} (gives : GivesBody inner body) {ending : String}
    (closing : ending ∈ closingTags) (quiet : tape.Quiet)
    (shown : tape.Shows (closedWords body ending)) (tag : String) (start : Span) :
    ∃ values, values.map Node.unplaced = body.map Node.unplaced ∧
      (closedBody inner ending tag start).run tape =
        (values, tape.past (closedWords body ending)) := by
  have awaits : [ending] ⊆ closingTags := by
    intro other member
    rwa [List.mem_singleton.mp member]
  obtain ⟨values, same, reads⟩ :=
    gives tape quiet [ending] awaits ending List.mem_cons_self [] shown
  have shownEnding := ((Tape.shows_append _ _ _).mp shown).2
  refine ⟨values, same, ?_⟩
  simp only [closedBody, run_bind, reads, Option.isSome_some, if_true, run_finishTag shownEnding,
    run_pure, closedWords, Tape.past_append]

theorem nodeWords_of_body {node : Node} {tag ending : String} {words : List Word}
    {body : List Node}
    (areFragments :
      node.fragments = blockTag tag words :: (bodyFragments body ++ [blockTag ending []])) :
    nodeWords node = tagOpen :: .name tag :: (words ++ tagClose :: closedWords body ending) := by
  rw [nodeWords, areFragments, List.flatMap_cons, List.flatMap_append, List.flatMap_singleton,
    words_blockTag, List.cons_append, List.cons_append, List.append_assoc]
  rfl

theorem givesNode_block (keeps : register.allowOverride = false) {word : String}
    {body : List Node} (span : Span) (gives : GivesBody inner body) :
    GivesNode register inner (.block word body span) := by
  have isWords := nodeWords_of_body (Node.fragments.eq_def (.block word body span))
  refine givesNode_of_builtin keeps (by decide) isWords fun start tape quiet shown => ?_
  have isName : tape.current.kind = .name := shown.kind
  have isWord : tape.current.lexeme = word := shown.lexeme
  obtain ⟨_, closes, shownBody⟩ := shown.tag
  rw [Tape.past_cons, Tape.past_nil] at closes shownBody
  obtain ⟨values, same, reads⟩ :=
    run_closedBody gives (by decide) quiet.advance.advance shownBody "block" start
  have notWord (text : String) : tape.advance.current.isName text = false :=
    not_word_of_isTagEnd closes text
  have settles : Settles blockWordTurn () tape.advance () tape.advance := by
    refine .done ?_
    simp only [blockWordTurn, run_bind, run_takeWord, notWord, Bool.false_eq_true, if_false,
      run_pure]
  refine ⟨.block word values ?_, ?same, ?run⟩
  case run =>
    show (some <$> block inner start).run tape = _
    rw [Tape.past_tag]
    simp only [run_map, block, run_bind, run_expectName_of_present isName, isWord,
      run_loop_of_settles settles, run_expectBlockEnd_of_present closes, reads, run_spanFrom,
      run_pure]
    rfl
  case same => rw [Node.unplaced, Node.unplaced, unplacedBody_eq_map, unplacedBody_eq_map, same]

theorem givesNode_capture (keeps : register.allowOverride = false) {target : Target}
    {filters : List FilterCall} {body : List Node} (span : Span) (plain : target.IsPlain)
    (filtersPlain : ∀ call ∈ filters, call.IsPlain) (gives : GivesBody inner body) :
    GivesNode register inner (.capture target filters body span) := by
  have isWords := nodeWords_of_body (Node.fragments.eq_def (.capture target filters body span))
  refine givesNode_of_builtin keeps (by decide) isWords fun start tape quiet shown => ?_
  obtain ⟨shownClause, closes, shownBody⟩ := shown.tag
  obtain ⟨values, same, reads⟩ :=
    run_closedBody gives (by decide) (quiet.past _).advance shownBody "set" start
  rw [List.append_assoc] at shown
  obtain ⟨shownTarget, shownBehind⟩ := (Tape.shows_append _ _ _).mp shown
  have isFirst : ∃ word words, filterWords filters ++ tagClose :: closedWords body "endset" =
      word :: words ∧ (word = .symbol .pipe ∨ word = tagClose) := by
    cases filters with
    | nil => exact ⟨_, _, rfl, Or.inr rfl⟩
    | cons call rest => exact ⟨_, _, rfl, Or.inl rfl⟩
  obtain ⟨word, words, areWords, isEither⟩ := isFirst
  rw [areWords] at shownBehind
  have ends : (tape.past target.written).EndsTarget := by
    refine endsTarget_of_word shownBehind ?_
    rcases isEither with isPipe | isClose
    · exact Or.inr (Or.inl isPipe)
    · exact Or.inr (Or.inr (Or.inr isClose))
  have notAssign : (tape.past target.written).current.kind ≠ .symbol .assign := by
    rw [shownBehind.kind]
    rcases isEither with rfl | rfl <;> decide
  obtain ⟨place, readsTarget, sameTarget⟩ := run_assignTarget "set" plain shownTarget ends
  rw [Tape.past_append] at closes reads
  obtain ⟨calls, sameCalls, settles⟩ := run_furtherFilters filtersPlain []
    ((Tape.shows_append _ _ _).mp shownClause).2 closes
  refine ⟨.capture place calls values ?_, ?same, ?run⟩
  case run =>
    show (some <$> assign inner start).run tape = _
    rw [Tape.past_tag, Tape.past_append]
    simp only [run_map, assign, run_bind, readsTarget, run_takeSymbol, if_neg notAssign,
      Bool.false_eq_true, if_false, furtherFilters, run_loop_of_settles settles, List.nil_append,
      run_expectBlockEnd_of_present closes, reads, run_spanFrom, run_pure]
    rfl
  case same =>
    rw [Node.unplaced, Node.unplaced, unplacedBody_eq_map, unplacedBody_eq_map, same, sameTarget,
      sameCalls]

theorem givesNode_define (keeps : register.allowOverride = false) {word : String}
    {items : List Param} {body : List Node} (span : Span)
    (plain : ∀ param ∈ items, param.IsPlain) (gives : GivesBody inner body) :
    GivesNode register inner (.define word items body span) := by
  have isWords := nodeWords_of_body (Node.fragments.eq_def (.define word items body span))
  refine givesNode_of_builtin keeps (by decide) isWords fun start tape quiet shown => ?_
  have isName : tape.current.kind = .name := shown.kind
  have isWord : tape.current.lexeme = word := shown.lexeme
  obtain ⟨shownClause, closes, shownBody⟩ := shown.tag
  obtain ⟨values, same, reads⟩ :=
    run_closedBody gives (by decide) (quiet.past _).advance shownBody "macro" start
  rw [Tape.past_cons] at closes reads
  have opening : (tape.advance.current.kind == .symbol .leftParen) = true :=
    beq_iff_eq.mpr shownClause.tail.isSymbol
  obtain ⟨given, sameParams, readsParams⟩ := run_params plain shownClause.tail
  refine ⟨.define word given values ?_, ?same, ?run⟩
  case run =>
    show (some <$> define inner start).run tape = _
    rw [Tape.past_tag, Tape.past_cons]
    simp only [run_map, define, run_bind, run_expectName_of_present isName, isWord, run_atSymbol,
      opening, if_true, readsParams, run_expectBlockEnd_of_present closes, reads, run_spanFrom,
      run_pure]
    rfl
  case same =>
    rw [Node.unplaced, Node.unplaced, unplacedBody_eq_map, unplacedBody_eq_map, same, sameParams]

theorem not_paren_of_call {call : Expr} (plain : call.IsPlainCall)
    (shown : tape.Shows call.written) :
    (tape.current.kind == .symbol .leftParen) = false := by
  have named {callee : Expr} (isVariable : callee.IsVariable) (words : List Word)
      (shown : tape.Shows (callee.written ++ words)) :
      (tape.current.kind == .symbol .leftParen) = false := by
    cases isVariable with
    | name span identifier => exact (not_closing_of_name shown.kind .leftParen).1
  cases plain with
  | bare isVariable => exact named isVariable [] (by rwa [List.append_nil])
  | call span isVariable argsVariable =>
      rw [Expr.written_call] at shown
      exact named isVariable _ shown

/-- The parameters of a call block are given back, also when there are none. -/
theorem run_callerParams {call : Expr} (callPlain : call.IsPlainCall) {items : List Param}
    (plain : ∀ param ∈ items, param.IsPlain)
    (shown : tape.Shows (callerWords items ++ call.written)) :
    ∃ given, given.map Param.unplaced = items.map Param.unplaced ∧
      callerParams.run tape = (given, tape.past (callerWords items)) := by
  cases items with
  | nil =>
      refine ⟨[], rfl, ?_⟩
      simp only [callerParams, run_bind, run_atSymbol, not_paren_of_call callPlain shown,
        Bool.false_eq_true, if_false, run_pure]
      rfl
  | cons param rest =>
      have shownParams : tape.Shows (paramWords (param :: rest)) :=
        ((Tape.shows_append _ _ _).mp shown).1
      obtain ⟨given, same, reads⟩ := run_params plain shownParams
      refine ⟨given, same, ?_⟩
      simp only [callerParams, run_bind, run_atSymbol, beq_iff_eq.mpr shownParams.isSymbol, if_true,
        reads]
      rfl

theorem givesNode_callBlock (keeps : register.allowOverride = false) {call : Expr}
    {items : List Param} {body : List Node} (span : Span) (callPlain : call.IsPlainCall)
    (plain : ∀ param ∈ items, param.IsPlain) (gives : GivesBody inner body) :
    GivesNode register inner (.callBlock call items body span) := by
  have isWords := nodeWords_of_body (Node.fragments.eq_def (.callBlock call items body span))
  refine givesNode_of_builtin keeps (by decide) isWords fun start tape quiet shown => ?_
  obtain ⟨shownClause, closes, shownBody⟩ := shown.tag
  obtain ⟨values, same, reads⟩ :=
    run_closedBody gives (by decide) (quiet.past _).advance shownBody "call" start
  obtain ⟨given, sameParams, readsParams⟩ := run_callerParams callPlain plain shownClause
  have shownCall := ((Tape.shows_append _ _ _).mp shownClause).2
  rw [Tape.past_append] at closes reads
  obtain ⟨callee, readsCall, sameCall⟩ := run_expression (tight_of_isPlainCall callPlain) shownCall
    fun level => Tape.endsAt_of_isTagEnd level closes
  refine ⟨.callBlock callee given values ?_, ?same, ?run⟩
  case run =>
    show (some <$> callBlock inner start).run tape = _
    rw [Tape.past_tag, Tape.past_append]
    simp only [run_map, callBlock, run_bind, readsParams, readsCall,
      run_expectBlockEnd_of_present closes, reads, run_spanFrom, run_pure]
    rfl
  case same =>
    rw [Node.unplaced, Node.unplaced, unplacedBody_eq_map, unplacedBody_eq_map, same, sameCall,
      sameParams]

theorem givesNode_withBlock (keeps : register.allowOverride = false) {bindings : List Binding}
    {body : List Node} (span : Span) (plain : ∀ binding ∈ bindings, binding.IsPlain)
    (gives : GivesBody inner body) : GivesNode register inner (.withBlock bindings body span) := by
  have isWords := nodeWords_of_body (Node.fragments.eq_def (.withBlock bindings body span))
  refine givesNode_of_builtin keeps (by decide) isWords fun start tape quiet shown => ?_
  obtain ⟨shownClause, closes, shownBody⟩ := shown.tag
  obtain ⟨values, same, reads⟩ :=
    run_closedBody gives (by decide) (quiet.past _).advance shownBody "with" start
  obtain ⟨given, sameBindings, readsBindings⟩ := run_bindings plain shownClause closes
  refine ⟨.withBlock given values ?_, ?same, ?run⟩
  case run =>
    show (some <$> withBlock inner start).run tape = _
    rw [Tape.past_tag]
    simp only [run_map, withBlock, run_bind, readsBindings, run_expectBlockEnd_of_present closes,
      reads, run_spanFrom, run_pure]
    rfl
  case same =>
    rw [Node.unplaced, Node.unplaced, unplacedBody_eq_map, unplacedBody_eq_map, same, sameBindings]

theorem separated_filters (first : FilterCall) (rest : List FilterCall) :
    Word.separated (.symbol .pipe) ((first :: rest).map FilterCall.written) =
      first.written ++ filterWords rest := by
  rw [List.map_cons, Word.separated, List.flatMap_map, filterWords]

theorem givesNode_filterBlock (keeps : register.allowOverride = false) {filters : List FilterCall}
    {body : List Node} (span : Span) (nonempty : filters ≠ [])
    (plain : ∀ call ∈ filters, call.IsPlain) (gives : GivesBody inner body) :
    GivesNode register inner (.filterBlock filters body span) := by
  have isWords := nodeWords_of_body (Node.fragments.eq_def (.filterBlock filters body span))
  refine givesNode_of_builtin keeps (by decide) isWords fun start tape quiet shown => ?_
  obtain ⟨shownClause, closes, shownBody⟩ := shown.tag
  obtain ⟨values, same, reads⟩ :=
    run_closedBody gives (by decide) (quiet.past _).advance shownBody "filter" start
  cases filters with
  | nil => contradiction
  | cons first rest =>
      rw [separated_filters] at shownClause closes reads ⊢
      obtain ⟨shownFirst, shownRest⟩ := (Tape.shows_append _ _ _).mp shownClause
      rw [Tape.past_append] at closes reads
      have ends : (tape.past first.written).EndsFilter := by
        cases rest with
        | nil => exact Or.inr closes
        | cons next others => exact Or.inl shownRest.isSymbol
      obtain ⟨call, readsFirst, sameFirst⟩ :=
        run_filterCall_of_isPlain (plain first List.mem_cons_self) shownFirst ends
      obtain ⟨calls, sameCalls, settles⟩ := run_furtherFilters
        (fun other member => plain other (List.mem_cons_of_mem _ member)) [call] shownRest closes
      refine ⟨.filterBlock (call :: calls) values ?_, ?same, ?run⟩
      case run =>
        show (some <$> filterBlock inner start).run tape = _
        rw [Tape.past_tag, Tape.past_append]
        simp only [run_map, filterBlock, run_bind, readsFirst, furtherFilters,
          run_loop_of_settles settles, run_expectBlockEnd_of_present closes, reads, run_spanFrom,
          run_pure]
        rfl
      case same =>
        rw [Node.unplaced, Node.unplaced, unplacedBody_eq_map, unplacedBody_eq_map, same,
          List.map_cons, List.map_cons, sameFirst, sameCalls]

/-! ### Statements with several bodies -/

/-- The words of the body that a statement has otherwise, and its closing tag. -/
def endWords (otherwise : Option (List Node)) (ending : String) : List Word :=
  (otherwiseFragments otherwise).flatMap Fragment.words ++ (blockTag ending []).words

theorem endWords_some (body : List Node) (ending : String) :
    endWords (some body) ending = (blockTag "else" []).words ++ closedWords body ending := by
  rw [endWords, otherwiseFragments, List.flatMap_cons, List.append_assoc]
  rfl

/-- A body is given back up to a closing tag of the language behind it. -/
theorem GivesBody.run {body : List Node} (gives : GivesBody inner body) {endings : List String}
    (closing : endings ⊆ closingTags) {ending : String} (member : ending ∈ endings)
    (quiet : tape.Quiet) {words rest : List Word}
    (shown : tape.Shows (bodyWords body ++ ((blockTag ending words).words ++ rest))) :
    ∃ values, values.map Node.unplaced = body.map Node.unplaced ∧
      (inner endings).run tape = ((values, some ending), tape.past (bodyWords body)) ∧
      (tape.past (bodyWords body)).Shows ((blockTag ending words).words ++ rest) := by
  have shownBehind := ((Tape.shows_append _ _ _).mp shown).2
  rw [← List.append_assoc] at shown
  obtain ⟨values, same, reads⟩ :=
    gives tape quiet endings closing ending member words ((Tape.shows_append _ _ _).mp shown).1
  exact ⟨values, same, reads, shownBehind⟩

/-- The condition of a loop is given back, or its absence. -/
theorem run_loopCondition? {condition : Option Expr}
    (isVariable : ∀ value, condition = some value → value.IsVariable) {rest : List Word}
    (shown : tape.Shows (conditionWords condition ++ tagClose :: rest)) :
    ∃ given, given.map Expr.unplaced = condition.map Expr.unplaced ∧
      loopCondition?.run tape = (given, tape.past (conditionWords condition)) := by
  obtain ⟨shownCondition, closes, _⟩ := shown.tag
  cases condition with
  | none =>
      have closes : tape.current.kind.isTagEnd = true := closes
      refine ⟨none, rfl, ?_⟩
      simp only [loopCondition?, run_bind, run_takeWord, not_word_of_isTagEnd closes,
        Bool.false_eq_true, if_false, run_pure]
      rfl
  | some value =>
      have isIf := isName_eq_true.mpr shownCondition.1
      obtain ⟨given, reads, same⟩ := run_disjunction (isVariable value rfl) shownCondition.tail
        (Tape.endsAt_of_isTagEnd _ closes)
      refine ⟨some given, congrArg some same, ?_⟩
      simp only [loopCondition?, run_bind, run_takeWord, isIf, if_true, run_map, reads]
      rfl

/-- The closing tag that a body stops at, if another body may follow. -/
def foundBehind (otherwise : Option (List Node)) (ending : String) : String :=
  if otherwise.isSome then "else" else ending

/-- The body in front of another one, or of a closing tag, is given back. -/
theorem GivesBody.run_otherwise {body : List Node} (gives : GivesBody inner body)
    {otherwise : Option (List Node)} {endings : List String} (closing : endings ⊆ closingTags)
    {ending : String} (members : "else" ∈ endings ∧ ending ∈ endings) (quiet : tape.Quiet)
    (shown : tape.Shows (bodyWords body ++ endWords otherwise ending)) :
    ∃ values, values.map Node.unplaced = body.map Node.unplaced ∧
      (inner endings).run tape =
        ((values, some (foundBehind otherwise ending)), tape.past (bodyWords body)) ∧
      (tape.past (bodyWords body)).Shows (endWords otherwise ending) := by
  cases otherwise with
  | none =>
      have words : endWords none ending = (blockTag ending []).words ++ [] := by
        rw [List.append_nil]
        rfl
      rw [words] at shown ⊢
      exact gives.run closing members.2 quiet shown
  | some other =>
      rw [endWords_some] at shown ⊢
      exact gives.run closing members.1 quiet shown

theorem run_loopOtherwise? {otherwise : Option (List Node)}
    (gives : ∀ body, otherwise = some body → GivesBody inner body) (quiet : tape.Quiet)
    (shown : tape.Shows (endWords otherwise "endfor")) (start : Span) :
    ∃ given, unplacedBody? given = unplacedBody? otherwise ∧
      (loopOtherwise? inner (some (foundBehind otherwise "endfor")) start).run tape =
        (given, tape.past (endWords otherwise "endfor")) := by
  cases otherwise with
  | none =>
      refine ⟨none, rfl, ?_⟩
      have shown : tape.Shows (blockTag "endfor" []).words := shown
      show (do finishTag; return none : Read (Option (List Node))).run tape = _
      simp only [run_bind, run_finishTag shown, run_pure]
      rfl
  | some body =>
      rw [endWords_some] at shown ⊢
      obtain ⟨shownElse, shownBody⟩ := (Tape.shows_append _ _ _).mp shown
      obtain ⟨values, same, reads⟩ :=
        run_closedBody (gives body rfl) (by decide) (quiet.past _) shownBody "for" start
      refine ⟨some values, ?_, ?_⟩
      · rw [unplacedBody?, unplacedBody?, unplacedBody_eq_map, unplacedBody_eq_map, same]
      · rw [Tape.past_append]
        simp only [loopOtherwise?, foundBehind, Option.isSome_some, if_true, run_bind,
          run_finishTag shownElse, run_map, reads]

theorem givesNode_each (keeps : register.allowOverride = false) {target : Target} {items : Expr}
    {condition : Option Expr} {body : List Node} {otherwise : Option (List Node)} (span : Span)
    (plain : target.IsPlain) (itemsVariable : items.IsVariable)
    (conditionVariable : ∀ value, condition = some value → value.IsVariable)
    (gives : GivesBody inner body)
    (givesOtherwise : ∀ body, otherwise = some body → GivesBody inner body) :
    GivesNode register inner (.each target items condition body otherwise span) := by
  have isWords : nodeWords (.each target items condition body otherwise span) =
      tagOpen :: .name "for" :: (target.written ++ .name "in" ::
        (items.written ++ (conditionWords condition ++
          tagClose :: (bodyWords body ++ endWords otherwise "endfor")))) := by
    rw [nodeWords, Node.fragments, List.flatMap_cons, List.flatMap_append, List.flatMap_append,
      List.flatMap_singleton, words_blockTag]
    simp only [List.append_assoc, List.cons_append, List.nil_append]
    rfl
  refine givesNode_of_builtin keeps (by decide) isWords fun start tape quiet shown => ?_
  obtain ⟨shownTarget, shownIn⟩ := (Tape.shows_append _ _ _).mp shown
  obtain ⟨place, readsTarget, sameTarget⟩ := run_assignTarget "for" plain shownTarget
    (endsTarget_of_word shownIn (Or.inr (Or.inr (Or.inl rfl))))
  have isIn := isName_eq_true.mpr shownIn.1
  obtain ⟨shownItems, shownCondition⟩ := (Tape.shows_append _ _ _).mp shownIn.tail
  have endsItems : ((tape.past target.written).advance.past items.written).EndsAt
      .disjunction := by
    cases condition with
    | none => exact Tape.endsAt_of_isTagEnd _ shownCondition.tag.2.1
    | some value => exact shownCondition.endsAt (fun _ => rfl) (by decide)
  obtain ⟨givenItems, readsItems, sameItems⟩ := run_disjunction itemsVariable shownItems endsItems
  obtain ⟨givenCondition, sameCondition, readsCondition⟩ :=
    run_loopCondition? conditionVariable shownCondition
  obtain ⟨_, closes, shownBody⟩ := shownCondition.tag
  have quietBody := (((quiet.past target.written).advance.past items.written).past
    (conditionWords condition)).advance
  have closing : ["else", "endfor"] ⊆ closingTags := by decide
  obtain ⟨values, same, readsBody, shownEnd⟩ :=
    gives.run_otherwise closing (by decide) quietBody shownBody
  obtain ⟨givenOtherwise, sameOtherwise, readsOtherwise⟩ :=
    run_loopOtherwise? givesOtherwise (quietBody.past _) shownEnd start
  refine ⟨.each place givenItems givenCondition values givenOtherwise ?_, ?same, ?run⟩
  case run =>
    show (some <$> each inner start).run tape = _
    rw [Tape.past_append, Tape.past_cons, Tape.past_append, Tape.past_tag, Tape.past_append]
    simp only [run_map, each, run_bind, readsTarget, run_expectWord_of_present isIn, readsItems,
      readsCondition, run_expectBlockEnd_of_present closes, readsBody, readsOtherwise, run_spanFrom,
      run_pure]
    rfl
  case same =>
    rw [Node.unplaced, Node.unplaced, unplacedBody_eq_map, unplacedBody_eq_map, same, sameTarget,
      sameItems, sameCondition, sameOtherwise]

/-- The words behind the body of a branch: the further branches, the other body and the closing
tag. -/
def branchWords (rest : List Branch) (otherwise : Option (List Node)) : List Word :=
  (branchFragments "elif" rest).flatMap Fragment.words ++ endWords otherwise "endif"

theorem branchWords_cons (test : Expr) (body : List Node) (span : Span) (rest : List Branch)
    (otherwise : Option (List Node)) :
    branchWords (.mk test body span :: rest) otherwise =
      (blockTag "elif" test.written).words ++ (bodyWords body ++ branchWords rest otherwise) := by
  rw [branchWords, branchFragments, List.flatMap_cons, List.flatMap_append, List.append_assoc,
    List.append_assoc]
  rfl

/-- A turn reads the body of a branch and the tag of the next one. -/
theorem run_nextBranch_of_elif {body : List Node} (gives : GivesBody inner body) {test : Expr}
    (isVariable : test.IsVariable) (quiet : tape.Quiet) {rest : List Word}
    (shown : tape.Shows (bodyWords body ++ ((blockTag "elif" test.written).words ++ rest)))
    (start : Span) (sofar : Choice) :
    ∃ (values : List Node) (span : Span) (given : Expr) (branchStart : Span),
      values.map Node.unplaced = body.map Node.unplaced ∧ given.unplaced = test.unplaced ∧
      (nextBranch inner start sofar).run tape =
        (.again ⟨sofar.branches ++ [.mk sofar.test values span], sofar.otherwise, given,
            branchStart⟩,
          (tape.past (bodyWords body)).past (blockTag "elif" test.written).words) := by
  have closing : ["elif", "else", "endif"] ⊆ closingTags := by decide
  obtain ⟨values, same, reads, shownTag⟩ := gives.run closing (by decide) quiet shown
  have shownTest := ((Tape.shows_append _ _ _).mp shownTag).1.tail.tail
  obtain ⟨given, sameTest, readsTest, ends⟩ :=
    run_closingExpression (tight_of_isVariable isVariable) shownTest
  refine ⟨values, ?_, given, ?_, same, sameTest, ?run⟩
  case run =>
    simp only [nextBranch, run_bind, reads, run_spanFrom, openTag, run_advance, run_pure, readsTest,
      ends]
    rfl

/-- The last turn reads the body of the last branch, the other body and the closing tag. -/
theorem run_nextBranch_of_end {body : List Node} (gives : GivesBody inner body)
    {otherwise : Option (List Node)}
    (givesOtherwise : ∀ body, otherwise = some body → GivesBody inner body) (quiet : tape.Quiet)
    (shown : tape.Shows (bodyWords body ++ endWords otherwise "endif")) (start : Span)
    {sofar : Choice} (noOther : sofar.otherwise = none) :
    ∃ (values : List Node) (span : Span) (given : Option (List Node)),
      values.map Node.unplaced = body.map Node.unplaced ∧
      unplacedBody? given = unplacedBody? otherwise ∧
      (nextBranch inner start sofar).run tape =
        (.done ⟨sofar.branches ++ [.mk sofar.test values span], given, sofar.test, sofar.start⟩,
          (tape.past (bodyWords body)).past (endWords otherwise "endif")) := by
  have closing : ["elif", "else", "endif"] ⊆ closingTags := by decide
  obtain ⟨values, same, reads, shownEnd⟩ :=
    gives.run_otherwise closing (by decide) quiet shown
  cases otherwise with
  | none =>
      have shownEnd : (tape.past (bodyWords body)).Shows (blockTag "endif" []).words := shownEnd
      obtain ⟨branches, _, test, branchStart⟩ := sofar
      cases noOther
      obtain ⟨span, turn⟩ : ∃ span,
          (nextBranch inner start ⟨branches, none, test, branchStart⟩).run tape =
            (do finishTag; return .done ⟨branches ++ [.mk test values span], none, test,
              branchStart⟩ : Read (Turn Choice)).run (tape.past (bodyWords body)) := by
        refine ⟨branchStart.cover (tape.past (bodyWords body)).previousSpan, ?_⟩
        rw [nextBranch, run_bind, reads]
        rfl
      refine ⟨values, span, none, same, rfl, ?_⟩
      rw [turn]
      simp only [run_bind, run_finishTag shownEnd, run_pure]
      rfl
  | some other =>
      rw [endWords_some] at shownEnd ⊢
      obtain ⟨shownElse, shownBody⟩ := (Tape.shows_append _ _ _).mp shownEnd
      obtain ⟨others, sameOther, readsOther⟩ := run_closedBody (givesOtherwise other rfl)
        (by decide) ((quiet.past _).past _) shownBody "if" start
      refine ⟨values, ?_, some others, same, ?_, ?run⟩
      case run =>
        rw [Tape.past_append]
        simp only [nextBranch, run_bind, reads, foundBehind, Option.isSome_some, if_true,
          run_spanFrom, run_finishTag shownElse, readsOther, run_pure]
        rfl
      · rw [unplacedBody?, unplacedBody?, unplacedBody_eq_map, unplacedBody_eq_map, sameOther]

/-- The turns of a choice read its branches one by one. -/
theorem settles_branches {rest : List Branch} {otherwise : Option (List Node)}
    (tests : ∀ branch ∈ rest, branch.test.IsVariable)
    (givesRest : ∀ branch ∈ rest, GivesBody inner branch.body)
    (givesOtherwise : ∀ body, otherwise = some body → GivesBody inner body) (start : Span)
    {body : List Node} (gives : GivesBody inner body) (quiet : tape.Quiet)
    (shown : tape.Shows (bodyWords body ++ branchWords rest otherwise)) {sofar : Choice}
    (noOther : sofar.otherwise = none) :
    ∃ (branches : List Branch) (result : Choice),
      result.branches = sofar.branches ++ branches ∧
      branches.map Branch.unplaced =
        .mk sofar.test.unplaced (body.map Node.unplaced) default :: rest.map Branch.unplaced ∧
      unplacedBody? result.otherwise = unplacedBody? otherwise ∧
      Settles (nextBranch inner start) sofar tape result
        (tape.past (bodyWords body ++ branchWords rest otherwise)) := by
  induction rest generalizing body tape sofar with
  | nil =>
      obtain ⟨values, span, given, same, sameOther, turn⟩ :=
        run_nextBranch_of_end gives givesOtherwise quiet shown start noOther
      refine ⟨[.mk sofar.test values span], ⟨sofar.branches ++ [.mk sofar.test values span], given,
        sofar.test, sofar.start⟩, rfl, ?_, sameOther, .done ?_⟩
      · rw [List.map_singleton, Branch.unplaced, unplacedBody_eq_map, same, List.map_nil]
      · rw [turn, Tape.past_append]
        rfl
  | cons branch rest inductionHypothesis =>
      obtain ⟨test, next, span⟩ := branch
      rw [branchWords_cons] at shown ⊢
      have isVariable : test.IsVariable := tests _ List.mem_cons_self
      obtain ⟨values, branchSpan, given, branchStart, same, sameTest, turn⟩ :=
        run_nextBranch_of_elif gives isVariable quiet shown start sofar
      obtain ⟨shownBody, shownTag⟩ := (Tape.shows_append _ _ _).mp shown
      obtain ⟨shownHere, shownRest⟩ := (Tape.shows_append _ _ _).mp shownTag
      have noOther : (Choice.mk (sofar.branches ++ [.mk sofar.test values branchSpan])
        sofar.otherwise given branchStart).otherwise = none := noOther
      obtain ⟨branches, result, areBranches, sameBranches, sameOther, settles⟩ :=
        inductionHypothesis (fun other member => tests other (List.mem_cons_of_mem _ member))
          (fun other member => givesRest other (List.mem_cons_of_mem _ member))
          (givesRest _ List.mem_cons_self) ((quiet.past _).past _) shownRest noOther
      refine ⟨.mk sofar.test values branchSpan :: branches, result, ?_, ?_, sameOther, ?_⟩
      · rw [areBranches, List.append_assoc]
        rfl
      · rw [List.map_cons, sameBranches, Branch.unplaced, unplacedBody_eq_map, same, sameTest,
          List.map_cons, Branch.unplaced, unplacedBody_eq_map]
        rfl
      · rw [Tape.past_append, Tape.past_append]
        refine .again turn ?_ settles
        have passedBody := shownBody.length_following
        have passedTag := shownHere.length_following
        rw [words_blockTag, List.length_cons] at passedTag
        rw [words_blockTag]
        omega

theorem givesNode_choose (keeps : register.allowOverride = false) {branches : List Branch}
    {otherwise : Option (List Node)} (span : Span) (nonempty : branches ≠ [])
    (tests : ∀ branch ∈ branches, branch.test.IsVariable)
    (gives : ∀ branch ∈ branches, GivesBody inner branch.body)
    (givesOtherwise : ∀ body, otherwise = some body → GivesBody inner body) :
    GivesNode register inner (.choose branches otherwise span) := by
  cases branches with
  | nil => contradiction
  | cons first rest =>
      obtain ⟨test, body, firstSpan⟩ := first
      have isWords : nodeWords (.choose (.mk test body firstSpan :: rest) otherwise span) =
          tagOpen :: .name "if" :: (test.written ++
            tagClose :: (bodyWords body ++ branchWords rest otherwise)) := by
        rw [nodeWords, Node.fragments, branchFragments, List.flatMap_append, List.flatMap_append,
          List.flatMap_cons, List.flatMap_append, List.flatMap_singleton, words_blockTag]
        simp only [List.append_assoc, List.cons_append, List.nil_append]
        rfl
      refine givesNode_of_builtin keeps (by decide) isWords fun start tape quiet shown => ?_
      obtain ⟨shownTest, closes, shownBody⟩ := shown.tag
      have isVariable : test.IsVariable := tests _ List.mem_cons_self
      have givesFirst : GivesBody inner body := gives _ List.mem_cons_self
      obtain ⟨given, reads, sameTest⟩ := run_expression (tight_of_isVariable isVariable) shownTest
        fun level => Tape.endsAt_of_isTagEnd level closes
      have noOther : (Choice.mk [] none given start).otherwise = none := rfl
      obtain ⟨values, result, areBranches, same, sameOther, settles⟩ := settles_branches
        (fun other member => tests other (List.mem_cons_of_mem _ member))
        (fun other member => gives other (List.mem_cons_of_mem _ member)) givesOtherwise start
        givesFirst (quiet.past _).advance shownBody noOther
      refine ⟨.choose result.branches result.otherwise ?_, ?same, ?run⟩
      case run =>
        show (some <$> choose inner start).run tape = _
        rw [Tape.past_tag]
        simp only [run_map, choose, run_bind, reads, run_expectBlockEnd_of_present closes,
          run_loop_of_settles settles, run_spanFrom, run_pure]
        rfl
      case same =>
        rw [Node.unplaced, Node.unplaced, unplacedBranches_eq_map, unplacedBranches_eq_map,
          areBranches, List.nil_append, same, sameOther, sameTest, List.map_cons, Branch.unplaced,
          unplacedBody_eq_map]

/-! ### All statements -/

theorem length_nodeWords_le {body : List Node} {node : Node} (member : node ∈ body) :
    (nodeWords node).length ≤ (bodyWords body).length := by
  induction body with
  | nil => cases member
  | cons first rest inductionHypothesis =>
      rw [bodyWords_cons, List.length_append]
      rcases List.mem_cons.mp member with rfl | memberRest
      · exact Nat.le_add_right _ _
      · have bound := inductionHypothesis memberRest
        omega

theorem length_branchWords_lt {branches : List Branch} {branch : Branch}
    (member : branch ∈ branches) (tag : String) :
    (bodyWords branch.body).length <
      ((branchFragments tag branches).flatMap Fragment.words).length := by
  induction branches generalizing tag with
  | nil => cases member
  | cons first rest inductionHypothesis =>
      obtain ⟨test, body, span⟩ := first
      rw [branchFragments, List.flatMap_cons, List.length_append, List.flatMap_append,
        List.length_append, words_blockTag, List.length_cons]
      rcases List.mem_cons.mp member with rfl | memberRest
      · show (bodyWords body).length < _ + ((bodyWords body).length + _)
        omega
      · have bound := inductionHypothesis memberRest "elif"
        omega

theorem length_otherwiseWords_lt (body : List Node) :
    (bodyWords body).length < ((otherwiseFragments (some body)).flatMap Fragment.words).length := by
  rw [otherwiseFragments, List.flatMap_cons, List.length_append, words_blockTag, List.length_cons,
    bodyWords]
  omega

/-- A statement that is given back by every reader of bodies that nests deep enough. -/
def ReadsNode (register : Register) (node : Node) : Prop :=
  ∀ depth, (nodeWords node).length ≤ depth → GivesNode register (nestedBody register depth) node

/-- A body whose statements are given back is given back one nesting deeper. -/
theorem givesBody_nested {body : List Node} (plain : ∀ node ∈ body, node.IsPlain)
    (reads : ∀ node ∈ body, ReadsNode register node) {depth : Nat}
    (enough : (bodyWords body).length < depth) : GivesBody (nestedBody register depth) body := by
  obtain ⟨fewer, rfl⟩ := Nat.exists_eq_add_of_lt enough
  rw [nestedBody]
  refine givesBody_bodyAround (fun node member => laysOut_of_isPlain (plain node member))
    fun node member => ?_
  have bound := length_nodeWords_le member
  exact reads node member _ (by omega)

/-- The body of a statement that has only one is given back. -/
theorem givesBody_closed {node : Node} {tag ending : String} {words : List Word}
    {body : List Node}
    (areFragments :
      node.fragments = blockTag tag words :: (bodyFragments body ++ [blockTag ending []]))
    (plain : ∀ node ∈ body, node.IsPlain) (reads : ∀ node ∈ body, ReadsNode register node)
    {depth : Nat} (enough : (nodeWords node).length ≤ depth) :
    GivesBody (nestedBody register depth) body := by
  rw [nodeWords_of_body areFragments, List.length_cons, List.length_cons, List.length_append,
    List.length_cons, closedWords, List.length_append] at enough
  exact givesBody_nested plain reads (by omega)

/-- Every statement that is printed reads back in the bodies of the language, nested to any
depth. -/
theorem readsNode_of_isPlain (keeps : register.allowOverride = false) {node : Node}
    (plain : node.IsPlain) : ReadsNode register node := by
  induction plain with
  | text span nonempty _ => exact fun _ _ => givesNode_text span nonempty
  | comment span trimmed _ => exact fun _ _ => givesNode_comment span trimmed
  | output span isVariable => exact fun _ _ => givesNode_output span isVariable
  | @choose branches otherwise span nonempty tests _ branchesPlain _ otherwisePlain branchesRead
      otherwiseRead =>
      intro depth enough
      rw [nodeWords, Node.fragments, List.flatMap_append, List.flatMap_append, List.length_append,
        List.length_append] at enough
      refine givesNode_choose keeps span nonempty tests (fun branch member => ?_) ?_
      · have bound := length_branchWords_lt member "if"
        exact givesBody_nested (branchesPlain branch member) (branchesRead branch member) (by omega)
      · rintro body rfl
        have bound := length_otherwiseWords_lt body
        exact givesBody_nested (otherwisePlain body rfl) (otherwiseRead body rfl) (by omega)
  | @each target items condition body otherwise span targetPlain itemsVariable conditionVariable _
      bodyPlain _ otherwisePlain bodyReads otherwiseRead =>
      intro depth enough
      rw [nodeWords, Node.fragments, List.flatMap_cons, List.flatMap_append, List.flatMap_append,
        List.length_append, List.length_append, List.length_append, words_blockTag,
        List.length_cons, ← bodyWords] at enough
      refine givesNode_each keeps span targetPlain itemsVariable conditionVariable
        (givesBody_nested bodyPlain bodyReads (by omega)) ?_
      rintro body rfl
      have bound := length_otherwiseWords_lt body
      exact givesBody_nested (otherwisePlain body rfl) (otherwiseRead body rfl) (by omega)
  | assign span targetPlain isVariable =>
      exact fun _ _ => givesNode_assign keeps span targetPlain isVariable
  | capture span targetPlain filtersPlain _ bodyPlain bodyReads =>
      intro depth enough
      exact givesNode_capture keeps span targetPlain filtersPlain
        (givesBody_closed (Node.fragments.eq_def _) bodyPlain bodyReads enough)
  | block span _ _ bodyPlain bodyReads =>
      intro depth enough
      exact givesNode_block keeps span
        (givesBody_closed (Node.fragments.eq_def _) bodyPlain bodyReads enough)
  | inherit span isVariable => exact fun _ _ => givesNode_inherit keeps span isVariable
  | embed withContext ignoreMissing span isVariable =>
      exact fun _ _ => givesNode_embed keeps withContext ignoreMissing span isVariable
  | importAs withContext span isVariable _ =>
      exact fun _ _ => givesNode_importAs keeps withContext span isVariable
  | importNames withContext span isVariable nonempty namesPlain =>
      exact fun _ _ => givesNode_importNames keeps withContext span isVariable nonempty namesPlain
  | define span _ paramsPlain _ bodyPlain bodyReads =>
      intro depth enough
      exact givesNode_define keeps span paramsPlain
        (givesBody_closed (Node.fragments.eq_def _) bodyPlain bodyReads enough)
  | callBlock span callPlain paramsPlain _ bodyPlain bodyReads =>
      intro depth enough
      exact givesNode_callBlock keeps span callPlain paramsPlain
        (givesBody_closed (Node.fragments.eq_def _) bodyPlain bodyReads enough)
  | withBlock span bindingsPlain _ bodyPlain bodyReads =>
      intro depth enough
      exact givesNode_withBlock keeps span bindingsPlain
        (givesBody_closed (Node.fragments.eq_def _) bodyPlain bodyReads enough)
  | filterBlock span nonempty filtersPlain _ bodyPlain bodyReads =>
      intro depth enough
      exact givesNode_filterBlock keeps span nonempty filtersPlain
        (givesBody_closed (Node.fragments.eq_def _) bodyPlain bodyReads enough)

end Stencil.Grammar
