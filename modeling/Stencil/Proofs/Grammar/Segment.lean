import Stencil.Proofs.Grammar.Bodies
import Stencil.Proofs.Token.Joining

/-!
Contract: templates that read without a report may stand in the midst of other tokens.

Owns:
- runs of turns that end before a loop does;
- tokens that read by themselves without a report, and their statements in the midst of others.

Does not own: which tokens a text has (`Stencil.Proofs.Token.Joining`).
-/

set_option autoImplicit false

namespace Stencil.Grammar

open Stencil.Syntax
open Stencil.Token (Kind Region)
open Read Statement

variable {α : Type}

/-! ### Turns that are not the last -/

/-- A run of turns that go on, each of which shortens the tape. -/
inductive Goes (turn : α → Read (Turn α)) : α → Tape → α → Tape → Prop where
  | refl (value : α) (tape : Tape) : Goes turn value tape value tape
  | step {value next result : α} {tape middle final : Tape}
      (goesOn : (turn value).run tape = (.again next, middle))
      (shorter : middle.following.length < tape.following.length)
      (rest : Goes turn next middle result final) :
      Goes turn value tape result final

namespace Goes

variable {turn : α → Read (Turn α)} {value next result : α} {tape middle final : Tape}

theorem trans (first : Goes turn value tape next middle)
    (second : Goes turn next middle result final) : Goes turn value tape result final := by
  induction first with
  | refl => exact second
  | step goesOn shorter _ inductionHypothesis =>
      exact .step goesOn shorter (inductionHypothesis second)

/-- A loop that settles after some of its turns settles. -/
theorem settles (goes : Goes turn value tape next middle)
    (settles : Settles turn next middle result final) : Settles turn value tape result final := by
  induction goes with
  | refl => exact settles
  | step goesOn shorter _ inductionHypothesis =>
      exact .again goesOn shorter (inductionHypothesis settles)

theorem onward [∀ value, Steady (turn value)] (goes : Goes turn value tape next middle) :
    tape.Onward middle := by
  induction goes with
  | refl => exact .refl _
  | @step value next _ tape middle _ goesOn _ _ inductionHypothesis =>
      have steady : Steady (turn value) := inferInstance
      have first := steady.onward tape
      rw [goesOn] at first
      exact first.trans inductionHypothesis

/-- Where a loop reports nothing, its turns behind some that go on do not either. -/
theorem quiet_turns [∀ value, Steady (turn value)] (goes : Goes turn value tape next middle)
    {most : Nat} (enough : tape.following.length < most)
    (quiet : ((turns turn most value).run tape).2.problems = tape.problems) :
    ∃ fewer, middle.following.length ≤ fewer ∧
      ((turns turn (fewer + 1) next).run middle).2.problems = middle.problems := by
  induction goes generalizing most with
  | refl =>
      obtain ⟨fewer, rfl⟩ := Nat.exists_eq_add_one_of_ne_zero (Nat.ne_zero_of_lt enough)
      exact ⟨fewer, Nat.le_of_lt_succ enough, quiet⟩
  | @step value next _ tape _ _ goesOn shorter _ inductionHypothesis =>
      obtain ⟨fewer, rfl⟩ := Nat.exists_eq_add_one_of_ne_zero (Nat.ne_zero_of_lt enough)
      have quietRest := (quiet_of_turns quiet).2 next (by rw [goesOn])
      rw [goesOn] at quietRest
      exact inductionHypothesis (by omega) quietRest

end Goes

/-! ### Statements outside all bodies -/

variable {lane : Lane} {bound limit : Nat} {tape other : Tape} {reader twin : BodyReader}
  {others : List String} {body twinBody : Body} {before : List Node × List Node}
  [∀ endings, Steady (reader endings)]

/-- As long as nothing is reported, the statements outside all bodies are read alike up to the
margin. -/
theorem goes_abreast (isBlock : lane.delimiter = .block) (final : Final lane.margin.behind)
    (reserves : lane.like.waits = Unreserved) (tracks : lane.Tracks bound reader twin) (awaits : Awaits [] others) {most : Nat}
    (isFewer : limit ≤ bound + 1) (enough : limit ≤ most) (sameBody : SameBody before body twinBody)
    (outermost : tape.enclosing.tail = []) (left : lane.Outside limit tape other)
    (quiet : ((turns (nextNode .empty reader []) most body).run tape).2.problems = tape.problems) :
    ∃ result twinResult here there, Goes (nextNode .empty reader []) body tape result here ∧
      Goes (nextNode .empty twin others) twinBody other twinResult there ∧
      SameBody before result twinResult ∧ lane.Outside limit here there ∧
      here.remaining = lane.margin.behind ∧ there.remaining = lane.margin.otherBehind := by
  induction limit generalizing most body twinBody tape other with
  | zero =>
      obtain ⟨_, isZero⟩ := left.exists_succ
      cases isZero
  | succ limit inductionHypothesis =>
      obtain ⟨shared, exactly, isLess, length, otherLength⟩ := left.exact
      rcases Lane.Outside.step exactly with ⟨atMargin, otherAtMargin⟩ |
        ⟨same, sameEnd, next, isNext, moved⟩
      · exact ⟨body, twinBody, tape, other, .refl _ _, .refl _ _, sameBody, left, atMargin,
          otherAtMargin⟩
      · obtain ⟨most, rfl⟩ := Nat.exists_eq_add_of_le' (Nat.le_trans (Nat.succ_pos limit) enough)
        obtain ⟨quietTurn, quietRest⟩ := quiet_of_turns quiet
        have steady : Steady (nextNode .empty reader [] body) := inferInstance
        have sameWaiting := (steady.onward tape).enclosing
        have turn := (follows_nextNode isBlock final (tracks.mono (by omega)) awaits sameBody
          reserves exactly same sameEnd isNext moved).twin_of_quiet quietTurn
        unfold Twin at turn
        rcases run : (nextNode .empty reader [] body).run tape with ⟨result, here⟩
        rcases twinRun : (nextNode .empty twin others twinBody).run other with ⟨twinResult, there⟩
        rw [run, twinRun] at turn
        rw [run] at quietRest sameWaiting
        match result, twinResult, turn with
        | .again next, .again twinNext, ⟨sameNext, moved⟩ =>
            have quietNext := quietRest next rfl
            have outer : here.enclosing.tail = [] := (congrArg List.tail sameWaiting).trans outermost
            obtain ⟨result, twinResult, final, twinFinal, goes, twinGoes, ends⟩ :=
              inductionHypothesis (Nat.le_of_succ_le isFewer) (Nat.le_of_succ_le_succ enough)
                sameNext outer (moved.mono (by omega)) quietNext
            obtain ⟨shorter, otherShorter⟩ :
                here.following.length + 1 < shared + lane.margin.behind.length ∧
                  there.following.length + 1 < shared + lane.margin.otherBehind.length :=
              moved.length_lt
            exact ⟨result, twinResult, final, twinFinal, .step run (by omega) goes,
              .step twinRun (by omega) twinGoes, ends.1, ends.2.1.mono (Nat.le_succ limit), ends.2.2⟩
        | .done result, _, turn =>
            have isEmpty : here.enclosing.tail = [] :=
              (congrArg List.tail sameWaiting).trans outermost
            cases isFound : result.found with
            | none =>
                simp only [Lane.bodyEnds, isFound] at turn
                exact absurd isEmpty turn
            | some name =>
                simp only [Lane.bodyEnds, isFound] at turn
                exact absurd turn.1 List.not_mem_nil

/-- A whole template, of whose bodies there is enough depth to read, is read alike up to the
margin. -/
theorem goes_of_quiet (isBlock : lane.delimiter = .block) (final : Final lane.margin.behind)
    (reserves : lane.like.waits = Unreserved) (awaits : Awaits [] others) {depth otherDepth : Nat} (enough : bound ≤ depth)
    (otherEnough : bound ≤ otherDepth) (sameBody : SameBody before body twinBody)
    (outermost : tape.enclosing.tail = []) (left : lane.Outside (bound + 1) tape other)
    (quiet : ((loop (nextNode .empty (nestedBody .empty depth) []) body).run tape).2.problems =
      tape.problems) :
    ∃ result twinResult here there,
      Goes (nextNode .empty (nestedBody .empty depth) []) body tape result here ∧
        Goes (nextNode .empty (nestedBody .empty otherDepth) others) twinBody other twinResult
          there ∧
        SameBody before result twinResult ∧ lane.Outside (bound + 1) here there ∧
        here.remaining = lane.margin.behind ∧ there.remaining = lane.margin.otherBehind := by
  obtain ⟨least, left, isLeast, enoughTurns, _⟩ := left.least
  have tracks := tracks_nestedBody isBlock final reserves enough otherEnough
  obtain ⟨result, twinResult, here, there, goes, twinGoes, sameResult, left, ends⟩ :=
    goes_abreast isBlock final reserves tracks awaits isLeast enoughTurns sameBody outermost left
      quiet
  exact ⟨result, twinResult, here, there, goes, twinGoes, sameResult, left.mono isLeast, ends⟩

/-! ### Templates by themselves -/

/-- Tokens are compared by their words, wherever they stand. -/
def sameWords : Likeness where
  token first second := wordOf second = wordOf first
  told _ _ := True
  waits := Unreserved
  word same := same
  mistake _ _ := trivial

/-- Whether tokens with the end of the input behind them read without a report, as which
statements. -/
structure Clean (tokens : List Token) (nodes : List Node) : Prop where
  leads : Region.outside.after? tokens = some .outside
  reads : ∃ (tape : Tape) (last : Token), last.kind = .endOfInput ∧ tape.trims = false ∧
    tape.remaining = tokens ++ [last] ∧ tape.enclosing = [[]] ∧
      let read := (loop (nextNode .empty (nestedBody .empty tokens.length) []) ⟨#[], none⟩).run tape
      read.2.problems = tape.problems ∧ read.1.nodes.toList = nodes

/-- Whether a body goes on from another one with such statements, up to places. -/
structure Statement.Body.Adds (body : Body) (nodes : List Node) (result : Body) : Prop where
  nodes : ∃ added, result.nodes.toList = body.nodes.toList ++ added ∧ SameNodes nodes added
  unfound : result.found = none

theorem sameTrim_of_end {last : Token} (isEnd : last.kind = .endOfInput) {rest : List Token}
    (more : rest ≠ []) (notTrimming : (rest.head more).kind.trimsBefore = false) :
    (rest.head more).kind.trimsBefore =
      ([last].head (List.cons_ne_nil last [])).kind.trimsBefore := by
  rw [notTrimming, List.head_cons, isEnd]
  rfl

/-- The margin between a template by itself and its tokens in the midst of others. -/
def Margin.ofRest (last : Token) {rest : List Token} (more : rest ≠ [])
    (reports otherReports : Array Report.Diagnostic) : Margin where
  behind := [last]
  otherBehind := rest
  reports := reports
  otherReports := otherReports
  more := List.cons_ne_nil _ _
  otherMore := more

/-- A template that reads without a report reads the same in the midst of other tokens, in any body
that waits for no tag of the language: the statements of that body go on with its own. -/
theorem Clean.goes {tokens second rest : List Token} {nodes : List Node}
    (clean : Clean tokens nodes) {tape : Tape}
    (isRemaining : tape.remaining = second ++ rest)
    (same : List.Forall₂ sameWords.token tokens second) (more : rest ≠ [])
    (notTrimming : (rest.head more).kind.trimsBefore = false) (notTrimmed : tape.trims = false)
    (waiting : Unreserved tape.enclosing) {others : List String}
    (unreserved : ∀ name ∈ others, name ∉ builtinTags) {depth : Nat}
    (enough : tokens.length ≤ depth) {body : Body} (unfound : body.found = none) :
    ∃ result final, Goes (nextNode .empty (nestedBody .empty depth) others) body tape result final ∧
      body.Adds nodes result ∧ final.remaining = rest ∧ final.problems = tape.problems ∧
        final.enclosing = tape.enclosing := by
  obtain ⟨own, last, isEnd, ownTrims, ownRemaining, ownEnclosing, quiet, areNodes⟩ := clean.reads
  let margin := Margin.ofRest last more own.problems tape.problems
  let lane : Lane := ⟨sameWords, margin, .block⟩
  have left : lane.Outside (tokens.length + 1) own tape := by
    refine ⟨⟨tokens, second, ownRemaining, isRemaining, same, clean.leads, Nat.lt_succ_self _⟩,
      fun _ => notTrimmed.trans ownTrims.symm,
      fun _ _ _ _ => sameTrim_of_end isEnd more notTrimming,
      ⟨[], [], Array.append_empty.symm, Array.append_empty.symm, .nil⟩, ?_, waiting⟩
    show Unreserved own.enclosing
    rw [ownEnclosing]
    decide
  have final : Final lane.margin.behind := .ending isEnd
  have sameBody : SameBody ([], body.nodes.toList) ⟨#[], none⟩ body :=
    ⟨⟨[], [], rfl, (List.append_nil _).symm, rfl⟩, rfl, unfound⟩
  have outermost : own.enclosing.tail = [] := by
    rw [ownEnclosing]
    rfl
  obtain ⟨ownResult, result, here, there, ownGoes, goes, ⟨⟨added, twins, isResult, areTwins,
    sameNodes⟩, _, twinUnfound⟩, left, atEnd, atRest⟩ :=
    goes_of_quiet rfl final rfl ⟨nofun, unreserved⟩ (Nat.le_refl tokens.length) enough sameBody
      outermost left quiet
  have stops : here.current.kind = .endOfInput := by
    rw [Tape.current_of_remaining atEnd, isEnd]
  have read := run_loop_of_settles (ownGoes.settles (.done (run_nextNode_of_end stops ownResult)))
  rw [read] at quiet areNodes
  refine ⟨result, there, goes, ⟨⟨twins, areTwins, ?_⟩, twinUnfound⟩, atRest, left.quiet quiet,
    goes.onward.enclosing⟩
  rw [← areNodes, isResult]
  exact sameNodes

theorem after?_of_words {tokens others : List Token}
    (same : List.Forall₂ sameWords.token tokens others) (region : Region) :
    region.after? others = region.after? tokens := by
  induction same generalizing region with
  | nil => rfl
  | cons same _ inductionHypothesis =>
      rw [Region.after?_cons, Region.after?_cons, Likeness.kind same]
      cases region.next? _ with
      | none => rfl
      | some next => exact inductionHypothesis next

/-- Tokens of the same words are as clean, wherever they stand. -/
theorem Clean.moved {tokens others : List Token} {nodes : List Node}
    (clean : Clean tokens nodes) (same : List.Forall₂ sameWords.token tokens others) :
    ∃ twins, Clean others twins ∧ SameNodes nodes twins := by
  let otherLast : Token := ⟨.endOfInput, "", default⟩
  have isEnd : otherLast.kind = .endOfInput := rfl
  obtain ⟨first, rest, isTape⟩ := List.exists_cons_of_ne_nil
    (List.append_ne_nil_of_right_ne_nil others (List.cons_ne_nil otherLast []))
  let tape : Tape := ⟨none, first, rest, [[]], #[]⟩
  have isRemaining : tape.remaining = others ++ [otherLast] := isTape.symm
  have waiting : Unreserved tape.enclosing := by
    show Unreserved [[]]
    decide
  have unreserved : ∀ name ∈ ([] : List String), name ∉ builtinTags := nofun
  have notTrimming : ([otherLast].head (List.cons_ne_nil _ _)).kind.trimsBefore = false := by
    rw [List.head_cons, isEnd]
    rfl
  obtain ⟨result, final, goes, ⟨⟨added, isResult, sameNodes⟩, _⟩, atEnd, quiet, _⟩ :
      ∃ result final,
        Goes (nextNode .empty (nestedBody .empty others.length) []) ⟨#[], none⟩ tape result final ∧
          Body.Adds ⟨#[], none⟩ nodes result ∧ final.remaining = [otherLast] ∧
            final.problems = tape.problems ∧ final.enclosing = tape.enclosing :=
    clean.goes isRemaining same _ notTrimming rfl waiting unreserved (Nat.le_of_eq same.length_eq)
      rfl
  have stops : final.current.kind = .endOfInput := by
    rw [Tape.current_of_remaining atEnd, isEnd]
  have read := run_loop_of_settles (goes.settles (.done (run_nextNode_of_end stops result)))
  refine ⟨added, ⟨?_, tape, otherLast, isEnd, rfl, isTape.symm, rfl, ?_⟩, sameNodes⟩
  · rw [after?_of_words same, clean.leads]
  · rw [read]
    exact ⟨quiet, isResult⟩

theorem final_of_texts {texts : List Token} {last : Token}
    (areTexts : ∀ token ∈ texts, token.kind = .text) (isEnd : last.kind = .endOfInput) :
    Final (texts ++ [last]) := by
  induction texts with
  | nil => exact .ending isEnd
  | cons token texts inductionHypothesis =>
      exact .text (areTexts token List.mem_cons_self)
        (inductionHypothesis fun other member => areTexts other (List.mem_cons_of_mem _ member))

/-- A template that reads without a report does not end with a verbatim body that is never closed. -/
theorem Clean.not_unclosed {tokens texts : List Token} {opening name closing : Token}
    {trim : Bool} {nodes : List Node}
    (clean : Clean (tokens ++ opening :: name :: closing :: texts) nodes)
    (leads : Region.outside.after? tokens = some .outside)
    (opens : opening.kind = .blockStart trim) (isRaw : wordOf name = .name "raw")
    (closes : closing.kind.isTagEnd = true) (areTexts : ∀ token ∈ texts, token.kind = .text) :
    False := by
  obtain ⟨own, last, isEnd, _, ownRemaining, ownEnclosing, quiet, _⟩ := clean.reads
  have final := final_of_texts areTexts isEnd
  let margin : Margin :=
    ⟨opening :: name :: closing :: texts ++ [last], opening :: name :: closing :: texts ++ [last],
      own.problems, own.problems, nofun, nofun⟩
  let lane : Lane := ⟨sameWords, margin, .block⟩
  have isRemaining : own.remaining = tokens ++ margin.behind := by
    rw [ownRemaining, List.append_assoc]
  have waiting : Unreserved own.enclosing := by
    rw [ownEnclosing]
    decide
  have left : lane.Outside (tokens.length + 1) own own :=
    ⟨⟨tokens, tokens, isRemaining, isRemaining, List.forall₂_same.mpr fun _ _ => rfl, leads,
      Nat.lt_succ_self _⟩, fun _ => rfl, fun _ _ _ _ => rfl,
      ⟨[], [], Array.append_empty.symm, Array.append_empty.symm, .nil⟩, waiting, waiting⟩
  have outermost : own.enclosing.tail = [] := by
    rw [ownEnclosing]
    rfl
  have isFinal : Final margin.behind := .verbatim opens isRaw closes final
  have deep : tokens.length ≤ (tokens ++ opening :: name :: closing :: texts).length := by
    rw [List.length_append]
    exact Nat.le_add_right _ _
  have empty : SameBody ([], []) ⟨#[], none⟩ ⟨#[], none⟩ := ⟨⟨[], [], rfl, rfl, rfl⟩, rfl, rfl⟩
  have awaits : Awaits [] [] := ⟨fun _ isOwn => isOwn, nofun⟩
  obtain ⟨result, _, here, _, goes, _, _, _, atTag, _⟩ :=
    goes_of_quiet rfl isFinal rfl awaits deep deep empty outermost left quiet
  -- The loop goes on to the tag, which is reported.
  obtain ⟨fewer, _, quiet⟩ := goes.quiet_turns (Nat.lt_succ_self _) quiet
  have isStart : here.current.kind = .blockStart trim := by
    rw [Tape.current_of_remaining atTag, opens]
  have atRaw : wordOf here.advance.current = .name "raw" := by
    rw [Tape.remaining_advance atTag]
    exact isRaw
  have outside : here.enclosing.tail = [] := by
    rw [goes.onward.enclosing]
    exact outermost
  have quietTurn := (quiet_of_turns quiet).1
  rw [run_nextNode_at_tag isStart atRaw, if_neg (by decide), outside, if_neg (by decide)]
    at quietTurn
  exact (reports_unclosedVerbatim atTag isRaw closes final).bind quietTurn

/-! ### Texts -/

/-- The statements that tokens form are those that the loop outside all bodies reads from them. -/
theorem parseTokens_of_kept {tokens init : List Token} {last : Token}
    (isKept : kept tokens = init ++ [last]) (isEnd : last.kind = .endOfInput) :
    ∃ tape : Tape, tape.trims = false ∧ tape.remaining = init ++ [last] ∧
      tape.enclosing = [[]] ∧ tape.problems = #[] ∧
        let read := (loop (nextNode .empty (nestedBody .empty init.length) []) ⟨#[], none⟩).run tape
        (parseTokens .empty tokens).template.body = read.1.nodes.toList ∧
          (parseTokens .empty tokens).problems = read.2.problems.toList := by
  obtain ⟨first, rest, areReadable, isTape⟩ := ofTokens_of_kept isKept isEnd
  have length : rest.length = init.length := by
    have lengths := congrArg List.length areReadable
    simpa using lengths.symm
  refine ⟨⟨none, first, rest, [[]], #[]⟩, rfl, areReadable.symm, rfl, rfl, ?_⟩
  rw [parseTokens, isTape, run_template, run_body, run_bodyAround]
  simp only [length, and_self]

/-- A text that forms a template without a report, by its tokens. -/
theorem clean_of_parse {name source : String}
    (quiet : (parse .empty name source).problems = []) :
    (Token.scan source).problems = [] ∧ ∃ tokens last, (Token.scan source).tokens = tokens ++ [last] ∧
      Clean (kept tokens) (parse .empty name source).template.body := by
  obtain ⟨tokens, last, areTokens, led, isEnd⟩ := Token.scanFrom_regions (.ofText source)
  have isKept : kept (Token.scan source).tokens = kept tokens ++ [last] := by
    rw [Token.scan, areTokens, kept_append, kept_of_end isEnd]
  obtain ⟨quietScan, quietRead⟩ := List.append_eq_nil_iff.mp quiet
  obtain ⟨tape, notTrimmed, isRemaining, outermost, noReports, areNodes, areProblems⟩ :=
    parseTokens_of_kept isKept isEnd
  refine ⟨quietScan, tokens, last, areTokens, after?_kept led, tape, last, isEnd, notTrimmed,
    isRemaining, outermost, ?_, areNodes.symm⟩
  rw [noReports]
  exact Array.toList_eq_nil_iff.mp (areProblems.symm.trans quietRead)

theorem sameWords_of_map {tokens others : List Token}
    (sameMap : others.map wordOf = tokens.map wordOf) :
    List.Forall₂ sameWords.token tokens others := by
  induction tokens generalizing others with
  | nil =>
      rw [List.map_eq_nil_iff.mp sameMap]
      exact .nil
  | cons token tokens inductionHypothesis =>
      obtain ⟨other, others, rfl, same, sameMap⟩ := List.map_eq_cons_iff.mp sameMap
      exact .cons same (inductionHypothesis sameMap)

theorem sameWords_kept {tokens others : List Token}
    (same : List.Forall₂ sameWords.token tokens others) :
    List.Forall₂ sameWords.token (kept tokens) (kept others) := by
  induction same with
  | nil => exact .nil
  | @cons token other tokens others same _ inductionHypothesis =>
      have sameKind : other.kind = token.kind := Likeness.kind same
      unfold kept at *
      rw [List.filter_cons, List.filter_cons, sameKind]
      split
      · exact .cons same inductionHypothesis
      · exact inductionHypothesis

/-- A text that forms a template without a report has its own tokens wherever it stands, and they
are as clean there. Behind it may stand nothing, or a tag or a comment unless it ends with a brace. -/
theorem scanFrom_source {name source : String} (quiet : (parse .empty name source).problems = [])
    {cursor : Token.Cursor} {behind : List Char} (isRest : cursor.rest = source.toList ++ behind)
    (resumes : behind = [] ∨
      source.toList.getLast? ≠ some '{' ∧ Token.opensConstruct behind = true) :
    ∃ tokens nodes, Clean (kept tokens) nodes ∧
      SameNodes (parse .empty name source).template.body nodes ∧
        Token.scanFrom cursor = ⟨tokens, []⟩ ++
          Token.scanFrom ⟨cursor.position.advanceAll source.toList, behind⟩ := by
  obtain ⟨quietScan, own, ownLast, areOwn, clean⟩ := clean_of_parse quiet
  let here : Token.Cursor := ⟨cursor.position, source.toList⟩
  have moved : (Token.scan source).Moved (Token.scanFrom here) :=
    Token.moved_scanFrom rfl quietScan
  obtain ⟨tokens, areTokens⟩ := Token.scanFrom_stop here
  have sameMap : tokens.map wordOf = own.map wordOf := by
    have words := moved.words
    rw [areOwn, areTokens, List.map_append, List.map_append] at words
    exact (List.append_inj' words rfl).1
  let last := Token.Cursor.mark ⟨here.position.advanceAll here.rest, []⟩ .endOfInput
  obtain ⟨twins, cleanHere, sameNodes⟩ := clean.moved (sameWords_kept (sameWords_of_map sameMap))
  refine ⟨tokens, twins, cleanHere, sameNodes, ?_⟩
  rcases resumes with rfl | ⟨notBrace, opens⟩
  · have isHere : cursor = here := by
      rw [List.append_nil] at isRest
      exact congrArg (Token.Cursor.mk cursor.position) isRest
    have isEnd : Token.scanFrom ⟨cursor.position.advanceAll source.toList, []⟩ =
        ⟨[last], []⟩ := by
      rw [Token.scanFrom, dif_pos rfl]
      rfl
    have isScan : Token.scanFrom here = ⟨tokens ++ [last], []⟩ := by
      rw [← areTokens, ← moved.quiet]
    rw [isEnd, isHere, isScan]
    rfl
  · obtain ⟨first, stop, areFirst, joins⟩ :=
      Token.scanFrom_followedBy (.inr opens) notBrace moved.quiet
    have isCursor : cursor = here.followedBy behind :=
      congrArg (Token.Cursor.mk cursor.position) isRest
    have isFirst : first = tokens := (List.append_inj' (areFirst.symm.trans areTokens) rfl).1
    rw [isFirst] at joins
    rcases joins with joins | ⟨before, opening, word, closing, texts, trim, isKept, leads, isStart,
      isRaw, closes, areTexts⟩
    · rw [isCursor]
      exact joins
    · rw [isKept] at cleanHere
      exact (cleanHere.not_unclosed leads isStart isRaw closes areTexts).elim

end Stencil.Grammar
