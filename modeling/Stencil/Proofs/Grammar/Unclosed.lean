import Stencil.Proofs.Grammar.Edges
import Stencil.Proofs.Grammar.Paired

/-!
Contract: tags that are never closed do not swallow the statement around them.

Owns:
- texts of tags that nothing closes, one inside the other, and what is reported for each of them;
- the tokens of such a text, and the statements that a body of it forms;
- a statement whose body is such a text is closed by its own tag, and what follows is read as it is.

Does not own: templates between two tags (`Stencil.Proofs.Grammar.Edges`), what a tag says
(`Stencil.Proofs.Grammar.Paired`).
-/

set_option autoImplicit false

-- The readers of tags are long chains of actions, each of which counts.
set_option synthInstance.maxSize 1024

namespace Stencil.Grammar

open Stencil.Report (Diagnostic)
open Stencil.Syntax
open Stencil.Text (Position Span)
open Stencil.Token (Kind TagTokens IsTag Cursor Filled marksFront marksBack openerSpan)
open Read Statement

/-! ### Texts with unclosed tags -/

/-- The plain tag that closes a statement. -/
def BlockKind.closer (kind : BlockKind) : String := "\x7b% " ++ kind.ending ++ " %\x7d"

theorem BlockKind.isTag_closer (kind : BlockKind) : IsTag kind.ending kind.closer := by
  cases kind <;> exact ⟨by decide +kernel, by decide +kernel, by decide +kernel, by decide +kernel⟩

/-- Whether a text is a tag that opens a body, and reads without a report once it is closed. -/
structure BlockKind.Opens (kind : BlockKind) (source : String) : Prop where
  tag : IsTag kind.keyword source
  quiet : (parse .empty "" (source ++ kind.closer)).problems = []

theorem BlockKind.Opens.paired {kind : BlockKind} {source : String} (opens : kind.Opens source) :
    Paired kind source kind.closer :=
  ⟨opens.tag, kind.isTag_closer, opens.quiet⟩

/-- Whether a text is a template that reads without a report, and may stand in front of a tag. -/
structure ReadsAlone (name source : String) : Prop where
  quiet : (parse .empty name source).problems = []
  notBrace : source.toList.getLast? ≠ some '{'

/-- A tag that nothing closes, and the text up to the next tag. -/
structure Opened where
  kind : BlockKind
  source : String
  behind : String

/-- Whether a tag opens a body that another statement's closing tag does not close, and the text
behind it reads by itself. -/
structure Opened.Unclosed (name : String) (outer : BlockKind) (tag : Opened) : Prop where
  opens : tag.kind.Opens tag.source
  differs : tag.kind ≠ outer
  reads : ReadsAlone name tag.behind

instance (kind : BlockKind) (source : String) : Decidable (kind.Opens source) :=
  decidable_of_iff (IsTag kind.keyword source ∧
      (parse .empty "" (source ++ kind.closer)).problems = [])
    ⟨fun ⟨tag, quiet⟩ => ⟨tag, quiet⟩, fun opens => ⟨opens.tag, opens.quiet⟩⟩

instance (name source : String) : Decidable (ReadsAlone name source) :=
  decidable_of_iff ((parse .empty name source).problems = [] ∧ source.toList.getLast? ≠ some '{')
    ⟨fun ⟨quiet, notBrace⟩ => ⟨quiet, notBrace⟩, fun reads => ⟨reads.quiet, reads.notBrace⟩⟩

instance (name : String) (outer : BlockKind) (tag : Opened) : Decidable (tag.Unclosed name outer) :=
  decidable_of_iff (tag.kind.Opens tag.source ∧ tag.kind ≠ outer ∧ ReadsAlone name tag.behind)
    ⟨fun ⟨opens, differs, reads⟩ => ⟨opens, differs, reads⟩,
      fun unclosed => ⟨unclosed.opens, unclosed.differs, unclosed.reads⟩⟩

/-- The text of tags that nothing closes. -/
def nestedText : List Opened → String
  | [] => ""
  | tag :: rest => tag.source ++ (tag.behind ++ nestedText rest)

/-- The statement that an opening tag and its closing tag form, with another body. -/
def statementOf (source closing : String) (body : List Node) : List Node :=
  (parse .empty "" (source ++ closing)).template.body.map (Node.withBody body)

/-- The statements of a text with unclosed tags behind it: each tag has all that follows for its
body. The tags in front of the text and behind it may take blanks off its ends, and each tag may
take them off its neighbours. -/
def nestedNodes (name : String) (front back : Bool) (text : String) : List Opened → List Node
  | [] => between front back (parse .empty name text).template.body
  | tag :: rest =>
      between front (marksFront tag.source) (parse .empty name text).template.body ++
        statementOf tag.source tag.kind.closer
          (nestedNodes name (marksBack tag.source) back tag.behind rest)

/-- What is reported for a tag that stands behind a text and is never closed. -/
def missingAt (before : String) (tag : Opened) : Diagnostic :=
  (Mistake.missingEnd tag.kind.keyword tag.kind.ending).toDiagnostic
    (openerSpan (Position.start.advanceAll before.toList) tag.source)

/-- What is reported for tags that are never closed, the innermost one first. -/
def nestedReports (before : String) : List Opened → List Diagnostic
  | [] => []
  | tag :: rest => nestedReports (before ++ tag.source ++ tag.behind) rest ++ [missingAt before tag]

theorem length_nestedReports (before : String) (tags : List Opened) :
    (nestedReports before tags).length = tags.length := by
  induction tags generalizing before with
  | nil => rfl
  | cons tag rest inductionHypothesis =>
      rw [nestedReports, List.length_append, inductionHypothesis]
      rfl

/-! ### Their tokens -/

/-- Whether tokens are those of a text with unclosed tags behind it, which stands behind another
text. -/
inductive Spread (name : String) : String → String → List Opened → List Token → Prop where
  | last {before text : String} {tokens : List Token} {nodes : List Node}
      (clean : Clean tokens nodes) (filled : Filled tokens)
      (same : SameNodes (parse .empty name text).template.body nodes) :
      Spread name before text [] tokens
  | opens {before text : String} {tag : Opened} {rest : List Opened} {tokens inner : List Token}
      {nodes : List Node} {own : TagTokens} (clean : Clean tokens nodes) (filled : Filled tokens)
      (same : SameNodes (parse .empty name text).template.body nodes)
      (isTag : own.Of tag.kind.keyword tag.source)
      (stands : own.opening.span =
        openerSpan (Position.start.advanceAll (before ++ text).toList) tag.source)
      (spread : Spread name (before ++ text ++ tag.source) tag.behind rest inner) :
      Spread name before text (tag :: rest) (tokens ++ (own.all ++ inner))

theorem opensConstruct_of_isTag {name source : String} (isTag : IsTag name source)
    (behind : List Char) : Token.opensConstruct (source.toList ++ behind) = true := by
  obtain ⟨others, isSource⟩ := List.isPrefixOf_iff_prefix.mp isTag.opens
  rw [← isSource, List.append_assoc]
  exact opensConstruct_opener .block _

theorem filled_of_scan {cursor : Cursor} {tokens : List Token} {rest : Token.Scan}
    (isScan : Token.scanFrom cursor = ⟨tokens, []⟩ ++ rest) : Filled (kept tokens) := by
  intro token member
  apply Token.filled_scanFrom cursor token
  rw [isScan, Token.Scan.tokens_append]
  exact List.mem_append_left _ (List.mem_filter.mp member).1

/-- The place behind a text, with another text still to be read. -/
def placeBehind (before : String) (rest : List Char) : Cursor :=
  ⟨Position.start.advanceAll before.toList, rest⟩

theorem placeBehind_append (before text : String) (rest : List Char) :
    (⟨(placeBehind before (text.toList ++ rest)).position.advanceAll text.toList, rest⟩ : Cursor) =
      placeBehind (before ++ text) rest := by
  rw [placeBehind, placeBehind, String.toList_append, Position.advanceAll_append]

/-- A template in front of a tag has its own tokens. -/
theorem scan_text {name text : String} (reads : ReadsAlone name text) (before : String)
    {behind : List Char} (opens : Token.opensConstruct behind = true) :
    ∃ tokens nodes, Clean (kept tokens) nodes ∧ Filled (kept tokens) ∧
      SameNodes (parse .empty name text).template.body nodes ∧
        Token.scanFrom (placeBehind before (text.toList ++ behind)) =
          ⟨tokens, []⟩ ++ Token.scanFrom (placeBehind (before ++ text) behind) := by
  obtain ⟨tokens, nodes, clean, same, isScan⟩ :=
    scanFrom_source reads.quiet (show (placeBehind before (text.toList ++ behind)).rest = _ from rfl)
      (.inr ⟨reads.notBrace, opens⟩)
  refine ⟨tokens, nodes, clean, filled_of_scan isScan, same, ?_⟩
  rw [isScan, placeBehind_append]

/-- A tag has its own tokens, whatever stands behind it. -/
theorem scan_tag {name source : String} (isTag : IsTag name source) (notRaw : name ≠ "raw")
    (before : String) (behind : List Char) :
    ∃ (own : TagTokens) (tokens : List Token), kept tokens = own.all ∧ own.Of name source ∧
      own.opening.span = openerSpan (Position.start.advanceAll before.toList) source ∧
        Token.scanFrom (placeBehind before (source.toList ++ behind)) =
          ⟨tokens, []⟩ ++ Token.scanFrom (placeBehind (before ++ source) behind) := by
  obtain ⟨own, tokens, areTokens, isOf, stands, isScan⟩ := isTag.scanFrom_eq notRaw
    (show (placeBehind before (source.toList ++ behind)).rest = _ from rfl)
  refine ⟨own, tokens, areTokens, isOf, stands, ?_⟩
  rw [isScan, placeBehind_append]

/-- The tokens of a text with unclosed tags behind it are its own, and those of the tags. -/
theorem scan_nested {name before text : String} {tags : List Opened} {outer : BlockKind}
    (reads : ReadsAlone name text) (unclosed : ∀ tag ∈ tags, tag.Unclosed name outer)
    {behind : List Char} (opens : Token.opensConstruct behind = true) :
    ∃ tokens, Spread name before text tags (kept tokens) ∧
      Token.scanFrom (placeBehind before (text.toList ++ ((nestedText tags).toList ++ behind))) =
        ⟨tokens, []⟩ ++ Token.scanFrom (placeBehind (before ++ text ++ nestedText tags) behind) := by
  induction tags generalizing before text with
  | nil =>
      obtain ⟨tokens, nodes, clean, filled, same, isScan⟩ := scan_text reads before opens
      refine ⟨tokens, .last clean filled same, ?_⟩
      rw [nestedText, String.append_empty]
      exact isScan
  | cons tag rest inductionHypothesis =>
      obtain ⟨opensTag, _, readsBehind⟩ := unclosed tag List.mem_cons_self
      have isText : (nestedText (tag :: rest)).toList ++ behind =
          tag.source.toList ++ (tag.behind.toList ++ ((nestedText rest).toList ++ behind)) := by
        simp only [nestedText, String.toList_append, List.append_assoc]
      obtain ⟨tokens, nodes, clean, filled, same, isScan⟩ := scan_text reads before
        (opensConstruct_of_isTag opensTag.tag
          (tag.behind.toList ++ ((nestedText rest).toList ++ behind)))
      obtain ⟨own, tagTokens, areOwn, isTag, stands, isScanTag⟩ :=
        scan_tag opensTag.tag tag.kind.keyword_ne_raw (before ++ text)
          (tag.behind.toList ++ ((nestedText rest).toList ++ behind))
      obtain ⟨inner, spread, isScanInner⟩ :=
        inductionHypothesis readsBehind fun other member =>
          unclosed other (List.mem_cons_of_mem _ member)
      refine ⟨tokens ++ (tagTokens ++ inner), ?_, ?_⟩
      · rw [kept_append, kept_append, areOwn]
        exact .opens clean filled same isTag stands spread
      · have joined : (⟨tokens ++ (tagTokens ++ inner), []⟩ : Token.Scan) =
            ⟨tokens, []⟩ ++ (⟨tagTokens, []⟩ ++ ⟨inner, []⟩) := rfl
        rw [isText, isScan, isScanTag, isScanInner, nestedText, joined, Token.Scan.append_assoc,
          Token.Scan.append_assoc]
        simp only [String.append_assoc]

/-! ### Their statements -/

theorem sameNodes_statementOf {source closing : String} {node : Node} {nodes twins : List Node}
    (stated : SameNodes (parse .empty "" (source ++ closing)).template.body [node.withBody []])
    (same : SameNodes nodes twins) :
    SameNodes (statementOf source closing nodes) [node.withBody twins] := by
  obtain ⟨own, isOwn, sameOwn⟩ : ∃ own, (parse .empty "" (source ++ closing)).template.body = [own] ∧
      SameNode own (node.withBody []) := by
    obtain ⟨own, isOwn, sameOwn⟩ := List.map_eq_singleton_iff.mp stated.symm
    exact ⟨own, isOwn, sameOwn.symm⟩
  rw [statementOf, isOwn, List.map_singleton, ← Node.withBody_withBody twins [] node]
  exact congrArg (fun node => [node]) (sameOwn.withBody same)

theorem unreserved_endings (kind : BlockKind) : ∀ name ∈ kind.endings, name ∉ builtinTags :=
  fun _ => BlockKind.not_builtin_of_mem_endings

section Bodies

variable {name before text : String} {tags : List Opened} {tokens behind : List Token}
  {kind outer : BlockKind} {closing : String} {ending : TagTokens} {tape : Tape} {depth : Nat}

/-- Whether the closing tag of a statement ends a body of a kind: it is the body's own tag, or a body
around it waits for the tag. -/
def Ends (outer kind : BlockKind) (enclosing : List (List String)) : Prop :=
  kind = outer ∨ enclosing.any (·.contains outer.ending) = true

theorem Ends.any_endings {enclosing : List (List String)} (ends : Ends outer kind enclosing) :
    (kind.endings :: enclosing).any (·.contains outer.ending) = true := by
  rw [List.any_cons, Bool.or_eq_true]
  refine ends.imp (fun isOuter => ?_) id
  rw [isOuter]
  exact List.contains_iff_mem.mpr outer.ending_mem_endings

/-- Which closing tag a body finds at the closing tag of a statement. -/
def foundAt (outer kind : BlockKind) : Option String :=
  if kind = outer then some outer.ending else none

/-- At the closing tag of a statement the bodies in it end. Only its own body has found its tag. -/
theorem run_nextNode_at_ending {reader : BodyReader} {body : Body}
    (isEnding : ending.Of outer.ending closing) (isRemaining : tape.remaining = ending.all ++ behind) {enclosing : List (List String)}
    (isEnclosing : tape.enclosing = kind.endings :: enclosing) (ends : Ends outer kind enclosing)
    (unfound : body.found = none) :
    (nextNode .empty reader kind.endings body).run tape =
      (.done { body with found := foundAt outer kind }, tape) := by
  obtain ⟨trim, opens⟩ := isEnding.opens
  have isStart : tape.current.kind = .blockStart trim := by
    rw [Tape.current_of_remaining isRemaining, opens]
  have isWord : wordOf tape.advance.current = .name outer.ending := by
    rw [Tape.current_of_remaining (remaining_advance_of_tag isRemaining), isEnding.named]
  rw [run_nextNode_at_tag isStart isWord, isEnclosing, List.tail_cons, foundAt]
  by_cases isOuter : kind = outer
  · rw [if_pos isOuter, isOuter, if_pos (List.contains_iff_mem.mpr outer.ending_mem_endings)]
  · have notOwn : ¬kind.endings.contains outer.ending = true := fun isOwn =>
      BlockKind.ending_notMem_endings isOuter (List.contains_iff_mem.mp isOwn)
    have awaited := ends.resolve_left isOuter
    rw [if_neg isOuter, if_neg notOwn, if_pos awaited, ← unfound]

theorem run_nestedBody_of_settles {endings : List String} {result : Body} {final : Tape}
    (settles : Settles (nextNode .empty (nestedBody .empty depth) endings) ⟨#[], none⟩
      { tape with enclosing := endings :: tape.enclosing } result final) :
    (nestedBody .empty (depth + 1) endings).run tape =
      ((result.nodes.toList, result.found), { final with enclosing := tape.enclosing }) := by
  rw [nestedBody, run_bodyAround, run_loop_of_settles settles]

/-- A template in front of a tag is read up to the tag, which may take blanks off its end. -/
theorem goes_to_tag {tagName source : String} {own : TagTokens} {nodes : List Node}
    {endings : List String} {body : Body} (clean : Clean tokens nodes) (filled : Filled tokens)
    (same : SameNodes (parse .empty name text).template.body nodes) (isTag : own.Of tagName source)
    (isRemaining : tape.remaining = tokens ++ (own.all ++ behind))
    (waiting : Unreserved tape.enclosing) (unreserved : ∀ name ∈ endings, name ∉ builtinTags)
    (enough : tokens.length ≤ depth) (unfound : body.found = none) :
    ∃ result final, Goes (nextNode .empty (nestedBody .empty depth) endings) body tape result final ∧
      body.Adds (between tape.trims (marksFront source) (parse .empty name text).template.body)
        result ∧
      final.remaining = own.all ++ behind ∧ final.problems = tape.problems ∧
        final.enclosing = tape.enclosing := by
  have more : own.all ++ behind ≠ [] := List.cons_ne_nil _ _
  have trimsBefore : ((own.all ++ behind).head more).kind.trimsBefore = marksFront source :=
    isTag.marksFront_eq
  obtain ⟨result, final, goes, ⟨⟨added, isResult, sameAdded⟩, resultUnfound⟩, rest⟩ :=
    clean.goes_between filled isRemaining (List.forall₂_same.mpr fun _ _ => rfl) more waiting
      unreserved enough unfound
  rw [trimsBefore] at sameAdded
  exact ⟨result, final, goes, ⟨⟨added, isResult, Eq.trans sameAdded (same.between _ _)⟩,
    resultUnfound⟩, rest⟩

/-- Whether a body reads as such statements up to such tokens, with such reports on the way. -/
def ReadsBody (kind : BlockKind) (depth : Nat) (found : Option String) (nodes : List Node)
    (reports : List Diagnostic) (rest : List Token) (here : Tape) : Prop :=
  ∃ twins there, (nestedBody .empty depth kind.endings).run here = ((twins, found), there) ∧
    SameNodes nodes twins ∧ there.remaining = rest ∧ there.enclosing = here.enclosing ∧
      there.problems.toList = here.problems.toList ++ reports

instance (found : Option String) (start : Span) : Steady (kind.finish found start) := by
  unfold BlockKind.finish
  infer_instance

/-- A tag with its body is one turn, whatever its body comes to. -/
theorem goes_opened {source : String} {own : TagTokens} {inner rest : List Token}
    {endings : List String} (body : Body) {nodes : List Node} {found : Option String}
    {reports : List Diagnostic} (paired : Paired kind source closing)
    (isTag : own.Of kind.keyword source) (isRemaining : tape.remaining = own.all ++ (inner ++ rest)) (more : rest ≠ [])
    (waiting : Unreserved tape.enclosing) (unreserved : ∀ name ∈ endings, name ∉ builtinTags)
    (reads : ∀ here : Tape, here.remaining = inner ++ rest → here.trims = marksBack source →
      here.enclosing = tape.enclosing → ReadsBody kind depth found nodes reports rest here)
    (ends : ∀ name ∈ found, name = kind.ending) :
    ∃ statement there, Goes (nextNode .empty (nestedBody .empty depth) endings) body tape
        (body.add (some statement)) ((kind.finish found own.opening.span).run there).2 ∧
      SameNodes (statementOf source closing nodes) [statement] ∧ there.remaining = rest ∧
        there.enclosing = tape.enclosing ∧
          there.problems.toList = tape.problems.toList ++ reports := by
  obtain ⟨node, stated, anywhere⟩ := paired.reads
  obtain ⟨twin, here, isHead, sameHead, hasLeft, sameEnclosing, quiet⟩ :=
    anywhere.head isTag isRemaining (List.append_ne_nil_of_right_ne_nil _ more) waiting
  have trims : here.trims = marksBack source := by
    rw [Tape.trims, hasLeft.previous, Option.any_some, isTag.marksBack_eq]
  obtain ⟨twins, there, isRead, sameNodes, atRest, sameThere, reported⟩ :=
    reads here hasLeft.remaining trims sameEnclosing
  obtain ⟨trim, opens⟩ := isTag.opens
  have isOpening : tape.current = own.opening := Tape.current_of_remaining isRemaining
  have isStart : tape.current.kind = .blockStart trim := by rw [isOpening, opens]
  have isWord : wordOf tape.advance.current = .name kind.keyword := by
    rw [Tape.current_of_remaining (remaining_advance_of_tag isRemaining), isTag.named]
  obtain ⟨statement, isRun, sameStatement⟩ : ∃ statement,
      (builtin (nestedBody .empty depth) kind.keyword own.opening.span).run tape.advance.advance =
        (some statement, _) ∧ _ := run_builtin_of_head isHead isRead ends
  have turn : (nextNode .empty (nestedBody .empty depth) endings body).run tape = _ :=
    run_nextNode_of_keyword isStart isWord unreserved waiting
  rw [isOpening, isRun] at turn
  have steady : Steady (kind.finish found own.opening.span) := inferInstance
  have shorter : ((kind.finish found own.opening.span).run there).2.following.length <
      tape.following.length := by
    have finished := (steady.onward there).length_le
    have lengths := congrArg List.length isRemaining
    have restLengths := congrArg List.length atRest
    simp only [Tape.remaining, TagTokens.all, List.length_cons, List.length_append]
      at lengths restLengths
    omega
  refine ⟨statement, there, .step turn shorter (.refl _ _), ?_, atRest,
    sameThere.trans sameEnclosing, ?_⟩
  · have sameTwin : SameNode (node.withBody twins) statement :=
      Eq.trans sameStatement (sameHead.withBody rfl)
    exact Eq.trans (congrArg (fun node => [node]) sameTwin) (sameNodes_statementOf stated sameNodes)
  · rw [reported, quiet]

/-- A body with unclosed tags in it is read up to the closing tag of the statement around it. Each
of the tags is reported, behind those in its body. -/
theorem Spread.reads (spread : Spread name before text tags tokens)
    (unclosed : ∀ tag ∈ tags, tag.Unclosed name outer) (isEnding : ending.Of outer.ending closing)
    (isRemaining : tape.remaining = tokens ++ (ending.all ++ behind))
    (waiting : Unreserved tape.enclosing) (ends : Ends outer kind tape.enclosing)
    (enough : tokens.length ≤ depth) :
    ReadsBody kind (depth + 1) (foundAt outer kind)
      (nestedNodes name tape.trims (marksFront closing) text tags)
      (nestedReports (before ++ text) tags) (ending.all ++ behind) tape := by
  have waitingInside {tape : Tape} {kind : BlockKind} (waiting : Unreserved tape.enclosing) :
      Unreserved (kind.endings :: tape.enclosing) :=
    Unreserved.cons (by simpa [Unreserved] using unreserved_endings kind) waiting
  induction spread generalizing tape kind depth with
  | @last before text tokens nodes clean filled same =>
      let inside : Tape := { tape with enclosing := kind.endings :: tape.enclosing }
      have isInside : inside.remaining = tokens ++ (ending.all ++ behind) := isRemaining
      obtain ⟨result, final, goes, ⟨⟨added, isResult, sameAdded⟩, unfound⟩, atEnding, quiet,
          sameEnclosing⟩ :=
        goes_to_tag clean filled same isEnding isInside (waitingInside waiting)
          (unreserved_endings kind) enough (show (⟨#[], none⟩ : Body).found = none from rfl)
      have last : (nextNode .empty (nestedBody .empty depth) kind.endings result).run final = _ :=
        run_nextNode_at_ending isEnding atEnding sameEnclosing ends unfound
      refine ⟨_, _, run_nestedBody_of_settles (goes.settles (.done last)), ?_, atEnding, rfl, ?_⟩
      · rw [isResult]
        exact sameAdded
      · rw [nestedReports, List.append_nil, quiet]
  | @opens before text tag rest tokens inner nodes own clean filled same isTag stands spread
      inductionHypothesis =>
      obtain ⟨opensTag, differs, _⟩ := unclosed tag List.mem_cons_self
      let inside : Tape := { tape with enclosing := kind.endings :: tape.enclosing }
      have isInside : inside.remaining = tokens ++ (own.all ++ (inner ++ (ending.all ++ behind))) := by
        rw [show inside.remaining = tape.remaining from rfl, isRemaining, List.append_assoc,
          List.append_assoc]
      simp only [TagTokens.all, List.length_cons, List.length_append] at enough
      obtain ⟨fewer, rfl⟩ : ∃ fewer, depth = fewer + 1 :=
        Nat.exists_eq_add_one_of_ne_zero (by omega)
      obtain ⟨first, atTag, goes, ⟨⟨added, isFirst, sameAdded⟩, unfound⟩, isAtTag, quiet,
          sameEnclosing⟩ :=
        goes_to_tag clean filled same isTag isInside (waitingInside waiting)
          (unreserved_endings kind) (show tokens.length ≤ fewer + 1 by omega)
          (show (⟨#[], none⟩ : Body).found = none from rfl)
      have waitingTag : Unreserved atTag.enclosing := by
        rw [sameEnclosing]
        exact waitingInside waiting
      -- The body of the tag ends where the statement around it is closed, without its own tag.
      have readsInner (here : Tape) (atInner : here.remaining = inner ++ (ending.all ++ behind))
          (trims : here.trims = marksBack tag.source)
          (isEnclosing : here.enclosing = atTag.enclosing) :
          ReadsBody tag.kind (fewer + 1) none
            (nestedNodes name (marksBack tag.source) (marksFront closing) tag.behind rest)
            (nestedReports (before ++ text ++ tag.source ++ tag.behind) rest) (ending.all ++ behind)
            here := by
        have endsInner : Ends outer tag.kind here.enclosing := by
          rw [isEnclosing, sameEnclosing]
          exact .inr ends.any_endings
        have read := inductionHypothesis
          (fun other member => unclosed other (List.mem_cons_of_mem _ member)) atInner
          (isEnclosing ▸ waitingTag) endsInner (show inner.length ≤ fewer by omega)
        rwa [foundAt, if_neg differs, trims] at read
      obtain ⟨statement, there, turn, sameStatement, atEnding, sameThere, reported⟩ :=
        goes_opened first opensTag.paired isTag isAtTag (List.cons_ne_nil _ _) waitingTag
          (unreserved_endings kind) readsInner (fun _ isFound => by cases isFound)
      let missing :=
        (Mistake.missingEnd tag.kind.keyword tag.kind.ending).toDiagnostic own.opening.span
      have isMissing : missing = missingAt (before ++ text) tag := by
        rw [missingAt, ← stands]
      have sameFinal : (there.report missing).enclosing = kind.endings :: tape.enclosing :=
        sameThere.trans sameEnclosing
      have last : (nextNode .empty (nestedBody .empty (fewer + 1)) kind.endings
          (first.add (some statement))).run (there.report missing) = _ :=
        run_nextNode_at_ending isEnding atEnding sameFinal ends unfound
      refine ⟨_, _, run_nestedBody_of_settles ((goes.trans turn).settles (.done last)), ?_, atEnding,
        rfl, ?_⟩
      · have areNodes : (first.add (some statement)).nodes.toList = added ++ [statement] := by
          rw [Body.toList_add, isFirst]
          rfl
        rw [areNodes]
        exact sameAdded.append sameStatement
      · have areReports : (there.report missing).problems.toList =
            there.problems.toList ++ [missing] := Array.toList_push
        rw [areReports, reported, quiet, isMissing, nestedReports, List.append_assoc]

end Bodies

/-! ### The statement around them -/

section Around

variable {name opening closing text after : String} {kind : BlockKind} {tags : List Opened}
  (paired : Paired kind opening closing) (reads : ReadsAlone name text)
  (unclosed : ∀ tag ∈ tags, tag.Unclosed name kind)
  (quiet : (parse .empty name after).problems = [])
include paired reads unclosed quiet

/-- The tokens of the statement are its opening tag, those of its body, its closing tag, and those of
the template behind it. -/
theorem scan_around_nested :
    ∃ (own ending : TagTokens) (inner tokens : List Token) (nodes : List Node) (last : Token),
      own.Of kind.keyword opening ∧ ending.Of kind.ending closing ∧
        Spread name opening text tags inner ∧ Clean tokens nodes ∧ Filled tokens ∧
          SameNodes (parse .empty name after).template.body nodes ∧ last.kind = .endOfInput ∧
            kept (Token.scan (opening ++ text ++ nestedText tags ++ closing ++ after)).tokens =
              (own.all ++ (inner ++ (ending.all ++ tokens))) ++ [last] ∧
            (Token.scan (opening ++ text ++ nestedText tags ++ closing ++ after)).problems = [] := by
  let whole := opening ++ text ++ nestedText tags ++ closing ++ after
  let behind := closing.toList ++ (after.toList ++ [])
  have isWhole : Cursor.ofText whole =
      placeBehind "" (opening.toList ++ (text.toList ++ ((nestedText tags).toList ++ behind))) := by
    simp [Cursor.ofText, placeBehind, whole, behind]
  obtain ⟨own, ownTokens, areOwn, isTag, _, isScanTag⟩ := scan_tag paired.tag kind.keyword_ne_raw ""
    (text.toList ++ ((nestedText tags).toList ++ behind))
  obtain ⟨inner, spread, isScanInner⟩ :
      ∃ inner, Spread name ("" ++ opening) text tags (kept inner) ∧ _ :=
    scan_nested reads unclosed (opensConstruct_of_isTag paired.ends (after.toList ++ []))
  obtain ⟨ending, endTokens, areEnd, isEnding, _, isScanEnd⟩ := scan_tag paired.ends kind.ending_ne_raw
    ("" ++ opening ++ text ++ nestedText tags) (after.toList ++ [])
  let place := placeBehind ("" ++ opening ++ text ++ nestedText tags ++ closing) (after.toList ++ [])
  obtain ⟨tokens, nodes, clean, same, isScanAfter⟩ :=
    scanFrom_source quiet (show place.rest = after.toList ++ [] from rfl) (.inl rfl)
  let stop : Cursor := ⟨place.position.advanceAll after.toList, []⟩
  have isStop : Token.scanFrom stop = ⟨[stop.mark .endOfInput], []⟩ := by
    rw [Token.scanFrom, dif_pos rfl]
    rfl
  have isScan : Token.scan whole =
      ⟨ownTokens ++ (inner ++ (endTokens ++ (tokens ++ [stop.mark .endOfInput]))), []⟩ := by
    rw [Token.scan, isWhole, isScanTag, isScanInner, isScanEnd, isScanAfter, isStop]
    rfl
  refine ⟨own, ending, kept inner, kept tokens, nodes, stop.mark .endOfInput, isTag, isEnding, ?_,
    clean, filled_of_scan isScanAfter, same, rfl, ?_, ?_⟩
  · rwa [String.empty_append] at spread
  · rw [isScan, kept_append, kept_append, kept_append, kept_append, areOwn, areEnd, kept_of_end rfl]
    simp only [List.append_assoc]
  · rw [isScan]

omit reads quiet in
/-- The loop outside all bodies reads the statement in one turn, and the template behind it. -/
theorem run_loop_around_nested {own ending : TagTokens} {inner tokens : List Token}
    {nodes : List Node} {last : Token} {tape : Tape} {depth : Nat}
    (isTag : own.Of kind.keyword opening) (isEnding : ending.Of kind.ending closing)
    (spread : Spread name opening text tags inner) (clean : Clean tokens nodes)
    (filled : Filled tokens) (isEnd : last.kind = .endOfInput)
    (isRemaining : tape.remaining = own.all ++ (inner ++ (ending.all ++ tokens)) ++ [last])
    (outermost : tape.enclosing = [[]])
    (enough : (own.all ++ (inner ++ (ending.all ++ tokens))).length ≤ depth) :
    ∃ result final,
      (loop (nextNode .empty (nestedBody .empty depth) []) ⟨#[], none⟩).run tape = (result, final) ∧
        SameNodes
          (statementOf opening closing
              (nestedNodes name (marksBack opening) (marksFront closing) text tags) ++
            between (marksBack closing) false nodes)
          result.nodes.toList ∧
        final.problems.toList = tape.problems.toList ++ nestedReports (opening ++ text) tags := by
  simp only [TagTokens.all, List.length_cons, List.length_append] at enough
  obtain ⟨fewer, rfl⟩ : ∃ fewer, depth = fewer + 1 := Nat.exists_eq_add_one_of_ne_zero (by omega)
  have waiting : Unreserved tape.enclosing := by
    rw [outermost]
    decide
  have unreserved : ∀ name ∈ ([] : List String), name ∉ builtinTags :=
    List.forall_mem_nil _
  have isRest : tape.remaining = own.all ++ (inner ++ (ending.all ++ (tokens ++ [last]))) := by
    rw [isRemaining]
    simp only [List.append_assoc]
  have readsInner (here : Tape)
      (atInner : here.remaining = inner ++ (ending.all ++ (tokens ++ [last])))
      (trims : here.trims = marksBack opening) (isEnclosing : here.enclosing = tape.enclosing) :
      ReadsBody kind (fewer + 1) (some kind.ending)
        (nestedNodes name (marksBack opening) (marksFront closing) text tags)
        (nestedReports (opening ++ text) tags) (ending.all ++ (tokens ++ [last])) here := by
    have read : ReadsBody kind (fewer + 1) (foundAt kind kind) _ _ _ here :=
      spread.reads unclosed isEnding atInner (isEnclosing ▸ waiting) (.inl rfl) (by omega)
    rwa [foundAt, if_pos rfl, trims] at read
  obtain ⟨statement, there, turn, sameStatement, atEnding, sameThere, reported⟩ :=
    goes_opened ⟨#[], none⟩ paired isTag isRest (List.cons_ne_nil _ _) waiting unreserved readsInner
      fun _ isFound => (Option.mem_some.mp isFound).symm
  -- The closing tag is passed over, and takes blanks off the template behind it.
  have waitingThere : Unreserved there.enclosing := by
    rw [sameThere]
    exact waiting
  obtain ⟨_, _, anywhere⟩ := paired.reads
  obtain ⟨hasLeft, sameFinal, quietFinish⟩ :=
    anywhere.finish isEnding atEnding (by simp) waitingThere
  have trims : (finishTag.run there).2.trims = marksBack closing := by
    rw [Tape.trims, hasLeft.previous, Option.any_some, isEnding.marksBack_eq]
  obtain ⟨result, final, goes, ⟨⟨added, isResult, sameAdded⟩, _⟩, atEnd, quietAfter, _⟩ :=
    clean.goes_between filled hasLeft.remaining (List.forall₂_same.mpr fun _ _ => rfl)
      (List.cons_ne_nil last []) (sameFinal ▸ waitingThere) unreserved
      (show tokens.length ≤ fewer + 1 by omega)
      (show (Body.add ⟨#[], none⟩ (some statement)).found = none from rfl)
  rw [trims, List.head_cons, isEnd] at sameAdded
  have stops : final.current.kind = .endOfInput := by
    rw [Tape.current_of_remaining atEnd, isEnd]
  have settles := (turn.trans goes).settles (.done (run_nextNode_of_end stops result))
  refine ⟨result, final, run_loop_of_settles settles, ?_, ?_⟩
  · rw [isResult]
    exact sameStatement.append sameAdded
  · rw [quietAfter, quietFinish, reported]

end Around

/-- Tags that are never closed swallow nothing: the statement around them is closed by its own tag,
and what follows it is read as it is by itself. Each of the tags is reported once, the innermost one
first, at its own opening delimiter. -/
theorem unclosed_swallow_nothing {name opening closing text after : String} {kind : BlockKind}
    {tags : List Opened} (paired : Paired kind opening closing) (reads : ReadsAlone name text)
    (unclosed : ∀ tag ∈ tags, tag.Unclosed name kind)
    (quiet : (parse .empty name after).problems = []) :
    let whole := parse .empty name (opening ++ text ++ nestedText tags ++ closing ++ after)
    SameNodes
        (statementOf opening closing
            (nestedNodes name (marksBack opening) (marksFront closing) text tags) ++
          between (marksBack closing) false (parse .empty name after).template.body)
        whole.template.body ∧
      whole.problems = nestedReports (opening ++ text) tags := by
  obtain ⟨own, ending, inner, tokens, nodes, last, isTag, isEnding, spread, clean, filled, same, isEnd,
    isKept, quietScan⟩ := scan_around_nested paired reads unclosed quiet
  obtain ⟨tape, _, isRemaining, outermost, noReports, areNodes, areProblems⟩ :=
    parseTokens_of_kept isKept isEnd
  obtain ⟨result, final, run, sameResult, reported⟩ := run_loop_around_nested paired unclosed isTag
    isEnding spread clean filled isEnd isRemaining outermost (Nat.le_refl _)
  rw [run] at areNodes areProblems
  intro whole
  have isBody : whole.template.body = result.nodes.toList := areNodes
  have areReports : whole.problems = final.problems.toList := by
    rw [← areProblems, ← List.nil_append (parseTokens _ _).problems, ← quietScan]
    rfl
  refine ⟨?_, ?_⟩
  · rw [isBody]
    exact Eq.trans sameResult (SameNodes.append rfl (same.between _ _))
  · rw [areReports, reported, noReports]
    rfl

/-- A loop and a block of bindings, neither of which is closed, in a condition that takes blanks off
its body. -/
theorem unclosed_swallow_nothing_condition :
    let opening := "\x7b% if a -%\x7d"
    let closing := "\x7b% endif %\x7d"
    let tags : List Opened := [⟨.each, "\x7b% for x in y %\x7d", "c "⟩,
      ⟨.withBlock, "\x7b%- with z = 1 %\x7d", "\x7b\x7b z \x7d\x7d"⟩]
    let whole := parse .empty "page" (opening ++ " b" ++ nestedText tags ++ closing ++ " d")
    Paired .choose opening closing ∧ ReadsAlone "page" " b" ∧
      (∀ tag ∈ tags, tag.Unclosed "page" .choose) ∧ (parse .empty "page" " d").problems = [] ∧
      SameNodes
        (statementOf opening closing
            (nestedNodes "page" (marksBack opening) (marksFront closing) " b" tags) ++
          between (marksBack closing) false (parse .empty "page" " d").template.body)
        whole.template.body ∧
      whole.problems = nestedReports (opening ++ " b") tags := by
  intro opening closing tags whole
  have paired : Paired .choose opening closing := by decide +kernel
  have reads : ReadsAlone "page" " b" := by decide +kernel
  have unclosed : ∀ tag ∈ tags, tag.Unclosed "page" .choose := by decide +kernel
  have quiet : (parse .empty "page" " d").problems = [] := by decide +kernel
  exact ⟨paired, reads, unclosed, quiet, unclosed_swallow_nothing paired reads unclosed quiet⟩

/-- The text that the body of a condition begins with. -/
def bodyText? : List Node → Option String
  | .choose (.mk _ (.text content _ :: _) _ :: _) _ _ :: _ => some content
  | _ => none

/-- A tag that takes blanks off its body leaves less of the text there than stands in it. -/
theorem marked_tag_trims_body :
    let opening := "\x7b% if a -%\x7d"
    let closing := "\x7b% endif %\x7d"
    let tag : Opened := ⟨.each, "\x7b% for x in y %\x7d", ""⟩
    Paired .choose opening closing ∧ ReadsAlone "page" " b" ∧ tag.Unclosed "page" .choose ∧
      (parse .empty "page" "").problems = [] ∧
      ¬SameNodes
        (statementOf opening closing
            ((parse .empty "page" " b").template.body ++
              statementOf tag.source tag.kind.closer (parse .empty "page" tag.behind).template.body) ++
          (parse .empty "page" "").template.body)
        (parse .empty "page" (opening ++ " b" ++ nestedText [tag] ++ closing ++ "")).template.body := by
  refine ⟨by decide +kernel, by decide +kernel, by decide +kernel, by decide +kernel, fun same => ?_⟩
  exact absurd (congrArg bodyText? same) (by decide +kernel)

end Stencil.Grammar
