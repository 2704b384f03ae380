import Stencil.Proofs.Grammar.Alongside
import Stencil.Proofs.Grammar.Bodies

/-!
Contract: a tag without a body costs at most its own statement, whatever words it holds.

Owns:
- the place of a tag in the midst of other tokens, and the actions that stay inside it;
- the tags without bodies, and what each of them adds to a template;
- such a tag is read up to its own end, and nothing but itself is reported.

Does not own: where tags stand in a text (`Stencil.Proofs.Grammar.Recovery`).
-/

set_option autoImplicit false

namespace Stencil.Grammar

open Stencil.Report (Diagnostic)
open Stencil.Syntax
open Stencil.Text (Span)
open Stencil.Token (Kind Delimiter Region)
open Read Statement

variable {α β : Type}

/-! ### Inside one tag -/

/-- Whether a span lies between two offsets. -/
def LiesIn (start stop : Nat) (span : Span) : Prop :=
  start ≤ span.start.offset ∧ span.stop.offset ≤ stop

theorem LiesIn.cover {start stop : Nat} {span other : Span} (lies : LiesIn start stop span)
    (otherLies : LiesIn start stop other) : LiesIn start stop (span.cover other) := by
  unfold LiesIn Span.cover at *
  dsimp only
  constructor <;> split <;> omega

/-- The place of a tag: the offsets it lies between, its end, the tokens behind it, and what was
reported and which bodies were open before it. -/
structure Site where
  delimiter : Delimiter
  start : Nat
  stop : Nat
  closing : Token
  behind : List Token
  reports : Array Diagnostic
  enclosing : List (List String)
  isClosing : closing.kind = delimiter.endKind false
  closingLies : LiesIn start stop closing.span
  more : behind ≠ []
  waiting : Unreserved enclosing

namespace Site

variable (site : Site)

/-- Whether what was reported since the tag began lies in it. -/
def ReportsWithin (tape : Tape) : Prop :=
  ∃ told : List Diagnostic, tape.problems = site.reports ++ told.toArray ∧
    ∀ diagnostic ∈ told, LiesIn site.start site.stop diagnostic.span

/-- Whether the head of a tape stands inside the tag. -/
structure Holds (tape : Tape) : Prop where
  remaining : ∃ inners, tape.remaining = inners ++ site.closing :: site.behind ∧
    ∀ token ∈ inners, token.kind.isInner = true ∧ LiesIn site.start site.stop token.span
  enclosing : tape.enclosing = site.enclosing
  reported : site.ReportsWithin tape

/-- Whether the head of a tape has just left the tag. -/
structure Left (tape : Tape) : Prop where
  remaining : tape.remaining = site.behind
  previous : tape.previous = some site.closing
  enclosing : tape.enclosing = site.enclosing
  reported : site.ReportsWithin tape

variable {site : Site} {tape : Tape}

theorem ReportsWithin.report (within : site.ReportsWithin tape) {diagnostic : Diagnostic}
    (lies : LiesIn site.start site.stop diagnostic.span) :
    site.ReportsWithin (tape.report diagnostic) := by
  obtain ⟨told, isTold, each⟩ := within
  refine ⟨told ++ [diagnostic], ?_, fun other member => ?_⟩
  · simp [Tape.report, isTold]
  · rcases List.mem_append.mp member with isTold | isNew
    · exact each other isTold
    · rw [List.mem_singleton.mp isNew]
      exact lies

/-- The tokens of the tag are compared with themselves. -/
def like (site : Site) : Likeness where
  token first second := second = first ∧ LiesIn site.start site.stop first.span
  told first _ := LiesIn site.start site.stop first.span
  waits := Unreserved
  word same := congrArg wordOf same.1
  mistake same _ := same.2

def lane (site : Site) : Lane :=
  ⟨site.like, ⟨site.behind, site.behind, site.reports, site.reports, site.more, site.more⟩,
    site.delimiter⟩

theorem isTagEnd_closing : site.closing.kind.isTagEnd = true := by
  rw [site.isClosing]
  cases site.delimiter <;> rfl

/-- A tape inside the tag stands beside itself. -/
theorem Holds.beside (holds : site.Holds tape) : ∃ bound, site.lane.Beside bound tape tape := by
  obtain ⟨inners, isRemaining, each⟩ := holds.remaining
  obtain ⟨told, isTold, eachLies⟩ := holds.reported
  have waiting : Unreserved tape.enclosing := holds.enclosing ▸ site.waiting
  have isShared : tape.remaining = (inners ++ [site.closing]) ++ site.behind := by
    rw [isRemaining, List.append_assoc]
    rfl
  have leads : (Region.inside site.delimiter).after? (inners ++ [site.closing]) =
      some .outside := by
    rw [Region.after?_append _ (Region.after?_of_isInner _ fun token member => (each token member).1)]
    simp [site.isClosing]
  have same : List.Forall₂ site.like.token (inners ++ [site.closing])
      (inners ++ [site.closing]) := by
    refine List.forall₂_same.mpr fun token member => ⟨rfl, ?_⟩
    rcases List.mem_append.mp member with isInner | isClosing
    · exact (each token isInner).2
    · rw [List.mem_singleton.mp isClosing]
      exact site.closingLies
  exact ⟨(inners ++ [site.closing]).length + 1,
    ⟨_, _, isShared, isShared, same, leads, Nat.lt_succ_self _⟩, fun _ => rfl,
    fun _ _ _ _ => rfl, ⟨told, told, isTold, isTold, List.forall₂_same.mpr eachLies⟩, waiting, waiting⟩

/-- Actions that pass over nothing but tokens from the inside of tags do not leave the tag. -/
theorem Holds.inside {final : Tape} (holds : site.Holds tape) (inside : tape.Inside final) :
    ∃ inners, final.remaining = inners ++ site.closing :: site.behind ∧
      ∀ token ∈ inners, token.kind.isInner = true ∧ LiesIn site.start site.stop token.span := by
  obtain ⟨inners, isRemaining, each⟩ := holds.remaining
  obtain ⟨fewer, isSuffix, isFinal⟩ := inside.remaining_of_end isRemaining site.isTagEnd_closing
  exact ⟨fewer, isFinal, fun token member => each token (isSuffix.subset member)⟩

end Site

/-- Whether an action that begins inside a tag stays there and reports nothing outside it, whatever
the tag holds. -/
def Local (action : Read α) : Prop :=
  ∀ (site : Site) (tape : Tape), site.Holds tape → site.Holds (action.run tape).2

/-- Actions that pass over nothing but tokens from the inside of tags, and that are read alike on
two tapes, are local: each tape stands beside itself. -/
theorem local_of_likewise {rel : α → α → Prop} {action : Read α} (confined : Confined action)
    (likewise : ∀ (lane : Lane) (bound : Nat), lane.Likewise bound rel action action) :
    Local action := by
  intro site tape holds
  obtain ⟨bound, beside⟩ := holds.beside
  have inside := confined tape
  obtain ⟨told, _, isTold, _, each⟩ := ((likewise site.lane bound).on beside).2.reported
  have eachLies := ((List.forall₂_and_left _ _).mp (each.imp fun _ _ lies => ⟨lies, trivial⟩)).1
  exact ⟨holds.inside inside, inside.enclosing.trans holds.enclosing, told, isTold, eachLies⟩

theorem local_expression : Local expression :=
  local_of_likewise confined_expression fun _ _ => likewise_expression

theorem local_expectWord (word : String) : Local (expectWord word) :=
  local_of_likewise (confined_expectWord word) fun _ _ => likewise_expectWord word

theorem local_expectName (what : String) : Local (expectName what) :=
  local_of_likewise (confined_expectName what) fun _ _ => likewise_expectName what

theorem local_expected (what : String) : Local (expected what) :=
  local_of_likewise (confined_expected what) fun _ _ => likewise_expected what

theorem local_contextClause? : Local contextClause? :=
  local_of_likewise confined_contextClause? fun _ _ => likewise_contextClause?

theorem local_clauses (clauses : Clauses) : Local (loop clauseTurn clauses) :=
  local_of_likewise (confined_loop confined_clauseTurn clauses) fun _ _ =>
    likewise_loop turnsLikewise_clause rfl

theorem local_imports (names : List ImportName) : Local (loop importTurn names) :=
  local_of_likewise (confined_loop confined_importTurn names) fun _ _ =>
    likewise_loop turnsLikewise_import rfl

/-! ### Ends of tags -/

variable {site : Site} {tape : Tape} {start : Span}

theorem seek_resumes_of_inner (previous : Option Token) {current closing : Token}
    {inners following behind : List Token}
    (isSplit : current :: following = inners ++ closing :: behind)
    (inner : ∀ token ∈ inners, token.kind.isInner = true) (closes : closing.kind.isTagEnd = true)
    (more : behind ≠ []) :
    ∃ before, Tape.seek resumes previous current following = (before, closing, behind) := by
  induction inners generalizing previous current following with
  | nil =>
      obtain ⟨rfl, rfl⟩ := List.cons.inj isSplit
      obtain ⟨next, rest, rfl⟩ := List.exists_cons_of_ne_nil more
      have stops : resumes current.kind = true := by
        revert closes
        cases current.kind <;> simp [resumes, Kind.isTagEnd]
      refine ⟨previous, ?_⟩
      rw [Tape.seek, if_pos stops]
  | cons token inners inductionHypothesis =>
      obtain ⟨rfl, isFollowing⟩ := List.cons.inj isSplit
      obtain ⟨next, rest, isRest⟩ := List.exists_cons_of_ne_nil
        (List.append_ne_nil_of_right_ne_nil inners (List.cons_ne_nil closing behind))
      have passesOn : ¬ resumes current.kind = true := by
        have isInner := inner current List.mem_cons_self
        revert isInner
        cases current.kind <;> simp [resumes, Kind.isInner]
      have isFollowing : following = next :: rest := isFollowing.trans isRest
      rw [isFollowing, Tape.seek, if_neg passesOn]
      exact inductionHypothesis (some current) isRest.symm
        fun other member => inner other (List.mem_cons_of_mem _ member)

namespace Site

/-- The end of the tag leads out of it. -/
theorem left_advance (isRemaining : tape.remaining = site.closing :: site.behind)
    (enclosing : tape.enclosing = site.enclosing) (reported : site.ReportsWithin tape) :
    site.Left tape.advance := by
  obtain ⟨next, rest, isRest⟩ := List.exists_cons_of_ne_nil site.more
  rw [isRest] at isRemaining
  rw [Tape.remaining_advance isRemaining]
  exact ⟨isRest.symm, rfl, enclosing, reported⟩

theorem left_skipTag (holds : site.Holds tape) : site.Left (skipTag.run tape).2 := by
  obtain ⟨inners, isRemaining, each⟩ := holds.remaining
  obtain ⟨before, sought⟩ := seek_resumes_of_inner tape.previous isRemaining
    (fun token member => (each token member).1) site.isTagEnd_closing site.more
  have isPlace : tape.skipTo resumes =
      ⟨before, site.closing, site.behind, tape.enclosing, tape.problems⟩ := by
    rw [Tape.skipTo, sought]
  have isRun : (skipTag.run tape).2 = (tape.skipTo resumes).advance := by
    have closes : (tape.skipTo resumes).current.kind.isTagEnd = true := by
      rw [isPlace]
      exact site.isTagEnd_closing
    simp only [skipTag, run_bind, run_modify, run_atTagEnd, closes, if_true]
    rfl
  rw [isRun]
  refine left_advance ?_ ?_ ?_
  · rw [isPlace]
    rfl
  · rw [isPlace]
    exact holds.enclosing
  · rw [isPlace]
    exact holds.reported

/-- Whatever is left of the tag, its end is passed over. -/
theorem left_expectTagEnd (what : Kind) (holds : site.Holds tape) :
    site.Left ((expectTagEnd what).run tape).2 := by
  rw [expectTagEnd, run_bind, run_atTagEnd, run_ite]
  split
  · rename_i ends
    obtain ⟨inners, isRemaining, each⟩ := holds.remaining
    cases inners with
    | nil => exact left_advance isRemaining holds.enclosing holds.reported
    | cons token inners =>
        have notEnd := isTagEnd_of_isInner (each token List.mem_cons_self).1
        rw [Tape.current_of_remaining isRemaining, notEnd] at ends
        cases ends
  · exact left_skipTag (local_expected _ site tape holds)

end Site

/-- Whether an action that begins inside a tag leads out of it, and reports nothing outside it. -/
def Leaves (action : Read α) : Prop :=
  ∀ (site : Site) (tape : Tape), site.Holds tape → site.Left (action.run tape).2

theorem Local.leaves {first : Read α} {next : α → Read β} (here : Local first)
    (rest : ∀ value, Leaves (next value)) : Leaves (first >>= next) :=
  fun site tape holds => rest _ site _ (here site tape holds)

theorem leaves_ite {condition : Prop} {_ : Decidable condition} {yes no : Read α}
    (left : Leaves yes) (right : Leaves no) : Leaves (if condition then yes else no) := by
  split
  · exact left
  · exact right

/-- Whether what an action gives has a property, whatever tape it starts from. -/
def Yields (property : α → Prop) (action : Read α) : Prop :=
  ∀ tape : Tape, property (action.run tape).1

theorem yields_pure {property : α → Prop} {value : α} (holds : property value) :
    Yields property (pure value) := fun _ => holds

theorem Yields.behind {property : β → Prop} {first : Read α} {next : α → Read β}
    (rest : ∀ value, Yields property (next value)) : Yields property (first >>= next) :=
  fun _ => rest _ _

theorem yields_ite {property : α → Prop} {condition : Prop} {_ : Decidable condition}
    {yes no : Read α} (left : Yields property yes) (right : Yields property no) :
    Yields property (if condition then yes else no) := by
  split
  · exact left
  · exact right

/-! ### Statements -/

/-- The end of the tag, and then the statement's place. -/
theorem leaves_spanned (what : Kind) (build : Span → α) :
    Leaves (do
      expectTagEnd what
      return build (← spanFrom start)) :=
  fun _ _ holds => Site.left_expectTagEnd what holds

theorem left_output (holds : site.Holds tape.advance) : site.Left (output.run tape).2 := by
  rw [output, run_bind, run_advance]
  exact (local_expression.leaves fun _ => leaves_spanned _ _) site tape.advance holds

theorem leaves_inherit : Leaves (inherit start) :=
  local_expression.leaves fun _ => leaves_spanned _ _

theorem leaves_embed : Leaves (embed start) :=
  local_expression.leaves fun _ => (local_clauses _).leaves fun _ => leaves_spanned _ _

theorem leaves_importAs : Leaves (importAs start) :=
  local_expression.leaves fun _ => (local_expectWord _).leaves fun _ =>
    (local_expectName _).leaves fun _ => local_contextClause?.leaves fun _ => leaves_spanned _ _

theorem leaves_importNames : Leaves (importNames start) := by
  refine local_expression.leaves fun _ => (local_expectWord _).leaves fun _ =>
    (local_imports _).leaves fun _ => leaves_ite ((local_expected _).leaves fun _ => ?_) ?_
  · exact local_contextClause?.leaves fun _ => leaves_spanned _ _
  · exact local_contextClause?.leaves fun _ => leaves_spanned _ _

/-! ### Tags without bodies -/

/-- The tags that no body belongs to: an output, a template in place, imports, the template this one
is built on, and tags of no known name. -/
inductive Lone where
  | output
  | embed
  | importAs
  | importNames
  | inherit
  | unknown (name : String)
deriving DecidableEq, Repr

namespace Lone

def delimiter : Lone → Delimiter
  | .output => .output
  | _ => .block

/-- The name that the tag begins with, if it holds a statement. -/
def keyword? : Lone → Option String
  | .output => none
  | .embed => some "include"
  | .importAs => some "import"
  | .importNames => some "from"
  | .inherit => some "extends"
  | .unknown name => some name

/-- Whether a tag of no known name has a name that could not close a body either. -/
def Proper : Lone → Prop
  | .unknown name => isName name = true ∧ name ∉ builtinTags ∧
      "end".toList.isPrefixOf name.toList = false ∧ name ≠ "elif" ∧ name ≠ "else"
  | _ => True

instance (tag : Lone) : Decidable tag.Proper := by
  cases tag <;> unfold Proper <;> infer_instance

/-- Whether a statement is of the kind that the tag stands for. -/
def Makes : Lone → Node → Prop
  | .output, node => ∃ value span, node = .output value span
  | .embed, node => ∃ template withContext ignoreMissing span,
      node = .embed template withContext ignoreMissing span
  | .importAs, node => ∃ template boundAs withContext span,
      node = .importAs template boundAs withContext span
  | .importNames, node => ∃ template names withContext span,
      node = .importNames template names withContext span
  | .inherit, node => ∃ template span, node = .inherit template span
  | .unknown _, _ => False

/-- What the tag adds to a template: one statement of its kind, or nothing if it has no known
name. -/
def Adds (tag : Lone) (nodes : List Node) : Prop :=
  match tag with
  | .unknown _ => nodes = []
  | tag => ∃ node, nodes = [node] ∧ tag.Makes node

end Lone

theorem makes_inherit : Yields Lone.inherit.Makes (inherit start) :=
  .behind fun _ => .behind fun _ => .behind fun _ => yields_pure ⟨_, _, rfl⟩

theorem makes_embed : Yields Lone.embed.Makes (embed start) :=
  .behind fun _ => .behind fun _ => .behind fun _ => .behind fun _ =>
    yields_pure ⟨_, _, _, _, rfl⟩

theorem makes_importAs : Yields Lone.importAs.Makes (importAs start) :=
  .behind fun _ => .behind fun _ => .behind fun _ => .behind fun _ => .behind fun _ =>
    .behind fun _ => yields_pure ⟨_, _, _, _, rfl⟩

theorem makes_importNames : Yields Lone.importNames.Makes (importNames start) := by
  refine .behind fun _ => .behind fun _ => .behind fun _ => yields_ite (.behind fun _ => ?_) ?_
  · exact .behind fun _ => .behind fun _ => .behind fun _ => yields_pure ⟨_, _, _, _, rfl⟩
  · exact .behind fun _ => .behind fun _ => .behind fun _ => yields_pure ⟨_, _, _, _, rfl⟩

variable {reader : BodyReader}

theorem run_statement_of_name {word : String} (isWord : wordOf tape.advance.current = .name word) :
    (statement .empty reader).run tape =
      (builtin reader word tape.current.span).run tape.advance.advance := by
  have isName : tape.advance.current.kind = .name := congrArg Word.kind isWord
  have isLexeme : tape.advance.current.lexeme = word := congrArg Word.lexeme isWord
  rw [statement_empty]
  simp only [run_bind, run_advance, run_atKind, isName, isLexeme, beq_self_eq_true, if_true]

theorem builtin_of_unknown {name : String} (unknown : name ∉ builtinTags)
    (notEnd : "end".toList.isPrefixOf name.toList = false) (notBranch : name ≠ "elif")
    (notElse : name ≠ "else") :
    builtin reader name start = do
      mistake (.unknownTag name) (← spanFrom start)
      skipTag
      return none := by
  have notClosing : ("end".toList.isPrefixOf name.toList || name == "elif" || name == "else") =
      false := by
    rw [notEnd, beq_false_of_ne notBranch, beq_false_of_ne notElse]
    rfl
  unfold builtin
  split
  all_goals first
    | exact absurd (by decide) unknown
    | rw [notClosing]; rfl

theorem Site.Holds.advance (holds : site.Holds tape) (inner : tape.current.kind.isInner = true) :
    site.Holds tape.advance := by
  have inside : tape.Inside tape.advance := Tape.passes_advance inner
  obtain ⟨told, isTold, each⟩ := holds.reported
  exact ⟨holds.inside inside, inside.enclosing.trans holds.enclosing, told,
    (Tape.problems_advance tape).trans isTold, each⟩

/-- What was passed over last inside the tag lies in it. -/
theorem Site.Holds.previous_lies (holds : site.Holds tape) (inner : tape.current.kind.isInner = true) :
    LiesIn site.start site.stop tape.advance.previousSpan := by
  obtain ⟨inners, isRemaining, each⟩ := holds.remaining
  cases inners with
  | nil =>
      rw [Tape.current_of_remaining isRemaining] at inner
      have notEnd := isTagEnd_of_isInner inner
      rw [site.isTagEnd_closing] at notEnd
      cases notEnd
  | cons token inners =>
      obtain ⟨next, rest, isRest⟩ := List.exists_cons_of_ne_nil
        (List.append_ne_nil_of_right_ne_nil inners (List.cons_ne_nil site.closing site.behind))
      rw [List.cons_append, isRest] at isRemaining
      rw [Tape.remaining_advance isRemaining]
      exact (each token List.mem_cons_self).2

theorem problems_skipTag (tape : Tape) : (skipTag.run tape).2.problems = tape.problems := by
  simp only [skipTag, run_bind, run_modify, run_atTagEnd, run_ite]
  split
  · exact Tape.problems_advance _
  · rfl

section Turns

variable (startLies : LiesIn site.start site.stop tape.current.span)
  (outermost : tape.enclosing.tail = []) (holds : site.Holds tape.advance) (body : Body)
include outermost holds

theorem run_nextNode_of_statement {word : String} (isStart : tape.current.kind = .blockStart false)
    (isWord : wordOf tape.advance.current = .name word) :
    (nextNode .empty reader [] body).run tape =
        (.again (body.add ((builtin reader word tape.current.span).run tape.advance.advance).1),
          ((builtin reader word tape.current.span).run tape.advance.advance).2) ∧
      site.Holds tape.advance.advance ∧
        LiesIn site.start site.stop tape.advance.advance.previousSpan := by
  have isName : tape.advance.current.kind = .name := congrArg Word.kind isWord
  have inner : tape.advance.current.kind.isInner = true := by
    rw [isName]
    rfl
  refine ⟨?_, holds.advance inner, holds.previous_lies inner⟩
  rw [run_nextNode_at_tag isStart isWord, if_neg (by simp), outermost, if_neg (by simp), run_bind,
    run_statement_of_name isWord]
  rfl

/-- A tag whose statement is read inside it. -/
theorem run_nextNode_of_leaves {word : String} (isStart : tape.current.kind = .blockStart false)
    (isWord : wordOf tape.advance.current = .name word) {action : Span → Read Node}
    (isTag : ∀ start, builtin reader word start = some <$> action start)
    (leaves : ∀ start, Leaves (action start)) {property : Node → Prop}
    (yields : ∀ start, Yields property (action start)) :
    ∃ node final, (nextNode .empty reader [] body).run tape =
        (.again (body.add (some node)), final) ∧ property node ∧ site.Left final := by
  obtain ⟨turn, holds, _⟩ := run_nextNode_of_statement outermost holds body isStart isWord
  rw [isTag] at turn
  exact ⟨_, _, turn, yields _ _, leaves _ site _ holds⟩

include startLies

/-- A tag of no known name is reported once, and adds nothing. -/
theorem run_nextNode_of_unknown {name : String} (unknown : name ∉ builtinTags)
    (notEnd : "end".toList.isPrefixOf name.toList = false) (notBranch : name ≠ "elif")
    (notElse : name ≠ "else") (isStart : tape.current.kind = .blockStart false)
    (isWord : wordOf tape.advance.current = .name name) :
    ∃ final span, (nextNode .empty reader [] body).run tape = (.again (body.add none), final) ∧
      site.Left final ∧
        final.problems = tape.problems.push ((Mistake.unknownTag name).toDiagnostic span) := by
  obtain ⟨turn, holdsBehind, lies⟩ : _ ∧ site.Holds tape.advance.advance ∧ _ :=
    @run_nextNode_of_statement site tape reader outermost holds body name isStart isWord
  rw [builtin_of_unknown unknown notEnd notBranch notElse] at turn
  let span := tape.current.span.cover tape.advance.advance.previousSpan
  let reported := tape.advance.advance.report ((Mistake.unknownTag name).toDiagnostic span)
  have spanLies : LiesIn site.start site.stop span := startLies.cover lies
  have holdsReported : site.Holds reported :=
    ⟨holdsBehind.remaining, holdsBehind.enclosing, holdsBehind.reported.report spanLies⟩
  refine ⟨(skipTag.run reported).2, span, turn, Site.left_skipTag holdsReported, ?_⟩
  rw [problems_skipTag]
  simp only [reported, Tape.report, Tape.problems_advance]

/-- A tag without a body is one turn of the body around it. Only a tag of no known name is sure to
be reported. -/
theorem run_nextNode_of_lone {tag : Lone} (proper : tag.Proper)
    (opens : tape.current.kind = tag.delimiter.startKind false)
    (isKeyword : ∀ word ∈ tag.keyword?, wordOf tape.advance.current = .name word) :
    ∃ node final, (nextNode .empty reader [] body).run tape = (.again (body.add node), final) ∧
      tag.Adds node.toList ∧ site.Left final ∧ ∀ name, tag = .unknown name →
        ∃ span, final.problems =
          tape.problems.push ((Mistake.unknownTag name).toDiagnostic span) := by
  cases tag with
  | output =>
      exact ⟨_, _, run_nextNode_of_output opens body, ⟨_, rfl, _, _, rfl⟩, left_output holds, nofun⟩
  | embed =>
      obtain ⟨node, final, turn, made, left⟩ := run_nextNode_of_leaves outermost holds body opens
        (isKeyword _ rfl) (fun _ => rfl) (fun _ => leaves_embed) fun _ => makes_embed
      exact ⟨some node, final, turn, ⟨node, rfl, made⟩, left, nofun⟩
  | importAs =>
      obtain ⟨node, final, turn, made, left⟩ := run_nextNode_of_leaves outermost holds body opens
        (isKeyword _ rfl) (fun _ => rfl) (fun _ => leaves_importAs) fun _ => makes_importAs
      exact ⟨some node, final, turn, ⟨node, rfl, made⟩, left, nofun⟩
  | importNames =>
      obtain ⟨node, final, turn, made, left⟩ := run_nextNode_of_leaves outermost holds body opens
        (isKeyword _ rfl) (fun _ => rfl) (fun _ => leaves_importNames) fun _ => makes_importNames
      exact ⟨some node, final, turn, ⟨node, rfl, made⟩, left, nofun⟩
  | inherit =>
      obtain ⟨node, final, turn, made, left⟩ := run_nextNode_of_leaves outermost holds body opens
        (isKeyword _ rfl) (fun _ => rfl) (fun _ => leaves_inherit) fun _ => makes_inherit
      exact ⟨some node, final, turn, ⟨node, rfl, made⟩, left, nofun⟩
  | unknown name =>
      obtain ⟨_, unknown, notEnd, notBranch, notElse⟩ := proper
      obtain ⟨final, span, turn, left, isTold⟩ := run_nextNode_of_unknown startLies outermost holds
        body unknown notEnd notBranch notElse opens (isKeyword name rfl)
      refine ⟨none, final, turn, rfl, left, fun other isOther => ?_⟩
      cases isOther
      exact ⟨span, isTold⟩

end Turns

end Stencil.Grammar
