import Stencil.Proofs.Grammar.Alarm
import Stencil.Proofs.Grammar.Placement
import Stencil.Proofs.Grammar.Spending

/-!
Contract: bodies lie inside their statements, and the statements of a body one after another.

Owns:
- bodies whose statements stand between where reading of the body began and where it ended;
- every statement that has bodies reaches over them, whether they are closed or not;
- bodies of all depths, statement by statement.

Does not own: statements without bodies (`Stencil.Proofs.Grammar.Placement`) and the tokens of a
text (`Stencil.Proofs.Grammar.Exactness`).
-/

set_option autoImplicit false

namespace Stencil.Grammar

open Stencil.Syntax
open Stencil.Text (Position Span Window)
open Stencil.Token (Kind Region)
open Read Statement

variable {exact : Position → Prop} {tape here : Tape} {bound fewer : Nat} {start : Span}
  {low high : Nat} {node : Node} {nodes : List Node} {reader : BodyReader}

/-! ### Bodies -/

/-- Whether a reader of bodies gives statements that stand one after another between where it begins
and where it ends, and stops where bodies stop. -/
def Places (exact : Position → Prop) (bound : Nat) (reader : BodyReader) : Prop :=
  ∀ (endings : List String) (tape : Tape), tape.Clear exact bound →
    Lockstep tape (reader endings) (reader endings) fun result final =>
      Stops bound endings final.enclosing result.2 final ∧ tape.Onto exact bound final ∧
        Lodged exact tape.mark final.mark result.1

/-- What a tag leaves in the tree, if anything. -/
structure Yielded (exact : Position → Prop) (bound : Nat) (start : Span) (made : Option Node)
    (final : Tape) : Prop where
  clear : final.Clear exact bound
  past : final.Past start
  finished : ∀ node ∈ made, Finished exact bound start node final

theorem Yielded.none {final : Tape} (past : final.Past start) (clear : final.Clear exact bound) :
    Yielded exact bound start none final :=
  ⟨clear, past, nofun⟩

theorem Finished.yielded {final : Tape} (finished : Finished exact bound start node final) :
    Yielded exact bound start (some node) final :=
  ⟨finished.clear, finished.past, fun _ isNode => Option.mem_some.mp isNode ▸ finished⟩

theorem Lockstep.yields {action : Read Node}
    (lockstep : Lockstep tape action action (Finished exact bound start)) :
    Lockstep tape (some <$> action) (some <$> action) (Yielded exact bound start) :=
  Lockstep.map <| lockstep.weaken fun _ _ _ finished => finished.yielded

/-- Whether a choice that has been read stands between its start and where reading has come to. -/
structure ChoiceEnds (exact : Position → Prop) (bound : Nat) (start : Span) (choice : Choice)
    (final : Tape) : Prop where
  clear : final.Clear exact bound
  past : final.Past start
  fits : ∀ span, Fits exact start.start.offset final.mark
    (.choose choice.branches choice.otherwise span)

/-- Whether what is known of a choice between two of its tags does. -/
structure ChoiceFits (exact : Position → Prop) (bound : Nat) (start : Span) (choice : Choice)
    (here : Tape) : Prop extends ChoiceEnds exact bound start choice here where
  test : choice.test.LiesIn ⟨exact, start.start.offset, here.mark⟩
  startPast : here.Past choice.start
  startExact : choice.start.IsExact exact
  startLow : start.start.offset ≤ choice.start.start.offset

/-- One more branch of a choice. -/
theorem Fits.branch {branches : List Branch} {otherwise : Option (List Node)} {test : Expr}
    {branchSpan : Span} (fits : ∀ span, Fits exact low high (.choose branches otherwise span))
    (lies : test.LiesIn ⟨exact, low, high⟩)
    (holds : (⟨exact, low, high⟩ : Window).Holds branchSpan) (lodged : Lodged exact low high nodes)
    (span : Span) :
    Fits exact low high (.choose (branches ++ [.mk test nodes branchSpan]) otherwise span) := by
  obtain ⟨⟨exprs, _, _, _, _, spans⟩, bodies⟩ := fits span
  refine ⟨⟨?_, nofun, nofun, nofun, nofun, ?_⟩, ?_⟩
  · intro expr member
    rw [Node.exprs, List.map_append] at member
    exact ListedIn.append exprs (listedIn_one lies) expr member
  · exact List.forall_mem_append.mpr ⟨spans, List.forall_mem_singleton.mpr holds⟩
  · intro body member
    rw [Node.bodies, List.map_append, List.append_assoc] at member
    rcases List.mem_append.mp member with isEarlier | isLater
    · exact bodies body (List.mem_append_left _ isEarlier)
    · rcases List.mem_cons.mp isLater with rfl | isOther
      · exact lodged
      · exact bodies body (List.mem_append_right _ isOther)

/-- The other body of a choice. -/
theorem Fits.otherwise {branches : List Branch} {otherwise : Option (List Node)}
    (fits : ∀ span, Fits exact low high (.choose branches otherwise span))
    (lodged : Lodged exact low high nodes) (span : Span) :
    Fits exact low high (.choose branches (some nodes) span) := by
  obtain ⟨⟨exprs, _, _, _, _, spans⟩, bodies⟩ := fits span
  refine ⟨⟨exprs, nofun, nofun, nofun, nofun, spans⟩, fun body member => ?_⟩
  rcases List.mem_append.mp member with isBranch | isOther
  · exact bodies body (List.mem_append_left _ isBranch)
  · exact List.mem_singleton.mp isOther ▸ lodged

section Bodies

variable (places : Places exact bound reader)
include places

/-- A body with one closing tag, which is passed over if it is there. -/
theorem lodged_closedBody (ending name : String) (isExact : start.IsExact exact)
    (clear : tape.Clear exact bound) :
    Lockstep tape (closedBody reader ending name start) (closedBody reader ending name start)
      fun nodes final => tape.Onto exact bound final ∧ Lodged exact tape.mark final.mark nodes := by
  refine (places [ending] tape clear).bind fun result here read => ?_
  obtain ⟨nodes, found⟩ := result
  obtain ⟨stops, onto, lodged⟩ := read
  have further : ∀ final : Tape, here.Onto exact bound final →
      tape.Onto exact bound final ∧ Lodged exact tape.mark final.mark nodes :=
    fun final next => ⟨⟨next.clear, onto.reaches.trans next.reaches⟩,
      lodged.widen (Nat.le_refl _) next.reaches.mark⟩
  cases found with
  | none =>
      exact (clear_mistake onto.clear _ isExact).bind fun _ final next => .pure (further final next)
  | some word =>
      exact (clear_finishTag onto.clear stops.reason.2).bind fun _ final next =>
        .pure (further final next)

variable {tag : Tag exact bound}

/-- A closed body is the last thing that most tags have. -/
theorem finished_closed (left : tag.Left tape) (opens : tag.Opens start) (ending name : String)
    {build : List Node → Span → Node} (isSpan : ∀ nodes span, (build nodes span).span = span)
    (held : ∀ nodes span, (build nodes span).HoldsIn tag.window)
    (isBody : ∀ nodes span, (build nodes span).bodies = [nodes]) :
    let closed : Read Node := do
      let nodes ← closedBody reader ending name start
      return build nodes (← spanFrom start)
    Lockstep tape closed closed (Finished exact bound start) := by
  intro closed
  refine (lodged_closedBody places ending name opens.holds.isExact left.clear).bind
    fun nodes final read => ?_
  refine left.finish opens read.1.clear read.1.reaches (isSpan nodes) (held nodes)
    fun span body member => ?_
  rw [isBody nodes span] at member
  exact List.mem_singleton.mp member ▸ read.2

variable (holds : tag.Holds tape) (opens : tag.Opens start)
include holds opens

theorem finished_assign :
    Lockstep tape (assign reader start) (assign reader start) (Finished exact bound start) := by
  refine (holds.reads (confined_assignTarget _) (draws_assignTarget _)).bind
    fun target _ assigned => ?_
  refine (assigned.2.reads (confined_takeSymbol _) (draws_takeSymbol _)).bind fun _ _ taken => ?_
  have targets : ∀ other ∈ [target], other.LiesIn tag.window :=
    List.forall_mem_singleton.mpr assigned.1
  refine .ite (fun _ => ?_) fun _ => ?_
  · refine (taken.2.reads confined_expressionList draws_expressionList).bind fun value _ read => ?_
    refine read.2.leavesBlock.bind fun _ _ left => ?_
    have exprs := (exprsIn_target assigned.1).append (listedIn_one read.1)
    exact left.finishFlat opens (fun _ => rfl)
      (fun _ => ⟨exprs, targets, nofun, nofun, nofun, nofun⟩) fun _ => rfl
  · have noneYet : FiltersIn tag.window [] := fun _ member => nomatch member
    refine (taken.2.reads (confined_furtherFilters _) (draws_furtherFilters noneYet)).bind
      fun filters _ read => ?_
    refine read.2.leavesBlock.bind fun _ _ left => ?_
    have exprs := (exprsIn_target assigned.1).append (argsIn_filters read.1)
    exact finished_closed places left opens _ _ (fun _ _ => rfl)
      (fun _ _ => ⟨exprs, targets, read.1, nofun, nofun, nofun⟩) fun _ _ => rfl

theorem finished_block :
    Lockstep tape (block reader start) (block reader start) (Finished exact bound start) := by
  refine (holds.reads (confined_expectName _) (draws_expectName _)).bind fun name _ named => ?_
  refine (named.2.reads (confined_loop confined_blockWordTurn _)
    (draws_loop (fun value _ => draws_blockWordTurn value) trivial)).bind fun _ _ words => ?_
  refine words.2.leavesBlock.bind fun _ _ left => ?_
  exact finished_closed places left opens _ _ (fun _ _ => rfl)
    (fun _ _ => .of_exprs (List.forall_mem_nil _) rfl rfl rfl rfl rfl) fun _ _ => rfl

theorem finished_define :
    Lockstep tape (define reader start) (define reader start) (Finished exact bound start) := by
  refine (holds.reads (confined_expectName _) (draws_expectName _)).bind fun name here named => ?_
  refine .seeing (run_atSymbol _ here) ?_
  have ends {there : Tape} (params : List Param) (listed : ParamsIn tag.window params)
      (atEnd : tag.Holds there) :
      Lockstep there
        (do
          expectBlockEnd
          let nodes ← closedBody reader "endmacro" "macro" start
          return Node.define (name.getD "") params nodes (← spanFrom start))
        (do
          expectBlockEnd
          let nodes ← closedBody reader "endmacro" "macro" start
          return Node.define (name.getD "") params nodes (← spanFrom start))
        (Finished exact bound start) := by
    refine atEnd.leavesBlock.bind fun _ _ left => ?_
    exact finished_closed places left opens _ _ (fun _ _ => rfl)
      (fun _ _ => ⟨nofun, nofun, nofun, listed, nofun, nofun⟩) fun _ _ => rfl
  refine .ite (fun isParen => ?_) fun _ => ?_
  · have inner : here.current.kind.isInner = true := by
      rw [beq_iff_eq.mp isParen]
      rfl
    exact (named.2.readsAt (inside_params inner) (drawsAt_params named.2.surveyed inner)).bind
      fun params _ read => ends params read.1 read.2
  · refine (named.2.reads (confined_expected _) (draws_expected _)).bind fun _ _ told => ?_
    have none : ParamsIn tag.window [] := fun _ member => nomatch member
    exact (told.2.reads (confined_pure _) (draws_pure none)).bind
      fun params _ read => ends params read.1 read.2

theorem finished_callBlock :
    Lockstep tape (callBlock reader start) (callBlock reader start)
      (Finished exact bound start) := by
  refine (holds.reads confined_callerParams draws_callerParams).bind fun params _ listed => ?_
  refine (listed.2.reads confined_expression draws_expression).bind fun call _ read => ?_
  refine read.2.leavesBlock.bind fun _ _ left => ?_
  exact finished_closed places left opens _ _ (fun _ _ => rfl)
    (fun _ _ => ⟨listedIn_one read.1, nofun, nofun, listed.1, nofun, nofun⟩) fun _ _ => rfl

theorem finished_withBlock :
    Lockstep tape (withBlock reader start) (withBlock reader start)
      (Finished exact bound start) := by
  have noneYet : BindingsIn tag.window [] := fun _ member => nomatch member
  refine (holds.reads (confined_loop confined_bindingTurn _)
    (draws_loop draws_bindingTurn noneYet)).bind fun bindings _ listed => ?_
  refine listed.2.leavesBlock.bind fun _ _ left => ?_
  have targets : ∀ target ∈ bindings.map Binding.target, target.LiesIn tag.window :=
    List.forall_mem_map.mpr fun binding member => (listed.1 binding member).target
  have exprs : ListedIn tag.window
      (bindings.flatMap fun binding => binding.target.exprs ++ [binding.value]) := by
    intro expr member
    obtain ⟨binding, isBinding, member⟩ := List.mem_flatMap.mp member
    have lies := listed.1 binding isBinding
    exact (exprsIn_target lies.target).append (listedIn_one lies.value) expr member
  exact finished_closed places left opens _ _ (fun _ _ => rfl)
    (fun _ _ => ⟨exprs, targets, nofun, nofun, nofun, nofun⟩) fun _ _ => rfl

theorem finished_filterBlock :
    Lockstep tape (filterBlock reader start) (filterBlock reader start)
      (Finished exact bound start) := by
  refine (holds.reads confined_filter draws_filter).bind fun filter _ first => ?_
  have one : FiltersIn tag.window [filter] := List.forall_mem_singleton.mpr first.1
  refine (first.2.reads (confined_furtherFilters _) (draws_furtherFilters one)).bind
    fun filters _ read => ?_
  refine read.2.leavesBlock.bind fun _ _ left => ?_
  exact finished_closed places left opens _ _ (fun _ _ => rfl)
    (fun _ _ => ⟨argsIn_filters read.1, nofun, read.1, nofun, nofun, nofun⟩) fun _ _ => rfl

omit opens holds in
/-- What follows the body of a loop, if something does. -/
theorem lodged_loopOtherwise? {found : Option String} {endings : List String}
    {outer : List (List String)} (isExact : start.IsExact exact) (clear : tape.Clear exact bound)
    (stops : Stops bound endings outer found tape) :
    Lockstep tape (loopOtherwise? reader found start) (loopOtherwise? reader found start)
      fun otherwise final => tape.Onto exact bound final ∧
        ∀ body ∈ otherwise, Lodged exact tape.mark final.mark body := by
  obtain ⟨_, reason⟩ := stops
  unfold loopOtherwise?
  split
  · refine (clear_finishTag clear reason.2).bind fun _ here onto => Lockstep.map ?_
    refine (lodged_closedBody places _ _ isExact onto.clear).weaken fun nodes final _ read => ?_
    refine ⟨⟨read.1.clear, onto.reaches.trans read.1.reaches⟩, fun body isBody => ?_⟩
    exact Option.mem_some.mp isBody ▸ read.2.widen onto.reaches.mark (Nat.le_refl _)
  · exact (clear_finishTag clear reason.2).bind fun _ _ onto =>
      .pure ⟨onto, fun _ isNone => by cases isNone⟩
  · exact (clear_mistake clear _ isExact).bind fun _ _ onto =>
      .pure ⟨onto, fun _ isNone => by cases isNone⟩

theorem finished_each :
    Lockstep tape (each reader start) (each reader start) (Finished exact bound start) := by
  refine (holds.reads (confined_assignTarget _) (draws_assignTarget _)).bind
    fun target _ assigned => ?_
  refine (assigned.2.reads (confined_expectWord _) (draws_expectWord _)).bind fun _ _ word => ?_
  refine (word.2.reads confined_disjunction draws_disjunction).bind fun items _ read => ?_
  refine (read.2.reads confined_loopCondition? draws_loopCondition?).bind
    fun condition _ limited => ?_
  refine limited.2.leavesBlock.bind fun _ here left => ?_
  refine (places _ here left.clear).bind fun result there inside => ?_
  obtain ⟨stops, onto, lodged⟩ := inside
  refine (lodged_loopOtherwise? places opens.holds.isExact onto.clear stops).bind
    fun otherwise final closed => ?_
  have targets : ∀ other ∈ [target], other.LiesIn tag.window :=
    List.forall_mem_singleton.mpr assigned.1
  have exprs : ListedIn tag.window (target.exprs ++ items :: condition.toList) :=
    (exprsIn_target assigned.1).append
      (List.forall_mem_cons.mpr ⟨read.1, listedIn_toList limited.1⟩)
  refine left.finish opens closed.1.clear (onto.reaches.trans closed.1.reaches) (fun _ => rfl)
    (fun _ => ⟨exprs, targets, nofun, nofun, nofun, nofun⟩) fun _ body isBody => ?_
  rcases List.mem_cons.mp isBody with rfl | isOther
  · exact lodged.widen (Nat.le_refl _) closed.1.reaches.mark
  · exact (closed.2 body (Option.mem_toList.mp isOther)).widen onto.reaches.mark (Nat.le_refl _)

omit opens holds in
theorem fits_nextBranch (isExact : start.IsExact exact) {choice : Choice} {here : Tape}
    (known : ChoiceFits exact bound start choice here) :
    Lockstep here (nextBranch reader start choice) (nextBranch reader start choice)
      (turnEnds (fun next final => ChoiceFits exact bound start next final ∧
        final.following.length < here.following.length) (ChoiceEnds exact bound start)) := by
  refine ((places _ here known.clear).weaken fun _ _ onward read =>
    And.intro read onward.length_le).bind fun result there inside => ?_
  obtain ⟨nodes, found⟩ := result
  obtain ⟨⟨stops, onto, lodged⟩, noLonger⟩ := inside
  refine .seeing (run_spanFrom _ there) ?_
  have startMark := known.past.mark
  have startOrdered := isExact.ordered
  have hereMark : here.mark ≤ there.mark := onto.reaches.mark
  have longer : ∀ span, Fits exact start.start.offset there.mark
      (.choose (choice.branches ++ [.mk choice.test nodes (choice.start.cover there.previousSpan)])
        choice.otherwise span) := by
    obtain ⟨isCover, begins, ends⟩ :=
      onto.clear.lined.cover (known.startPast.reaches onto.reaches) known.startExact
    apply Fits.branch fun span => (known.fits span).widen hereMark
    · exact known.test.extend (Nat.le_refl _) hereMark
    · exact ⟨isCover, begins ▸ known.startLow, Nat.le_of_eq ends⟩
    · exact lodged.widen (by omega) (Nat.le_refl _)
  have closes : ∀ final : Tape, there.Onto exact bound final → ChoiceEnds exact bound start
      ⟨choice.branches ++ [.mk choice.test nodes (choice.start.cover there.previousSpan)],
        choice.otherwise, choice.test, choice.start⟩ final :=
    fun final next => ⟨next.clear, known.past.reaches (onto.reaches.trans next.reaches),
      fun span => (longer span).widen next.reaches.mark⟩
  dsimp only
  split
  · obtain ⟨tag, opens, opening⟩ := onto.clear.tight.openTag stops.reason.2
    refine opening.bind fun opened _ inTag => ?_
    obtain ⟨rfl, inTag⟩ := inTag
    refine (inTag.reads confined_expression draws_expression).bind fun test _ read => ?_
    refine read.2.leavesBlock.bind fun _ final left => .pure ?_
    have isShort := left.clear.stands.short
    have short := onto.clear.stands.short
    have reaches := onto.clear.lined.reaches (left.past opens)
    have atOpening := onto.clear.lined.mark_le
    have past := known.past.reaches (onto.reaches.trans reaches)
    have low : start.start.offset ≤ there.current.span.start.offset := by omega
    refine ⟨⟨⟨left.clear.mono (Nat.le_of_lt short), past,
      fun span => (longer span).widen reaches.mark⟩, ?_, left.past opens, opens.holds.isExact, low⟩,
      by omega⟩
    · have lies := read.1
      rw [left.window_eq opens] at lies
      exact lies.extend (by omega) (Nat.le_refl _)
  · refine (clear_finishTag onto.clear stops.reason.2).bind fun _ middle next => ?_
    refine (lodged_closedBody places _ _ isExact next.clear).bind fun others final read => .pure ?_
    have ends := closes final ⟨read.1.clear, next.reaches.trans read.1.reaches⟩
    refine ⟨ends.clear, ends.past, Fits.otherwise ends.fits (read.2.widen ?_ (Nat.le_refl _))⟩
    have middleMark := next.reaches.mark
    omega
  · exact (clear_finishTag onto.clear stops.reason.2).bind fun _ final next =>
      .pure (closes final next)
  · exact (clear_mistake onto.clear _ isExact).bind fun _ final next => .pure (closes final next)

theorem finished_choose :
    Lockstep tape (choose reader start) (choose reader start) (Finished exact bound start) := by
  refine (holds.reads confined_expression draws_expression).bind fun test _ read => ?_
  refine read.2.leavesBlock.bind fun _ here left => ?_
  have isExact := opens.holds.isExact
  have atTest := read.1
  rw [left.window_eq opens] at atTest
  have nothing (span : Span) : Fits exact start.start.offset here.mark (.choose [] none span) :=
    ⟨.of_exprs (List.forall_mem_nil _) rfl rfl rfl rfl rfl, nofun⟩
  have known : ChoiceFits exact bound start ⟨[], none, test, start⟩ here :=
    ⟨⟨left.clear, left.past opens, nothing⟩, atTest, left.past opens, isExact, Nat.le_refl _⟩
  refine (lockstep_loop (ChoiceFits exact bound start)
    (fun _ _ known => fits_nextBranch places isExact known) known).bind fun choice final ends => ?_
  exact ends.clear.finish ends.past isExact (fun _ => rfl) ends.fits

omit places in
/-- A verbatim body is a single token of text, which a closing tag follows or not. -/
theorem finished_verbatim :
    Lockstep tape (verbatim start) (verbatim start) (Finished exact bound start) := by
  refine holds.leavesBlock.bind fun _ here left => ?_
  have isExact := opens.holds.isExact
  have ends (content : String) {there : Tape} (onto : here.Onto exact bound there) :
      Lockstep there (verbatimEnd content start) (verbatimEnd content start)
        (Finished exact bound start) := by
    have finish : ∀ final : Tape, there.Onto exact bound final →
        Lockstep final (do return Node.verbatim content (← spanFrom start))
          (do return Node.verbatim content (← spanFrom start)) (Finished exact bound start) :=
      fun final next => left.finish opens next.clear (onto.reaches.trans next.reaches)
        (fun _ => rfl) (fun _ => .of_exprs (List.forall_mem_nil _) rfl rfl rfl rfl rfl)
        fun _ => List.forall_mem_nil _
    refine .seeing (run_peek there) (.seeing (run_peekAhead 1 there) ?_)
    refine .ite (fun closes => ?_) fun _ => ?_
    · rw [Tape.ahead_one] at closes
      have atTag := Tape.atTag_of_closesVerbatim closes
      exact (clear_finishTag onto.clear atTag).bind fun _ final => finish final
    · exact (clear_mistake onto.clear _ isExact).bind fun _ final => finish final
  refine .seeing (run_atKind .text here) ?_
  refine .ite (fun isText => ?_) fun _ => ends "" ⟨left.clear, .refl here⟩
  have stays : Region.outside.next? here.current.kind = some .outside := by
    rw [beq_iff_eq.mp isText]
    rfl
  obtain ⟨passed, past, -⟩ := left.clear.tight.advance stays
  have short := left.clear.stands.short
  refine .seeing (run_trimmedText here) ?_
  have passes : Lockstep here Read.advance Read.advance fun _ => here.Onto exact bound :=
    ⟨rfl, Tape.passes_advance trivial, passed.mono (Nat.le_of_lt short),
      left.clear.lined.reaches past⟩
  exact passes.bind fun _ there onto => ends _ onto

/-! ### Tags of a host -/

omit places holds opens in
theorem custom_inline (name : String) (start : Span) :
    custom reader .inline name start = (do
      let args ← expressionsUntil []
      expectBlockEnd
      some <$> do return Node.custom name args none (← spanFrom start)) := rfl

omit places holds opens in
theorem custom_enclosing (ending name : String) (start : Span) :
    custom reader (.enclosing ending) name start = (do
      let args ← expressionsUntil []
      expectBlockEnd
      some <$> do
        let nodes ← closedBody reader ending name start
        return Node.custom name args (some nodes) (← spanFrom start)) := by
  simp only [custom, Extension.enclosing, runHook, closedBody, bind_assoc, List.head?_cons,
    Option.getD_some, Bool.not_false, Bool.not_true, if_true, map_eq_pure_bind]
  refine bind_congr fun args => bind_congr fun _ => ?_
  rw [if_neg Bool.false_ne_true, bind_assoc]
  refine bind_congr fun result => ?_
  split
  · rfl
  · rfl

/-- A tag of a host that needs no hook of its own leaves a statement. -/
theorem yielded_custom {extension : Extension} (generic : extension.IsGeneric) (name : String) :
    Lockstep tape (custom reader extension name start) (custom reader extension name start)
      (Yielded exact bound start) := by
  have exprs := holds.reads (confined_expressionsUntil []) (draws_expressionsUntil [])
  rcases generic with rfl | ⟨ending, rfl⟩
  · rw [custom_inline]
    refine exprs.bind fun args _ listed => ?_
    refine listed.2.leavesBlock.bind fun _ _ left => Lockstep.yields ?_
    exact left.finishFlat opens (fun _ => rfl)
      (fun _ => .of_exprs listed.1 rfl rfl rfl rfl rfl) fun _ => rfl
  · rw [custom_enclosing]
    refine exprs.bind fun args _ listed => ?_
    refine listed.2.leavesBlock.bind fun _ _ left => Lockstep.yields ?_
    exact finished_closed places left opens ending name (fun _ _ => rfl)
      (fun _ _ => ⟨listed.1, nofun, nofun, nofun, nofun, nofun⟩) fun _ _ => rfl

/-! ### Statements -/

theorem yielded_builtin (name : String) :
    Lockstep tape (builtin reader name start) (builtin reader name start)
      (Yielded exact bound start) := by
  unfold builtin
  split
  · exact (finished_choose places holds opens).yields
  · exact (finished_each places holds opens).yields
  · exact (finished_assign places holds opens).yields
  · exact (finished_block places holds opens).yields
  · exact (finished_inherit holds opens).yields
  · exact (finished_embed holds opens).yields
  · exact (finished_importAs holds opens).yields
  · exact (finished_importNames holds opens).yields
  · exact (finished_define places holds opens).yields
  · exact (finished_callBlock places holds opens).yields
  · exact (finished_withBlock places holds opens).yields
  · exact (finished_filterBlock places holds opens).yields
  · exact (finished_verbatim holds opens).yields
  · refine (holds.reads (confined_spanFrom start) (draws_spanFrom opens.holds)).bind
      fun span _ read => ?_
    refine (read.2.reads (confined_mistake _ _) (draws_mistake _ read.1)).bind fun _ _ told => ?_
    exact (told.2.skips).bind fun _ _ left => .pure (.none (left.past opens) left.clear)

omit holds opens in
/-- A statement begins with its opening delimiter, whatever comes of it. -/
theorem yielded_statement {register : Register} (generic : register.IsGeneric)
    (clear : tape.Clear exact (bound + 1))
    (isStart : ∃ trim, tape.current.kind = .blockStart trim) :
    Lockstep tape (statement register reader) (statement register reader)
      (Yielded exact bound tape.current.span) := by
  obtain ⟨trim, isStart⟩ := isStart
  obtain ⟨tag, opens, holds⟩ := clear.opens (by rw [isStart]; rfl)
  have passes : Lockstep tape Read.advance Read.advance fun token final =>
      token = tape.current ∧ final = tape.advance :=
    ⟨rfl, Tape.passes_advance trivial, rfl, rfl⟩
  refine passes.bind fun _ _ passed => ?_
  obtain ⟨rfl, rfl⟩ := passed
  refine .seeing (run_atKind .name tape.advance) ?_
  refine .ite (fun isName => ?_) fun _ => ?_
  · have inner : tape.advance.current.kind.isInner = true := by
      rw [beq_iff_eq.mp isName]
      rfl
    refine (holds.readsAt (inside_advance inner) (drawsAt_advance holds.surveyed inner)).bind
      fun token _ named => ?_
    dsimp only
    split
    · rename_i extension isExtension
      exact yielded_custom places named.2 opens (generic.of_extensionFor? isExtension) _
    · exact yielded_builtin places named.2 opens _
  · refine (holds.reads (confined_expected _) (draws_expected _)).bind fun _ _ told => ?_
    exact told.2.leavesBlock.bind fun _ _ left => .pure (.none (left.past opens) left.clear)

end Bodies

/-! ### Turns of a body -/

theorem Places.mono (places : Places exact bound reader) (isFewer : fewer ≤ bound) :
    Places exact fewer reader := by
  intro endings tape clear
  refine (places endings tape (clear.mono isFewer)).weaken fun result final onward read => ?_
  obtain ⟨stops, onto, lodged⟩ := read
  have short := Nat.lt_of_le_of_lt onward.length_le clear.stands.short
  exact ⟨⟨⟨stops.stands.leads, short⟩, stops.reason⟩,
    ⟨⟨⟨onto.clear.stands.leads, short⟩, onto.clear.lined⟩, onto.reaches⟩, lodged⟩

theorem nests_of_flat {node : Node} (own : node.span.IsExact exact)
    (held : ∀ window : Window, node.HoldsIn window) (flat : node.bodies = []) :
    node.Nests exact := by
  refine .mk own (held _) (fun body isBody => ?_) fun body isBody => ?_
  · rw [flat] at isBody
    cases isBody
  · rw [flat] at isBody
    cases isBody

theorem yielded_text (clear : tape.Clear exact (bound + 1)) (isText : tape.current.kind = .text) :
    Lockstep tape text text (Yielded exact bound tape.current.span) := by
  have isNext : Region.outside.next? tape.current.kind = some .outside := by
    rw [isText]
    rfl
  obtain ⟨passed, past, isMark⟩ := clear.advance isNext
  refine .seeing (run_trimmedText tape) ?_
  refine ⟨rfl, Tape.passes_advance trivial, passed, past, fun node isNode => ?_⟩
  have made : node = .text (trimmedText.run tape).1 tape.current.span := by
    rw [run_bind, run_advance, run_pure] at isNode
    dsimp only at isNode
    split at isNode
    · cases isNode
    · exact (Option.some.inj isNode).symm
  subst made
  refine ⟨passed, past, nests_of_flat clear.lined.current ?_ rfl, rfl, isMark.symm⟩
  exact fun _ => .of_exprs (List.forall_mem_nil _) rfl rfl rfl rfl rfl

theorem finished_comment {trimBefore trimAfter : Bool} (clear : tape.Clear exact (bound + 1))
    (isComment : tape.current.kind = .comment trimBefore trimAfter) :
    Lockstep tape (comment trimBefore trimAfter) (comment trimBefore trimAfter)
      (Finished exact bound tape.current.span) := by
  have isNext : Region.outside.next? tape.current.kind = some .outside := by
    rw [isComment]
    rfl
  obtain ⟨passed, past, isMark⟩ := clear.advance isNext
  refine ⟨rfl, Tape.passes_advance trivial, passed, past, ?_, rfl, isMark.symm⟩
  exact nests_of_flat clear.lined.current
    (fun _ => .of_exprs (List.forall_mem_nil _) rfl rfl rfl rfl rfl) rfl

theorem finished_output {trim : Bool} (clear : tape.Clear exact (bound + 1))
    (isStart : tape.current.kind = .variableStart trim) :
    Lockstep tape output output (Finished exact bound tape.current.span) := by
  obtain ⟨tag, opens, holds⟩ := clear.opens (by rw [isStart]; rfl)
  have passes : Lockstep tape Read.advance Read.advance fun token final =>
      token = tape.current ∧ final = tape.advance :=
    ⟨rfl, Tape.passes_advance trivial, rfl, rfl⟩
  refine passes.bind fun _ _ passed => ?_
  obtain ⟨rfl, rfl⟩ := passed
  refine (holds.reads confined_expression draws_expression).bind fun value _ read => ?_
  refine (read.2.leaves _).bind fun _ _ left => ?_
  exact left.finishFlat opens (fun _ => rfl)
    (fun _ => .of_exprs (listedIn_one read.1) rfl rfl rfl rfl rfl) fun _ => rfl

/-- Whether what has been read of a body since a tape stands between the tape and the head, one
statement after another. -/
structure BodyFits (exact : Position → Prop) (bound : Nat) (tape : Tape) (body : Body)
    (here : Tape) : Prop where
  onto : tape.Onto exact bound here
  lodged : Lodged exact tape.mark here.mark body.nodes.toList

theorem Lodged.concat {low high higher : Nat} {nodes : List Node} {node : Node}
    (lodged : Lodged exact low high nodes) (isLow : low ≤ high)
    (begins : high ≤ node.span.start.offset) (nests : node.Nests exact)
    (ends : node.span.stop.offset ≤ higher) : Lodged exact low higher (nodes ++ [node]) := by
  refine ⟨lodged.stacked.concat isLow begins nests.own.ordered ends, ?_⟩
  exact List.forall_mem_append.mpr ⟨lodged.nests, List.forall_mem_singleton.mpr nests⟩

theorem BodyFits.add {body : Body} {made : Option Node} {final : Tape}
    (fits : BodyFits exact bound tape body here) (isFewer : fewer ≤ bound)
    (yielded : Yielded exact fewer here.current.span made final) :
    BodyFits exact bound tape (body.add made) final := by
  have lined := fits.onto.clear.lined
  have reaches := lined.reaches yielded.past
  refine ⟨⟨yielded.clear.mono isFewer, fits.onto.reaches.trans reaches⟩, ?_⟩
  have areNodes : (body.add made).nodes.toList = body.nodes.toList ++ made.toList := by
    cases made <;> simp [Body.add]
  rw [areNodes]
  cases made with
  | none =>
      rw [Option.toList_none, List.append_nil]
      exact fits.lodged.widen (Nat.le_refl _) reaches.mark
  | some node =>
      have finished := yielded.finished node rfl
      refine fits.lodged.concat fits.onto.reaches.mark ?_ finished.nests
        (Nat.le_of_eq finished.ends)
      rw [finished.begins]
      exact lined.mark_le

/-- One turn of a body adds to it what stands behind the rest of it. -/
theorem fits_nextNode {register : Register} (generic : register.IsGeneric)
    (places : Places exact bound reader) (endings : List String) (body : Body)
    (fits : BodyFits exact (bound + 1) tape body here) :
    Lockstep here (nextNode register reader endings body) (nextNode register reader endings body)
      (turnEnds (fun next final => BodyFits exact (bound + 1) tape next final ∧
        final.following.length < here.following.length) (BodyFits exact (bound + 1) tape)) := by
  have clear := fits.onto.clear.tight
  have short := fits.onto.clear.stands.short
  have again : ∀ (made : Option Node) (final : Tape),
      Yielded exact here.following.length here.current.span made final →
      BodyFits exact (bound + 1) tape (body.add made) final ∧
        final.following.length < here.following.length :=
    fun made final yielded =>
      ⟨fits.add (Nat.le_of_lt short) yielded, yielded.clear.stands.short⟩
  refine .seeing (run_peek here) ?_
  have outer : here.current.kind.isOuter = true := clear.stands.isOuter
  split
  · exact .pure fits
  · rename_i isText
    exact (yielded_text clear isText).bind fun made final yielded =>
      .pure (again made final yielded)
  · rename_i isComment
    exact (finished_comment clear isComment).bind fun node final finished =>
      .pure (again _ final finished.yielded)
  · rename_i isStart
    exact (finished_output clear isStart).bind fun node final finished =>
      .pure (again _ final finished.yielded)
  · rename_i trim isStart
    have goesOn : Lockstep here (do return Turn.again (body.add (← statement register reader)))
        (do return Turn.again (body.add (← statement register reader)))
        (turnEnds (fun next final => BodyFits exact (bound + 1) tape next final ∧
          final.following.length < here.following.length) (BodyFits exact (bound + 1) tape)) := by
      have inner := places.mono (Nat.le_of_lt_succ short)
      exact (yielded_statement inner generic clear ⟨trim, isStart⟩).bind
        fun made final yielded => .pure (again made final yielded)
    refine .seeing (run_peekAhead 1 here) ?_
    refine .ite (fun _ => ?_) fun _ => goesOn
    refine .ite (fun _ => .pure ⟨fits.onto, fits.lodged⟩) fun _ => ?_
    refine .seeing (run_closesEnclosing _ here) ?_
    exact .ite (fun _ => .pure fits) fun _ => goesOn
  · rename_i notEnd notText notComment notVariable notBlock
    revert outer
    cases isKind : here.current.kind <;> simp_all [Kind.isOuter]

/-- Two facts about where an action leads. -/
theorem Lockstep.and {α : Type} {action other : Read α} {ends otherEnds : α → Tape → Prop}
    (first : Lockstep tape action action ends) (second : Lockstep tape action other otherEnds) :
    Lockstep tape action action fun value final => ends value final ∧ otherEnds value final :=
  ⟨rfl, first.onward, first.arrives, second.arrives⟩

theorem places_nestedBody {register : Register} (generic : register.IsGeneric) (depth : Nat) :
    Places exact depth (nestedBody register depth) := by
  induction depth with
  | zero => exact fun _ _ clear => absurd clear.stands.short (Nat.not_lt_zero _)
  | succ depth inductionHypothesis =>
      intro endings tape clear
      have stops := alike_alarmedNested register (fun _ _ => pure ())
        (nestedBody register (depth + 1)) (depth + 1) endings tape clear.stands
      have begins : BodyFits exact (depth + 1)
          { tape with enclosing := endings :: tape.enclosing } ⟨#[], none⟩
          { tape with enclosing := endings :: tape.enclosing } :=
        ⟨⟨⟨⟨clear.stands.leads, clear.stands.short⟩, ⟨clear.lined.line, clear.lined.told⟩⟩,
          .refl _⟩, ⟨.nil _ _, fun _ member => nomatch member⟩⟩
      have turns := lockstep_loop (BodyFits exact (depth + 1) _)
        (fun body here fits => fits_nextNode generic inductionHypothesis endings body fits) begins
      have lodged : Lockstep tape (nestedBody register (depth + 1) endings)
          (nestedBody register (depth + 1) endings) fun result final =>
            tape.Onto exact (depth + 1) final ∧
              Lodged exact tape.mark final.mark result.1 := by
        refine (Lockstep.within turns).bind fun body final ended => .pure ?_
        obtain ⟨last, fits, -, rfl⟩ := ended
        obtain ⟨⟨⟨⟨leads, short⟩, ⟨line, told⟩⟩, ⟨isMark, past⟩⟩, lodged⟩ := fits
        exact ⟨⟨⟨⟨leads, short⟩, ⟨line, told⟩⟩, ⟨isMark, past⟩⟩, lodged⟩
      exact (lodged.and stops).weaken fun _ _ _ both => ⟨both.2, both.1.1, both.1.2⟩

end Stencil.Grammar
