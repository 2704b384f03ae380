import Stencil.Proofs.Grammar.Heedless
import Stencil.Proofs.Grammar.Parallel
import Stencil.Proofs.Grammar.Trimming

/-!
Contract: templates of tokens that match are the same, up to places, and so is what is wrong with
them.

Owns:
- every tag of the language, but that of verbatim bodies, is read alike on tapes that match, with
  everything that is reported;
- so are tags of a host to which marks and places make no difference;
- so are bodies of any depth and whole templates.

Does not own: which texts have tokens that match (`Stencil.Proofs.Grammar.Stripped`).
-/

set_option autoImplicit false

-- The readers of tags are long chains of actions, each of which counts.
set_option synthInstance.maxSize 1024

namespace Stencil.Grammar

open Stencil.Report (Diagnostic)
open Stencil.Syntax
open Stencil.Text (Span)
open Stencil.Token (Kind Delimiter)
open Read Statement

variable {α β : Type} {bound otherBound fewer otherFewer : Nat} {delimiter : Delimiter}
  {tape other : Tape} {start twinStart : Span}

/-! ### Targets -/

/-- Whether it makes no difference to a report where it is made. -/
def Likeness.Tells (like : Likeness) : Prop :=
  ∀ (cause : Mistake) (span twinSpan : Span),
    like.told (cause.toDiagnostic span) (cause.toDiagnostic twinSpan)

theorem tells_sameSaid : sameSaid.Tells := fun _ _ _ => rfl

section Targets

variable {lane : Lane} (tells : lane.like.Tells)
include tells

theorem likewise_told (cause : Mistake) (span twinSpan : Span) :
    lane.Likewise bound Same (mistake cause span) (mistake cause twinSpan) :=
  fun _ _ _ _ beside => ⟨rfl, beside.report (tells cause span twinSpan)⟩

theorem likewise_toTarget (tag : String) {expr same : Expr} (isSame : SameExpr expr same) :
    lane.Likewise bound (Upto Target.unplaced) (toTarget tag expr) (toTarget tag same) := by
  have sameTarget := isSame.target
  unfold toTarget
  cases isTarget : Target.ofExpr expr <;> cases isTwin : Target.ofExpr same <;>
    rw [isTarget, isTwin] at sameTarget
  · exact (likewise_told tells _ _ _).bind fun _ _ _ => .pure rfl
  · cases sameTarget
  · cases sameTarget
  · exact .pure (Option.some.inj sameTarget)

theorem likewise_assignTarget (tag : String) :
    lane.Likewise bound (Upto Target.unplaced) (assignTarget tag) (assignTarget tag) := by
  refine likewise_targetOperand.bind fun first twinFirst sameFirst => ?_
  refine (likewise_atKind _).bind fun more _ same => ?_
  rw [same]
  refine .ite Iff.rfl ?_ (likewise_toTarget tells tag sameFirst)
  have sameItems : SameExprs [first] [twinFirst] := congrArg (fun item => [item]) sameFirst
  refine (likewise_loop turnsLikewise_target sameItems).bind fun items twins sameItems => ?_
  refine likewise_previousSpan.bind fun _ _ _ => likewise_toTarget tells tag ?_
  rw [SameExpr, Upto, Expr.unplaced_tuple, Expr.unplaced_tuple, sameItems]

theorem turnsLikewise_binding :
    lane.TurnsLikewise bound (Upto (List.map Binding.unplaced)) bindingTurn bindingTurn := by
  intro limit _ bindings twins same tape other beside
  refine (likewise_atClose.on beside).bind fun _ _ here there ended => ?_
  obtain ⟨rfl, beside⟩ := ended
  refine .ite Iff.rfl (fun _ => .pure ⟨same, beside⟩) fun _ => ?_
  -- What the turn comes to is hidden on the way, since nothing of it is to be computed.
  generalize isEnds : turnsEnd _ _ = ends
  refine (likewise_targetOperand.on beside).bind fun _ _ _ _ ended => ?_
  refine ((likewise_toTarget tells "with" ended.1).on ended.2).bind
    fun target twinTarget _ _ ended => ?_
  obtain ⟨sameTarget, beside⟩ := ended
  refine ((likewise_expectSymbol _).on beside).bind fun _ _ _ _ ended => ?_
  refine (likewise_expression.on ended.2).bind fun value twinValue _ _ ended => ?_
  obtain ⟨sameValue, beside⟩ := ended
  rw [← isEnds]
  refine twin_comma ?_ (Nat.le_refl limit) beside
  unfold Upto at same sameTarget ⊢
  rw [List.map_append, List.map_append, same, List.map_singleton, List.map_singleton,
    Binding.unplaced, Binding.unplaced, sameTarget, sameValue]

end Targets

/-! ### What is read inside tags -/

theorem readsInside_expression : ReadsInside SameExpr expression expression :=
  .of_likewise likewise_expression confined_expression

theorem readsInside_mistake (cause : Mistake) (span twinSpan : Span) :
    ReadsInside Same (mistake cause span) (mistake cause twinSpan) :=
  ⟨fun _ _ _ => likewise_told tells_sameSaid cause span twinSpan, confined_mistake cause span,
    confined_mistake cause twinSpan⟩

theorem readsInside_expected (what : String) : ReadsInside Same (expected what) (expected what) :=
  .of_likewise (likewise_expected what) (confined_expected what)

theorem readsInside_expectWord (word : String) :
    ReadsInside Same (expectWord word) (expectWord word) :=
  .of_likewise (likewise_expectWord word) (confined_expectWord word)

theorem readsInside_expectName (what : String) :
    ReadsInside Same (expectName what) (expectName what) :=
  .of_likewise (likewise_expectName what) (confined_expectName what)

theorem readsInside_assignTarget (tag : String) :
    ReadsInside (Upto Target.unplaced) (assignTarget tag) (assignTarget tag) :=
  ⟨fun _ _ _ => likewise_assignTarget tells_sameSaid tag, confined_assignTarget tag,
    confined_assignTarget tag⟩

theorem readsInside_bindings :
    ReadsInside (Upto (List.map Binding.unplaced)) (loop bindingTurn []) (loop bindingTurn []) :=
  ⟨fun _ _ _ => likewise_loop (turnsLikewise_binding tells_sameSaid) rfl,
    confined_loop confined_bindingTurn _, confined_loop confined_bindingTurn _⟩

theorem readsInside_furtherFilters {filters twins : List FilterCall}
    (same : Upto (List.map FilterCall.unplaced) filters twins) :
    ReadsInside (Upto (List.map FilterCall.unplaced)) (furtherFilters filters)
      (furtherFilters twins) :=
  ⟨fun _ _ _ => likewise_furtherFilters same, confined_furtherFilters filters,
    confined_furtherFilters twins⟩

/-! ### Tags that open bodies, up to their ends -/

/-- What is read alike, and where tapes stand that have left a tag. -/
abbrev Departs (bound otherBound : Nat) (rel : α → α → Prop) (value same : α)
    (here there : Tape) : Prop :=
  rel value same ∧ Parallel bound otherBound here there

/-- A statement's place comes last. -/
theorem Parallel.spanned {build twinBuild : Span → Node}
    (same : ∀ span twinSpan, SameNode (build span) (twinBuild twinSpan))
    (parallel : Parallel bound otherBound tape other) :
    Twin tape other (do return build (← spanFrom start))
      (do return twinBuild (← spanFrom twinStart))
      (Departs bound otherBound SameNode) :=
  ⟨same _ _, parallel⟩

section Heads

variable (inside : ParallelInside bound otherBound delimiter tape other)
include inside

/-- The end of a tag comes last. -/
theorem ParallelInside.ended {rel : α → α → Prop} {value same : α} (holds : rel value same) :
    Twin tape other (do expectBlockEnd; return value) (do expectBlockEnd; return same)
      (Departs bound otherBound rel) :=
  (twin_expectBlockEnd inside).bind fun _ _ _ _ left => .pure ⟨holds, left⟩

/-- The end of a tag without a body, and the statement's place. -/
theorem ParallelInside.endedSpanned {build twinBuild : Span → Node}
    (same : ∀ span twinSpan, SameNode (build span) (twinBuild twinSpan)) :
    Twin tape other (do expectBlockEnd; return build (← spanFrom start))
      (do expectBlockEnd; return twinBuild (← spanFrom twinStart))
      (Departs bound otherBound SameNode) :=
  (twin_expectBlockEnd inside).bind fun _ _ _ _ left => left.spanned same

theorem ParallelInside.reads_chooseHead :
    Twin tape other chooseHead chooseHead (Departs bound otherBound SameExpr) :=
  (inside.read readsInside_expression).bind fun _ _ _ _ ended => ended.2.ended ended.1

theorem ParallelInside.reads_eachHead :
    Twin tape other eachHead eachHead (Departs bound otherBound EachHead.Same) := by
  refine (inside.read (readsInside_assignTarget "for")).bind fun target _ _ _ ended => ?_
  obtain ⟨sameTarget, inside⟩ := ended
  refine (inside.read (readsInside_expectWord "in")).bind fun _ _ _ _ ended => ?_
  have items : ReadsInside SameExpr disjunction disjunction :=
    .of_likewise likewise_disjunction confined_disjunction
  refine (ended.2.read items).bind fun items _ _ _ ended => ?_
  obtain ⟨sameItems, inside⟩ := ended
  have condition : ReadsInside (Upto (Option.map Expr.unplaced)) loopCondition? loopCondition? :=
    .of_likewise likewise_loopCondition? confined_loopCondition?
  refine (inside.read condition).bind fun condition _ _ _ ended => ?_
  exact ended.2.ended ⟨sameTarget, sameItems, ended.1⟩

theorem ParallelInside.reads_blockHead :
    Twin tape other blockHead blockHead (Departs bound otherBound Same) := by
  refine (inside.read (readsInside_expectName "block name")).bind fun name _ _ _ ended => ?_
  obtain ⟨sameName, inside⟩ := ended
  rw [sameName]
  have words : ReadsInside Same (loop blockWordTurn ()) (loop blockWordTurn ()) :=
    .of_likewise (likewise_loop turnsLikewise_blockWord rfl)
      (confined_loop confined_blockWordTurn _)
  exact (inside.read words).bind fun _ _ _ _ ended => ended.2.ended rfl

theorem ParallelInside.reads_defineHead :
    Twin tape other defineHead defineHead (Departs bound otherBound DefineHead.Same) := by
  refine (inside.read (readsInside_expectName "macro name")).bind fun name _ here there ended => ?_
  obtain ⟨sameName, inside⟩ := ended
  rw [sameName]
  obtain ⟨margin, shared, beside⟩ := inside.exists_beside
  have sameKind : there.current.kind = here.current.kind := Likeness.kind beside.current
  refine .seeing (run_atSymbol _ here) (run_atSymbol _ there) ?_
  refine .ite (by rw [sameKind]) (fun isParen => ?_) fun _ => ?_
  · have opens : here.current.kind.isInner = true := by rw [beq_iff_eq.mp isParen]; rfl
    refine (inside.along (inside_params opens) (inside_params (sameKind ▸ opens))
      fun margin shared beside => ?_).bind fun params _ _ _ ended => ended.2.ended ⟨rfl, ended.1⟩
    obtain ⟨fewer, rfl⟩ := beside.exists_succ
    exact (twin_params beside opens).weaken fun _ _ _ _ ended =>
      ⟨ended.1, ended.2.mono (Nat.le_succ fewer)⟩
  · refine (inside.read (readsInside_expected _)).bind fun _ _ _ _ ended => ?_
    exact ended.2.ended ⟨rfl, rfl⟩

theorem ParallelInside.reads_callHead :
    Twin tape other callHead callHead (Departs bound otherBound CallHead.Same) := by
  have params : ReadsInside (Upto (List.map Param.unplaced)) callerParams callerParams :=
    .of_likewise likewise_callerParams confined_callerParams
  refine (inside.read params).bind fun params _ _ _ ended => ?_
  obtain ⟨sameParams, inside⟩ := ended
  refine (inside.read readsInside_expression).bind fun call _ _ _ ended => ?_
  exact ended.2.ended ⟨sameParams, ended.1⟩

theorem ParallelInside.reads_withHead :
    Twin tape other withHead withHead
      (Departs bound otherBound (Upto (List.map Binding.unplaced))) :=
  (inside.read readsInside_bindings).bind fun _ _ _ _ ended => ended.2.ended ended.1

theorem ParallelInside.reads_filterHead :
    Twin tape other filterHead filterHead
      (Departs bound otherBound (Upto (List.map FilterCall.unplaced))) := by
  have first : ReadsInside (Upto FilterCall.unplaced) filterCall filterCall :=
    .of_likewise likewise_filter confined_filter
  refine (inside.read first).bind fun first twin _ _ ended => ?_
  obtain ⟨sameFirst, inside⟩ := ended
  have sameFirst : Upto (List.map FilterCall.unplaced) [first] [twin] :=
    congrArg (fun call => [call]) sameFirst
  refine (inside.read (readsInside_furtherFilters sameFirst)).bind fun _ _ _ _ ended => ?_
  exact ended.2.ended ended.1

/-! ### Tags without bodies -/

theorem ParallelInside.reads_inherit :
    Twin tape other (inherit start) (inherit twinStart) (Departs bound otherBound SameNode) :=
  (inside.read readsInside_expression).bind fun _ _ _ _ ended =>
    ended.2.endedSpanned fun _ _ => congrArg (Node.inherit · default) ended.1

theorem ParallelInside.reads_embed :
    Twin tape other (embed start) (embed twinStart) (Departs bound otherBound SameNode) := by
  refine (inside.read readsInside_expression).bind fun _ _ _ _ ended => ?_
  obtain ⟨sameTemplate, inside⟩ := ended
  have clauses : ReadsInside Same (loop clauseTurn ⟨false, false⟩)
      (loop clauseTurn ⟨false, false⟩) :=
    .of_likewise (likewise_loop turnsLikewise_clause rfl) (confined_loop confined_clauseTurn _)
  refine (inside.read clauses).bind fun clauses _ _ _ ended => ?_
  rw [ended.1]
  refine ended.2.endedSpanned fun _ _ => ?_
  exact congrArg (Node.embed · clauses.withContext clauses.ignoreMissing default) sameTemplate

theorem ParallelInside.reads_contextEnd {build twinBuild : Option Bool → Span → Node}
    (same : ∀ context span twinSpan, SameNode (build context span) (twinBuild context twinSpan)) :
    Twin tape other
      (do
        let context ← contextClause?
        expectBlockEnd
        return build context (← spanFrom start))
      (do
        let context ← contextClause?
        expectBlockEnd
        return twinBuild context (← spanFrom twinStart))
      (Departs bound otherBound SameNode) := by
  have clause : ReadsInside Same contextClause? contextClause? :=
    .of_likewise likewise_contextClause? confined_contextClause?
  refine (inside.read clause).bind fun context _ _ _ ended => ?_
  rw [ended.1]
  exact ended.2.endedSpanned (same context)

theorem ParallelInside.reads_importAs :
    Twin tape other (importAs start) (importAs twinStart) (Departs bound otherBound SameNode) := by
  refine (inside.read readsInside_expression).bind fun template twin _ _ ended => ?_
  obtain ⟨sameTemplate, inside⟩ := ended
  refine (inside.read (readsInside_expectWord "as")).bind fun _ _ _ _ ended => ?_
  refine (ended.2.read (readsInside_expectName "namespace name")).bind fun name _ _ _ ended => ?_
  rw [ended.1]
  refine ended.2.reads_contextEnd fun context _ _ => ?_
  exact congrArg (Node.importAs · (name.getD "") (context.getD false) default) sameTemplate

theorem ParallelInside.reads_importNames :
    Twin tape other (importNames start) (importNames twinStart)
      (Departs bound otherBound SameNode) := by
  refine (inside.read readsInside_expression).bind fun template twin _ _ ended => ?_
  obtain ⟨sameTemplate, inside⟩ := ended
  refine (inside.read (readsInside_expectWord "import")).bind fun _ _ _ _ ended => ?_
  have names : ReadsInside (Upto (List.map ImportName.unplaced)) (loop importTurn [])
      (loop importTurn []) :=
    .of_likewise (likewise_loop turnsLikewise_import rfl) (confined_loop confined_importTurn _)
  refine (ended.2.read names).bind fun names twins here there ended => ?_
  obtain ⟨sameNames, inside⟩ := ended
  have sameEmpty : twins.isEmpty = names.isEmpty := by
    rw [← List.isEmpty_map, sameNames, List.isEmpty_map]
  have sameNode (context : Option Bool) (span twinSpan : Span) :
      SameNode (.importNames template names (context.getD false) span)
        (.importNames twin twins (context.getD false) twinSpan) := by
    rw [SameNode, Upto, Node.unplaced, Node.unplaced, sameTemplate, sameNames]
  refine .ite (by rw [sameEmpty]) (fun _ => ?_) fun _ => inside.reads_contextEnd sameNode
  refine (inside.read (readsInside_expected "name to import")).bind fun _ _ _ _ ended => ?_
  exact ended.2.reads_contextEnd sameNode

end Heads

/-! ### Closing tags -/

section Closing

variable {name : String}

/-- The delimiter and the name of a closing tag lead into it on both tapes. -/
theorem Parallel.reads_openTag (parallel : Parallel (bound + 1) (otherBound + 1) tape other)
    (atTag : tape.AtTag name) :
    Twin tape other openTag openTag fun _ _ here there =>
      ParallelInside bound otherBound .block here there := by
  obtain ⟨trim, opens⟩ := atTag.opens
  have opens : tape.current.kind = Delimiter.block.startKind trim := opens
  obtain ⟨_, inside, _⟩ := parallel.enter opens
  refine Twin.advances.bind fun _ _ _ _ ended => ?_
  obtain ⟨rfl, rfl, rfl, rfl⟩ := ended
  exact (inside.pass (isInner_of_isName atTag.named)).bind fun _ _ _ _ ended => .pure ended.2

/-- A closing tag, with a label or without one, is passed over on both tapes. -/
theorem Parallel.reads_finishTag (parallel : Parallel bound otherBound tape other)
    (atTag : tape.AtTag name) :
    Twin tape other finishTag finishTag fun _ _ here there =>
      Parallel bound otherBound here there := by
  obtain ⟨fewer, otherFewer, rfl, rfl⟩ := parallel.exists_succ
  have ends {here there : Tape} (inside : ParallelInside fewer otherFewer .block here there) :
      Twin here there expectBlockEnd expectBlockEnd fun _ _ here there =>
        Parallel (fewer + 1) (otherFewer + 1) here there :=
    (twin_expectBlockEnd inside).weaken fun _ _ _ _ left =>
      left.mono (Nat.le_succ _) (Nat.le_succ _)
  refine (parallel.reads_openTag atTag).bind fun _ _ here there inside => ?_
  refine .seeing (run_peekAhead 1 here) (run_peekAhead 1 there) ?_
  refine .seeing (run_atKind .name here) (run_atKind .name there) ?_
  rw [Tape.ahead_one, Tape.ahead_one]
  obtain ⟨margin, shared, beside⟩ := inside.exists_beside
  have sameGuard := beside.guardedKind (show Kind.name.isInner = true from rfl)
    (·.kind.isTagEnd) fun same => by rw [Likeness.kind same]
  refine .ite (Bool.eq_iff_iff.mp sameGuard) (fun isLabel => ?_) fun _ => ends inside
  rw [Bool.and_eq_true, beq_iff_eq] at isLabel
  exact (inside.pass (by rw [isLabel.1]; rfl)).bind fun _ _ _ _ ended => ends ended.2

theorem Parallel.reads_missingEnd (parallel : Parallel bound otherBound tape other)
    (tag ending : String) :
    Twin tape other (missingEnd tag ending start) (missingEnd tag ending twinStart)
      fun _ _ here there => Parallel bound otherBound here there :=
  parallel.report rfl

end Closing

/-! ### Loops -/

/-- What holds of two turns that both go on or are both the last. -/
inductive TurnsAlike (again done : α → α → Tape → Tape → Prop) :
    Turn α → Turn α → Tape → Tape → Prop where
  | again {value same : α} {here there : Tape} (ended : again value same here there) :
      TurnsAlike again done (.again value) (.again same) here there
  | done {value same : α} {here there : Tape} (ended : done value same here there) :
      TurnsAlike again done (.done value) (.done same) here there

/-- Turns on tapes that match. Each of them passes over a token, unless it is the last; on the first
tape there may be some more, at texts of which nothing is left. -/
theorem Parallel.reads_turns {turn others : α → Read (Turn α)} {kept : α → α → Prop}
    {ends : α → α → Tape → Tape → Prop}
    (each : ∀ (limit otherLimit : Nat) (value same : α) (here there : Tape), limit < bound →
      otherLimit < otherBound → kept value same → Parallel (limit + 1) (otherLimit + 1) here there →
      (∃ next final, (turn value).run here = (.again next, final) ∧ kept next same ∧
          Parallel limit (otherLimit + 1) final there) ∨
        Twin here there (turn value) (others same)
          (TurnsAlike (Departs limit otherLimit kept) ends))
    {limit otherLimit most otherMost : Nat} (isFewer : limit ≤ bound)
    (otherIsFewer : otherLimit ≤ otherBound) (enough : limit ≤ most)
    (otherEnough : otherLimit ≤ otherMost) {value same : α} (holds : kept value same)
    (parallel : Parallel limit otherLimit tape other) :
    Twin tape other (turns turn most value) (turns others otherMost same) ends := by
  induction limit generalizing otherLimit most otherMost value same tape other with
  | zero => exact absurd parallel.short (Nat.not_lt_zero _)
  | succ limit inductionHypothesis =>
      obtain ⟨_, otherLimit, _, rfl⟩ := parallel.exists_succ
      obtain ⟨most, rfl⟩ := Nat.exists_eq_add_of_le' (Nat.le_trans (Nat.succ_pos _) enough)
      obtain ⟨otherMost, rfl⟩ :=
        Nat.exists_eq_add_of_le' (Nat.le_trans (Nat.succ_pos _) otherEnough)
      have isLess := Nat.le_of_succ_le_succ enough
      rcases each limit otherLimit value same tape other isFewer otherIsFewer holds parallel with
        ⟨next, final, isAgain, holds, behind⟩ | turn
      · have rest := inductionHypothesis (Nat.le_of_lt isFewer) otherIsFewer isLess otherEnough
          holds behind
        unfold Twin at rest ⊢
        rw [turns, run_bind, isAgain]
        exact rest
      · refine turn.bind fun result twin here there ended => ?_
        cases ended with
        | again ended =>
            exact inductionHypothesis (Nat.le_of_lt isFewer) (Nat.le_of_lt otherIsFewer) isLess
              (Nat.le_of_succ_le_succ otherEnough) ended.1 ended.2
        | done ended => exact .pure ended

theorem Parallel.reads_loop {turn others : α → Read (Turn α)} {kept : α → α → Prop}
    {ends : α → α → Tape → Tape → Prop}
    (each : ∀ (limit otherLimit : Nat) (value same : α) (here there : Tape), limit < bound →
      otherLimit < otherBound → kept value same → Parallel (limit + 1) (otherLimit + 1) here there →
      (∃ next final, (turn value).run here = (.again next, final) ∧ kept next same ∧
          Parallel limit (otherLimit + 1) final there) ∨
        Twin here there (turn value) (others same)
          (TurnsAlike (Departs limit otherLimit kept) ends))
    {value same : α} (holds : kept value same) (parallel : Parallel bound otherBound tape other) :
    Twin tape other (loop turn value) (loop others same) ends :=
  parallel.least.reads_turns each parallel.short parallel.otherShort (Nat.le_refl _)
    (Nat.le_refl _) holds

/-! ### Tags with bodies -/

/-- What two readers of bodies come to that read alike: both have found the same closing tag, or
none. -/
structure Stopped (bound otherBound : Nat) (result same : List Node × Option String)
    (here there : Tape) : Prop where
  nodes : SameNodes result.1 same.1
  found : same.2 = result.2
  parallel : Parallel bound otherBound here there
  atTag : ∀ name, result.2 = some name → here.AtTag name

/-- Whether two readers of bodies read alike, with everything that is reported. -/
def ReadsBodies (bound otherBound : Nat) (reader twin : BodyReader) : Prop :=
  ∀ endings, ∀ fewer ≤ bound, ∀ otherFewer ≤ otherBound, ∀ tape other : Tape,
    Parallel fewer otherFewer tape other →
      Twin tape other (reader endings) (twin endings) (Stopped fewer otherFewer)

section Bodies

variable {reader twin : BodyReader}

theorem ReadsBodies.mono (reads : ReadsBodies bound otherBound reader twin)
    (isFewer : fewer ≤ bound) (otherIsFewer : otherFewer ≤ otherBound) :
    ReadsBodies fewer otherFewer reader twin :=
  fun endings least isLeast otherLeast otherIsLeast =>
    reads endings least (Nat.le_trans isLeast isFewer) otherLeast
      (Nat.le_trans otherIsLeast otherIsFewer)

variable (reads : ReadsBodies bound otherBound reader twin)
include reads

theorem ReadsBodies.on (endings : List String) (parallel : Parallel bound otherBound tape other) :
    Twin tape other (reader endings) (twin endings) (Stopped bound otherBound) :=
  reads endings bound (Nat.le_refl _) otherBound (Nat.le_refl _) tape other parallel

/-- A body with one closing tag, which is passed over or reported on both tapes. -/
theorem ReadsBodies.closedBody {ending : String} (tag : String)
    (parallel : Parallel bound otherBound tape other) :
    Twin tape other (closedBody reader ending tag start) (closedBody twin ending tag twinStart)
      (Departs bound otherBound SameNodes) := by
  refine (reads.on [ending] parallel).bind fun result same here there stopped => ?_
  obtain ⟨nodes, found⟩ := result
  obtain ⟨twins, twinFound⟩ := same
  obtain rfl : twinFound = found := stopped.found
  cases twinFound with
  | none =>
      exact (stopped.parallel.reads_missingEnd tag ending).bind fun _ _ _ _ left =>
        .pure ⟨stopped.nodes, left⟩
  | some name =>
      exact (stopped.parallel.reads_finishTag (stopped.atTag name rfl)).bind fun _ _ _ _ left =>
        .pure ⟨stopped.nodes, left⟩

/-- A closed body is the last thing that most tags have. -/
theorem ReadsBodies.closedSpanned {ending : String} (tag : String) {build twinBuild : List Node → Span → Node}
    (same : ∀ nodes twins span twinSpan, SameNodes nodes twins →
      SameNode (build nodes span) (twinBuild twins twinSpan))
    (parallel : Parallel bound otherBound tape other) :
    Twin tape other
      (do
        let nodes ← Statement.closedBody reader ending tag start
        return build nodes (← spanFrom start))
      (do
        let nodes ← Statement.closedBody twin ending tag twinStart
        return twinBuild nodes (← spanFrom twinStart))
      (Departs bound otherBound SameNode) :=
  (reads.closedBody tag parallel).bind fun nodes twins _ _ ended =>
    ended.2.spanned fun span twinSpan => same nodes twins span twinSpan ended.1

section Inside

variable (inside : ParallelInside bound otherBound delimiter tape other)
include inside

theorem ReadsBodies.assign :
    Twin tape other (assign reader start) (assign twin twinStart)
      (Departs bound otherBound SameNode) := by
  refine (inside.read (readsInside_assignTarget "set")).bind fun target twinTarget _ _ ended => ?_
  obtain ⟨sameTarget, inside⟩ := ended
  have takes : ReadsInside Same (takeSymbol .assign) (takeSymbol .assign) :=
    .of_likewise (likewise_takeSymbol _) (confined_takeSymbol _)
  refine (inside.read takes).bind fun taken _ _ _ ended => ?_
  obtain ⟨sameTaken, inside⟩ := ended
  rw [sameTaken]
  refine .ite Iff.rfl (fun _ => ?_) fun _ => ?_
  · have value : ReadsInside SameExpr expressionList expressionList :=
      .of_likewise likewise_expressionList confined_expressionList
    refine (inside.read value).bind fun value _ _ _ ended => ?_
    refine ended.2.endedSpanned fun _ _ => ?_
    exact congrArg₂ (Node.assign · · default) sameTarget ended.1
  · refine (inside.read (readsInside_furtherFilters rfl)).bind fun filters _ _ _ ended => ?_
    refine (twin_expectBlockEnd ended.2).bind fun _ _ _ _ left => ?_
    refine reads.closedSpanned _ (fun nodes twins _ _ same => ?_) left
    rw [SameNode, Upto, Node.unplaced, Node.unplaced, SameNodes.body same, sameTarget, ended.1]

theorem ReadsBodies.block :
    Twin tape other (block reader start) (block twin twinStart)
      (Departs bound otherBound SameNode) := by
  rw [block_eq, block_eq]
  refine inside.reads_blockHead.bind fun name _ _ _ ended => ?_
  rw [ended.1]
  refine reads.closedSpanned _ (fun nodes twins _ _ same => ?_) ended.2
  rw [SameNode, Upto, Node.unplaced, Node.unplaced, SameNodes.body same]

theorem ReadsBodies.define :
    Twin tape other (define reader start) (define twin twinStart)
      (Departs bound otherBound SameNode) := by
  rw [define_eq, define_eq]
  refine inside.reads_defineHead.bind fun head _ _ _ ended => ?_
  refine reads.closedSpanned _ (fun nodes twins _ _ same => ?_) ended.2
  rw [SameNode, Upto, Node.unplaced, Node.unplaced, SameNodes.body same, ended.1.name,
    ended.1.params]

theorem ReadsBodies.callBlock :
    Twin tape other (callBlock reader start) (callBlock twin twinStart)
      (Departs bound otherBound SameNode) := by
  rw [callBlock_eq, callBlock_eq]
  refine inside.reads_callHead.bind fun head _ _ _ ended => ?_
  refine reads.closedSpanned _ (fun nodes twins _ _ same => ?_) ended.2
  rw [SameNode, Upto, Node.unplaced, Node.unplaced, SameNodes.body same, ended.1.params,
    ended.1.call]

theorem ReadsBodies.withBlock :
    Twin tape other (withBlock reader start) (withBlock twin twinStart)
      (Departs bound otherBound SameNode) := by
  rw [withBlock_eq, withBlock_eq]
  refine inside.reads_withHead.bind fun bindings _ _ _ ended => ?_
  refine reads.closedSpanned _ (fun nodes twins _ _ same => ?_) ended.2
  rw [SameNode, Upto, Node.unplaced, Node.unplaced, SameNodes.body same, ended.1]

theorem ReadsBodies.filterBlock :
    Twin tape other (filterBlock reader start) (filterBlock twin twinStart)
      (Departs bound otherBound SameNode) := by
  rw [filterBlock_eq, filterBlock_eq]
  refine inside.reads_filterHead.bind fun filters _ _ _ ended => ?_
  refine reads.closedSpanned _ (fun nodes twins _ _ same => ?_) ended.2
  rw [SameNode, Upto, Node.unplaced, Node.unplaced, SameNodes.body same, ended.1]

end Inside

/-! ### Tags with several bodies -/

omit reads in
theorem ReadsBodies.nextBranch (reads : ReadsBodies (bound + 1) (otherBound + 1) reader twin)
    {choice twinChoice : Choice} (same : SameChoice choice twinChoice)
    (parallel : Parallel (bound + 1) (otherBound + 1) tape other) :
    Twin tape other (nextBranch reader start choice) (nextBranch twin twinStart twinChoice)
      (TurnsAlike (Departs bound otherBound SameChoice)
        (Departs (bound + 1) (otherBound + 1) SameChoice)) := by
  refine (reads.on _ parallel).bind fun result twins here there stopped => ?_
  obtain ⟨nodes, found⟩ := result
  obtain ⟨twins, twinFound⟩ := twins
  obtain rfl : twinFound = found := stopped.found
  refine .seeing (run_spanFrom _ here) (run_spanFrom _ there) ?_
  have added := same.add stopped.nodes (choice.start.cover here.previousSpan)
    (twinChoice.start.cover there.previousSpan)
  have finishes {name : String} (isFound : twinFound = some name) :=
    stopped.parallel.reads_finishTag (stopped.atTag name isFound)
  dsimp only
  split
  · refine (stopped.parallel.reads_openTag (stopped.atTag _ rfl)).bind fun _ _ _ _ inside => ?_
    refine (inside.read readsInside_expression).bind fun test _ _ _ ended => ?_
    refine (twin_expectBlockEnd ended.2).bind fun _ _ _ _ left => ?_
    exact .pure (.again ⟨⟨added.branches, added.otherwise, ended.1⟩, left⟩)
  · refine (finishes rfl).bind fun _ _ _ _ left => ?_
    refine (reads.closedBody "if" left).bind fun nodes twins _ _ ended => ?_
    refine .pure (.done ⟨⟨added.branches, ?_, added.test⟩, ended.2⟩)
    exact congrArg some (SameNodes.body ended.1)
  · exact (finishes rfl).bind fun _ _ _ _ left => .pure (.done ⟨added, left⟩)
  · exact (stopped.parallel.reads_missingEnd _ _).bind fun _ _ _ _ left =>
      .pure (.done ⟨added, left⟩)

theorem ReadsBodies.choose (inside : ParallelInside bound otherBound delimiter tape other) :
    Twin tape other (choose reader start) (choose twin twinStart)
      (Departs bound otherBound SameNode) := by
  rw [choose_eq, choose_eq]
  refine inside.reads_chooseHead.bind fun test twinTest here there ended => ?_
  obtain ⟨sameTest, left⟩ := ended
  have first : SameChoice ⟨[], none, test, start⟩ ⟨[], none, twinTest, twinStart⟩ :=
    ⟨rfl, rfl, sameTest⟩
  have branches : Twin here there (loop (Statement.nextBranch reader start) ⟨[], none, test, start⟩)
      (loop (Statement.nextBranch twin twinStart) ⟨[], none, twinTest, twinStart⟩)
      (Departs bound otherBound SameChoice) := by
    refine left.reads_loop (fun limit otherLimit choice other here there isLess otherIsLess same
      parallel => .inr ?_) first
    refine ((reads.mono isLess otherIsLess).nextBranch same parallel).weaken
      fun result twin here there ended => ?_
    cases ended with
    | again ended => exact .again ended
    | done ended => exact .done ⟨ended.1, ended.2.mono isLess otherIsLess⟩
  refine branches.bind fun choice twinChoice _ _ ended => ?_
  obtain ⟨same, left⟩ := ended
  refine left.spanned fun _ _ => ?_
  rw [SameNode, Upto, Node.unplaced, Node.unplaced, same.branches, same.otherwise]

theorem ReadsBodies.loopOtherwise? {found : Option String}
    (atTag : ∀ name, found = some name → tape.AtTag name)
    (parallel : Parallel bound otherBound tape other) :
    Twin tape other (loopOtherwise? reader found start) (loopOtherwise? twin found twinStart)
      (Departs bound otherBound (Upto unplacedBody?)) := by
  unfold Statement.loopOtherwise?
  split
  · refine (parallel.reads_finishTag (atTag _ rfl)).bind fun _ _ _ _ left => ?_
    refine .map ((reads.closedBody "for" left).weaken fun _ _ _ _ ended => ?_)
    exact ⟨congrArg some (SameNodes.body ended.1), ended.2⟩
  · exact (parallel.reads_finishTag (atTag _ rfl)).bind fun _ _ _ _ left => .pure ⟨rfl, left⟩
  · exact (parallel.reads_missingEnd _ _).bind fun _ _ _ _ left => .pure ⟨rfl, left⟩

theorem ReadsBodies.each (inside : ParallelInside bound otherBound delimiter tape other) :
    Twin tape other (each reader start) (each twin twinStart)
      (Departs bound otherBound SameNode) := by
  rw [each_eq, each_eq]
  refine inside.reads_eachHead.bind fun head twinHead here there ended => ?_
  obtain ⟨sameHead, left⟩ := ended
  refine (reads.on _ left).bind fun result twins here there stopped => ?_
  obtain ⟨nodes, found⟩ := result
  obtain ⟨twins, twinFound⟩ := twins
  obtain rfl : twinFound = found := stopped.found
  refine (reads.loopOtherwise? stopped.atTag stopped.parallel).bind fun otherwise _ _ _ ended => ?_
  refine ended.2.spanned fun _ _ => ?_
  rw [SameNode, Upto, Node.unplaced, Node.unplaced, SameNodes.body stopped.nodes,
    sameHead.target, sameHead.items, sameHead.condition, ended.1]

/-! ### Tags of the host -/

omit reads in
/-- Where two heads stand while the hook of a tag reads: inside the tag, or behind its end once that
has been passed over. -/
def AtHook (bound otherBound : Nat) : Bool → Tape → Tape → Prop
  | false => ParallelInside bound otherBound .block
  | true => Parallel bound otherBound

omit reads in
theorem AtHook.report {closed : Bool} {diagnostic same : Diagnostic}
    (atHook : AtHook bound otherBound closed tape other)
    (told : Upto Diagnostic.unplaced diagnostic same) :
    AtHook bound otherBound closed (tape.report diagnostic) (other.report same) := by
  cases closed with
  | true => exact Parallel.report atHook told
  | false =>
      have reports : ReadsInside Same (Read.report diagnostic) (Read.report same) :=
        ⟨fun _ _ _ _ _ _ _ beside => ⟨rfl, beside.report told⟩, confined_report diagnostic,
          confined_report same⟩
      exact (ParallelInside.read atHook reports).2

omit reads in
/-- The end of the tag is passed over, unless it has been. -/
theorem AtHook.close {closed : Bool} {ends : α → α → Tape → Tape → Prop} {rest others : Unit → Read α}
    (atHook : AtHook bound otherBound closed tape other)
    (behind : ∀ here there, Parallel bound otherBound here there →
      Twin here there (rest ()) (others ()) ends) :
    Twin tape other (if (!closed) = true then expectBlockEnd >>= rest else rest ())
      (if (!closed) = true then expectBlockEnd >>= others else others ()) ends := by
  cases closed with
  | true => exact behind tape other atHook
  | false => exact (twin_expectBlockEnd atHook).bind fun _ _ here there => behind here there

omit reads in
theorem AtHook.takeWord {closed : Bool} (atHook : AtHook bound otherBound closed tape other)
    (word : String) :
    Twin tape other (takeWord word) (takeWord word) fun taken same here there =>
      same = taken ∧ AtHook bound otherBound closed here there := by
  cases closed with
  | false =>
      exact ParallelInside.read atHook (.of_likewise (likewise_takeWord word)
        (confined_takeWord word))
  | true =>
      obtain ⟨notWord, otherNotWord⟩ := Parallel.not_isName atHook word
      unfold Twin
      rw [run_takeWord, run_takeWord, notWord, otherNotWord]
      exact ⟨rfl, atHook⟩

/-- What comes of two hooks: the same statement up to places, and heads that stand alike. -/
abbrev Hooked (bound otherBound : Nat) (result same : Option Node × Bool) (here there : Tape) :
    Prop :=
  Upto (Option.map Node.unplaced) result.1 same.1 ∧ same.2 = result.2 ∧
    AtHook bound otherBound result.2 here there

/-- Hooks that ask the same are answered alike. -/
theorem ReadsBodies.runHook {name : String} {closed : Bool} {hook otherHook : Hook}
    (alike : hook.Alike closed otherHook) (atHook : AtHook bound otherBound closed tape other) :
    Twin tape other (runHook reader name start hook closed)
      (runHook twin name twinStart otherHook closed) (Hooked bound otherBound) := by
  induction alike generalizing tape other with
  | finish same => exact .pure ⟨same, rfl, atHook⟩
  | @look closed _ _ _ inductionHypothesis =>
      refine .seeing (run_peek tape) (run_peek other) (inductionHypothesis _ _ ?_ atHook)
      rintro rfl
      obtain ⟨margin, shared, beside⟩ := ParallelInside.exists_beside atHook
      exact beside.current
  | takeWord _ inductionHypothesis =>
      refine (atHook.takeWord _).bind fun taken _ _ _ ended => ?_
      obtain ⟨rfl, atHook⟩ := ended
      exact inductionHypothesis _ atHook
  | expression _ inductionHypothesis =>
      exact (ParallelInside.read atHook readsInside_expression).bind fun _ _ _ _ ended =>
        inductionHypothesis _ _ ended.1 ended.2
  | @expressionsUntil words _ _ _ inductionHypothesis =>
      have exprs : ReadsInside SameExprs (expressionsUntil words) (expressionsUntil words) :=
        .of_likewise (likewise_loop (turnsLikewise_hook words) rfl) (confined_expressionsUntil words)
      exact (ParallelInside.read atHook exprs).bind fun _ _ _ _ ended =>
        inductionHypothesis _ _ ended.1 ended.2
  | closeTag _ inductionHypothesis =>
      exact atHook.close fun _ _ left => inductionHypothesis left
  | @bodyUntil closed endings _ _ _ inductionHypothesis =>
      refine atHook.close fun _ _ left => ?_
      refine (reads.on endings left).bind fun result same here there stopped => ?_
      obtain ⟨nodes, found⟩ := result
      obtain ⟨twins, twinFound⟩ := same
      obtain rfl : twinFound = found := stopped.found
      cases twinFound with
      | none =>
          exact (stopped.parallel.reads_missingEnd _ _).bind fun _ _ _ _ left =>
            inductionHypothesis _ _ _ stopped.nodes left
      | some ending =>
          exact (stopped.parallel.reads_finishTag (stopped.atTag ending rfl)).bind
            fun _ _ _ _ left => inductionHypothesis _ _ _ stopped.nodes left
  | report same _ inductionHypothesis => exact inductionHypothesis (atHook.report same)
  | spanFrom _ inductionHypothesis => exact inductionHypothesis _ _ atHook

/-- A tag of the host is read alike if marks and places make no difference to its hook. -/
theorem ReadsBodies.custom {name : String} {extension : Extension} (heedless : extension.Heedless)
    (inside : ParallelInside bound otherBound .block tape other) :
    Twin tape other (custom reader extension name start) (custom twin extension name twinStart)
      (Departs bound otherBound (Upto (Option.map Node.unplaced))) := by
  have atHook : AtHook bound otherBound false tape other := inside
  refine (reads.runHook (heedless.alike name start twinStart) atHook).bind
    fun result same here there ended => ?_
  obtain ⟨node, closed⟩ := result
  obtain ⟨twinNode, twinClosed⟩ := same
  obtain ⟨sameNode, sameClosed, atHook⟩ := ended
  obtain rfl : twinClosed = closed := sameClosed
  exact atHook.close fun _ _ left => .pure ⟨sameNode, left⟩

/-! ### Statements -/

omit reads in
theorem Departs.some {node same : Node} {here there : Tape}
    (departs : Departs bound otherBound SameNode node same here there) :
    Departs bound otherBound (Upto (Option.map Node.unplaced)) (some node) (some same) here there :=
  ⟨congrArg Option.some departs.1, departs.2⟩

/-- Every tag but that of verbatim bodies is read alike, names that are no tags included. -/
theorem ReadsBodies.builtin {name : String} (notVerbatim : name ≠ "raw")
    (inside : ParallelInside bound otherBound delimiter tape other) :
    Twin tape other (builtin reader name start) (builtin twin name twinStart)
      (Departs bound otherBound (Upto (Option.map Node.unplaced))) := by
  unfold Statement.builtin
  split
  · exact .map ((reads.choose inside).weaken fun _ _ _ _ => Departs.some)
  · exact .map ((reads.each inside).weaken fun _ _ _ _ => Departs.some)
  · exact .map ((reads.assign inside).weaken fun _ _ _ _ => Departs.some)
  · exact .map ((reads.block inside).weaken fun _ _ _ _ => Departs.some)
  · exact .map (inside.reads_inherit.weaken fun _ _ _ _ => Departs.some)
  · exact .map (inside.reads_embed.weaken fun _ _ _ _ => Departs.some)
  · exact .map (inside.reads_importAs.weaken fun _ _ _ _ => Departs.some)
  · exact .map (inside.reads_importNames.weaken fun _ _ _ _ => Departs.some)
  · exact .map ((reads.define inside).weaken fun _ _ _ _ => Departs.some)
  · exact .map ((reads.callBlock inside).weaken fun _ _ _ _ => Departs.some)
  · exact .map ((reads.withBlock inside).weaken fun _ _ _ _ => Departs.some)
  · exact .map ((reads.filterBlock inside).weaken fun _ _ _ _ => Departs.some)
  · exact absurd rfl notVerbatim
  · refine .seeing (run_spanFrom _ tape) (run_spanFrom _ other) ?_
    refine (inside.read (readsInside_mistake _ _ _)).bind fun _ _ _ _ ended => ?_
    exact (twin_skipTag ended.2).bind fun _ _ _ _ left => .pure ⟨rfl, left⟩

theorem ReadsBodies.statement {register : Register} (heedless : register.Heedless) {trim : Bool}
    (opens : tape.current.kind = .blockStart trim)
    (parallel : Parallel (bound + 1) (otherBound + 1) tape other) :
    Twin tape other (statement register reader) (statement register twin)
      (Departs bound otherBound (Upto (Option.map Node.unplaced))) := by
  have opens : tape.current.kind = Delimiter.block.startKind trim := opens
  obtain ⟨_, inside, plain⟩ := parallel.enter opens
  obtain ⟨margin, shared, beside⟩ := inside.exists_beside
  refine Twin.advances.bind fun _ _ _ _ ended => ?_
  obtain ⟨rfl, rfl, rfl, rfl⟩ := ended
  refine .seeing (run_atKind _ _) (run_atKind _ _) ?_
  refine .ite (by rw [Likeness.kind beside.current]) (fun isName => ?_) fun _ => ?_
  · have isName := beq_iff_eq.mp isName
    have notVerbatim : tape.advance.current.lexeme ≠ "raw" := by
      intro isRaw
      have plain := plain rfl
      rw [Token.isName, isName, isRaw] at plain
      exact Bool.noConfusion plain
    obtain ⟨sameName, passed⟩ := inside.pass (by rw [isName]; rfl)
    refine Twin.advances.bind fun _ _ _ _ ended => ?_
    obtain ⟨rfl, rfl, rfl, rfl⟩ := ended
    have sameName : other.advance.current.lexeme = tape.advance.current.lexeme :=
      Likeness.lexeme sameName
    rw [sameName]
    dsimp only
    split
    · rename_i extension found
      exact reads.custom (heedless.of_extensionFor? found) passed
    · exact reads.builtin notVerbatim passed
  · refine (inside.read (readsInside_expected "tag name")).bind fun _ _ _ _ ended => ?_
    exact ended.2.ended rfl

end Bodies

/-! ### Turns -/

/-- A text of which nothing is left is no statement. -/
theorem run_text_of_nothing (isNothing : wordOf tape.current = ⟨.text, ""⟩) :
    (text.run tape).1 = none := by
  rw [run_text, textNode, show tape.current.lexeme = "" from congrArg Word.lexeme isNothing]
  cases tape.trims <;> cases tape.trimsEnd <;> rfl

theorem Body.add_none (body : Body) : body.add none = body := by
  rw [Body.add, Option.toArray_none, Array.append_empty]

/-- What two bodies come to that are read alike. -/
abbrev StoppedBody (bound otherBound : Nat) (body same : Body) : Tape → Tape → Prop :=
  Stopped bound otherBound (body.nodes.toList, body.found) (same.nodes.toList, same.found)

theorem Stopped.mono {result same : List Node × Option String} {here there : Tape}
    (stopped : Stopped fewer otherFewer result same here there) (isFewer : fewer ≤ bound)
    (otherIsFewer : otherFewer ≤ otherBound) : Stopped bound otherBound result same here there :=
  { stopped with parallel := stopped.parallel.mono isFewer otherIsFewer }

/-- Where two heads stand behind which tokens match, text loses no blanks. -/
theorem Parallel.reads_text (parallel : Parallel fewer otherFewer tape other)
    (moved : Parallel bound otherBound tape.advance other.advance) (more : tape.following ≠ [])
    (otherMore : other.following ≠ []) (same : sameSaid.token tape.current other.current) :
    Upto (Option.map Node.unplaced) (text.run tape).1 (text.run other).1 := by
  obtain ⟨unmarked, otherUnmarked⟩ := moved.matching.unmarked
  rw [Tape.remaining_advance_of_more more] at unmarked
  rw [Tape.remaining_advance_of_more otherMore] at otherUnmarked
  rw [run_text, run_text, parallel.trims, parallel.otherTrims, Tape.trimsEnd, Tape.trimsEnd,
    unmarked, otherUnmarked, textNode, textNode, Likeness.lexeme same, textOf, textOf]
  split <;> rfl

section Turns

variable {register : Register} {reader twin : BodyReader} {endings : List String}
  {body twinBody : Body} (sameBody : SameBody ([], []) body twinBody)
include sameBody

theorem Parallel.textTurn (parallel : Parallel fewer otherFewer tape other)
    (isText : tape.current.kind = .text) (same : sameSaid.token tape.current other.current)
    (more : tape.following ≠ []) (otherMore : other.following ≠ [])
    (moved : Parallel bound otherBound tape.advance other.advance) :
    Twin tape other (nextNode register reader endings body) (nextNode register twin endings twinBody)
      (TurnsAlike (Departs bound otherBound (SameBody ([], [])))
        (StoppedBody fewer otherFewer)) := by
  have otherText := (Likeness.kind same).trans isText
  unfold Twin
  rw [run_nextNode_of_textKind isText, run_nextNode_of_textKind otherText]
  exact .again ⟨sameBody.add (parallel.reads_text moved more otherMore same), moved⟩

theorem commentTurn (isComment : tape.current.kind = .comment false false)
    (same : sameSaid.token tape.current other.current)
    (moved : Parallel bound otherBound tape.advance other.advance) :
    Twin tape other (nextNode register reader endings body) (nextNode register twin endings twinBody)
      (TurnsAlike (Departs bound otherBound (SameBody ([], [])))
        (StoppedBody fewer otherFewer)) := by
  refine .seeing (run_peek tape) (run_peek other) ?_
  rw [Likeness.kind same, isComment]
  have reads : Twin tape other (comment false false) (comment false false)
      (Departs bound otherBound SameNode) := by
    refine Twin.advances.bind fun _ _ _ _ ended => ?_
    obtain ⟨rfl, rfl, rfl, rfl⟩ := ended
    refine .pure ⟨?_, moved⟩
    rw [SameNode, Upto, Likeness.lexeme same]
    rfl
  exact reads.bind fun _ _ _ _ ended => .pure (.again ⟨sameBody.add ended.some.1, ended.2⟩)

theorem Parallel.outputTurn
    (parallel : Parallel (bound + 1) (otherBound + 1) tape other)
    (opens : tape.current.kind = .variableStart false) :
    Twin tape other (nextNode register reader endings body) (nextNode register twin endings twinBody)
      (TurnsAlike (Departs bound otherBound (SameBody ([], [])))
        (StoppedBody fewer otherFewer)) := by
  have opens : tape.current.kind = Delimiter.output.startKind false := opens
  obtain ⟨same, inside, _⟩ := parallel.enter opens
  refine .seeing (run_peek tape) (run_peek other) ?_
  rw [Likeness.kind same, opens]
  have output : Twin tape other output output (Departs bound otherBound SameNode) := by
    refine Twin.advances.bind fun _ _ _ _ ended => ?_
    obtain ⟨rfl, rfl, rfl, rfl⟩ := ended
    refine (inside.read readsInside_expression).bind fun value _ _ _ ended => ?_
    refine (twin_expectTagEnd _ ended.2).bind fun _ _ _ _ left => left.spanned fun _ _ => ?_
    exact congrArg (Node.output · default) ended.1
  exact output.bind fun _ _ _ _ ended => .pure (.again ⟨sameBody.add ended.some.1, ended.2⟩)

/-- At a tag a body stops, or a body around it does, or the tag is a statement. -/
theorem ReadsBodies.tagTurn (heedless : register.Heedless)
    (reads : ReadsBodies bound otherBound reader twin) (parallel : Parallel (bound + 1) (otherBound + 1) tape other)
    (opens : tape.current.kind = .blockStart false) :
    Twin tape other (nextNode register reader endings body) (nextNode register twin endings twinBody)
      (TurnsAlike (Departs bound otherBound (SameBody ([], [])))
        (StoppedBody (bound + 1) (otherBound + 1))) := by
  obtain ⟨same, inside, _⟩ :=
    parallel.enter (show tape.current.kind = Delimiter.block.startKind false from opens)
  obtain ⟨margin, shared, beside⟩ := inside.exists_beside
  have goesOn : Twin tape other
      (do return Turn.again (body.add (← Statement.statement register reader)))
      (do return Turn.again (twinBody.add (← Statement.statement register twin)))
      (TurnsAlike (Departs bound otherBound (SameBody ([], [])))
        (StoppedBody (bound + 1) (otherBound + 1))) :=
    (reads.statement heedless opens parallel).bind fun _ _ _ _ ended =>
      .pure (.again ⟨sameBody.add ended.1, ended.2⟩)
  have sameNodes := sameBody.nodes.same
  refine .seeing (run_peek tape) (run_peek other) ?_
  rw [Likeness.kind same, opens]
  refine .seeing (run_peekAhead 1 tape) (run_peekAhead 1 other) ?_
  rw [Tape.ahead_one, Tape.ahead_one]
  refine .ite (by rw [Likeness.kind beside.current]) (fun isName => ?_) fun _ => goesOn
  rw [Likeness.lexeme beside.current]
  refine .ite Iff.rfl (fun _ => .pure (.done ⟨sameNodes, rfl, parallel, ?_⟩)) fun _ => ?_
  · rintro name isFound
    refine ⟨⟨false, opens⟩, ?_⟩
    rw [Token.isName, isName, ← Option.some.inj isFound, beq_self_eq_true]
    rfl
  · refine .seeing (run_closesEnclosing _ tape) (run_closesEnclosing _ other) ?_
    rw [parallel.enclosing]
    refine .ite Iff.rfl (fun _ => .pure (.done ⟨sameNodes, ?_, parallel, ?_⟩)) fun _ => goesOn
    · rw [sameBody.unfound, sameBody.twinUnfound]
    · intro name isFound
      rw [sameBody.unfound] at isFound
      cases isFound

/-- One turn of a body on tapes that match, or one on the first tape alone at a text of which
nothing is left. -/
theorem ReadsBodies.turn (heedless : register.Heedless)
    (reads : ReadsBodies bound otherBound reader twin) (parallel : Parallel (bound + 1) (otherBound + 1) tape other) :
    (∃ next final, (nextNode register reader endings body).run tape = (.again next, final) ∧
        SameBody ([], []) next twinBody ∧ Parallel bound (otherBound + 1) final other) ∨
      Twin tape other (nextNode register reader endings body) (nextNode register twin endings twinBody)
        (TurnsAlike (Departs bound otherBound (SameBody ([], [])))
          (StoppedBody (bound + 1) (otherBound + 1))) := by
  rcases parallel.stands with ⟨isEnd, otherEnd⟩ | ⟨isNothing, _, moved⟩ |
    ⟨isOuter, same, more, otherMore, moved⟩ | ⟨delimiter, opens, _, _⟩
  · refine .inr ?_
    unfold Twin
    rw [run_nextNode_of_end isEnd, run_nextNode_of_end otherEnd]
    refine .done ⟨sameBody.nodes.same, ?_, parallel, ?_⟩
    · rw [sameBody.unfound, sameBody.twinUnfound]
    · intro name isFound
      rw [sameBody.unfound] at isFound
      cases isFound
  · refine .inl ⟨_, _, run_nextNode_of_textKind (congrArg Word.kind isNothing), ?_, moved⟩
    rw [run_text_of_nothing isNothing, Body.add_none]
    exact sameBody
  · refine .inr ?_
    rcases isOuter with isText | isComment
    · exact parallel.textTurn sameBody isText same more otherMore moved
    · exact commentTurn sameBody isComment same moved
  · refine .inr ?_
    cases delimiter with
    | output => exact parallel.outputTurn sameBody opens
    | block => exact reads.tagTurn sameBody heedless parallel opens

end Turns

/-! ### Bodies of any depth -/

section Nested

variable {register : Register} (heedless : register.Heedless)
include heedless

/-- A body is read alike where the bodies nested in it are. -/
theorem ReadsBodies.around {reader twin : BodyReader}
    (reads : ReadsBodies bound otherBound reader twin) :
    ReadsBodies (bound + 1) (otherBound + 1) (bodyAround register reader)
      (bodyAround register twin) := by
  intro endings fewer isFewer otherFewer otherIsFewer tape other parallel
  have inside := parallel.surrounded (endings :: tape.enclosing)
  have empty : SameBody ([], []) ⟨#[], none⟩ ⟨#[], none⟩ := ⟨⟨[], [], rfl, rfl, rfl⟩, rfl, rfl⟩
  have stopped : Twin { tape with enclosing := endings :: tape.enclosing }
      { other with enclosing := endings :: tape.enclosing }
      (loop (nextNode register reader endings) ⟨#[], none⟩)
      (loop (nextNode register twin endings) ⟨#[], none⟩) (StoppedBody fewer otherFewer) := by
    refine inside.reads_loop
      (fun limit otherLimit body twinBody here there isLess otherIsLess sameBody parallel => ?_) empty
    have fits := reads.mono (Nat.le_of_succ_le_succ (Nat.le_trans isLess isFewer))
      (Nat.le_of_succ_le_succ (Nat.le_trans otherIsLess otherIsFewer))
    refine (fits.turn sameBody heedless parallel).imp_right fun turn => turn.weaken
      fun result twin here there ended => ?_
    cases ended with
    | again ended => exact .again ended
    | done ended => exact .done (ended.mono isLess otherIsLess)
  unfold Twin at stopped ⊢
  rw [run_bodyAround, run_bodyAround, parallel.enclosing]
  exact ⟨stopped.nodes, stopped.found, stopped.parallel.surrounded tape.enclosing,
    fun name isFound => (stopped.atTag name isFound).surrounded _⟩

omit heedless in
/-- Where no tokens are allowed for, there is nothing to read. -/
theorem readsBodies_of_zero {reader twin : BodyReader} (isZero : bound = 0 ∨ otherBound = 0) :
    ReadsBodies bound otherBound reader twin := by
  intro endings fewer isFewer otherFewer otherIsFewer tape other parallel
  have short := parallel.short
  have otherShort := parallel.otherShort
  omega

/-- Bodies nested deeply enough for their tokens are read alike. -/
theorem readsBodies_nestedBody {depth otherDepth : Nat} (enough : bound ≤ depth)
    (otherEnough : otherBound ≤ otherDepth) :
    ReadsBodies bound otherBound (nestedBody register depth) (nestedBody register otherDepth) := by
  induction bound generalizing otherBound depth otherDepth with
  | zero => exact readsBodies_of_zero (.inl rfl)
  | succ bound inductionHypothesis =>
      cases otherBound with
      | zero => exact readsBodies_of_zero (.inr rfl)
      | succ otherBound =>
          obtain ⟨depth, rfl⟩ := Nat.exists_eq_add_of_le' (Nat.le_trans (Nat.succ_pos _) enough)
          obtain ⟨otherDepth, rfl⟩ :=
            Nat.exists_eq_add_of_le' (Nat.le_trans (Nat.succ_pos _) otherEnough)
          exact ReadsBodies.around heedless <| inductionHypothesis (Nat.le_of_succ_le_succ enough)
            (Nat.le_of_succ_le_succ otherEnough)

/-- Templates of tokens that match are the same up to places, and so is what is wrong with them. -/
theorem Parallel.reads_template (parallel : Parallel bound otherBound tape other) :
    Twin tape other (template register) (template register) fun template same here there =>
      unplacedBody same.body = unplacedBody template.body ∧
        there.problems.toList.map Diagnostic.unplaced =
          here.problems.toList.map Diagnostic.unplaced := by
  have stopped := (readsBodies_nestedBody heedless (Nat.le_refl _) (Nat.le_refl _)).on []
    parallel.least
  unfold Twin at stopped ⊢
  rw [run_template, run_template, run_body, run_body]
  exact ⟨stopped.nodes.body, stopped.parallel.told⟩

end Nested

end Stencil.Grammar
