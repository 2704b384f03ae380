import Stencil.Grammar.Template
import Stencil.Proofs.Grammar.Progress
import Stencil.Proofs.Syntax.Count

/-!
Contract: a token is used up for each statement that is read, whatever the tokens are.

Owns:
- what statements cost: those of the language, and tags of a host without a hook of its own;
- bodies of all depths, whatever reads the bodies for which no depth is left.

Does not own: expressions and clauses (`Stencil.Proofs.Grammar.Progress`), and whole templates
(`Stencil.Proofs.Grammar.Totality`).
-/

set_option autoImplicit false

namespace Stencil.Grammar

open Stencil.Syntax
open Stencil.Text (Span)
open Stencil.Token (Kind Symbol)
open Levels Read Statement

variable {bound fewer : Nat} {tape : Tape} {reader other : BodyReader}

/-! ### Ends of tags -/

theorem agree_advance : Agree bound Read.advance Read.advance :=
  fun _ isSealed =>
    ⟨rfl, Tape.passes_advance trivial, isSealed.onward (Tape.passes_advance trivial)⟩

theorem agree_skipTag : Agree bound skipTag skipTag := by
  have skips : Agree bound (modify (·.skipTo resumes) : Read Unit) (modify (·.skipTo resumes)) :=
    fun tape isSealed =>
      ⟨rfl, Tape.onward_skipTo resumes, isSealed.onward (Tape.onward_skipTo resumes)⟩
  refine skips.bind fun _ => confined_atTagEnd.agree.bind fun _ => .ite ?_ (.pure _)
  exact agree_advance.bind fun _ => .pure _

theorem agree_expectTagEnd (what : Kind) : Agree bound (expectTagEnd what) (expectTagEnd what) := by
  refine confined_atTagEnd.agree.bind fun _ => .ite ?_ ?_
  · exact agree_advance.bind fun _ => .pure _
  · exact (confined_expected _).agree.bind fun _ => agree_skipTag

theorem agree_expectBlockEnd : Agree bound expectBlockEnd expectBlockEnd := agree_expectTagEnd _

theorem agree_openTag : Agree bound openTag openTag :=
  agree_advance.bind fun _ => agree_advance.bind fun _ => .pure _

theorem agree_finishTag : Agree bound finishTag finishTag := by
  refine agree_openTag.bind fun _ => (confined_peekAhead 1).agree.bind fun _ => ?_
  refine (confined_atKind _).agree.bind fun _ => .ite ?_ agree_expectBlockEnd
  exact agree_advance.bind fun _ => agree_expectBlockEnd

theorem agree_missingEnd (tag ending : String) (start : Span) :
    Agree bound (missingEnd tag ending start) (missingEnd tag ending start) :=
  (confined_mistake _ _).agree

/-! ### What statements cost -/

/-- Whether at least as many tokens are used up as there are statements. The first of them is paid
for by the token that it begins with, which `bound` does not count. -/
def Paid (bound : Nat) (nodes : List Node) (tape : Tape) : Prop :=
  tape.Sealed (bound - (countOf nodes - 1))

/-- A statement made of its span costs what its bodies cost. -/
theorem paid_built (start : Span) (build : Span → Node) (cost : Nat)
    (counts : ∀ span, (build span).count = 1 + cost) (isSealed : tape.Sealed (bound - cost)) :
    Lockstep tape (do return build (← spanFrom start)) (do return build (← spanFrom start))
      fun node => Paid bound [node] := by
  refine .seeing (run_spanFrom start tape) (.pure ?_)
  rw [Paid, countOf_singleton, counts, Nat.add_sub_cancel_left]
  exact isSealed

theorem paid_flat (start : Span) (build : Span → Node)
    (counts : ∀ span, (build span).count = 1) (isSealed : tape.Sealed bound) :
    Lockstep tape (do return build (← spanFrom start)) (do return build (← spanFrom start))
      fun node => Paid bound [node] :=
  paid_built start build 0 counts isSealed

/-- A statement that is there costs what it costs. -/
theorem Lockstep.present {action otherAction : Read Node}
    (paid : Lockstep tape action otherAction fun node => Paid bound [node]) :
    Lockstep tape (some <$> action) (some <$> otherAction) fun node => Paid bound node.toList where
  same := by rw [run_map, run_map, paid.same]
  onward := paid.onward
  arrives := paid.arrives

/-! ### Tags without bodies -/

theorem paid_inherit (start : Span) (isSealed : tape.Sealed bound) :
    Lockstep tape (inherit start) (inherit start) fun node => Paid bound [node] := by
  refine (confined_expression.agree tape isSealed).bind fun template here isSealed => ?_
  refine (agree_expectBlockEnd here isSealed).bind fun _ there isSealed => ?_
  exact paid_flat start (.inherit template) (fun _ => by rw [Node.count]) isSealed

theorem paid_embed (start : Span) (isSealed : tape.Sealed bound) :
    Lockstep tape (embed start) (embed start) fun node => Paid bound [node] := by
  refine (confined_expression.agree tape isSealed).bind fun template here isSealed => ?_
  have clauses : Confined (loop clauseTurn ⟨false, false⟩) := confined_loop confined_clauseTurn _
  refine (clauses.agree here isSealed).bind fun clauses here isSealed => ?_
  refine (agree_expectBlockEnd here isSealed).bind fun _ there isSealed => ?_
  exact paid_flat start (.embed template clauses.withContext clauses.ignoreMissing)
    (fun _ => by rw [Node.count]) isSealed

theorem paid_importAs (start : Span) (isSealed : tape.Sealed bound) :
    Lockstep tape (importAs start) (importAs start) fun node => Paid bound [node] := by
  refine (confined_expression.agree tape isSealed).bind fun template here isSealed => ?_
  refine ((confined_expectWord _).agree here isSealed).bind fun _ here isSealed => ?_
  refine ((confined_expectName _).agree here isSealed).bind fun name here isSealed => ?_
  refine (confined_contextClause?.agree here isSealed).bind fun context here isSealed => ?_
  refine (agree_expectBlockEnd here isSealed).bind fun _ there isSealed => ?_
  exact paid_flat start (.importAs template (name.getD "") (context.getD false))
    (fun _ => by rw [Node.count]) isSealed

theorem paid_importNames (start : Span) (isSealed : tape.Sealed bound) :
    Lockstep tape (importNames start) (importNames start) fun node => Paid bound [node] := by
  refine (confined_expression.agree tape isSealed).bind fun template here isSealed => ?_
  refine ((confined_expectWord _).agree here isSealed).bind fun _ here isSealed => ?_
  have names : Confined (loop importTurn []) := confined_loop confined_importTurn _
  refine (names.agree here isSealed).bind fun names here isSealed => ?_
  have rest (there : Tape) (isSealed : there.Sealed bound) :
      let ending : Read Node := do
        let withContext := (← contextClause?).getD false
        expectBlockEnd
        return .importNames template names withContext (← spanFrom start)
      Lockstep there ending ending fun node => Paid bound [node] := by
    refine (confined_contextClause?.agree there isSealed).bind fun context here isSealed => ?_
    refine (agree_expectBlockEnd here isSealed).bind fun _ there isSealed => ?_
    exact paid_flat start (.importNames template names (context.getD false))
      (fun _ => by rw [Node.count]) isSealed
  refine .ite (fun _ => ?_) fun _ => rest here isSealed
  exact ((confined_expected _).agree here isSealed).bind fun _ => rest

theorem paid_verbatim (start : Span) (isSealed : tape.Sealed bound) :
    Lockstep tape (verbatim start) (verbatim start) fun node => Paid bound [node] := by
  refine (agree_expectBlockEnd tape isSealed).bind fun _ here isSealed => ?_
  have rest (content : String) (there : Tape) (isSealed : there.Sealed bound) :
      Lockstep there (verbatimEnd content start) (verbatimEnd content start)
        fun node => Paid bound [node] := by
    refine .seeing (run_peek there) ?_
    refine .seeing (run_peekAhead 1 there) ?_
    have last (final : Tape) (isSealed : final.Sealed bound) :=
      paid_flat start (.verbatim content) (fun _ => by rw [Node.count]) isSealed
    refine .ite (fun _ => ?_) fun _ => ?_
    · exact (agree_finishTag there isSealed).bind fun _ => last
    · exact (agree_missingEnd _ _ _ there isSealed).bind fun _ => last
  refine .seeing (run_atKind .text here) ?_
  refine .ite (fun _ => ?_) fun _ => rest "" here isSealed
  refine .seeing (run_trimmedText here) ?_
  exact (agree_advance here isSealed).bind fun _ => rest _

/-! ### Bodies -/

/-- What a body that was read leaves: it has no more statements than tokens were used up, and what
it found is one of its closing tags. -/
structure BodyRead (bound : Nat) (endings : List String) (result : List Node × Option String)
    (final : Tape) : Prop where
  isSealed : final.Sealed (bound - countOf result.1)
  atTag : ∀ name ∈ result.2, name ∈ endings ∧ ∃ trim, final.current.kind = .blockStart trim

/-- Whether two readers of bodies do the same from every tape with fewer tokens left than `bound`. -/
def BodiesAgree (bound : Nat) (reader other : BodyReader) : Prop :=
  ∀ (endings : List String) (tape : Tape), tape.Sealed bound →
    Lockstep tape (reader endings) (other endings) (BodyRead (tape.following.length + 1) endings)

theorem BodiesAgree.mono (agree : BodiesAgree bound reader other) (isFewer : fewer ≤ bound) :
    BodiesAgree fewer reader other :=
  fun endings tape isSealed => agree endings tape (isSealed.mono isFewer)

theorem BodiesAgree.on (agree : BodiesAgree bound reader other) (endings : List String)
    (isSealed : tape.Sealed fewer) (isFewer : fewer ≤ bound) :
    Lockstep tape (reader endings) (other endings) (BodyRead fewer endings) := by
  refine (agree endings tape (isSealed.mono isFewer)).weaken fun result final _ read => ?_
  have short : tape.following.length + 1 ≤ fewer := isSealed.short
  exact ⟨read.isSealed.mono (Nat.sub_le_sub_right short _), read.atTag⟩

section Bodies

variable (agree : BodiesAgree bound reader other) (start : Span)
include agree

theorem paid_closedBody (ending tag : String) (isSealed : tape.Sealed fewer)
    (isFewer : fewer ≤ bound) :
    Lockstep tape (closedBody reader ending tag start) (closedBody other ending tag start)
      fun nodes final => final.Sealed (fewer - countOf nodes) := by
  refine (agree.on [ending] isSealed isFewer).bind fun result here read => ?_
  refine .ite (fun _ => ?_) fun _ => ?_
  · exact (agree_finishTag here read.isSealed).bind fun _ _ isSealed => .pure isSealed
  · exact (agree_missingEnd _ _ _ here read.isSealed).bind fun _ _ isSealed => .pure isSealed

/-- A closed body is the last thing that most tags have. -/
theorem paid_closed (ending tag : String) (build : List Node → Span → Node)
    (counts : ∀ nodes span, (build nodes span).count = 1 + countOf nodes)
    (isSealed : tape.Sealed bound) :
    Lockstep tape
      (do
        let nodes ← closedBody reader ending tag start
        return build nodes (← spanFrom start))
      (do
        let nodes ← closedBody other ending tag start
        return build nodes (← spanFrom start))
      fun node => Paid bound [node] := by
  refine (paid_closedBody agree start ending tag isSealed (Nat.le_refl bound)).bind
    fun nodes here isSealed => ?_
  exact paid_built start (build nodes) (countOf nodes) (counts nodes) isSealed

/-- The statements of the branches read so far, and of the last body if it was read. -/
def Statement.Choice.count (choice : Choice) : Nat :=
  countOfBranches choice.branches + countOf (choice.otherwise.getD [])

/-- A branch uses up a token for each of its statements. -/
theorem paid_nextBranch (choice : Choice) (isSealed : tape.Sealed (fewer + 1))
    (isFewer : fewer < bound) :
    Lockstep tape (nextBranch reader start choice) (nextBranch other start choice)
      (turnEnds
        (fun next final => ∃ cost, next.count ≤ choice.count + cost ∧ final.Sealed (fewer - cost))
        fun result final =>
          ∃ cost, result.count ≤ choice.count + cost ∧ final.Sealed (fewer + 1 - cost)) := by
  refine (agree.on _ isSealed isFewer).bind fun result here read => ?_
  obtain ⟨nodes, found⟩ := result
  obtain ⟨isSealed, atTag⟩ := read
  have counts (span : Span) :
      countOfBranches (choice.branches ++ [Branch.mk choice.test nodes span]) =
        countOfBranches choice.branches + countOf nodes := by
    rw [countOfBranches_append, countOfBranches, countOfBranches, Nat.add_zero]
  have further (span : Span) :
      countOfBranches (choice.branches ++ [Branch.mk choice.test nodes span]) +
        countOf (choice.otherwise.getD []) ≤ choice.count + countOf nodes := by
    rw [counts, Choice.count]
    omega
  refine .seeing (run_spanFrom _ here) ?_
  dsimp only
  split
  · obtain ⟨left, isLeft⟩ := isSealed.exists_succ
    obtain ⟨-, trim, isStart⟩ := atTag _ rfl
    have notEnd : here.current.kind ≠ .endOfInput := by
      rw [isStart]
      exact Kind.noConfusion
    have opened : Lockstep here openTag openTag fun _ => Tape.Sealed left := by
      refine (lockstep_pass (isLeft ▸ isSealed) notEnd).bind fun token there passed => ?_
      exact (agree_advance there passed.2.2).bind fun _ _ isSealed => .pure isSealed
    refine opened.bind fun _ here isSealed => ?_
    refine (confined_expression.agree here isSealed).bind fun test here isSealed => ?_
    refine (agree_expectBlockEnd here isSealed).bind fun _ there isSealed => ?_
    refine .pure ⟨countOf nodes, further _, isSealed.mono ?_⟩
    simp only at isLeft
    omega
  · refine (agree_finishTag here isSealed).bind fun _ here isSealed => ?_
    have isFewer : fewer + 1 - countOf nodes ≤ bound := Nat.le_trans (Nat.sub_le _ _) isFewer
    refine (paid_closedBody agree start _ _ isSealed isFewer).bind fun others there isSealed => ?_
    rw [Nat.sub_sub] at isSealed
    refine .pure ⟨countOf nodes + countOf others, ?_, isSealed⟩
    simp only [Choice.count, counts, Option.getD_some]
    omega
  · exact (agree_finishTag here isSealed).bind fun _ here isSealed =>
      .pure ⟨countOf nodes, further _, isSealed⟩
  · exact (agree_missingEnd _ _ _ here isSealed).bind fun _ here isSealed =>
      .pure ⟨countOf nodes, further _, isSealed⟩

omit start in
/-- What the branches read so far have cost stays paid for. -/
theorem paid_choiceTurn (start : Span) (choice : Choice) (here : Tape)
    (isSealed : here.Sealed (bound - choice.count)) :
    Lockstep here (nextBranch reader start choice) (nextBranch other start choice)
      (turnEnds (fun next final => final.Sealed (bound - next.count) ∧
          final.following.length < here.following.length)
        fun result final => final.Sealed (bound - result.count)) := by
  have room := isSealed.short
  have isFewer : here.following.length < bound := by omega
  refine (paid_nextBranch agree start choice isSealed.tight isFewer).weaken
    fun outcome final _ ended => ?_
  cases outcome with
  | again next =>
      obtain ⟨cost, counts, isSealed⟩ := ended
      have shorter := isSealed.short
      exact ⟨isSealed.mono (by omega), by omega⟩
  | done result =>
      obtain ⟨cost, counts, isSealed⟩ := ended
      exact isSealed.mono (by omega)

theorem paid_choose (isSealed : tape.Sealed bound) :
    Lockstep tape (choose reader start) (choose other start) fun node => Paid bound [node] := by
  refine (confined_expression.agree tape isSealed).bind fun test here isSealed => ?_
  refine (agree_expectBlockEnd here isSealed).bind fun _ here isSealed => ?_
  have unpaid : (⟨[], none, test, start⟩ : Choice).count = 0 := by
    simp [Choice.count, countOfBranches]
  refine (lockstep_loop (fun choice final => final.Sealed (bound - choice.count))
    (paid_choiceTurn agree start) (by rwa [unpaid])).bind fun choice there isSealed => ?_
  exact paid_built start (.choose choice.branches choice.otherwise) _ (count_choose _ _) isSealed

theorem paid_loopOtherwise? (found : Option String) (isSealed : tape.Sealed fewer)
    (isFewer : fewer ≤ bound) :
    Lockstep tape (loopOtherwise? reader found start) (loopOtherwise? other found start)
      fun otherwise final => final.Sealed (fewer - countOf (otherwise.getD [])) := by
  unfold loopOtherwise?
  split
  · refine (agree_finishTag tape isSealed).bind fun _ here isSealed => ?_
    exact Lockstep.map (paid_closedBody agree start _ _ isSealed isFewer)
  · exact (agree_finishTag tape isSealed).bind fun _ _ isSealed => .pure isSealed
  · exact (agree_missingEnd _ _ _ tape isSealed).bind fun _ _ isSealed => .pure isSealed

theorem paid_each (isSealed : tape.Sealed bound) :
    Lockstep tape (each reader start) (each other start) fun node => Paid bound [node] := by
  refine ((confined_assignTarget _).agree tape isSealed).bind fun target here isSealed => ?_
  refine ((confined_expectWord _).agree here isSealed).bind fun _ here isSealed => ?_
  refine (confined_disjunction.agree here isSealed).bind fun items here isSealed => ?_
  refine (confined_loopCondition?.agree here isSealed).bind fun condition here isSealed => ?_
  refine (agree_expectBlockEnd here isSealed).bind fun _ here isSealed => ?_
  refine (agree.on _ isSealed (Nat.le_refl bound)).bind fun result here read => ?_
  refine (paid_loopOtherwise? agree start result.2 read.isSealed (Nat.sub_le _ _)).bind
    fun otherwise there isSealed => ?_
  rw [Nat.sub_sub] at isSealed
  exact paid_built start (.each target items condition result.1 otherwise) _
    (count_each _ _ _ _ _) isSealed

theorem paid_assign (isSealed : tape.Sealed bound) :
    Lockstep tape (assign reader start) (assign other start) fun node => Paid bound [node] := by
  refine ((confined_assignTarget _).agree tape isSealed).bind fun target here isSealed => ?_
  refine ((confined_takeSymbol _).agree here isSealed).bind fun _ here isSealed => ?_
  refine .ite (fun _ => ?_) fun _ => ?_
  · refine (confined_expressionList.agree here isSealed).bind fun value here isSealed => ?_
    refine (agree_expectBlockEnd here isSealed).bind fun _ there isSealed => ?_
    exact paid_flat start (.assign target value) (fun _ => by rw [Node.count]) isSealed
  · refine ((confined_furtherFilters _).agree here isSealed).bind fun filters here isSealed => ?_
    refine (agree_expectBlockEnd here isSealed).bind fun _ there isSealed => ?_
    exact paid_closed agree start _ _ (.capture target filters) (fun _ _ => by rw [Node.count])
      isSealed

theorem paid_block (isSealed : tape.Sealed bound) :
    Lockstep tape (block reader start) (block other start) fun node => Paid bound [node] := by
  refine ((confined_expectName _).agree tape isSealed).bind fun name here isSealed => ?_
  have words : Confined (loop blockWordTurn ()) := confined_loop confined_blockWordTurn _
  refine (words.agree here isSealed).bind fun _ here isSealed => ?_
  refine (agree_expectBlockEnd here isSealed).bind fun _ there isSealed => ?_
  exact paid_closed agree start _ _ (.block (name.getD "")) (fun _ _ => by rw [Node.count])
    isSealed

theorem paid_define (isSealed : tape.Sealed bound) :
    Lockstep tape (define reader start) (define other start) fun node => Paid bound [node] := by
  refine ((confined_expectName _).agree tape isSealed).bind fun name here isSealed => ?_
  have rest (params : List Param) (there : Tape) (isSealed : there.Sealed bound) :
      Lockstep there
        (do
          expectBlockEnd
          let nodes ← closedBody reader "endmacro" "macro" start
          return Node.define (name.getD "") params nodes (← spanFrom start))
        (do
          expectBlockEnd
          let nodes ← closedBody other "endmacro" "macro" start
          return Node.define (name.getD "") params nodes (← spanFrom start))
        fun node => Paid bound [node] := by
    refine (agree_expectBlockEnd there isSealed).bind fun _ final isSealed => ?_
    exact paid_closed agree start _ _ (.define (name.getD "") params)
      (fun _ _ => by rw [Node.count]) isSealed
  refine .seeing (run_atSymbol .leftParen here) ?_
  refine .ite (fun isParen => ?_) fun _ => ?_
  · have opens : here.current.kind.isInner = true := by
      rw [beq_iff_eq.mp isParen]
      rfl
    exact (lockstep_inside (inside_params opens) isSealed).bind rest
  · exact ((confined_expected _).agree here isSealed).bind fun _ => rest []

theorem paid_callBlock (isSealed : tape.Sealed bound) :
    Lockstep tape (callBlock reader start) (callBlock other start)
      fun node => Paid bound [node] := by
  refine (confined_callerParams.agree tape isSealed).bind fun params here isSealed => ?_
  refine (confined_expression.agree here isSealed).bind fun call here isSealed => ?_
  refine (agree_expectBlockEnd here isSealed).bind fun _ there isSealed => ?_
  exact paid_closed agree start _ _ (.callBlock call params) (fun _ _ => by rw [Node.count])
    isSealed

theorem paid_withBlock (isSealed : tape.Sealed bound) :
    Lockstep tape (withBlock reader start) (withBlock other start)
      fun node => Paid bound [node] := by
  have bindings : Confined (loop bindingTurn []) := confined_loop confined_bindingTurn _
  refine (bindings.agree tape isSealed).bind fun bindings here isSealed => ?_
  refine (agree_expectBlockEnd here isSealed).bind fun _ there isSealed => ?_
  exact paid_closed agree start _ _ (.withBlock bindings) (fun _ _ => by rw [Node.count]) isSealed

theorem paid_filterBlock (isSealed : tape.Sealed bound) :
    Lockstep tape (filterBlock reader start) (filterBlock other start)
      fun node => Paid bound [node] := by
  refine (confined_filter.agree tape isSealed).bind fun filter here isSealed => ?_
  refine ((confined_furtherFilters _).agree here isSealed).bind fun filters here isSealed => ?_
  refine (agree_expectBlockEnd here isSealed).bind fun _ there isSealed => ?_
  exact paid_closed agree start _ _ (.filterBlock filters) (fun _ _ => by rw [Node.count])
    isSealed

/-! ### Tags of the host -/

omit agree in
theorem paid_inline (name : String) (isSealed : tape.Sealed bound) :
    Lockstep tape (custom reader Extension.inline name start)
      (custom other Extension.inline name start) fun node => Paid bound node.toList := by
  have reads : Lockstep tape
      (do
        let args ← expressionsUntil []
        expectBlockEnd
        some <$> do return .custom name args none (← spanFrom start))
      (do
        let args ← expressionsUntil []
        expectBlockEnd
        some <$> do return .custom name args none (← spanFrom start))
      fun node => Paid bound node.toList := by
    refine ((confined_expressionsUntil []).agree tape isSealed).bind fun args here isSealed => ?_
    refine (agree_expectBlockEnd here isSealed).bind fun _ there isSealed => ?_
    exact (paid_flat start (.custom name args none) (fun _ => by rw [Node.count])
      isSealed).present
  exact reads.of_runs rfl rfl

theorem paid_enclosing (ending name : String) (isSealed : tape.Sealed bound) :
    Lockstep tape (custom reader (Extension.enclosing ending) name start)
      (custom other (Extension.enclosing ending) name start)
      fun node => Paid bound node.toList := by
  have reads : Lockstep tape
      (do
        let args ← expressionsUntil []
        expectBlockEnd
        let nodes ← closedBody reader ending name start
        some <$> do return .custom name args (some nodes) (← spanFrom start))
      (do
        let args ← expressionsUntil []
        expectBlockEnd
        let nodes ← closedBody other ending name start
        some <$> do return .custom name args (some nodes) (← spanFrom start))
      fun node => Paid bound node.toList := by
    refine ((confined_expressionsUntil []).agree tape isSealed).bind fun args here isSealed => ?_
    refine (agree_expectBlockEnd here isSealed).bind fun _ here isSealed => ?_
    refine (paid_closedBody agree start ending name isSealed (Nat.le_refl bound)).bind
      fun nodes there isSealed => ?_
    exact (paid_built start (.custom name args (some nodes)) _ (count_custom _ _ _)
      isSealed).present
  have runs (body : BodyReader) :
      (custom body (Extension.enclosing ending) name start).run tape =
        (do
          let args ← expressionsUntil []
          expectBlockEnd
          let nodes ← closedBody body ending name start
          some <$> do return Node.custom name args (some nodes) (← spanFrom start)).run tape := by
    simp only [custom, Extension.enclosing, runHook, closedBody, run_bind, run_ite, run_map,
      run_pure, Bool.not_true, Bool.not_false, Bool.false_eq_true, if_true, if_false]
    split <;> rfl
  exact reads.of_runs (runs reader) (runs other)

/-! ### Statements -/

theorem paid_builtin (name : String) (isSealed : tape.Sealed bound) :
    Lockstep tape (builtin reader name start) (builtin other name start)
      fun node => Paid bound node.toList := by
  unfold builtin
  split
  · exact (paid_choose agree start isSealed).present
  · exact (paid_each agree start isSealed).present
  · exact (paid_assign agree start isSealed).present
  · exact (paid_block agree start isSealed).present
  · exact (paid_inherit start isSealed).present
  · exact (paid_embed start isSealed).present
  · exact (paid_importAs start isSealed).present
  · exact (paid_importNames start isSealed).present
  · exact (paid_define agree start isSealed).present
  · exact (paid_callBlock agree start isSealed).present
  · exact (paid_withBlock agree start isSealed).present
  · exact (paid_filterBlock agree start isSealed).present
  · exact (paid_verbatim start isSealed).present
  · refine ((confined_spanFrom start).agree tape isSealed).bind fun _ here isSealed => ?_
    refine ((confined_mistake _ _).agree here isSealed).bind fun _ here isSealed => ?_
    exact (agree_skipTag here isSealed).bind fun _ _ isSealed => .pure isSealed

/-- Whether an extension is one of those that need no hook of their own. -/
def Extension.IsGeneric (extension : Extension) : Prop :=
  extension = .inline ∨ ∃ ending, extension = .enclosing ending

def Register.IsGeneric (register : Register) : Prop :=
  ∀ entry ∈ register.extensions, Extension.IsGeneric entry.2

omit agree start in
/-- The extension that reads a tag is registered. -/
theorem mem_of_extensionFor? {register : Register} {name : String} {extension : Extension}
    (found : extensionFor? register name = some extension) :
    ∃ entry ∈ register.extensions, entry.2 = extension := by
  unfold extensionFor? at found
  split at found
  · cases found
  · obtain ⟨entry, isEntry, isExtension⟩ := Option.map_eq_some_iff.mp found
    exact ⟨entry, List.mem_of_find?_eq_some isEntry, isExtension⟩

omit agree start in
theorem Register.IsGeneric.of_extensionFor? {register : Register} (generic : register.IsGeneric)
    {name : String} {extension : Extension}
    (found : extensionFor? register name = some extension) : Extension.IsGeneric extension := by
  obtain ⟨entry, isEntry, rfl⟩ := mem_of_extensionFor? found
  exact generic entry isEntry

omit start in
theorem paid_statement {register : Register} (generic : register.IsGeneric)
    (isSealed : tape.Sealed (bound + 1)) (notEnd : tape.current.kind ≠ .endOfInput) :
    Lockstep tape (statement register reader) (statement register other)
      fun node => Paid bound node.toList := by
  refine (lockstep_pass isSealed notEnd).bind fun opening here passed => ?_
  obtain ⟨-, rfl, isSealed⟩ := passed
  refine .seeing (run_atKind .name tape.advance) ?_
  refine .ite (fun _ => ?_) fun _ => ?_
  · refine (agree_advance _ isSealed).bind fun token there isSealed => ?_
    dsimp only
    split
    · rename_i extension isFound
      rcases generic.of_extensionFor? isFound with rfl | ⟨ending, rfl⟩
      · exact paid_inline _ _ isSealed
      · exact paid_enclosing agree _ _ _ isSealed
    · exact paid_builtin agree _ _ isSealed
  · refine ((confined_expected _).agree _ isSealed).bind fun _ here isSealed => ?_
    exact (agree_expectBlockEnd here isSealed).bind fun _ _ isSealed => .pure isSealed

end Bodies

/-! ### Turns of a body -/

theorem paid_text (isSealed : tape.Sealed (bound + 1)) (isText : tape.current.kind = .text) :
    Lockstep tape text text fun node => Paid bound node.toList := by
  refine .seeing (run_trimmedText tape) ?_
  have notEnd : tape.current.kind ≠ .endOfInput := by rw [isText]; exact nofun
  refine (lockstep_pass isSealed notEnd).bind fun token here passed => .pure ?_
  have isSealed := passed.2.2
  unfold Paid
  split
  · exact isSealed
  · rw [Option.toList_some, countOf_singleton, Node.count]
    exact isSealed

theorem paid_comment {trimBefore trimAfter : Bool} (isSealed : tape.Sealed (bound + 1))
    (isComment : tape.current.kind = .comment trimBefore trimAfter) :
    Lockstep tape (comment trimBefore trimAfter) (comment trimBefore trimAfter)
      fun node => Paid bound [node] := by
  have notEnd : tape.current.kind ≠ .endOfInput := by rw [isComment]; exact nofun
  refine (lockstep_pass isSealed notEnd).bind fun token here passed => .pure ?_
  rw [Paid, countOf_singleton, Node.count]
  exact passed.2.2

theorem paid_output {trim : Bool} (isSealed : tape.Sealed (bound + 1))
    (isStart : tape.current.kind = .variableStart trim) :
    Lockstep tape output output fun node => Paid bound [node] := by
  have notEnd : tape.current.kind ≠ .endOfInput := by rw [isStart]; exact Kind.noConfusion
  refine (lockstep_pass isSealed notEnd).bind fun opening here passed => ?_
  refine (confined_expression.agree here passed.2.2).bind fun value here isSealed => ?_
  refine (agree_expectTagEnd _ here isSealed).bind fun _ there isSealed => ?_
  exact paid_flat _ (.output value) (fun _ => by rw [Node.count]) isSealed

/-- What is kept between the statements of a body: nothing more is found, and what was read so far
is paid for. -/
structure BodyKept (bound : Nat) (found : Option String) (body : Body) (tape : Tape) : Prop where
  found : body.found = found
  isSealed : tape.Sealed (bound - countOf body.nodes.toList)

/-- Why there is no next statement in a body, seen from inside it: one of its closing tags is found,
or the input ends, or a body around it waits for a closing tag. -/
structure BodyDone (bound : Nat) (endings : List String) (found : Option String) (body : Body)
    (final : Tape) : Prop where
  isSealed : final.Sealed (bound - countOf body.nodes.toList)
  reason : (∃ name ∈ endings, body.found = some name ∧
      ∃ trim, final.current.kind = .blockStart trim) ∨
    body.found = found ∧ (final.current.kind = .endOfInput ∨ final.enclosing.tail ≠ [])

/-- A statement more is paid for with what it has used up. -/
theorem Paid.kept {found : Option String} {body : Body} {node : Option Node} {here final : Tape}
    (paid : Paid here.following.length node.toList final) (kept : BodyKept bound found body here) :
    BodyKept bound found (body.add node) final ∧
      final.following.length < here.following.length := by
  obtain ⟨sameFound, isSealed⟩ := kept
  have room := isSealed.short
  have shorter := paid.short
  have counts : countOf (body.add node).nodes.toList =
      countOf body.nodes.toList + countOf node.toList := by
    rw [Body.add, Array.toList_append, countOf_append]
    cases node <;> rfl
  refine ⟨⟨sameFound, paid.mono ?_⟩, by omega⟩
  rw [counts]
  omega

theorem paid_nextNode (agree : BodiesAgree bound reader other) {register : Register}
    (generic : register.IsGeneric) (endings : List String) (found : Option String) (body : Body)
    (here : Tape) (short : here.following.length ≤ bound)
    (kept : BodyKept fewer found body here) :
    Lockstep here (nextNode register reader endings body) (nextNode register other endings body)
      (turnEnds (fun next final => BodyKept fewer found next final ∧
          final.following.length < here.following.length)
        (BodyDone fewer endings found)) := by
  have tight := kept.isSealed.tight
  have agree := agree.mono short
  refine .seeing (run_peek here) ?_
  split
  · rename_i isEnd
    exact .pure ⟨kept.isSealed, .inr ⟨kept.found, .inl isEnd⟩⟩
  · rename_i isText
    exact (paid_text tight isText).bind fun _ _ paid => .pure (paid.kept kept)
  · rename_i isComment
    exact (paid_comment tight isComment).bind fun _ _ paid => .pure (Paid.kept paid kept)
  · rename_i isStart
    exact (paid_output tight isStart).bind fun _ _ paid => .pure (Paid.kept paid kept)
  · rename_i trim isStart
    have notEnd : here.current.kind ≠ .endOfInput := by rw [isStart]; exact Kind.noConfusion
    have goesOn : Lockstep here (do return Turn.again (body.add (← statement register reader)))
        (do return Turn.again (body.add (← statement register other)))
        (turnEnds (fun next final => BodyKept fewer found next final ∧
            final.following.length < here.following.length) (BodyDone fewer endings found)) :=
      (paid_statement agree generic tight notEnd).bind fun _ _ paid => .pure (paid.kept kept)
    refine .seeing (run_peekAhead 1 here) ?_
    refine .ite (fun _ => ?_) fun _ => goesOn
    refine .ite (fun isOwn => ?_) fun _ => ?_
    · exact .pure ⟨kept.isSealed,
        .inl ⟨_, List.contains_iff_mem.mp isOwn, rfl, trim, isStart⟩⟩
    · refine .seeing (run_closesEnclosing _ here) ?_
      refine .ite (fun isOuter => ?_) fun _ => goesOn
      refine .pure ⟨kept.isSealed, .inr ⟨kept.found, .inr fun isTop => ?_⟩⟩
      rw [isTop] at isOuter
      cases isOuter
  · rename_i notEnd notText notComment notVariable notBlock
    have complaint : Lockstep here (mistake (.unexpected here.current.describe) here.current.span)
        (mistake (.unexpected here.current.describe) here.current.span) fun _ final =>
          final.current = here.current ∧ final.Sealed (here.following.length + 1) :=
      ⟨rfl, Tape.passes_report _, rfl, tight.onward (Tape.passes_report _)⟩
    refine complaint.bind fun _ there reported => ?_
    have stillNotEnd : there.current.kind ≠ .endOfInput := by rw [reported.1]; exact notEnd
    refine (lockstep_pass reported.2 stillNotEnd).bind fun _ final passed => .pure ?_
    have shorter := passed.2.2.short
    have room := kept.isSealed.short
    exact ⟨⟨kept.found, passed.2.2.mono (by omega)⟩, shorter⟩

/-! ### Bodies of all depths -/

/-- Bodies around readers that agree agree, also in one token more. They stop at the end of the
input, unless they found a closing tag or a body around them waits for one. -/
theorem lockstep_around (agree : BodiesAgree bound reader other) {register : Register}
    (generic : register.IsGeneric) (endings : List String) (isSealed : tape.Sealed (bound + 1)) :
    Lockstep tape (bodyAround register reader endings) (bodyAround register other endings)
      fun result final => BodyRead (tape.following.length + 1) endings result final ∧
        (result.2 = none → final.current.kind = .endOfInput ∨ final.enclosing ≠ []) := by
  have room : tape.following.length < bound + 1 := isSealed.short
  have turns : Lockstep { tape with enclosing := endings :: tape.enclosing }
      (loop (nextNode register reader endings) ⟨#[], none⟩)
      (loop (nextNode register other endings) ⟨#[], none⟩)
      (BodyDone (tape.following.length + 1) endings none) := by
    refine lockstep_loop (BodyKept (tape.following.length + 1) none) (fun body here kept => ?_)
      ⟨rfl, isSealed.tight.waiting _⟩
    have short := kept.isSealed.short
    exact paid_nextNode agree generic endings none body here (by omega) kept
  refine (Lockstep.within turns).bind fun body final ended => .pure ?_
  obtain ⟨last, ⟨isSealed, reason⟩, isOuter, rfl⟩ := ended
  rw [isOuter] at reason
  rcases reason with ⟨name, isEnding, isFound, isStart⟩ | ⟨unfound, atEnd⟩
  · refine ⟨⟨isSealed.waiting tape.enclosing, ?_⟩, ?_⟩
    · rw [isFound]
      rintro _ ⟨⟩
      exact ⟨isEnding, isStart⟩
    · rw [isFound]
      exact nofun
  · refine ⟨⟨isSealed.waiting tape.enclosing, ?_⟩, fun _ => atEnd⟩
    rw [unfound]
    exact nofun

theorem bodiesAgree_around (agree : BodiesAgree bound reader other) {register : Register}
    (generic : register.IsGeneric) :
    BodiesAgree (bound + 1) (bodyAround register reader) (bodyAround register other) :=
  fun endings _ isSealed =>
    (lockstep_around agree generic endings isSealed).weaken fun _ _ _ ended => ended.1

/-- The reader of bodies nested less than `depth` times. Bodies nested deeper are left to another
reader. -/
def nestedBodyOver (register : Register) (deeper : BodyReader) : Nat → BodyReader
  | 0 => deeper
  | depth + 1 => bodyAround register (nestedBodyOver register deeper depth)

theorem bodiesAgree_nested {register : Register} (generic : register.IsGeneric)
    (deeper : BodyReader) (depth : Nat) :
    BodiesAgree depth (nestedBody register depth) (nestedBodyOver register deeper depth) := by
  induction depth with
  | zero => exact fun _ _ isSealed => absurd isSealed.short (Nat.not_lt_zero _)
  | succ depth inductionHypothesis => exact bodiesAgree_around inductionHypothesis generic

theorem nestedBodyOver_nestedBodyOver (register : Register) (deeper : BodyReader)
    (further depth : Nat) :
    nestedBodyOver register (nestedBodyOver register deeper further) depth =
      nestedBodyOver register deeper (depth + further) := by
  induction depth with
  | zero => rw [Nat.zero_add, nestedBodyOver]
  | succ depth inductionHypothesis =>
      rw [Nat.succ_add, nestedBodyOver, nestedBodyOver, inductionHypothesis]

/-- As many bodies in one another as there are tokens suffice, and what would read the bodies for
which no depth is left makes no difference. -/
theorem run_nestedBodyOver {register : Register} (generic : register.IsGeneric)
    (deeper : BodyReader) {depth : Nat} (endings : List String) (isSealed : tape.Sealed depth) :
    (nestedBodyOver register deeper depth endings).run tape = (body register endings).run tape := by
  obtain ⟨further, rfl⟩ := Nat.exists_eq_add_of_le isSealed.short
  have agree := bodiesAgree_nested generic (nestedBodyOver register deeper further)
    tape.following.length.succ
  rw [nestedBodyOver_nestedBodyOver] at agree
  rw [run_body]
  exact (agree endings tape isSealed.tight).same

/-- Every reader of bodies agrees with itself, whatever its depth is. -/
theorem bodiesAgree_self {register : Register} (generic : register.IsGeneric) (depth : Nat) :
    ∀ bound, BodiesAgree bound (nestedBody register depth) (nestedBody register depth) := by
  induction depth with
  | zero => exact fun bound endings tape isSealed => .pure ⟨isSealed.tight, nofun⟩
  | succ depth inductionHypothesis =>
      intro bound
      cases bound with
      | zero => exact fun _ _ isSealed => absurd isSealed.short (Nat.not_lt_zero _)
      | succ bound => exact bodiesAgree_around (inductionHypothesis bound) generic

theorem lockstep_body {register : Register} (generic : register.IsGeneric)
    (endings : List String) (isSealed : tape.Sealed bound) :
    Lockstep tape (body register endings) (body register endings) fun result final =>
      BodyRead (tape.following.length + 1) endings result final ∧
        (result.2 = none → final.current.kind = .endOfInput ∨ final.enclosing ≠ []) :=
  (lockstep_around (bodiesAgree_self generic _ _) generic endings isSealed.tight).of_runs
    (run_body register endings tape) (run_body register endings tape)

end Stencil.Grammar
