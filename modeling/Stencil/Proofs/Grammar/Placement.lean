import Stencil.Proofs.Grammar.Opening
import Stencil.Proofs.Grammar.Survey
import Stencil.Proofs.Grammar.Synchrony

/-!
Contract: statements stand where their tokens stand, one after another and inside one another.

Owns:
- tokens in line, and tapes outside tags that hold such tokens;
- tags, each of which lies between its opening and its closing delimiter;
- statements that reach from their opening delimiter to the token read last: those without bodies,
  whatever their tags hold;
- closing tags, which lead from outside tags to outside tags.

Does not own: statements with bodies (`Stencil.Proofs.Grammar.Lodging`).
-/

set_option autoImplicit false

namespace Stencil.Grammar

open Stencil.Syntax
open Stencil.Text (Position Span Window)
open Stencil.Token (Kind Region Delimiter)
open Read Statement

variable {exact : Position → Prop} {tape : Tape} {bound : Nat}

/-! ### Tokens in line -/

/-- Whether tokens stand at exact spans, and each ends before the next one begins. -/
structure InLine (exact : Position → Prop) (tokens : List Token) : Prop where
  isExact : ∀ token ∈ tokens, token.span.IsExact exact
  ordered : tokens.Pairwise fun first second => first.span.stop.offset ≤ second.span.start.offset

theorem InLine.sublist {tokens rest : List Token} (inLine : InLine exact tokens)
    (isSublist : rest.Sublist tokens) : InLine exact rest :=
  ⟨fun token member => inLine.isExact token (isSublist.subset member),
    inLine.ordered.sublist isSublist⟩

theorem InLine.le_of_cons {token : Token} {rest : List Token}
    (inLine : InLine exact (token :: rest)) (other : Token) (member : other ∈ rest) :
    token.span.stop.offset ≤ other.span.start.offset :=
  List.rel_of_pairwise_cons inLine.ordered member

/-- In a line that begins with one token and has another one in it, the tokens up to that one lie
in the window between them. -/
theorem InLine.holds {first last : Token} {inners behind : List Token}
    (inLine : InLine exact (first :: (inners ++ last :: behind))) :
    ∀ token ∈ first :: (inners ++ [last]),
      (⟨exact, first.span.start.offset, last.span.stop.offset⟩ : Window).Holds token.span := by
  have exactFirst := (inLine.isExact first List.mem_cons_self).ordered
  have exactLast := (inLine.isExact last (by simp)).ordered
  have firstToLast := inLine.le_of_cons last (by simp)
  have toLast : ∀ token ∈ inners, token.span.stop.offset ≤ last.span.start.offset := by
    intro token member
    have rest := (List.pairwise_append.mp (List.pairwise_cons.mp inLine.ordered).2).2.2
    exact rest token member last List.mem_cons_self
  intro token member
  rcases List.mem_cons.mp member with rfl | member
  · refine ⟨inLine.isExact _ List.mem_cons_self, Nat.le_refl _, ?_⟩
    show token.span.stop.offset ≤ last.span.stop.offset
    omega
  · rcases List.mem_append.mp member with member | member
    · have isExact := inLine.isExact token (by simp [member])
      have behindFirst := inLine.le_of_cons token (by simp [member])
      have beforeLast := toLast token member
      refine ⟨isExact, ?_, ?_⟩
      · show first.span.start.offset ≤ token.span.start.offset
        omega
      · show token.span.stop.offset ≤ last.span.stop.offset
        omega
    · obtain rfl := List.mem_singleton.mp member
      refine ⟨inLine.isExact _ (by simp), ?_, Nat.le_refl _⟩
      show first.span.start.offset ≤ token.span.start.offset
      omega

namespace Tape

/-- Whether the tokens from the one passed over last on are in line, and all reports are exact. -/
structure Lined (exact : Position → Prop) (tape : Tape) : Prop where
  line : InLine exact (tape.previous.toList ++ tape.remaining)
  told : ∀ diagnostic ∈ tape.problems, diagnostic.span.IsExact exact

/-- The offset that reading has come to. -/
def mark (tape : Tape) : Nat :=
  match tape.previous with
  | some token => token.span.stop.offset
  | none => tape.current.span.start.offset

/-- Whether the token passed over last neither begins nor ends before a span does. -/
def Past (span : Span) (tape : Tape) : Prop :=
  ∃ last ∈ tape.previous, span.start.offset ≤ last.span.start.offset ∧
    span.stop.offset ≤ last.span.stop.offset

/-- Whether the head stands outside tags among tokens in line. -/
structure Clear (exact : Position → Prop) (bound : Nat) (tape : Tape) : Prop where
  stands : tape.Stands bound .outside
  lined : tape.Lined exact

/-- Whether reading has come from one tape to another one. -/
structure Reaches (tape final : Tape) : Prop where
  mark : tape.mark ≤ final.mark
  past : ∀ last ∈ tape.previous, final.Past last.span

variable {final middle : Tape}

theorem Reaches.refl (tape : Tape) : tape.Reaches tape :=
  ⟨Nat.le_refl _, fun last isLast => ⟨last, isLast, Nat.le_refl _, Nat.le_refl _⟩⟩

theorem Past.reaches {span : Span} (past : tape.Past span) (reaches : tape.Reaches final) :
    final.Past span := by
  obtain ⟨last, isLast, begins, ends⟩ := past
  obtain ⟨next, isNext, beginsNext, endsNext⟩ := reaches.past last isLast
  exact ⟨next, isNext, Nat.le_trans begins beginsNext, Nat.le_trans ends endsNext⟩

theorem Reaches.trans (first : tape.Reaches middle) (second : middle.Reaches final) :
    tape.Reaches final :=
  ⟨Nat.le_trans first.mark second.mark, fun last isLast => (first.past last isLast).reaches second⟩

theorem Past.mark {span : Span} (past : tape.Past span) : span.stop.offset ≤ tape.mark := by
  obtain ⟨last, isLast, -, ends⟩ := past
  rw [Tape.mark, Option.mem_def.mp isLast]
  exact ends

namespace Lined

variable (lined : tape.Lined exact)
include lined

theorem current : tape.current.span.IsExact exact :=
  lined.line.isExact _ (List.mem_append_right _ List.mem_cons_self)

/-- What has been read ends before what is under the head. -/
theorem mark_le : tape.mark ≤ tape.current.span.start.offset := by
  obtain ⟨previous, current, following, enclosing, problems⟩ := tape
  cases previous with
  | none => exact Nat.le_refl _
  | some last => exact lined.line.le_of_cons _ List.mem_cons_self

/-- What has gone past the token under the head has come further. -/
theorem reaches (past : final.Past tape.current.span) : tape.Reaches final := by
  have begins := lined.mark_le
  have ordered := lined.current.ordered
  refine ⟨?_, fun last isLast => ?_⟩
  · have ends := past.mark
    omega
  · obtain ⟨next, isNext, beginsNext, endsNext⟩ := past
    have isMark : tape.mark = last.span.stop.offset := by rw [Tape.mark, Option.mem_def.mp isLast]
    have lastExact : last.span.IsExact exact :=
      lined.line.isExact last (List.mem_append_left _ (Option.mem_toList.mpr isLast))
    have lastOrdered := lastExact.ordered
    exact ⟨next, isNext, by omega, by omega⟩

/-- The span from a start on, up to the token passed over last. -/
theorem cover {start : Span} (past : tape.Past start) (isExact : start.IsExact exact) :
    (start.cover tape.previousSpan).IsExact exact ∧
      (start.cover tape.previousSpan).start.offset = start.start.offset ∧
        (start.cover tape.previousSpan).stop.offset = tape.mark := by
  obtain ⟨last, isLast, begins, ends⟩ := past
  have lastExact : last.span.IsExact exact :=
    lined.line.isExact last (List.mem_append_left _ (Option.mem_toList.mpr isLast))
  rw [Tape.mark, Tape.previousSpan, Option.mem_def.mp isLast]
  refine ⟨isExact.cover lastExact, ?_, ?_⟩
  · unfold Span.cover
    dsimp only
    split <;> omega
  · unfold Span.cover
    dsimp only
    split <;> omega

end Lined

/-- Passing over a token outside tags, which another one follows. -/
theorem Clear.advance (clear : tape.Clear exact (bound + 1))
    (isNext : Region.outside.next? tape.current.kind = some .outside) :
    tape.advance.Clear exact bound ∧ tape.advance.Past tape.current.span ∧
      tape.advance.mark = tape.current.span.stop.offset := by
  have stands := clear.stands.advance isNext
  obtain ⟨previous, current, following, enclosing, problems⟩ := tape
  cases following with
  | nil =>
      have ends : current.kind = .endOfInput := by
        rcases clear.stands.leads.of_cons with ⟨isEnd, -⟩ | ⟨_, _, leads⟩
        · exact isEnd
        · exact absurd rfl leads.ne_nil
      rw [ends, Region.next?_endOfInput] at isNext
      cases isNext
  | cons next rest =>
      have line := clear.lined.line.sublist (List.sublist_append_right _ _)
      exact ⟨⟨stands, ⟨line, clear.lined.told⟩⟩, ⟨current, rfl, Nat.le_refl _, Nat.le_refl _⟩, rfl⟩

end Tape

/-! ### Tags -/

/-- A tag among tokens in line: the offset at which it begins, its end and what follows it, which is
no longer than a bound. -/
structure Tag (exact : Position → Prop) (bound : Nat) where
  low : Nat
  closing : Token
  behind : List Token
  begins : low ≤ closing.span.start.offset
  inLine : InLine exact (closing :: behind)
  leads : Region.outside.Leads behind
  short : behind.length ≤ bound

/-- Inside a tag tokens go on until its end, behind which reading is outside tags again. -/
theorem leads_inside {delimiter : Delimiter} {tokens : List Token}
    (leads : (Region.inside delimiter).Leads tokens) :
    ∃ inners closing behind, tokens = inners ++ closing :: behind ∧
      (∀ token ∈ inners, token.kind.isInner = true) ∧ closing.kind.isTagEnd = true ∧
        Region.outside.Leads behind := by
  induction tokens with
  | nil => exact absurd rfl leads.ne_nil
  | cons token rest inductionHypothesis =>
      rcases leads.of_cons with ⟨_, isOutside⟩ | ⟨next, isNext, restLeads⟩
      · cases isOutside
      · rcases Region.inner_or_tagEnd isNext with ⟨inner, rfl⟩ | ⟨ends, rfl⟩
        · obtain ⟨inners, closing, behind, rfl, areInner, closes, leadsOut⟩ :=
            inductionHypothesis restLeads
          refine ⟨token :: inners, closing, behind, rfl, ?_, closes, leadsOut⟩
          exact List.forall_mem_cons.mpr ⟨inner, areInner⟩
        · exact ⟨[], token, rest, rfl, (fun _ member => nomatch member), ends, restLeads⟩

theorem upToEnd_of_holds {window : Window} {inners behind : List Token} {closing : Token}
    (holds : ∀ token ∈ inners ++ [closing], window.Holds token.span)
    (closes : closing.kind.isTagEnd = true) : UpToEnd window (inners ++ closing :: behind) := by
  induction inners with
  | nil =>
      refine ⟨holds closing (by simp), fun inner => ?_⟩
      revert inner closes
      cases closing.kind <;> simp [Kind.isTagEnd, Kind.isInner]
  | cons token rest inductionHypothesis =>
      refine ⟨holds token (by simp), fun _ => inductionHypothesis fun other member => ?_⟩
      exact holds other (List.mem_cons_of_mem _ member)

theorem onward_skipTag (tape : Tape) : tape.Onward (skipTag.run tape).2 := by
  have sought : tape.Onward (tape.skipTo resumes) := Tape.onward_skipTo resumes
  simp only [skipTag, run_bind, run_modify, run_atTagEnd, run_ite]
  split
  · exact sought.trans (Tape.passes_advance trivial)
  · exact sought

theorem onward_expectTagEnd (what : Kind) (tape : Tape) :
    tape.Onward ((expectTagEnd what).run tape).2 := by
  rw [expectTagEnd, run_bind, run_atTagEnd, run_ite]
  split
  · exact Tape.passes_advance trivial
  · exact (confined_expected _ tape).onward.trans (onward_skipTag _)

namespace Tag

variable {tag : Tag exact bound} {α : Type} {action : Read α} {drawn : α → Prop} {start : Span}

def window (tag : Tag exact bound) : Window := ⟨exact, tag.low, tag.closing.span.stop.offset⟩

/-- Whether the head stands inside the tag. -/
structure Holds (tag : Tag exact bound) (tape : Tape) : Prop where
  surveyed : tape.Surveyed tag.window
  inTag : tape.InTag tag.closing tag.behind

/-- Whether the head has just left the tag. -/
structure Left (tag : Tag exact bound) (tape : Tape) : Prop where
  told : ∀ diagnostic ∈ tape.problems, diagnostic.span.IsExact exact
  hasLeft : tape.HasLeft tag.closing tag.behind

/-- Whether the tag begins where a span in it does. -/
structure Opens (tag : Tag exact bound) (start : Span) : Prop where
  holds : tag.window.Holds start
  isLow : start.start.offset = tag.low

/-- What is read inside a tag lies in it, and reading is still inside the tag. -/
theorem Holds.reads (holds : tag.Holds tape) (confined : Confined action)
    (draws : Draws tag.window action drawn) :
    Lockstep tape action action fun value final => drawn value ∧ tag.Holds final :=
  ⟨rfl, (confined tape).onward, (draws tape holds.surveyed).drawn,
    (draws tape holds.surveyed).surveyed, holds.inTag.inside (confined tape)⟩

theorem Holds.readsAt (holds : tag.Holds tape) (inside : tape.Inside (action.run tape).2)
    (draws : DrawsAt tag.window tape action drawn) :
    Lockstep tape action action fun value final => drawn value ∧ tag.Holds final :=
  ⟨rfl, inside.onward, draws.drawn, draws.surveyed, holds.inTag.inside inside⟩

theorem Holds.skips (holds : tag.Holds tape) :
    Lockstep tape skipTag skipTag fun _ final => tag.Left final := by
  refine ⟨rfl, onward_skipTag tape, ?_, exits_skipTag _ _ tape holds.inTag⟩
  rw [problems_skipTag]
  exact holds.surveyed.told

/-- The end of a tag leads out of it, whatever stands before it. -/
theorem Holds.leaves (holds : tag.Holds tape) (what : Kind) :
    Lockstep tape (expectTagEnd what) (expectTagEnd what) fun _ final => tag.Left final := by
  refine ⟨rfl, onward_expectTagEnd what tape, ?_, exits_expectTagEnd what _ _ tape holds.inTag⟩
  rw [expectTagEnd, run_bind, run_atTagEnd, run_ite]
  split
  · have isRun : (tape.advance).problems = tape.problems := Tape.problems_advance tape
    exact isRun ▸ holds.surveyed.told
  · have expects := draws_expected what.describe tape holds.surveyed
    rw [run_bind, problems_skipTag]
    exact expects.surveyed.told

theorem Holds.leavesBlock (holds : tag.Holds tape) :
    Lockstep tape expectBlockEnd expectBlockEnd fun _ final => tag.Left final :=
  holds.leaves _

namespace Left

variable (left : tag.Left tape)
include left

theorem clear : tape.Clear exact bound := by
  obtain ⟨told, isRemaining, isPrevious⟩ := left
  refine ⟨⟨isRemaining ▸ tag.leads, ?_⟩, ⟨?_, told⟩⟩
  · have isLength := congrArg List.length isRemaining
    rw [Tape.remaining, List.length_cons] at isLength
    have short := tag.short
    omega
  · rw [isPrevious, isRemaining]
    exact tag.inLine

theorem mark : tape.mark = tag.window.high := by
  rw [Tape.mark, left.hasLeft.previous]
  rfl

theorem past (opens : tag.Opens start) : tape.Past start := by
  refine ⟨tag.closing, left.hasLeft.previous, ?_, opens.holds.high⟩
  rw [opens.isLow]
  exact tag.begins

theorem window_eq (opens : tag.Opens start) :
    tag.window = ⟨exact, start.start.offset, tape.mark⟩ := by
  rw [left.mark, opens.isLow]
  rfl

end Left

end Tag

/-- An opening delimiter leads into the tag that it opens. -/
theorem Tape.Clear.opens {delimiter : Delimiter} (clear : tape.Clear exact (bound + 1))
    (isNext : Region.outside.next? tape.current.kind = some (.inside delimiter)) :
    ∃ tag : Tag exact bound, tag.Opens tape.current.span ∧ tag.Holds tape.advance := by
  have stands := clear.stands.advance isNext
  obtain ⟨previous, current, following, enclosing, problems⟩ := tape
  cases following with
  | nil =>
      rcases clear.stands.leads.of_cons with ⟨isEnd, -⟩ | ⟨_, _, leads⟩
      · dsimp only at isEnd
        rw [isEnd, Region.next?_endOfInput] at isNext
        cases isNext
      · exact absurd rfl leads.ne_nil
  | cons next rest =>
      obtain ⟨inners, closing, behind, isRest, areInner, closes, leads⟩ := leads_inside stands.leads
      have isRemaining : next :: rest = inners ++ closing :: behind := isRest
      have line : InLine exact (current :: (inners ++ closing :: behind)) :=
        isRemaining ▸ clear.lined.line.sublist (List.sublist_append_right _ _)
      have holds := line.holds
      have isLength := congrArg List.length isRemaining
      have short := clear.stands.short
      simp only [List.length_cons, List.length_append] at isLength short
      have atClosing := holds closing (by simp)
      have isShort : behind.length ≤ bound := by omega
      have ends : (closing :: behind).Sublist (current :: (inners ++ closing :: behind)) :=
        List.sublist_append_right (current :: inners) _
      have closingBegins : current.span.start.offset ≤ closing.span.start.offset := atClosing.low
      refine ⟨⟨current.span.start.offset, closing, behind, closingBegins, line.sublist ends, leads,
        isShort⟩, ⟨holds current List.mem_cons_self, rfl⟩, ⟨?_, ?_⟩⟩
      · refine ⟨holds current List.mem_cons_self, ?_, clear.lined.told⟩
        refine isRest.symm ▸ upToEnd_of_holds (fun token member => ?_) closes
        exact holds token (List.mem_cons_of_mem _ member)
      · exact ⟨⟨inners, isRest, areInner⟩, closes, leads.ne_nil⟩

/-! ### What statements are made of -/

/-- Whether statements stand between two offsets one after another, and each one nests. -/
structure Lodged (exact : Position → Prop) (low high : Nat) (nodes : List Node) : Prop where
  stacked : Stacked low high nodes
  nests : ∀ node ∈ nodes, node.Nests exact

/-- Whether all that a statement holds, its bodies included, stands between two offsets. -/
structure Fits (exact : Position → Prop) (low high : Nat) (node : Node) : Prop where
  held : node.HoldsIn ⟨exact, low, high⟩
  bodies : ∀ body ∈ node.bodies, Lodged exact low high body

/-- Whether a statement has been read that reaches from a start on to what was read last. -/
structure Finished (exact : Position → Prop) (bound : Nat) (start : Span) (node : Node)
    (final : Tape) : Prop where
  clear : final.Clear exact bound
  past : final.Past start
  nests : node.Nests exact
  begins : node.span.start.offset = start.start.offset
  ends : node.span.stop.offset = final.mark

variable {low high lower higher : Nat} {node : Node} {nodes : List Node} {start : Span}

theorem Lodged.widen (lodged : Lodged exact low high nodes) (isLow : lower ≤ low)
    (isHigh : high ≤ higher) : Lodged exact lower higher nodes :=
  ⟨lodged.stacked.widen isLow isHigh, lodged.nests⟩

theorem Fits.widen (fits : Fits exact low high node) (isHigh : high ≤ higher) :
    Fits exact low higher node :=
  ⟨fits.held.extend isHigh,
    fun body isBody => (fits.bodies body isBody).widen (Nat.le_refl _) isHigh⟩

/-- A statement whose span is set when all that it holds has been read. -/
theorem Tape.Clear.finish (clear : tape.Clear exact bound) (past : tape.Past start)
    (isExact : start.IsExact exact) {build : Span → Node}
    (isSpan : ∀ span, (build span).span = span)
    (fits : ∀ span, Fits exact start.start.offset tape.mark (build span)) :
    Lockstep tape (do return build (← spanFrom start)) (do return build (← spanFrom start))
      (Finished exact bound start) := by
  obtain ⟨covers, begins, ends⟩ := clear.lined.cover past isExact
  refine .seeing (run_spanFrom start tape) (.pure ?_)
  have fitsIn := fits (start.cover tape.previousSpan)
  have isOwn := isSpan (start.cover tape.previousSpan)
  rw [← isOwn] at covers begins ends
  refine ⟨clear, past, ?_, begins, ends⟩
  rw [← begins, ← ends] at fitsIn
  exact .mk covers fitsIn.held (fun body isBody => (fitsIn.bodies body isBody).stacked)
    fun body isBody => (fitsIn.bodies body isBody).nests

/-- A statement whose tag has been read, and the bodies behind the tag. -/
theorem Tag.Left.finish {tag : Tag exact bound} {final : Tape} (left : tag.Left tape)
    (opens : tag.Opens start) (clear : final.Clear exact bound) (reaches : tape.Reaches final)
    {build : Span → Node} (isSpan : ∀ span, (build span).span = span)
    (held : ∀ span, (build span).HoldsIn tag.window)
    (bodies : ∀ span, ∀ body ∈ (build span).bodies, Lodged exact tape.mark final.mark body) :
    Lockstep final (do return build (← spanFrom start)) (do return build (← spanFrom start))
      (Finished exact bound start) := by
  have past := left.past opens
  have begins : start.start.offset ≤ tape.mark :=
    Nat.le_trans opens.holds.isExact.ordered past.mark
  refine clear.finish (past.reaches reaches) opens.holds.isExact isSpan fun span => ⟨?_, ?_⟩
  · have atTag := held span
    rw [left.window_eq opens] at atTag
    exact atTag.extend reaches.mark
  · exact fun body isBody => (bodies span body isBody).widen begins (Nat.le_refl _)

/-- A statement that has no bodies. -/
theorem Tag.Left.finishFlat {tag : Tag exact bound} (left : tag.Left tape) (opens : tag.Opens start)
    {build : Span → Node} (isSpan : ∀ span, (build span).span = span)
    (held : ∀ span, (build span).HoldsIn tag.window) (flat : ∀ span, (build span).bodies = []) :
    Lockstep tape (do return build (← spanFrom start)) (do return build (← spanFrom start))
      (Finished exact bound start) :=
  left.finish opens left.clear (.refl tape) isSpan held fun span body isBody => by
    rw [flat span] at isBody
    cases isBody

/-! ### Parts of tags -/

section Parts

variable {window : Window} {target : Target} {filters : List FilterCall}

theorem exprsIn_target (lies : target.LiesIn window) : ListedIn window target.exprs :=
  fun _ member span marks => lies span (.expr member marks)

theorem argsIn_filters (listed : FiltersIn window filters) :
    ListedIn window (filters.flatMap FilterCall.args) := by
  intro arg member
  obtain ⟨call, isCall, member⟩ := List.mem_flatMap.mp member
  exact (listed call isCall).args arg member

theorem ListedIn.append {exprs others : List Expr} (first : ListedIn window exprs)
    (second : ListedIn window others) : ListedIn window (exprs ++ others) :=
  List.forall_mem_append.mpr ⟨first, second⟩

theorem listedIn_toList {found : Option Expr} (lies : OptionIn window found) :
    ListedIn window found.toList :=
  fun expr member => lies expr (Option.mem_toList.mp member)

end Parts

/-! ### Tags without bodies -/

section Flat

variable {tag : Tag exact bound} (holds : tag.Holds tape) (opens : tag.Opens start)
include holds opens

theorem finished_inherit :
    Lockstep tape (inherit start) (inherit start) (Finished exact bound start) := by
  refine (holds.reads confined_expression draws_expression).bind fun template _ read => ?_
  refine read.2.leavesBlock.bind fun _ _ left => ?_
  exact left.finishFlat opens (fun _ => rfl)
    (fun _ => .of_exprs (listedIn_one read.1) rfl rfl rfl rfl rfl) fun _ => rfl

theorem finished_embed :
    Lockstep tape (embed start) (embed start) (Finished exact bound start) := by
  refine (holds.reads confined_expression draws_expression).bind fun template _ read => ?_
  refine (read.2.reads (confined_loop confined_clauseTurn _)
    (draws_loop (fun clauses _ => draws_clauseTurn clauses) trivial)).bind fun clauses _ said => ?_
  refine said.2.leavesBlock.bind fun _ _ left => ?_
  exact left.finishFlat opens (fun _ => rfl)
    (fun _ => .of_exprs (listedIn_one read.1) rfl rfl rfl rfl rfl) fun _ => rfl

/-- A context clause and the end of a tag without a body. -/
theorem finished_contextEnd {build : Option Bool → Span → Node}
    (isSpan : ∀ context span, (build context span).span = span)
    (held : ∀ context span, (build context span).HoldsIn tag.window)
    (flat : ∀ context span, (build context span).bodies = []) :
    let ending : Read Node := do
      let context ← contextClause?
      expectBlockEnd
      return build context (← spanFrom start)
    Lockstep tape ending ending (Finished exact bound start) := by
  intro ending
  refine (holds.reads confined_contextClause? draws_contextClause?).bind fun context _ read => ?_
  refine read.2.leavesBlock.bind fun _ _ left => ?_
  exact left.finishFlat opens (isSpan context) (held context) (flat context)

theorem finished_importAs :
    Lockstep tape (importAs start) (importAs start) (Finished exact bound start) := by
  refine (holds.reads confined_expression draws_expression).bind fun template _ read => ?_
  refine (read.2.reads (confined_expectWord _) (draws_expectWord _)).bind fun _ _ word => ?_
  refine (word.2.reads (confined_expectName _) (draws_expectName _)).bind fun name _ named => ?_
  exact finished_contextEnd named.2 opens (fun _ _ => rfl)
    (fun _ _ => .of_exprs (listedIn_one read.1) rfl rfl rfl rfl rfl) fun _ _ => rfl

theorem finished_importNames :
    Lockstep tape (importNames start) (importNames start) (Finished exact bound start) := by
  refine (holds.reads confined_expression draws_expression).bind fun template _ read => ?_
  refine (read.2.reads (confined_expectWord _) (draws_expectWord _)).bind fun _ _ word => ?_
  have noneYet : ImportsIn tag.window [] := fun _ member => nomatch member
  refine (word.2.reads (confined_loop confined_importTurn _)
    (draws_loop draws_importTurn noneYet)).bind fun names _ listed => ?_
  have held (context : Option Bool) (span : Span) :
      (Node.importNames template names (context.getD false) span).HoldsIn tag.window :=
    ⟨listedIn_one read.1, nofun, nofun, nofun, listed.1, nofun⟩
  refine .ite (fun _ => ?_) fun _ => ?_
  · refine (listed.2.reads (confined_expected _) (draws_expected _)).bind fun _ _ told => ?_
    exact finished_contextEnd told.2 opens (fun _ _ => rfl) held fun _ _ => rfl
  · exact finished_contextEnd listed.2 opens (fun _ _ => rfl) held fun _ _ => rfl

end Flat

/-! ### Closing tags -/

/-- An opening delimiter and the name behind it lead into the tag. -/
theorem Tape.Clear.openTag {name : String} (clear : tape.Clear exact (bound + 1))
    (atTag : tape.AtTag name) :
    ∃ tag : Tag exact bound, tag.Opens tape.current.span ∧
      Lockstep tape openTag openTag fun opened final =>
        opened = tape.current.span ∧ tag.Holds final := by
  obtain ⟨trim, isStart⟩ := atTag.opens
  obtain ⟨tag, opens, holds⟩ := clear.opens (by rw [isStart]; rfl)
  have isName := isInner_of_isName atTag.named
  refine ⟨tag, opens, rfl, ?_, rfl, ?_⟩
  · exact Tape.Passes.trans (Tape.passes_advance trivial) (Tape.passes_advance trivial)
  · exact ⟨holds.surveyed.advance isName, holds.inTag.inside (Tape.passes_advance isName)⟩

theorem Tape.Clear.exists_succ (clear : tape.Clear exact bound) : ∃ fewer, bound = fewer + 1 :=
  clear.stands.exists_succ

theorem Tape.Clear.mono {fewer : Nat} (clear : tape.Clear exact fewer) (isFewer : fewer ≤ bound) :
    tape.Clear exact bound :=
  ⟨clear.stands.mono isFewer, clear.lined⟩

/-- The tightest bound. -/
theorem Tape.Clear.tight (clear : tape.Clear exact bound) :
    tape.Clear exact (tape.following.length + 1) :=
  ⟨⟨clear.stands.leads, Nat.lt_succ_self _⟩, clear.lined⟩

/-- Reading on, to where the head stands outside tags. -/
structure Tape.Onto (exact : Position → Prop) (bound : Nat) (tape final : Tape) : Prop where
  clear : final.Clear exact bound
  reaches : tape.Reaches final

theorem clear_finishTag {name : String} (clear : tape.Clear exact bound) (atTag : tape.AtTag name) :
    Lockstep tape finishTag finishTag fun _ => tape.Onto exact bound := by
  obtain ⟨fewer, rfl⟩ := clear.exists_succ
  obtain ⟨tag, opens, opening⟩ := clear.openTag atTag
  have leaves : ∀ here : Tape, tag.Holds here →
      Lockstep here expectBlockEnd expectBlockEnd fun _ => tape.Onto exact (fewer + 1) :=
    fun here holds => holds.leavesBlock.weaken fun _ _ _ left =>
      ⟨left.clear.mono (Nat.le_succ fewer), clear.lined.reaches (left.past opens)⟩
  refine opening.bind fun _ _ opened => ?_
  refine (opened.2.reads (confined_peekAhead 1) (draws_peekAhead 1)).bind fun next there seen => ?_
  refine .seeing (run_atKind .name there) ?_
  refine .ite (fun isLabel => ?_) fun _ => leaves _ seen.2
  rw [Bool.and_eq_true, beq_iff_eq] at isLabel
  have inner : there.current.kind.isInner = true := by
    rw [isLabel.1]
    rfl
  exact (seen.2.readsAt (inside_advance inner) (drawsAt_advance seen.2.surveyed inner)).bind
    fun _ final passed => leaves final passed.2

/-- What is wrong may be reported outside tags too. -/
theorem clear_mistake (clear : tape.Clear exact bound) (cause : Mistake) {span : Span}
    (isExact : span.IsExact exact) :
    Lockstep tape (mistake cause span) (mistake cause span) fun _ => tape.Onto exact bound := by
  refine ⟨rfl, (confined_mistake cause span tape).onward, ?_, ⟨Nat.le_refl _, ?_⟩⟩
  · refine ⟨⟨clear.stands.leads, clear.stands.short⟩, ⟨clear.lined.line, ?_⟩⟩
    intro diagnostic member
    rcases Array.mem_push.mp member with member | rfl
    · exact clear.lined.told diagnostic member
    · exact isExact
  · exact (Tape.Reaches.refl tape).past

end Stencil.Grammar
