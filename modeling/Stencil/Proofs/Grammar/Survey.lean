import Stencil.Proofs.Grammar.Confined
import Stencil.Proofs.Syntax.Placement

/-!
Contract: what is read inside a tag lies where the tokens of the tag lie.

Owns:
- tapes whose tokens up to the end of the tag lie in a window, and actions that draw on these tokens
  only;
- every reader of the expression grammar, and of the clauses of tags, is such an action: each span
  of what it reads is made of spans of tokens of the tag, whether these form an expression or not.

Does not own: statements and bodies (`Stencil.Proofs.Grammar.Placement`).
-/

set_option autoImplicit false

namespace Stencil.Grammar

open Stencil.Syntax
open Stencil.Text (Span Window)
open Stencil.Token (Kind Symbol)
open Levels Read

variable {α β : Type} {window : Window} {tape : Tape}

/-! ### Tapes in a window -/

/-- Whether the tokens up to the end of the tag lie in a window. -/
def UpToEnd (window : Window) : List Token → Prop
  | [] => True
  | token :: rest => window.Holds token.span ∧ (token.kind.isInner = true → UpToEnd window rest)

/-- Whether the rest of the tag and the token passed over last lie in a window, and all reports are
exact. -/
structure Tape.Surveyed (window : Window) (tape : Tape) : Prop where
  behind : window.Holds tape.previousSpan
  ahead : UpToEnd window tape.remaining
  told : ∀ diagnostic ∈ tape.problems, diagnostic.span.IsExact window.exact

namespace Tape.Surveyed

theorem current (surveyed : tape.Surveyed window) : window.Holds tape.current.span :=
  surveyed.ahead.1

theorem advance (surveyed : tape.Surveyed window) (inner : tape.current.kind.isInner = true) :
    tape.advance.Surveyed window := by
  obtain ⟨previous, current, following, enclosing, problems⟩ := tape
  cases following with
  | nil => exact surveyed
  | cons next rest => exact ⟨surveyed.ahead.1, surveyed.ahead.2 inner, surveyed.told⟩

theorem report (surveyed : tape.Surveyed window) (cause : Mistake) {span : Span}
    (holds : window.Holds span) : (tape.report (cause.toDiagnostic span)).Surveyed window := by
  refine ⟨surveyed.behind, surveyed.ahead, fun diagnostic member => ?_⟩
  rcases Array.mem_push.mp member with member | rfl
  · exact surveyed.told diagnostic member
  · exact holds.isExact

end Tape.Surveyed

/-! ### Actions that draw on the tag -/

/-- Whether an action keeps to the tag, and what it gives is as stated. -/
structure DrawsAt (window : Window) (tape : Tape) (action : Read α) (drawn : α → Prop) : Prop where
  surveyed : (action.run tape).2.Surveyed window
  drawn : drawn (action.run tape).1

/-- Whether an action does so from every tape in the window. -/
def Draws (window : Window) (action : Read α) (drawn : α → Prop) : Prop :=
  ∀ tape : Tape, tape.Surveyed window → DrawsAt window tape action drawn

section Actions

variable {drawn : α → Prop} {others : β → Prop}

theorem DrawsAt.bind {first : Read α} {next : α → Read β} (here : DrawsAt window tape first drawn)
    (rest : ∀ value, drawn value → Draws window (next value) others) :
    DrawsAt window tape (first >>= next) others := by
  have second := rest _ here.drawn _ here.surveyed
  exact ⟨second.surveyed, second.drawn⟩

/-- What comes next, from the tape on that the first action leads to. -/
theorem DrawsAt.behind {first : Read α} {next : α → Read β}
    (rest : DrawsAt window (first.run tape).2 (next (first.run tape).1) others) :
    DrawsAt window tape (first >>= next) others :=
  ⟨rest.surveyed, rest.drawn⟩

theorem Draws.bind {first : Read α} {next : α → Read β} (here : Draws window first drawn)
    (rest : ∀ value, drawn value → Draws window (next value) others) :
    Draws window (first >>= next) others :=
  fun tape surveyed => (here tape surveyed).bind rest

theorem draws_pure {value : α} (holds : drawn value) : Draws window (pure value) drawn :=
  fun _ surveyed => ⟨surveyed, holds⟩

theorem Draws.map {action : Read α} {f : α → β}
    (draws : Draws window action fun value => others (f value)) :
    Draws window (f <$> action) others :=
  fun tape surveyed => ⟨(draws tape surveyed).surveyed, (draws tape surveyed).drawn⟩

theorem Draws.weaken {weaker : α → Prop} {action : Read α} (draws : Draws window action drawn)
    (weakens : ∀ value, drawn value → weaker value) : Draws window action weaker :=
  fun tape surveyed => ⟨(draws tape surveyed).surveyed, weakens _ (draws tape surveyed).drawn⟩

theorem Draws.ite {condition : Prop} {_ : Decidable condition} {yes no : Read α}
    (left : Draws window yes drawn) (right : Draws window no drawn) :
    Draws window (if condition then yes else no) drawn := by
  split
  · exact left
  · exact right

/-- What only looks at the tape may give anything. -/
theorem draws_of_looks {action : Read α} (looks : ∀ tape, (action.run tape).2 = tape) :
    Draws window action fun _ => True :=
  fun tape surveyed => ⟨(looks tape).symm ▸ surveyed, trivial⟩

theorem draws_peek : Draws window peek fun token => window.Holds token.span :=
  fun _ surveyed => ⟨surveyed, surveyed.current⟩

theorem draws_peekAhead (distance : Nat) : Draws window (peekAhead distance) fun _ => True :=
  draws_of_looks fun _ => rfl

theorem draws_atKind (kind : Kind) : Draws window (atKind kind) fun _ => True :=
  draws_of_looks fun _ => rfl

theorem draws_atWord (word : String) : Draws window (atWord word) fun _ => True :=
  draws_of_looks fun _ => rfl

theorem draws_atTagEnd : Draws window atTagEnd fun _ => True := draws_of_looks fun _ => rfl

theorem draws_atClose : Draws window atClose fun _ => True := draws_of_looks fun _ => rfl

theorem draws_get : Draws window (get : Read Tape) fun _ => True := draws_of_looks fun _ => rfl

theorem draws_previousSpan : Draws window previousSpan window.Holds :=
  fun _ surveyed => ⟨surveyed, surveyed.behind⟩

theorem draws_spanFrom {start : Span} (holds : window.Holds start) :
    Draws window (spanFrom start) window.Holds :=
  fun _ surveyed => ⟨surveyed, Window.holds_cover holds surveyed.behind⟩

theorem draws_mistake (cause : Mistake) {span : Span} (holds : window.Holds span) :
    Draws window (mistake cause span) fun _ => True :=
  fun _ surveyed => ⟨surveyed.report cause holds, trivial⟩

theorem draws_expected (what : String) : Draws window (expected what) fun _ => True :=
  draws_peek.bind fun _ holds => draws_mistake _ holds

theorem drawsAt_advance (surveyed : tape.Surveyed window)
    (inner : tape.current.kind.isInner = true) :
    DrawsAt window tape advance fun token => window.Holds token.span :=
  ⟨surveyed.advance inner, surveyed.current⟩

/-- What is done only where a token from the inside of a tag is under the head may begin with
passing over it. -/
theorem draws_guarded {kind : Kind} (inner : kind.isInner = true) {condition : Bool}
    {yes no : Read α}
    (left : ∀ tape : Tape, tape.Surveyed window → tape.current.kind.isInner = true →
      DrawsAt window tape yes drawn)
    (right : Draws window no drawn) :
    Draws window (atKind kind >>= fun here => if (here && condition) = true then yes else no)
      drawn := by
  intro tape surveyed
  by_cases isHere : ((tape.current.kind == kind) && condition) = true
  · have isKind : tape.current.kind = kind := beq_iff_eq.mp (Bool.and_eq_true_iff.mp isHere).1
    have draws := left tape surveyed (isKind ▸ inner)
    refine ⟨?_, ?_⟩
    · rw [run_bind, run_atKind, run_ite, if_pos isHere]
      exact draws.surveyed
    · rw [run_bind, run_atKind, run_ite, if_pos isHere]
      exact draws.drawn
  · have draws := right tape surveyed
    refine ⟨?_, ?_⟩
    · rw [run_bind, run_atKind, run_ite, if_neg isHere]
      exact draws.surveyed
    · rw [run_bind, run_atKind, run_ite, if_neg isHere]
      exact draws.drawn

theorem draws_take? {kind : Kind} (inner : kind.isInner = true) :
    Draws window (take? kind) fun found => ∀ token ∈ found, window.Holds token.span := by
  intro tape surveyed
  by_cases isKind : tape.current.kind = kind
  · have takes : (take? kind).run tape = (some tape.current, tape.advance) := by
      rw [run_take?, if_pos isKind]
    refine ⟨takes ▸ surveyed.advance (isKind ▸ inner), ?_⟩
    rw [takes]
    rintro token ⟨⟩
    exact surveyed.current
  · have takes : (take? kind).run tape = (none, tape) := by rw [run_take?, if_neg isKind]
    refine ⟨takes ▸ surveyed, ?_⟩
    rw [takes]
    exact nofun

theorem draws_takeSymbol (symbol : Symbol) : Draws window (takeSymbol symbol) fun _ => True :=
  (draws_take? rfl).bind fun _ _ => draws_pure trivial

theorem draws_takeWord (word : String) : Draws window (takeWord word) fun _ => True := by
  intro tape surveyed
  refine ⟨?_, trivial⟩
  rw [run_takeWord]
  split
  · rename_i isWord
    exact surveyed.advance (isInner_of_isName isWord)
  · exact surveyed

theorem draws_expectSymbol (symbol : Symbol) : Draws window (expectSymbol symbol) fun _ => True :=
  (draws_takeSymbol symbol).bind fun _ _ =>
    .ite (draws_pure trivial) ((draws_expected _).bind fun _ _ => draws_pure trivial)

theorem draws_expectWord (word : String) : Draws window (expectWord word) fun _ => True :=
  (draws_takeWord word).bind fun _ _ => .ite (draws_pure trivial) (draws_expected _)

theorem draws_expectName (what : String) : Draws window (expectName what) fun _ => True := by
  refine (draws_take? rfl).bind fun found _ => ?_
  cases found with
  | none => exact (draws_expected _).bind fun _ _ => draws_pure trivial
  | some token => exact draws_pure trivial

/-- What holds of the value of a turn, whether it is the last one or not. -/
def turnDraws (drawn : α → Prop) : Turn α → Prop
  | .again value => drawn value
  | .done value => drawn value

theorem draws_loop {turn : α → Read (Turn α)}
    (each : ∀ value, drawn value → Draws window (turn value) (turnDraws drawn)) {value : α}
    (holds : drawn value) : Draws window (loop turn value) drawn := by
  have settles (limit : Nat) (value : α) (holds : drawn value) :
      Draws window (turns turn limit value) drawn := by
    induction limit generalizing value with
    | zero => exact draws_pure holds
    | succ fewer inductionHypothesis =>
        refine (each value holds).bind fun result holds => ?_
        cases result with
        | again next => exact inductionHypothesis next holds
        | done result => exact draws_pure holds
  intro tape surveyed
  have settled := settles (tape.following.length + 1) value holds tape surveyed
  exact ⟨settled.surveyed, settled.drawn⟩

end Actions

/-! ### Operands -/

variable {token : Token}

theorem draws_numberValue (holds : window.Holds token.span) (isFloat : Bool) :
    Draws window (numberValue token isFloat) fun _ => True := by
  unfold numberValue
  dsimp only
  split
  · exact draws_pure trivial
  · split
    · exact draws_pure trivial
    · exact (draws_mistake _ holds).bind fun _ _ => draws_pure trivial

theorem drawsAt_integerOperand (holds : window.Holds token.span) (surveyed : tape.Surveyed window)
    (inner : tape.current.kind.isInner = true) :
    DrawsAt window tape (integerOperand token) (Expr.LiesIn window) := by
  refine (drawsAt_advance surveyed inner).bind fun _ _ => (draws_peekAhead 1).bind fun _ _ =>
    draws_guarded rfl (fun tape surveyed point => ?_) ?_
  · refine (drawsAt_advance surveyed point).bind fun dot atDot =>
      (draws_numberValue holds true).bind fun _ _ => draws_pure ?_
    exact Expr.liesIn_literal (Window.holds_cover holds atDot) _
  · exact (draws_numberValue holds false).bind fun _ _ => draws_pure (Expr.liesIn_literal holds _)

theorem draws_stringTurn (sum : String × Span) (holds : window.Holds sum.2) :
    Draws window (stringTurn sum) (turnDraws fun sum => window.Holds sum.2) := by
  refine (draws_take? rfl).bind fun found atFound => ?_
  cases found with
  | none => exact draws_pure holds
  | some token => exact draws_pure (Window.holds_cover holds (atFound token rfl))

theorem drawsAt_stringOperand (surveyed : tape.Surveyed window)
    (inner : tape.current.kind.isInner = true) :
    DrawsAt window tape stringOperand (Expr.LiesIn window) := by
  refine (drawsAt_advance surveyed inner).bind fun first atFirst => ?_
  have begins : window.Holds (stringValue first, first.span).2 := atFirst
  refine (draws_loop draws_stringTurn begins).bind fun sum holds => draws_pure ?_
  exact Expr.liesIn_literal holds _

theorem liesIn_wordOperand (holds : window.Holds token.span) :
    (wordOperand token).LiesIn window := by
  unfold wordOperand
  split
  all_goals first
    | exact Expr.liesIn_literal holds _
    | exact Expr.liesIn_name holds _

/-- Whether the readers of the grammar one nesting deeper draw on the tag. -/
structure Levels.DrawIn (window : Window) (inner : Levels) : Prop where
  expression : Draws window inner.expression (Expr.LiesIn window)
  negation : Draws window inner.negation (Expr.LiesIn window)
  signed : Draws window inner.signed (Expr.LiesIn window)
  chain : Draws window inner.chain (Expr.LiesIn window)

/-- Whether all of several expressions lie in a window. -/
def ListedIn (window : Window) (items : List Expr) : Prop := ∀ item ∈ items, item.LiesIn window

theorem listedIn_nil : ListedIn window [] := fun _ member => nomatch member

theorem listedIn_one {item : Expr} (lies : item.LiesIn window) : ListedIn window [item] :=
  List.forall_mem_singleton.mpr lies

theorem ListedIn.concat {items : List Expr} {item : Expr} (listed : ListedIn window items)
    (lies : item.LiesIn window) : ListedIn window (items ++ [item]) :=
  List.forall_mem_append.mpr ⟨listed, listedIn_one lies⟩

variable {inner : Levels}

theorem draws_tupleTurn (levels : inner.DrawIn window) (items : List Expr)
    (listed : ListedIn window items) :
    Draws window (tupleTurn inner items) (turnDraws (ListedIn window)) := by
  refine (draws_takeSymbol _).bind fun _ _ => .ite ?_ (draws_pure listed)
  refine (draws_atKind _).bind fun _ _ => .ite (draws_pure listed) ?_
  refine levels.expression.bind fun item lies => draws_pure ?_
  split
  · exact listed.concat lies
  · exact listed.concat lies

theorem drawsAt_parenthesized (levels : inner.DrawIn window) (surveyed : tape.Surveyed window)
    (opens : tape.current.kind.isInner = true) :
    DrawsAt window tape (parenthesized inner) (Expr.LiesIn window) := by
  refine (drawsAt_advance surveyed opens).bind fun start atStart =>
    (draws_takeSymbol _).bind fun _ _ => .ite ?_ ?_
  · refine (draws_spanFrom atStart).bind fun span holds => draws_pure ?_
    exact Expr.liesIn_of_parts holds nofun nofun
  · refine levels.expression.bind fun first atFirst => (draws_atKind _).bind fun _ _ => .ite ?_ ?_
    · refine (draws_loop (draws_tupleTurn levels) (listedIn_one atFirst)).bind
        fun items listed => ?_
      refine (draws_expectSymbol _).bind fun _ _ => (draws_spanFrom atStart).bind fun span holds =>
        draws_pure ?_
      exact Expr.liesIn_of_parts holds nofun listed
    · refine (draws_expectSymbol _).bind fun _ _ => (draws_spanFrom atStart).bind fun span holds =>
        draws_pure ?_
      exact Expr.liesIn_one holds nofun rfl atFirst

theorem draws_itemTurn {item : Read Expr} (draws : Draws window item (Expr.LiesIn window))
    (closing : Symbol) (items : List Expr) (listed : ListedIn window items) :
    Draws window (itemTurn closing item items) (turnDraws (ListedIn window)) := by
  refine (draws_atKind _).bind fun _ _ => draws_atClose.bind fun _ _ => .ite (draws_pure listed) ?_
  refine draws.bind fun item lies => ?_
  refine .ite (draws_pure (listed.concat lies)) ((draws_takeSymbol _).bind fun _ _ => ?_)
  exact .ite (draws_pure (listed.concat lies)) (draws_pure (listed.concat lies))

theorem drawsAt_listOperand (levels : inner.DrawIn window) (surveyed : tape.Surveyed window)
    (opens : tape.current.kind.isInner = true) :
    DrawsAt window tape (listOperand inner) (Expr.LiesIn window) := by
  refine (drawsAt_advance surveyed opens).bind fun start atStart => ?_
  refine (draws_loop (draws_itemTurn levels.expression _) listedIn_nil).bind fun items listed => ?_
  refine (draws_expectSymbol _).bind fun _ _ => (draws_spanFrom atStart).bind fun span holds =>
    draws_pure ?_
  exact Expr.liesIn_of_parts holds nofun listed

/-- Whether all keys and values of a dictionary lie in a window. -/
def EnteredIn (window : Window) (entries : List (Expr × Expr)) : Prop :=
  ∀ entry ∈ entries, entry.1.LiesIn window ∧ entry.2.LiesIn window

theorem enteredIn_nil : EnteredIn window [] := fun _ member => nomatch member

theorem EnteredIn.concat {entries : List (Expr × Expr)} {key value : Expr}
    (entered : EnteredIn window entries) (atKey : key.LiesIn window)
    (atValue : value.LiesIn window) : EnteredIn window (entries ++ [(key, value)]) :=
  List.forall_mem_append.mpr ⟨entered, List.forall_mem_singleton.mpr ⟨atKey, atValue⟩⟩

theorem draws_entryTurn (levels : inner.DrawIn window) (entries : List (Expr × Expr))
    (entered : EnteredIn window entries) :
    Draws window (entryTurn inner entries) (turnDraws (EnteredIn window)) := by
  refine (draws_atKind _).bind fun _ _ => draws_atClose.bind fun _ _ => .ite (draws_pure entered) ?_
  refine levels.expression.bind fun key atKey => .ite (draws_pure entered) ?_
  refine (draws_expectSymbol _).bind fun _ _ => .ite (draws_pure entered) ?_
  refine levels.expression.bind fun value atValue => ?_
  have longer := entered.concat atKey atValue
  refine .ite (draws_pure longer) ?_
  exact (draws_takeSymbol _).bind fun _ _ => .ite (draws_pure longer) (draws_pure longer)

theorem drawsAt_dictOperand (levels : inner.DrawIn window) (surveyed : tape.Surveyed window)
    (opens : tape.current.kind.isInner = true) :
    DrawsAt window tape (dictOperand inner) (Expr.LiesIn window) := by
  refine (drawsAt_advance surveyed opens).bind fun start atStart => ?_
  refine (draws_loop (draws_entryTurn levels) enteredIn_nil).bind fun entries entered => ?_
  refine (draws_expectSymbol _).bind fun _ _ => (draws_spanFrom atStart).bind fun span holds =>
    draws_pure ?_
  refine Expr.liesIn_of_parts holds nofun fun part member => ?_
  obtain ⟨entry, isEntry, member⟩ := List.mem_flatMap.mp member
  obtain ⟨atKey, atValue⟩ := entered entry isEntry
  rcases List.mem_cons.mp member with rfl | member
  · exact atKey
  · exact List.mem_singleton.mp member ▸ atValue

theorem draws_operand (levels : inner.DrawIn window) :
    Draws window (operand inner) (Expr.LiesIn window) := by
  intro tape surveyed
  have holds := surveyed.current
  refine .behind ?_
  simp only [run_peek]
  split
  · rename_i isName
    exact (drawsAt_advance surveyed (by rw [isName]; rfl)).bind fun _ _ =>
      draws_pure (liesIn_wordOperand holds)
  · rename_i isInteger
    exact drawsAt_integerOperand holds surveyed (by rw [isInteger]; rfl)
  · rename_i isFloat
    exact (drawsAt_advance surveyed (by rw [isFloat]; rfl)).bind fun _ _ =>
      (draws_numberValue holds true).bind fun _ _ => draws_pure (Expr.liesIn_literal holds _)
  · rename_i isString
    exact drawsAt_stringOperand surveyed (by rw [isString]; rfl)
  · rename_i isParen
    exact drawsAt_parenthesized levels surveyed (by rw [isParen]; rfl)
  · rename_i isBracket
    exact drawsAt_listOperand levels surveyed (by rw [isBracket]; rfl)
  · rename_i isBrace
    exact drawsAt_dictOperand levels surveyed (by rw [isBrace]; rfl)
  · refine (draws_expected _).bind (fun _ _ => draws_pure ?_) tape surveyed
    exact Expr.liesIn_missing (Window.holds_point holds)

/-! ### The chain after an operand -/

theorem liesIn_items {value : Expr} {span : Span} (atValue : value.LiesIn window)
    (holds : window.Holds span) (keys : List (List Char)) :
    (keys.foldl (fun value segment =>
      Expr.item value (.literal (segmentKey segment) span) (value.span.cover span)) value).LiesIn
        window := by
  induction keys generalizing value with
  | nil => exact atValue
  | cons segment rest inductionHypothesis =>
      apply inductionHypothesis
      exact Expr.liesIn_two (Window.holds_cover atValue.own holds) nofun rfl atValue
        (Expr.liesIn_literal holds _)

theorem drawsAt_attributeOf {value : Expr} (atValue : value.LiesIn window)
    (surveyed : tape.Surveyed window) (opens : tape.current.kind.isInner = true) :
    DrawsAt window tape (attributeOf value) (Expr.LiesIn window) := by
  refine (drawsAt_advance surveyed opens).bind fun _ _ => fun tape surveyed => ?_
  have holds := surveyed.current
  refine .behind ?_
  simp only [run_peek]
  split
  · rename_i isName
    refine (drawsAt_advance surveyed (by rw [isName]; rfl)).bind fun _ _ => draws_pure ?_
    exact Expr.liesIn_one (Window.holds_cover atValue.own holds) nofun rfl atValue
  · rename_i isInteger
    exact (drawsAt_advance surveyed (by rw [isInteger]; rfl)).bind fun _ _ =>
      draws_pure (liesIn_items atValue holds _)
  · rename_i isFloat
    exact (drawsAt_advance surveyed (by rw [isFloat]; rfl)).bind fun _ _ =>
      draws_pure (liesIn_items atValue holds _)
  · exact (draws_expected _).bind (fun _ _ => draws_pure atValue) tape surveyed

theorem drawsAt_subscriptOf (levels : inner.DrawIn window) {value : Expr}
    (atValue : value.LiesIn window) (surveyed : tape.Surveyed window)
    (opens : tape.current.kind.isInner = true) :
    DrawsAt window tape (subscriptOf inner value) (Expr.LiesIn window) := by
  refine (drawsAt_advance surveyed opens).bind fun _ _ => ?_
  refine levels.expression.bind fun index atIndex => (draws_expectSymbol _).bind fun _ _ =>
    draws_previousSpan.bind fun last holds => draws_pure ?_
  exact Expr.liesIn_two (Window.holds_cover atValue.own holds) nofun rfl atValue atIndex

theorem draws_namedArgument? {value : Read Expr} (draws : Draws window value (Expr.LiesIn window)) :
    Draws window (namedArgument? value) fun found => ∀ arg ∈ found, arg.LiesIn window := by
  intro tape surveyed
  refine .behind (.behind ?_)
  rw [run_peekAhead, Tape.ahead_one, run_atKind]
  dsimp only
  split
  · rename_i named
    rw [Bool.and_eq_true, beq_iff_eq] at named
    have isName : tape.current.kind.isInner = true := by rw [named.1]; rfl
    have isAssign : tape.advance.current.kind.isInner = true := by
      rw [beq_iff_eq.mp named.2]
      rfl
    have atName := surveyed.current
    refine .behind ((drawsAt_advance (surveyed.advance isName) isAssign).bind fun _ _ => ?_)
    refine draws.bind fun value atValue => draws_pure ?_
    rintro _ ⟨⟩
    exact Expr.liesIn_one (Window.holds_cover atName atValue.own) nofun rfl atValue
  · exact ⟨surveyed, nofun⟩

theorem draws_argument {value : Read Expr} (draws : Draws window value (Expr.LiesIn window)) :
    Draws window (argument value) (Expr.LiesIn window) := by
  refine (draws_namedArgument? draws).bind fun found lies => ?_
  cases found with
  | none => exact draws
  | some arg => exact draws_pure (lies arg rfl)

theorem drawsAt_arguments (levels : inner.DrawIn window) (surveyed : tape.Surveyed window)
    (opens : tape.current.kind.isInner = true) :
    DrawsAt window tape (arguments inner) (ListedIn window) := by
  refine (drawsAt_advance surveyed opens).bind fun _ _ => ?_
  refine (draws_loop (draws_itemTurn (draws_argument levels.expression) _) listedIn_nil).bind
    fun args listed => ?_
  exact (draws_expectSymbol _).bind fun _ _ => draws_pure listed

theorem drawsAt_callOf (levels : inner.DrawIn window) {callee : Expr}
    (atCallee : callee.LiesIn window) (surveyed : tape.Surveyed window)
    (opens : tape.current.kind.isInner = true) :
    DrawsAt window tape (callOf inner callee) (Expr.LiesIn window) := by
  refine (drawsAt_arguments levels surveyed opens).bind fun args listed =>
    draws_previousSpan.bind fun last holds => draws_pure ?_
  refine Expr.liesIn_of_parts (Window.holds_cover atCallee.own holds) nofun ?_
  exact List.forall_mem_cons.mpr ⟨atCallee, listed⟩

theorem DrawsAt.again {drawn : α → Prop} {action : Read α}
    (draws : DrawsAt window tape action drawn) :
    DrawsAt window tape (Turn.again <$> action) (turnDraws drawn) :=
  ⟨draws.surveyed, draws.drawn⟩

theorem draws_plainTurn (levels : inner.DrawIn window) (withCalls : Bool) (value : Expr)
    (atValue : value.LiesIn window) :
    Draws window (plainTurn inner withCalls value) (turnDraws (Expr.LiesIn window)) := by
  intro tape surveyed
  refine .behind ?_
  simp only [run_peek]
  split
  · rename_i isPoint
    exact (drawsAt_attributeOf atValue surveyed (by rw [isPoint]; rfl)).again
  · rename_i isBracket
    exact (drawsAt_subscriptOf levels atValue surveyed (by rw [isBracket]; rfl)).again
  · rename_i isParen
    split
    · exact (drawsAt_callOf levels atValue surveyed (by rw [isParen]; rfl)).again
    · exact ⟨surveyed, atValue⟩
  · exact ⟨surveyed, atValue⟩

theorem draws_plainChain (levels : inner.DrawIn window) (withCalls : Bool) :
    Draws window (plainChain inner withCalls) (Expr.LiesIn window) :=
  (draws_operand levels).bind fun _ atFirst => draws_loop (draws_plainTurn levels withCalls) atFirst

theorem draws_bareTurn (levels : inner.DrawIn window) (args : List Expr)
    (listed : ListedIn window args) :
    Draws window (bareTurn inner args) (turnDraws (ListedIn window)) := by
  refine (draws_argument (draws_plainChain levels true)).bind fun arg atArg =>
    (draws_peekAhead 1).bind fun _ _ => (draws_peekAhead 2).bind fun _ _ => ?_
  have longer := listed.concat atArg
  intro tape surveyed
  refine .behind ?_
  rw [run_atSymbol]
  dsimp only
  split
  · rename_i isComma
    simp only [Bool.and_eq_true, beq_iff_eq] at isComma
    exact (drawsAt_advance surveyed (by rw [isComma.1.1]; rfl)).bind fun _ _ => draws_pure longer
  · exact ⟨surveyed, longer⟩

theorem draws_bareArguments (levels : inner.DrawIn window) :
    Draws window (bareArguments inner) (ListedIn window) :=
  draws_peek.bind fun _ _ =>
    .ite (draws_pure listedIn_nil) (draws_loop (draws_bareTurn levels) listedIn_nil)

/-- What is read for its name alone draws on the tag like anything else. -/
theorem draws_dottedTurn (name : String) :
    Draws window (dottedTurn name) (turnDraws fun _ => True) := by
  intro tape surveyed
  refine .behind (.behind ?_)
  rw [run_peekAhead, Tape.ahead_one, run_atSymbol]
  dsimp only
  split
  · rename_i isPoint
    simp only [Bool.and_eq_true, beq_iff_eq] at isPoint
    have point : tape.current.kind.isInner = true := by rw [isPoint.1]; rfl
    have part : tape.advance.current.kind.isInner = true := by rw [isPoint.2]; rfl
    exact ⟨(surveyed.advance point).advance part, trivial⟩
  · exact ⟨surveyed, trivial⟩

theorem draws_dottedName (what : String) : Draws window (dottedName what) fun _ => True := by
  refine (draws_expectName what).bind fun found _ => ?_
  cases found with
  | none => exact draws_pure trivial
  | some first => exact draws_loop (fun name _ => draws_dottedTurn name) trivial

theorem draws_filterCall (levels : inner.DrawIn window) :
    Draws window (Levels.filterCall inner) (FilterCall.LiesIn window) := by
  refine draws_peek.bind fun start atStart => (draws_dottedName _).bind fun name _ =>
    fun tape surveyed => ?_
  have calls (args : List Expr) (listed : ListedIn window args) :
      Draws window (do return FilterCall.mk name args (← spanFrom start.span))
        (FilterCall.LiesIn window) :=
    (draws_spanFrom atStart).bind fun span holds => draws_pure ⟨holds, listed⟩
  refine .behind ?_
  rw [run_atSymbol]
  dsimp only
  split
  · rename_i isParen
    exact (drawsAt_arguments levels surveyed (by rw [beq_iff_eq.mp isParen]; rfl)).bind calls
  · exact (draws_bareArguments levels).bind calls tape surveyed

theorem drawsAt_testOf (levels : inner.DrawIn window) {value : Expr}
    (atValue : value.LiesIn window) (surveyed : tape.Surveyed window)
    (opens : tape.current.kind.isInner = true) :
    DrawsAt window tape (testOf inner value) (Expr.LiesIn window) := by
  refine (drawsAt_advance surveyed opens).bind fun _ _ => (draws_takeWord _).bind fun negated _ =>
    (draws_dottedName _).bind fun name _ => fun tape surveyed => ?_
  have tests (args : List Expr) (listed : ListedIn window args) :
      Draws window (do
        return Expr.test value negated name args (value.span.cover (← previousSpan)))
        (Expr.LiesIn window) := by
    refine draws_previousSpan.bind fun last holds => draws_pure ?_
    refine Expr.liesIn_of_parts (Window.holds_cover atValue.own holds) nofun ?_
    exact List.forall_mem_cons.mpr ⟨atValue, listed⟩
  refine .behind ?_
  rw [run_peek]
  dsimp only
  by_cases isParen : tape.current.isSymbol .leftParen = true
  · have isKind : tape.current.kind = .symbol .leftParen := beq_iff_eq.mp isParen
    simp only [if_pos isParen]
    exact (drawsAt_arguments levels surveyed (by rw [isKind]; rfl)).bind tests
  · simp only [if_neg isParen]
    refine Draws.ite ?_ ?_ tape surveyed
    · exact levels.chain.bind fun arg atArg => (draws_pure (listedIn_one atArg)).bind tests
    · exact (draws_pure listedIn_nil).bind tests

theorem draws_chainTurn (levels : inner.DrawIn window) (value : Expr)
    (atValue : value.LiesIn window) :
    Draws window (chainTurn inner value) (turnDraws (Expr.LiesIn window)) := by
  intro tape surveyed
  refine .behind ?_
  simp only [run_peek]
  split
  · rename_i isPoint
    exact (drawsAt_attributeOf atValue surveyed (by rw [isPoint]; rfl)).again
  · rename_i isBracket
    exact (drawsAt_subscriptOf levels atValue surveyed (by rw [isBracket]; rfl)).again
  · rename_i isParen
    exact (drawsAt_callOf levels atValue surveyed (by rw [isParen]; rfl)).again
  · rename_i isPipe
    exact (drawsAt_advance surveyed (by rw [isPipe]; rfl)).bind fun _ _ =>
      (draws_filterCall levels).bind fun _ atCall =>
        draws_pure (FilterCall.liesIn_on atCall atValue)
  · rename_i isName
    refine .behind ?_
    rw [run_atWord]
    dsimp only
    split
    · exact (drawsAt_testOf levels atValue surveyed (by rw [isName]; rfl)).again
    · exact ⟨surveyed, atValue⟩
  · exact ⟨surveyed, atValue⟩

theorem draws_chainLevel (levels : inner.DrawIn window) :
    Draws window (chainLevel inner) (Expr.LiesIn window) :=
  (draws_operand levels).bind fun _ atFirst => draws_loop (draws_chainTurn levels) atFirst

/-! ### Operators -/

theorem liesIn_binary (op : BinaryOp) {left right : Expr} (atLeft : left.LiesIn window)
    (atRight : right.LiesIn window) : (binary op left right).LiesIn window :=
  Expr.liesIn_two (Window.holds_cover atLeft.own atRight.own) nofun rfl atLeft atRight

theorem draws_leftTurn {operator? : Token → Option BinaryOp}
    (operates : OperatesInside operator?) {tighter : Read Expr}
    (draws : Draws window tighter (Expr.LiesIn window)) (left : Expr)
    (atLeft : left.LiesIn window) :
    Draws window (leftTurn operator? tighter left) (turnDraws (Expr.LiesIn window)) := by
  intro tape surveyed
  refine .behind ?_
  simp only [run_peek]
  split
  · rename_i op isOperator
    exact (drawsAt_advance surveyed (operates _ op isOperator)).bind fun _ _ =>
      draws.bind fun _ atRight => draws_pure (liesIn_binary op atLeft atRight)
  · exact ⟨surveyed, atLeft⟩

theorem draws_leftAssociative {operator? : Token → Option BinaryOp}
    (operates : OperatesInside operator?) {tighter : Read Expr}
    (draws : Draws window tighter (Expr.LiesIn window)) :
    Draws window (leftAssociative operator? tighter) (Expr.LiesIn window) :=
  draws.bind fun _ atFirst => draws_loop (draws_leftTurn operates draws) atFirst

theorem draws_powerLevel (levels : inner.DrawIn window) :
    Draws window (powerLevel inner) (Expr.LiesIn window) :=
  (draws_chainLevel levels).bind fun _ atBase => (draws_takeSymbol _).bind fun _ _ =>
    .ite (levels.signed.bind fun _ atExponent => draws_pure (liesIn_binary _ atBase atExponent))
      (draws_pure atBase)

theorem liesIn_unary (op : UnaryOp) {operand : Expr} (holds : window.Holds token.span)
    (atOperand : operand.LiesIn window) :
    (Expr.unary op operand (token.span.cover operand.span)).LiesIn window :=
  Expr.liesIn_one (Window.holds_cover holds atOperand.own) nofun rfl atOperand

theorem draws_signedLevel (levels : inner.DrawIn window) :
    Draws window (signedLevel inner) (Expr.LiesIn window) := by
  intro tape surveyed
  refine .behind ?_
  simp only [run_peek]
  split
  · rename_i op isOperator
    have isInner : tape.current.kind.isInner = true := by
      split at isOperator
      · rename_i isMinus
        rw [isMinus]
        rfl
      · rename_i isPlus
        rw [isPlus]
        rfl
      · cases isOperator
    exact (drawsAt_advance surveyed isInner).bind fun _ _ => levels.signed.bind fun _ atOperand =>
      draws_pure (liesIn_unary op surveyed.current atOperand)
  · exact draws_powerLevel levels tape surveyed

theorem draws_concatLevel (levels : inner.DrawIn window) :
    Draws window (concatLevel inner) (Expr.LiesIn window) :=
  draws_leftAssociative operatesInside_concat <|
    draws_leftAssociative operatesInside_sum <|
      draws_leftAssociative operatesInside_product (draws_signedLevel levels)

theorem draws_membershipTurn (levels : inner.DrawIn window) (element : Expr)
    (atElement : element.LiesIn window) :
    Draws window (membershipTurn inner element) (turnDraws (Expr.LiesIn window)) := by
  intro tape surveyed
  have contains (negated : Bool) :
      Draws window (do
        let container ← concatLevel inner
        return Turn.again (Expr.membership negated element container
          (element.span.cover container.span))) (turnDraws (Expr.LiesIn window)) := by
    refine (draws_concatLevel levels).bind fun container atContainer => draws_pure ?_
    exact Expr.liesIn_two (Window.holds_cover atElement.own atContainer.own) nofun rfl atElement
      atContainer
  refine .behind (.behind ?_)
  rw [run_peekAhead, Tape.ahead_one, run_peek]
  dsimp only
  split
  · exact ⟨surveyed, atElement⟩
  · rename_i negated isOperator
    unfold membershipOperator? at isOperator
    split at isOperator
    · rename_i isIn
      cases isOperator
      exact (drawsAt_advance surveyed (isInner_of_isName isIn)).bind fun _ _ => contains false
    · split at isOperator
      · rename_i isNotIn
        cases isOperator
        rw [Bool.and_eq_true] at isNotIn
        have passedNot := surveyed.advance (isInner_of_isName isNotIn.1)
        exact .behind ((drawsAt_advance passedNot (isInner_of_isName isNotIn.2)).bind fun _ _ =>
          contains true)
      · cases isOperator

theorem draws_comparisonLevel (levels : inner.DrawIn window) :
    Draws window (comparisonLevel inner) (Expr.LiesIn window) :=
  draws_leftAssociative operatesInside_comparison <|
    (draws_concatLevel levels).bind fun _ atFirst =>
      draws_loop (draws_membershipTurn levels) atFirst

theorem draws_negationLevel (levels : inner.DrawIn window) :
    Draws window (negationLevel inner) (Expr.LiesIn window) := by
  intro tape surveyed
  refine .behind ?_
  rw [run_peek]
  dsimp only
  split
  · rename_i isNot
    exact (drawsAt_advance surveyed (isInner_of_isName isNot)).bind fun _ _ =>
      levels.negation.bind fun _ atOperand =>
        draws_pure (liesIn_unary .not surveyed.current atOperand)
  · exact draws_comparisonLevel levels tape surveyed

theorem draws_disjunctionLevel (levels : inner.DrawIn window) :
    Draws window (disjunctionLevel inner) (Expr.LiesIn window) :=
  draws_leftAssociative (operatesInside_word "or" .or) <|
    draws_leftAssociative (operatesInside_word "and" .and) (draws_negationLevel levels)

/-- Whether what may be there lies in a window. -/
def OptionIn (window : Window) (found : Option Expr) : Prop := ∀ expr ∈ found, expr.LiesIn window

theorem draws_some {action : Read Expr} (draws : Draws window action (Expr.LiesIn window)) :
    Draws window (some <$> action) (OptionIn window) :=
  .map (draws.weaken fun _ lies _ isFound => Option.mem_some.mp isFound ▸ lies)

theorem draws_conditionalLevel (levels : inner.DrawIn window) :
    Draws window (conditionalLevel inner) (Expr.LiesIn window) := by
  refine (draws_disjunctionLevel levels).bind fun value atValue => (draws_takeWord _).bind
    fun _ _ => .ite ?_ (draws_pure atValue)
  refine (draws_disjunctionLevel levels).bind fun test atTest => ?_
  have chooses (otherwise : Option Expr) (lies : OptionIn window otherwise) :
      Draws window (do
        return Expr.conditional test value otherwise (value.span.cover (← previousSpan)))
        (Expr.LiesIn window) := by
    refine draws_previousSpan.bind fun last holds => draws_pure ?_
    refine Expr.liesIn_of_parts (Window.holds_cover atValue.own holds) nofun ?_
    refine List.forall_mem_cons.mpr ⟨atTest, List.forall_mem_cons.mpr ⟨atValue, ?_⟩⟩
    exact fun part member => lies part (Option.mem_toList.mp member)
  refine (draws_takeWord _).bind fun _ _ => .ite ?_ ?_
  · exact (draws_some levels.expression).bind chooses
  · exact (draws_pure nofun).bind chooses

/-! ### All nestings -/

theorem drawIn_nested (depth : Nat) : (nested depth).DrawIn window := by
  induction depth with
  | zero =>
      have missing : Draws window (do return Expr.missing (Span.point (← peek).span.start))
          (Expr.LiesIn window) :=
        draws_peek.bind fun _ holds => draws_pure (Expr.liesIn_missing (Window.holds_point holds))
      exact ⟨missing, missing, missing, missing⟩
  | succ fewer inductionHypothesis =>
      exact ⟨draws_conditionalLevel inductionHypothesis, draws_negationLevel inductionHypothesis,
        draws_signedLevel inductionHypothesis, draws_chainLevel inductionHypothesis⟩

theorem draws_withNesting {part : Levels → Read α} {drawn : α → Prop}
    (draws : ∀ inner : Levels, inner.DrawIn window → Draws window (part inner) drawn) :
    Draws window (withNesting part) drawn :=
  fun tape surveyed => .behind (draws _ (drawIn_nested _) tape surveyed)

theorem draws_expression : Draws window expression (Expr.LiesIn window) :=
  draws_withNesting fun _ => draws_conditionalLevel

theorem draws_disjunction : Draws window disjunction (Expr.LiesIn window) :=
  draws_withNesting fun _ => draws_disjunctionLevel

theorem draws_targetOperand : Draws window targetOperand (Expr.LiesIn window) :=
  draws_withNesting fun _ levels => draws_plainChain levels false

theorem draws_filter : Draws window filterCall (FilterCall.LiesIn window) :=
  draws_withNesting fun _ => draws_filterCall

theorem draws_listedTurn (items : List Expr) (listed : ListedIn window items) :
    Draws window (listedTurn items) (turnDraws (ListedIn window)) :=
  (draws_takeSymbol _).bind fun _ _ =>
    .ite (draws_atClose.bind fun _ _ => .ite (draws_pure listed)
      (draws_expression.bind fun _ lies => draws_pure (listed.concat lies))) (draws_pure listed)

theorem draws_expressionList : Draws window expressionList (Expr.LiesIn window) := by
  refine draws_expression.bind fun first atFirst => (draws_atKind _).bind fun _ _ =>
    .ite ?_ (draws_pure atFirst)
  refine (draws_loop draws_listedTurn (listedIn_one atFirst)).bind fun items listed => ?_
  refine draws_previousSpan.bind fun last holds => draws_pure ?_
  exact Expr.liesIn_of_parts (Window.holds_cover atFirst.own holds) nofun listed

theorem draws_toTarget (tag : String) {expr : Expr} (lies : expr.LiesIn window) :
    Draws window (toTarget tag expr) (Target.LiesIn window) := by
  have stands := Target.standsIn_ofExpr expr
  unfold toTarget
  split
  · rename_i target isTarget
    rw [isTarget] at stands
    exact draws_pure fun span marks => lies span (stands span marks)
  · rename_i bad isBad
    rw [isBad] at stands
    refine (draws_mistake _ (lies bad stands)).bind fun _ _ => draws_pure fun span marks => ?_
    cases marks with
    | own => exact lies.own
    | expr member => cases member
    | inside member => cases member

theorem draws_targetTurn (items : List Expr) (listed : ListedIn window items) :
    Draws window (targetTurn items) (turnDraws (ListedIn window)) := by
  refine (draws_takeSymbol _).bind fun _ _ => .ite ?_ (draws_pure listed)
  refine (draws_atKind _).bind fun _ _ => (draws_atWord _).bind fun _ _ =>
    draws_atTagEnd.bind fun _ _ => .ite (draws_pure listed) ?_
  exact draws_targetOperand.bind fun _ lies => draws_pure (listed.concat lies)

theorem draws_assignTarget (tag : String) :
    Draws window (assignTarget tag) (Target.LiesIn window) := by
  refine draws_targetOperand.bind fun first atFirst => (draws_atKind _).bind fun _ _ =>
    .ite ?_ (draws_toTarget _ atFirst)
  refine (draws_loop draws_targetTurn (listedIn_one atFirst)).bind fun items listed => ?_
  refine draws_previousSpan.bind fun last holds => draws_toTarget _ ?_
  exact Expr.liesIn_of_parts (Window.holds_cover atFirst.own holds) nofun listed

/-! ### Clauses -/

open Statement

theorem draws_contextClause? : Draws window contextClause? fun _ => True := by
  intro tape surveyed
  have sees : atContextClause.run tape =
      ((tape.current.isName "with" || tape.current.isName "without") &&
        tape.advance.current.isName "context", tape) := by
    rw [← Tape.ahead_one]
    rfl
  refine .behind ?_
  rw [sees]
  dsimp only
  split
  · rename_i isClause
    rw [Bool.and_eq_true, Bool.or_eq_true] at isClause
    have passedWord := surveyed.advance (isClause.1.elim isInner_of_isName isInner_of_isName)
    exact ⟨passedWord.advance (isInner_of_isName isClause.2), trivial⟩
  · exact ⟨surveyed, trivial⟩

theorem draws_optional {condition : Prop} {_ : Decidable condition} {action : Read Expr}
    (draws : Draws window action (Expr.LiesIn window)) :
    Draws window (if condition then some <$> action else pure none) (OptionIn window) :=
  .ite (draws_some draws) (draws_pure nofun)

/-- Whether all of several parameters lie in a window. -/
def ParamsIn (window : Window) (params : List Param) : Prop := ∀ param ∈ params, param.LiesIn window

theorem draws_paramTurn (params : List Param) (listed : ParamsIn window params) :
    Draws window (paramTurn params) (turnDraws (ParamsIn window)) := by
  refine (draws_atKind _).bind fun _ _ => draws_atClose.bind fun _ _ => .ite (draws_pure listed) ?_
  refine (draws_take? rfl).bind fun found atFound => ?_
  cases found with
  | none => exact (draws_expected _).bind fun _ _ => draws_pure listed
  | some token =>
      have ends (default : Option Expr) (lies : OptionIn window default) (span : Span)
          (holds : window.Holds span) :
          Draws window (do
            if ← takeSymbol .comma then
              return Turn.again (params ++ [⟨token.lexeme, default, span⟩])
            else return .done (params ++ [⟨token.lexeme, default, span⟩]))
            (turnDraws (ParamsIn window)) := by
        have longer : ParamsIn window (params ++ [⟨token.lexeme, default, span⟩]) :=
          List.forall_mem_append.mpr ⟨listed, List.forall_mem_singleton.mpr ⟨holds, lies⟩⟩
        exact (draws_takeSymbol _).bind fun _ _ => .ite (draws_pure longer) (draws_pure longer)
      have atToken := atFound token rfl
      refine (draws_takeSymbol _).bind fun _ _ => .ite ?_ ?_
      · exact (draws_some draws_expression).bind fun default lies =>
          (draws_spanFrom atToken).bind (ends default lies)
      · exact (draws_pure nofun).bind fun default lies =>
          (draws_spanFrom atToken).bind (ends default lies)

theorem drawsAt_params (surveyed : tape.Surveyed window)
    (opens : tape.current.kind.isInner = true) : DrawsAt window tape params (ParamsIn window) := by
  refine (drawsAt_advance surveyed opens).bind fun _ _ => ?_
  have noneYet : ParamsIn window [] := fun _ member => nomatch member
  refine (draws_loop draws_paramTurn noneYet).bind fun params listed => ?_
  exact (draws_expectSymbol _).bind fun _ _ => draws_pure listed

theorem draws_callerParams : Draws window callerParams (ParamsIn window) := by
  intro tape surveyed
  refine .behind ?_
  rw [run_atSymbol]
  dsimp only
  split
  · rename_i isParen
    exact drawsAt_params surveyed (by rw [beq_iff_eq.mp isParen]; rfl)
  · exact ⟨surveyed, fun _ member => nomatch member⟩

theorem draws_loopCondition? : Draws window loopCondition? (OptionIn window) :=
  (draws_takeWord _).bind fun _ _ => draws_optional draws_disjunction

/-- Whether all of several filters lie in a window. -/
def FiltersIn (window : Window) (filters : List FilterCall) : Prop :=
  ∀ call ∈ filters, call.LiesIn window

theorem draws_filterTurn (filters : List FilterCall) (listed : FiltersIn window filters) :
    Draws window (filterTurn filters) (turnDraws (FiltersIn window)) := by
  refine (draws_takeSymbol _).bind fun _ _ => .ite ?_ (draws_pure listed)
  refine draws_filter.bind fun call lies => draws_pure ?_
  exact List.forall_mem_append.mpr ⟨listed, List.forall_mem_singleton.mpr lies⟩

theorem draws_furtherFilters {filters : List FilterCall} (listed : FiltersIn window filters) :
    Draws window (furtherFilters filters) (FiltersIn window) :=
  draws_loop draws_filterTurn listed

theorem draws_blockWordTurn (value : Unit) :
    Draws window (blockWordTurn value) (turnDraws fun _ => True) :=
  (draws_takeWord _).bind fun _ _ => .ite (draws_pure trivial) <|
    (draws_takeWord _).bind fun _ _ => .ite (draws_pure trivial) (draws_pure trivial)

theorem draws_clauseTurn (clauses : Clauses) :
    Draws window (clauseTurn clauses) (turnDraws fun _ => True) := by
  intro tape surveyed
  refine .behind (.behind ?_)
  rw [run_peekAhead, Tape.ahead_one, run_atWord]
  dsimp only
  split
  · rename_i ignores
    rw [Bool.and_eq_true] at ignores
    have passedIgnore := surveyed.advance (isInner_of_isName ignores.1)
    exact ⟨passedIgnore.advance (isInner_of_isName ignores.2), trivial⟩
  · refine draws_contextClause?.bind (fun found _ => ?_) tape surveyed
    cases found with
    | none => exact draws_pure trivial
    | some context => exact draws_pure trivial

/-- Whether all of several imported names stand in a window. -/
def ImportsIn (window : Window) (names : List ImportName) : Prop :=
  ∀ wanted ∈ names, window.Holds wanted.span

theorem draws_importTurn (names : List ImportName) (listed : ImportsIn window names) :
    Draws window (importTurn names) (turnDraws (ImportsIn window)) := by
  intro tape surveyed
  have atName := surveyed.current
  have ends (boundAs : Option String) :
      Draws window (do
        let span ← spanFrom tape.current.span
        if ← takeSymbol .comma then
          return Turn.again (names ++ [⟨tape.current.lexeme, boundAs, span⟩])
        else return .done (names ++ [⟨tape.current.lexeme, boundAs, span⟩]))
        (turnDraws (ImportsIn window)) := by
    refine (draws_spanFrom atName).bind fun span holds => ?_
    have longer : ImportsIn window (names ++ [⟨tape.current.lexeme, boundAs, span⟩]) :=
      List.forall_mem_append.mpr ⟨listed, List.forall_mem_singleton.mpr holds⟩
    exact (draws_takeSymbol _).bind fun _ _ => .ite (draws_pure longer) (draws_pure longer)
  have sees : (atContextClause.run tape).2 = tape := rfl
  refine .behind (.behind ?_)
  simp only [run_atKind, sees]
  split
  · rename_i isName
    rw [Bool.and_eq_true, beq_iff_eq] at isName
    have passed := surveyed.advance (by rw [isName.1]; rfl)
    refine .behind ((draws_takeWord _).bind (fun _ _ => .ite ?_ ?_) _ passed)
    · exact (draws_expectName _).bind fun boundAs _ => ends boundAs
    · exact (draws_pure trivial).bind fun boundAs (_ : True) => ends boundAs
  · exact ⟨surveyed, listed⟩

/-- Whether all of several bindings lie in a window. -/
def BindingsIn (window : Window) (bindings : List Binding) : Prop :=
  ∀ binding ∈ bindings, binding.LiesIn window

theorem draws_bindingTurn (bindings : List Binding) (listed : BindingsIn window bindings) :
    Draws window (bindingTurn bindings) (turnDraws (BindingsIn window)) := by
  refine draws_atClose.bind fun _ _ => .ite (draws_pure listed) ?_
  refine draws_targetOperand.bind fun _ lies => (draws_toTarget _ lies).bind fun target atTarget =>
    (draws_expectSymbol _).bind fun _ _ => draws_expression.bind fun value atValue => ?_
  have longer : BindingsIn window (bindings ++ [⟨target, value⟩]) :=
    List.forall_mem_append.mpr ⟨listed, List.forall_mem_singleton.mpr ⟨atTarget, atValue⟩⟩
  exact (draws_takeSymbol _).bind fun _ _ => .ite (draws_pure longer) (draws_pure longer)

theorem draws_hookTurn (words : List String) (exprs : List Expr) (listed : ListedIn window exprs) :
    Draws window (hookTurn words exprs) (turnDraws (ListedIn window)) := by
  refine draws_peek.bind fun _ _ => draws_atClose.bind fun _ _ => .ite (draws_pure listed) ?_
  refine draws_get.bind fun _ _ => draws_expression.bind fun expr lies =>
    (draws_takeSymbol _).bind fun _ _ => draws_get.bind fun _ _ => ?_
  exact .ite (draws_pure (listed.concat lies)) (draws_pure (listed.concat lies))

theorem draws_expressionsUntil (words : List String) :
    Draws window (expressionsUntil words) (ListedIn window) :=
  draws_loop (draws_hookTurn words) listedIn_nil

end Stencil.Grammar
