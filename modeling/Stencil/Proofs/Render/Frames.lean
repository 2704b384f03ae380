import Mathlib.Data.List.Forall2
import Stencil.Proofs.Render.Standing

/-!
Contract: what a render does to the variables of the frames it is inside of.

Owns:
- values that may be changed in part but keep their shape;
- frames that bind the same names to values of the same shapes;
- what any statements do to the frames around them, and that a template rendered in place without
  the context does nothing to them.

Does not own: the number of frames (`Stencil.Proofs.Render.Balance`).
-/

set_option autoImplicit false

namespace Stencil

/-! ### Values and tables -/

namespace Value

/-- Whether a value is an old one that may have been changed in part: it is the same, or still a
sequence of that length, or still a map with all keys in their order and perhaps more behind
them. -/
inductive KeepsShape : Value → Value → Prop where
  | same (value : Value) : KeepsShape value value
  | seq {old new : List Value} (sameLength : new.length = old.length) :
      KeepsShape (.seq old) (.seq new)
  | map {old new : Table Value} (sameNames : old.names <+: new.names) :
      KeepsShape (.map old) (.map new)

theorem KeepsShape.trans {first second third : Value} (one : KeepsShape first second)
    (two : KeepsShape second third) : KeepsShape first third := by
  cases one with
  | same => exact two
  | seq sameLength =>
      cases two with
      | same => exact .seq sameLength
      | seq sameAgain => exact .seq (sameAgain.trans sameLength)
  | map sameNames =>
      cases two with
      | same => exact .map sameNames
      | map sameAgain => exact .map (sameNames.trans sameAgain)

theorem keepsShape_withPart (value : Value) (key : Key) (part : Value) :
    KeepsShape value (value.withPart key part) := by
  unfold withPart
  split
  · exact .map (Table.names_prefix_put _ _ _)
  · split
    · exact .seq List.length_set
    · exact .same _
  · exact .same _

theorem keepsShape_storeHere {value new : Value} {key : Key} {part : Value}
    (stored : value.storeHere key part = .ok new) : KeepsShape value new := by
  unfold storeHere at stored
  split at stored
  · cases stored
    exact keepsShape_withPart _ _ _
  · split at stored
    · cases stored
      exact keepsShape_withPart _ _ _
    · cases stored
  · cases stored

/-- What is put behind a step of a path leaves the value itself its shape. -/
theorem keepsShape_store {value new : Value} {path : List Key} {key : Key} {part : Value}
    (stored : value.store (path ++ [key]) part = .ok new) : KeepsShape value new := by
  cases path with
  | nil => exact keepsShape_storeHere stored
  | cons first rest =>
      obtain ⟨next, more, isRest⟩ : ∃ next more, rest ++ [key] = next :: more :=
        List.exists_cons_of_ne_nil (by simp)
      rw [List.cons_append, isRest, store_cons_cons] at stored
      split at stored
      · cases stored
      · rename_i inner _
        cases isNew : inner.store (next :: more) part with
        | error refusal => simp [isNew, Except.map] at stored
        | ok changed =>
            rw [isNew] at stored
            cases stored
            exact keepsShape_withPart _ _ _

end Value

/-- Lists of as many elements, related one by one, are related in two steps as in one. -/
theorem forall₂_trans {α : Type} {rel : α → α → Prop}
    (trans : ∀ {first second third}, rel first second → rel second third → rel first third)
    {first second third : List α} (one : List.Forall₂ rel first second)
    (two : List.Forall₂ rel second third) : List.Forall₂ rel first third := by
  induction one generalizing third with
  | nil => exact two
  | cons oneHead _ inductionHypothesis =>
      cases two with
      | cons twoHead twoTail => exact .cons (trans oneHead twoHead) (inductionHypothesis twoTail)

namespace Table

/-- Whether a table binds the names of an old one in the same order, to values that keep their
shape. -/
def KeepsShape (old new : Table Value) : Prop :=
  List.Forall₂ (fun before after => after.1 = before.1 ∧ before.2.KeepsShape after.2) old new

theorem KeepsShape.refl (table : Table Value) : KeepsShape table table :=
  List.forall₂_same.mpr fun entry _ => ⟨rfl, .same entry.2⟩

theorem KeepsShape.trans {first second third : Table Value} (one : KeepsShape first second)
    (two : KeepsShape second third) : KeepsShape first third :=
  forall₂_trans (fun one two => ⟨two.1.trans one.1, one.2.trans two.2⟩) one two

theorem KeepsShape.names {old new : Table Value} (kept : KeepsShape old new) :
    new.names = old.names := by
  induction kept with
  | nil => rfl
  | cons head _ inductionHypothesis =>
      simp only [Table.names, List.map_cons, head.1] at inductionHypothesis ⊢
      rw [inductionHypothesis]

/-- The value of a name can be replaced by one of its shape. -/
theorem keepsShape_put {table : Table Value} {name : String} {old new : Value}
    (isOld : table.lookup? name = some old) (kept : old.KeepsShape new) :
    KeepsShape table (table.put name new) := by
  induction table with
  | nil => cases isOld
  | cons entry rest inductionHypothesis =>
      obtain ⟨key, value⟩ := entry
      by_cases same : key = name
      · rw [lookup?, if_pos same] at isOld
        rw [put, if_pos same]
        cases isOld
        exact .cons ⟨rfl, kept⟩ (KeepsShape.refl rest)
      · rw [lookup?, if_neg same] at isOld
        rw [put, if_neg same]
        exact .cons ⟨rfl, .same value⟩ (inductionHypothesis isOld)

end Table

namespace Render

open Stencil.Host (Environment)
open Stencil.Syntax (Expr Node)
open Stencil.Text (Span)

/-! ### Frames -/

namespace Scopes

/-- Whether frames are old ones in which nothing was bound but in the innermost one. -/
structure Keeps (before after : Scopes) : Prop where
  /-- There are as many frames as before, and those around the innermost one keep their shape. -/
  outer : List.Forall₂ Table.KeepsShape before.outer after.outer
  /-- The innermost frame has lost no name. -/
  inner : before.inner.names <+: after.inner.names

theorem Keeps.refl (scopes : Scopes) : scopes.Keeps scopes :=
  ⟨List.forall₂_same.mpr fun frame _ => .refl frame, List.prefix_refl _⟩

theorem Keeps.trans {first second third : Scopes} (one : first.Keeps second)
    (two : second.Keeps third) : first.Keeps third :=
  ⟨forall₂_trans (fun one two => one.trans two) one.outer two.outer,
    one.inner.trans two.inner⟩

theorem keeps_bind (scopes : Scopes) (name : String) (value : Value) :
    scopes.Keeps (scopes.bind name value) :=
  ⟨(Keeps.refl scopes).outer, Table.names_prefix_put _ _ _⟩

/-- Changing a variable changes one of the frames that bind it. -/
theorem keepsShape_replaceIn {frames : List (Table Value)} {name : String} {old new : Value}
    (isOld : (frames.findSome? fun frame => Table.lookup? frame name) = some old)
    (kept : old.KeepsShape new) :
    List.Forall₂ Table.KeepsShape frames (replaceIn frames name new) := by
  induction frames with
  | nil => cases isOld
  | cons frame rest inductionHypothesis =>
      have same := List.forall₂_same.mpr fun (other : Table Value) (_ : other ∈ rest) =>
        Table.KeepsShape.refl other
      rw [List.findSome?_cons] at isOld
      unfold replaceIn Table.has
      cases found : Table.lookup? frame name with
      | some value =>
          rw [found] at isOld
          cases isOld
          exact .cons (Table.keepsShape_put found kept) same
      | none =>
          rw [found] at isOld
          exact .cons (.refl frame) (inductionHypothesis isOld)

theorem keeps_replace {scopes : Scopes} {name : String} {old new : Value}
    (isOld : scopes.lookup? name = some old) (kept : old.KeepsShape new) :
    scopes.Keeps (scopes.replace name new) := by
  unfold replace Table.has
  cases found : Table.lookup? scopes.inner name with
  | some value => exact keeps_bind scopes name new
  | none =>
      rw [lookup?, frames, List.findSome?_cons, found] at isOld
      exact ⟨keepsShape_replaceIn isOld kept, List.prefix_refl _⟩

/-- What is bound inside a frame of its own is gone behind it. -/
theorem Keeps.pop {scopes after : Scopes} {bindings : Table Value}
    (inside : (scopes.push bindings).Keeps after) : scopes.Keeps after.pop := by
  obtain ⟨outer, _⟩ := inside
  obtain ⟨inner, frames⟩ := after
  cases outer with
  | cons head tail => exact ⟨tail, head.names ▸ List.prefix_refl _⟩

end Scopes

/-! ### Renders -/

theorem upheld_keeps : Upheld fun before after => before.scopes.Keeps after.scopes where
  refl standing := .refl standing.scopes
  trans one two := one.trans two
  bind standing name value := Scopes.keeps_bind standing.scopes name value
  store _ _ _ _ _ _ _ isOld isNew := Scopes.keeps_replace isOld (Value.keepsShape_store isNew)
  setting setting before after inside := by
    cases setting with
    | frame bindings => exact inside.pop
    | embedded withContext =>
        cases withContext with
        | true => exact inside
        | false => exact .refl before.scopes
    | _ => exact inside

/-! ### Templates rendered in place -/

/-- Whether nothing at all has happened to the frames. -/
def Standing.SameScopes (before after : Standing) : Prop := after.scopes = before.scopes

theorem Standing.SameScopes.trans {before middle after : Standing}
    (one : before.SameScopes middle) (two : middle.SameScopes after) : before.SameScopes after :=
  Eq.trans two one

namespace Action

variable {environment : Environment} {below : Below}

theorem sameScopes_done {α : Type} (answer : α) :
    Run.Upholds Standing.SameScopes ((Action.done answer).perform environment below) := by
  intro state after result performed
  cases performed
  rfl

theorem sameScopes_view :
    Run.Upholds Standing.SameScopes (view.perform environment below) := by
  intro state after result performed
  cases performed
  rfl

theorem sameScopes_problem (cause : Problem) (span : Span) :
    Run.Upholds Standing.SameScopes ((problem cause span).perform environment below) := by
  intro state after result performed
  cases performed
  rfl

theorem sameScopes_fetch (name : String) :
    Run.Upholds Standing.SameScopes ((fetch name).perform environment below) := by
  intro state after result performed
  cases performed
  exact congrArg Standing.scopes (State.standing_load environment state name)

/-- Whatever is done inside a template rendered in place without the context. -/
theorem sameScopes_embedded {α : Type} (inner : Action α) :
    Run.Upholds Standing.SameScopes
      ((inSetting (.embedded false) inner).perform environment below) := by
  intro state after result performed
  rw [inSetting, perform] at performed
  split at performed
  · cases performed
  · cases performed
    rfl

theorem sameScopes_reportCycle (name : String) (span : Span) :
    Run.Upholds Standing.SameScopes ((reportCycle name span).perform environment below) :=
  Run.Upholds.andThen .trans sameScopes_view fun _ => sameScopes_problem _ span

theorem sameScopes_embedFirst? (span : Span) (names : List String) :
    Run.Upholds Standing.SameScopes
      ((embedFirst? false span names).perform environment below) := by
  induction names with
  | nil => exact sameScopes_done none
  | cons name rest inductionHypothesis =>
      refine Run.Upholds.andThen .trans sameScopes_view fun view => ?_
      split
      · exact Run.Upholds.andThen .trans (sameScopes_reportCycle name span)
          fun _ => sameScopes_done (some "")
      · refine Run.Upholds.andThen .trans (sameScopes_fetch name) fun answer => ?_
        cases answer with
        | ok loaded =>
            exact Run.Upholds.andThen .trans (sameScopes_embedded _) fun _ => sameScopes_done _
        | error fault =>
            dsimp only
            split
            · exact inductionHypothesis
            · exact Run.Upholds.andThen .trans (sameScopes_problem _ span)
                fun _ => sameScopes_done (some "")

/-- Once it is known which templates can stand there, nothing happens to the frames. -/
theorem sameScopes_embed {template : Expr} {ignoreMissing : Bool} {state after : State}
    {text : String}
    (embedded : (embed template false ignoreMissing).perform environment below state =
      some (text, after)) :
    ∃ value middle, below.eval template state = some (value, middle) ∧
      after.scopes = middle.scopes := by
  change ((valueOf template).andThen _).perform environment below state = _ at embedded
  rw [perform_andThen, perform_valueOf] at embedded
  obtain ⟨⟨value, middle⟩, isValue, isText⟩ := Option.bind_eq_some_iff.mp embedded
  refine ⟨value, middle, isValue, ?_⟩
  dsimp only at isText
  suffices rest : Run.Upholds Standing.SameScopes _ from rest isText
  split
  · exact Run.Upholds.andThen .trans (sameScopes_problem _ template.span)
      fun _ => sameScopes_done ""
  · refine Run.Upholds.andThen .trans (sameScopes_embedFirst? template.span _) fun found => ?_
    cases found with
    | some text => exact sameScopes_done text
    | none =>
        dsimp only
        split
        · exact Run.Upholds.andThen .trans (sameScopes_problem _ template.span)
            fun _ => sameScopes_done ""
        · exact sameScopes_done ""

end Action

/-- What any statements do to the frames around them: there are as many frames as before, those
around the innermost one bind the same names in the same order to values of the same shapes, and the
innermost one has lost no name. A template rendered in place without the context does nothing to the
frames once its name is known. -/
theorem bindings_kept (environment : Environment) (depth : Nat) (state after : State)
    (text : String) :
    (∀ nodes : List Node,
      (belowDepth environment depth).render nodes state = some (text, after) →
      after.scopes.depth = state.scopes.depth ∧ state.scopes.Keeps after.scopes) ∧
    (∀ (template : Expr) (ignoreMissing : Bool) (span : Span),
      (Action.carryOut (.embed template false ignoreMissing span)).perform environment
        (belowDepth environment depth) state = some (text, after) →
      ∃ value middle, (belowDepth environment depth).eval template state = some (value, middle) ∧
        after.scopes = middle.scopes) := by
  constructor
  · intro nodes rendered
    have kept := (upholds_belowDepth upheld_keeps environment depth).render nodes rendered
    exact ⟨congrArg (· + 1) kept.outer.length_eq.symm, kept⟩
  · intro template ignoreMissing span embedded
    exact Action.sameScopes_embed embedded

/-- A statement that changes a part of an outer variable and binds an inner one. -/
theorem bindings_kept_under_assignments :
    let state := { State.initial [] .empty with
      scopes := ⟨[("item", .int 1)], [[("box", .map [("a", .int 1)])]]⟩ }
    let nodes : List Node :=
      [.assign (.attribute (.name "box" default) "b" default) (.name "item" default) default,
        .assign (.name "box" default) (.name "item" default) default]
    ∃ after : State, (belowDepth .empty 2).render nodes state = some ("", after) ∧
      after.scopes = ⟨[("item", .int 1), ("box", .int 1)],
        [[("box", .map [("a", .int 1), ("b", .int 1)])]]⟩ ∧
      state.scopes.Keeps after.scopes := by
  intro state nodes
  exact ⟨_, rfl, rfl, ((bindings_kept .empty 2 state _ "").1 nodes rfl).2⟩

end Render

end Stencil
