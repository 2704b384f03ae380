import Mathlib.Data.List.Forall2
import Mathlib.Data.Option.Basic
import Stencil.Host.Shelf
import Stencil.Proofs.Syntax.MapExprs
import Stencil.Proofs.Syntax.Marks

/-!
Contract: trees that ask the same of a render.

Owns:
- expressions, targets and statements that are the same apart from where they stand, and from
  parentheses around expressions of the first tree that cannot be told from their inside;
- tables with the same names and related entries;
- the blocks and macros that such trees define.

Where the parts of two trees stand is compared by a relation between spans, one for each template.
The bodies that are handed around, those of macros and those with parameters of call blocks, may be
rendered for any template, so all of these relations have to hold there.

Does not own: what a render makes of such trees (`Stencil.Proofs.Render.Kinship`).
-/

set_option autoImplicit false

namespace Stencil

/-! ### Lists and options -/

variable {α β γ δ : Type} {rel : α → β → Prop} {relNext : γ → δ → Prop}

theorem forall₂_tail {list : List α} {other : List β} (each : List.Forall₂ rel list other) :
    List.Forall₂ rel list.tail other.tail := by
  cases each with
  | nil => exact .nil
  | cons _ rest => exact rest

theorem forall₂_getElem? {list : List α} {other : List β} (each : List.Forall₂ rel list other)
    (index : Nat) : Option.Rel rel list[index]? other[index]? := by
  induction each generalizing index with
  | nil => exact .none
  | cons related _ inductionHypothesis =>
      cases index with
      | zero => exact .some related
      | succ index => simpa using inductionHypothesis index

theorem forall₂_head? {list : List α} {other : List β} (each : List.Forall₂ rel list other) :
    Option.Rel rel list.head? other.head? := by
  cases each with
  | nil => exact .none
  | cons related _ => exact .some related

theorem optionRel_map {option : Option α} {other : Option β} (related : Option.Rel rel option other)
    {next : α → γ} {next' : β → δ}
    (relatedNext : ∀ {value value'}, rel value value' → relNext (next value) (next' value')) :
    Option.Rel relNext (option.map next) (other.map next') := by
  cases related with
  | none => exact .none
  | some related => exact .some (relatedNext related)

theorem optionRel_getD {option : Option α} {other : Option β} (related : Option.Rel rel option other)
    {default : α} {default' : β} (relatedDefault : rel default default') :
    rel (option.getD default) (other.getD default') := by
  cases related with
  | none => exact relatedDefault
  | some related => exact related

theorem optionRel_bind {option : Option α} {other : Option β} (related : Option.Rel rel option other)
    {next : α → Option γ} {next' : β → Option δ}
    (relatedNext : ∀ {value value'}, rel value value' →
      Option.Rel relNext (next value) (next' value')) :
    Option.Rel relNext (option.bind next) (other.bind next') := by
  cases related with
  | none => exact .none
  | some related => exact relatedNext related

/-! ### Tables -/

namespace Table

/-- Whether two tables have the same names in the same order, with related entries. -/
def Akin (rel : α → β → Prop) (table : Table α) (other : Table β) : Prop :=
  List.Forall₂ (fun entry twin => entry.1 = twin.1 ∧ rel entry.2 twin.2) table other

theorem Akin.lookup? {table : Table α} {other : Table β} (akin : Akin rel table other)
    (name : String) : Option.Rel rel (table.lookup? name) (other.lookup? name) := by
  induction akin with
  | nil => exact .none
  | @cons entry twin rest others same _ inductionHypothesis =>
      obtain ⟨key, value⟩ := entry
      obtain ⟨_, other⟩ := twin
      obtain ⟨rfl, related⟩ := same
      unfold Table.lookup?
      split
      · exact .some related
      · exact inductionHypothesis

theorem Akin.has {table : Table α} {other : Table β} (akin : Akin rel table other)
    (name : String) : table.has name = other.has name := by
  have found := akin.lookup? name
  unfold Table.has
  cases isFound : table.lookup? name <;> cases isOther : other.lookup? name <;>
    rw [isFound, isOther] at found <;> first | rfl | cases found

theorem Akin.put {table : Table α} {other : Table β} (akin : Akin rel table other) (name : String)
    {value : α} {twin : β} (related : rel value twin) :
    Akin rel (table.put name value) (other.put name twin) := by
  induction akin with
  | nil => exact .cons ⟨rfl, related⟩ .nil
  | @cons entry twin rest others same areRest inductionHypothesis =>
      obtain ⟨key, value⟩ := entry
      obtain ⟨_, other⟩ := twin
      obtain ⟨rfl, relatedOld⟩ := same
      unfold Table.put
      split
      · exact .cons ⟨rfl, related⟩ areRest
      · exact .cons ⟨rfl, relatedOld⟩ inductionHypothesis

theorem Akin.ofEntries {entries : List (String × α)} {others : List (String × β)}
    (akin : Akin rel entries others) : Akin rel (.ofEntries entries) (.ofEntries others) := by
  suffices kept : ∀ {table : Table α} {other : Table β}, Akin rel table other →
      Akin rel (table.putAll entries) (other.putAll others) from kept .nil
  unfold Table.putAll
  induction akin with
  | nil => exact id
  | cons same _ inductionHypothesis =>
      intro table other areTables
      rw [List.foldl_cons, List.foldl_cons, ← same.1]
      exact inductionHypothesis (areTables.put _ same.2)

end Table

namespace Syntax

open Stencil.Text (Span)

/-! ### Expressions -/

namespace Expr

def isName : Expr → Bool
  | .name _ _ => true
  | _ => false

def isKeyword : Expr → Bool
  | .keyword _ _ _ => true
  | _ => false

def isCall : Expr → Bool
  | .call _ _ _ => true
  | _ => false

/-- What a callee looks like to a call: a name, a part of something that may be a name, or a value
that cannot be called. -/
inductive CalleeForm where
  | name
  | part (ofName : Bool)
  | other
deriving DecidableEq

def calleeForm : Expr → CalleeForm
  | .name _ _ => .name
  | .attribute base _ _ => .part base.isName
  | _ => .other

/-- Whether a test looks at the name of a variable. -/
def isAboutNames (test : String) : Bool := test == "defined" || test == "undefined"

/-- Whether two expressions are the same apart from where they stand and from parentheses in the
first one. There are none around what a call or a test takes for a name, and none around arguments
by keyword. -/
inductive Akin (spans : Span → Span → Prop) : Expr → Expr → Prop where
  | literal (value : Literal) {span span' : Span} (at_ : spans span span') :
      Akin spans (.literal value span) (.literal value span')
  | name (name : String) {span span' : Span} (at_ : spans span span') :
      Akin spans (.name name span) (.name name span')
  | group {inner inner' : Expr} {span span' : Span} (akin : Akin spans inner inner')
      (at_ : spans span span') : Akin spans (.group inner span) (.group inner' span')
  /-- Parentheses that the second expression does not have. -/
  | bare {inner other : Expr} {span : Span} (akin : Akin spans inner other)
      (at_ : spans span other.span) : Akin spans (.group inner span) other
  | unary (op : UnaryOp) {operand operand' : Expr} {span span' : Span}
      (akin : Akin spans operand operand') (at_ : spans span span') :
      Akin spans (.unary op operand span) (.unary op operand' span')
  | binary (op : BinaryOp) {left left' right right' : Expr} {span span' : Span}
      (first : Akin spans left left') (second : Akin spans right right') (at_ : spans span span') :
      Akin spans (.binary op left right span) (.binary op left' right' span')
  | membership (negated : Bool) {element element' container container' : Expr} {span span' : Span}
      (first : Akin spans element element') (second : Akin spans container container')
      (at_ : spans span span') :
      Akin spans (.membership negated element container span)
        (.membership negated element' container' span')
  | conditional {test test' whenTrue whenTrue' : Expr} {otherwise otherwise' : Option Expr}
      {span span' : Span} (tested : Akin spans test test') (first : Akin spans whenTrue whenTrue')
      (second : Option.Rel (Akin spans) otherwise otherwise') (at_ : spans span span') :
      Akin spans (.conditional test whenTrue otherwise span)
        (.conditional test' whenTrue' otherwise' span')
  | call {callee callee' : Expr} {args args' : List Expr} {span span' : Span}
      (called : Akin spans callee callee') (form : callee.calleeForm = callee'.calleeForm)
      (given : List.Forall₂ (Akin spans) args args')
      (keywords : args.map isKeyword = args'.map isKeyword) (at_ : spans span span') :
      Akin spans (.call callee args span) (.call callee' args' span')
  | filter (name : String) {value value' : Expr} {args args' : List Expr}
      {callSpan callSpan' span span' : Span} (akin : Akin spans value value')
      (given : List.Forall₂ (Akin spans) args args')
      (keywords : args.map isKeyword = args'.map isKeyword) (called : spans callSpan callSpan')
      (at_ : spans span span') :
      Akin spans (.filter value name args callSpan span) (.filter value' name args' callSpan' span')
  | test (negated : Bool) (name : String) {value value' : Expr} {args args' : List Expr}
      {span span' : Span} (akin : Akin spans value value')
      (named : isAboutNames name = true → value.isName = value'.isName)
      (given : List.Forall₂ (Akin spans) args args')
      (keywords : args.map isKeyword = args'.map isKeyword) (at_ : spans span span') :
      Akin spans (.test value negated name args span) (.test value' negated name args' span')
  | attribute (attr : String) {value value' : Expr} {span span' : Span}
      (akin : Akin spans value value') (at_ : spans span span') :
      Akin spans (.attribute value attr span) (.attribute value' attr span')
  | item {value value' index index' : Expr} {span span' : Span} (first : Akin spans value value')
      (second : Akin spans index index') (at_ : spans span span') :
      Akin spans (.item value index span) (.item value' index' span')
  | list {items items' : List Expr} {span span' : Span}
      (each : List.Forall₂ (Akin spans) items items') (at_ : spans span span') :
      Akin spans (.list items span) (.list items' span')
  | tuple {items items' : List Expr} {span span' : Span}
      (each : List.Forall₂ (Akin spans) items items') (at_ : spans span span') :
      Akin spans (.tuple items span) (.tuple items' span')
  | dict {entries entries' : List (Expr × Expr)} {span span' : Span}
      (keys : List.Forall₂ (Akin spans) (entries.map Prod.fst) (entries'.map Prod.fst))
      (values : List.Forall₂ (Akin spans) (entries.map Prod.snd) (entries'.map Prod.snd))
      (at_ : spans span span') : Akin spans (.dict entries span) (.dict entries' span')
  | keyword (name : String) {value value' : Expr} {span span' : Span}
      (akin : Akin spans value value') (at_ : spans span span') :
      Akin spans (.keyword name value span) (.keyword name value' span')
  | missing {span span' : Span} (at_ : spans span span') :
      Akin spans (.missing span) (.missing span')

/-- Whether two lists of arguments are akin, one by one, with the same arguments by keyword. -/
structure ArgsAkin (spans : Span → Span → Prop) (args args' : List Expr) : Prop where
  each : List.Forall₂ (Akin spans) args args'
  keywords : args.map isKeyword = args'.map isKeyword

variable {spans : Span → Span → Prop} {expr expr' : Expr}

theorem Akin.span (akin : Akin spans expr expr') : spans expr.span expr'.span := by
  cases akin <;> assumption

/-- An expression is akin to itself if its spans are related to themselves. -/
theorem Akin.refl (expr : Expr) (own : ∀ span, expr.Marks span → spans span span) :
    Akin spans expr expr := by
  have at_ : spans expr.span expr.span := own _ (.own expr)
  have part : ∀ part ∈ expr.children, Akin spans part part := fun part member =>
    refl part fun span marks => own span (.inside member marks)
  have each : ∀ {parts : List Expr}, (∀ part ∈ parts, part ∈ expr.children) →
      List.Forall₂ (Akin spans) parts parts := fun isPart =>
    List.forall₂_same.mpr fun inner member => part inner (isPart inner member)
  cases expr with
  | literal value span => exact .literal value at_
  | name name span => exact .name name at_
  | missing span => exact .missing at_
  | group inner span => exact .group (part _ (by simp [children])) at_
  | unary op operand span => exact .unary op (part _ (by simp [children])) at_
  | keyword name value span => exact .keyword name (part _ (by simp [children])) at_
  | «attribute» value attr span => exact .attribute attr (part _ (by simp [children])) at_
  | binary op left right span =>
      exact .binary op (part _ (by simp [children])) (part _ (by simp [children])) at_
  | membership negated element container span =>
      exact .membership negated (part _ (by simp [children])) (part _ (by simp [children])) at_
  | item value index span =>
      exact .item (part _ (by simp [children])) (part _ (by simp [children])) at_
  | conditional test whenTrue otherwise span =>
      refine .conditional (part _ (by simp [children])) (part _ (by simp [children])) ?_ at_
      cases otherwise with
      | none => exact .none
      | some otherwise => exact .some (part _ (by simp [children]))
  | call callee args span =>
      exact .call (part _ List.mem_cons_self) rfl
        (each fun _ member => List.mem_cons_of_mem _ member) rfl at_
  | filter value name args callSpan span =>
      exact .filter name (part _ List.mem_cons_self)
        (each fun _ member => List.mem_cons_of_mem _ member) rfl
        (own callSpan (.filter value name args callSpan span)) at_
  | test value negated name args span =>
      exact .test negated name (part _ List.mem_cons_self) (fun _ => rfl)
        (each fun _ member => List.mem_cons_of_mem _ member) rfl at_
  | list items span => exact .list (each fun _ => id) at_
  | tuple items span => exact .tuple (each fun _ => id) at_
  | dict entries span =>
      refine .dict (each fun inner member => ?_) (each fun inner member => ?_) at_
      all_goals
        obtain ⟨entry, isEntry, rfl⟩ := List.mem_map.mp member
        exact List.mem_flatMap.mpr ⟨entry, isEntry, by simp⟩
termination_by sizeOf expr
decreasing_by exact sizeOf_child member

end Expr

/-! ### Parts of statements -/

variable (spans : Span → Span → Prop)

structure FilterCall.Akin (call call' : FilterCall) : Prop where
  name : call.name = call'.name
  args : Expr.ArgsAkin spans call.args call'.args
  at_ : spans call.span call'.span

structure Param.Akin (param param' : Param) : Prop where
  name : param.name = param'.name
  default : Option.Rel (Expr.Akin spans) param.default param'.default

inductive Target.Akin : Target → Target → Prop where
  | name (name : String) {span span' : Span} : Target.Akin (.name name span) (.name name span')
  | tuple {items items' : List Target} {span span' : Span}
      (each : List.Forall₂ Target.Akin items items') (at_ : spans span span') :
      Target.Akin (.tuple items span) (.tuple items' span')
  | attribute (attr : String) {value value' : Expr} {span span' : Span}
      (akin : value.Akin spans value') (at_ : spans span span') :
      Target.Akin (.attribute value attr span) (.attribute value' attr span')
  | item {value value' index index' : Expr} {span span' : Span} (first : value.Akin spans value')
      (second : index.Akin spans index') (at_ : spans span span') :
      Target.Akin (.item value index span) (.item value' index' span')

structure Binding.Akin (binding binding' : Binding) : Prop where
  target : binding.target.Akin spans binding'.target
  value : binding.value.Akin spans binding'.value

structure ImportName.Akin (wanted wanted' : ImportName) : Prop where
  name : wanted.name = wanted'.name
  localName : wanted.localName = wanted'.localName
  at_ : spans wanted.span wanted'.span

variable {spans}

theorem FilterCall.Akin.refl (call : FilterCall)
    (own : ∀ arg ∈ call.args, ∀ span, arg.Marks span → spans span span)
    (at_ : spans call.span call.span) : call.Akin spans call where
  name := rfl
  args := ⟨List.forall₂_same.mpr fun arg member => .refl arg (own arg member), rfl⟩
  at_ := at_

theorem Param.Akin.refl (param : Param)
    (own : ∀ expr ∈ param.default, ∀ span, expr.Marks span → spans span span) :
    param.Akin spans param where
  name := rfl
  default := by
    cases isDefault : param.default with
    | none => exact .none
    | some expr => exact .some (.refl expr (own expr isDefault))

theorem Target.Akin.refl (target : Target) (own : ∀ span, target.Marks span → spans span span) :
    target.Akin spans target := by
  match target with
  | .name bound span => exact .name bound
  | .tuple items span =>
      refine .tuple (List.forall₂_same.mpr fun part member => ?_) (own span (.own _))
      exact refl part fun span marks => own span (.inside member marks)
  | .attribute value attr span =>
      exact .attribute attr (.refl value fun span marks => own span (.expr List.mem_cons_self marks))
        (own span (.own _))
  | .item value index span =>
      exact .item (.refl value fun span marks => own span (.expr List.mem_cons_self marks))
        (.refl index fun span marks =>
          own span (.expr (List.mem_cons_of_mem _ List.mem_cons_self) marks)) (own span (.own _))

/-! ### Statements -/

/-- How the parts of two trees correspond while a template is rendered. -/
structure Likeness where
  places : String → Span → Span → Prop
  /-- The tags of a host are compared as a whole: a host sees all of them. -/
  tags : String → Host.Tag → Host.Tag → Prop

variable (trees : Likeness)

mutual

/-- Whether two statements are the same apart from where they stand and from parentheses in the
first one, as parts of a template. The bodies they hand around are so as parts of any template. -/
inductive Node.Akin : String → Node → Node → Prop where
  | text (content : String) {source : String} {span span' : Span}
      (at_ : trees.places source span span') :
      Node.Akin source (.text content span) (.text content span')
  | verbatim (content : String) {source : String} {span span' : Span}
      (at_ : trees.places source span span') :
      Node.Akin source (.verbatim content span) (.verbatim content span')
  | comment (content : String) {source : String} {span span' : Span}
      (at_ : trees.places source span span') :
      Node.Akin source (.comment content span) (.comment content span')
  | output {source : String} {value value' : Expr} {span span' : Span}
      (akin : value.Akin (trees.places source) value') (at_ : trees.places source span span') :
      Node.Akin source (.output value span) (.output value' span')
  | choose {source : String} {branches branches' : List Branch}
      {otherwise otherwise' : Option (List Node)} {span span' : Span}
      (each : Branches.Akin source branches branches')
      (other : Otherwise.Akin source otherwise otherwise') (at_ : trees.places source span span') :
      Node.Akin source (.choose branches otherwise span) (.choose branches' otherwise' span')
  | each {source : String} {target target' : Target} {items items' : Expr}
      {condition condition' : Option Expr} {body body' : List Node}
      {otherwise otherwise' : Option (List Node)} {span span' : Span}
      (assigned : target.Akin (trees.places source) target')
      (visited : items.Akin (trees.places source) items')
      (restricted : Option.Rel (Expr.Akin (trees.places source)) condition condition')
      (inner : Nodes.Akin source body body') (other : Otherwise.Akin source otherwise otherwise')
      (at_ : trees.places source span span') :
      Node.Akin source (.each target items condition body otherwise span)
        (.each target' items' condition' body' otherwise' span')
  | assign {source : String} {target target' : Target} {value value' : Expr}
      {span span' : Span} (assigned : target.Akin (trees.places source) target')
      (akin : value.Akin (trees.places source) value')
      (at_ : trees.places source span span') :
      Node.Akin source (.assign target value span) (.assign target' value' span')
  | capture {source : String} {target target' : Target}
      {filters filters' : List FilterCall} {body body' : List Node} {span span' : Span}
      (assigned : target.Akin (trees.places source) target')
      (calls : List.Forall₂ (FilterCall.Akin (trees.places source)) filters filters')
      (inner : Nodes.Akin source body body') (at_ : trees.places source span span') :
      Node.Akin source (.capture target filters body span) (.capture target' filters' body' span')
  | block (name : String) {source : String} {body body' : List Node} {span span' : Span}
      (inner : Nodes.Akin source body body') (at_ : trees.places source span span') :
      Node.Akin source (.block name body span) (.block name body' span')
  | inherit {source : String} {template template' : Expr} {span span' : Span}
      (akin : template.Akin (trees.places source) template') (at_ : trees.places source span span') :
      Node.Akin source (.inherit template span) (.inherit template' span')
  | embed (withContext ignoreMissing : Bool) {source : String} {template template' : Expr}
      {span span' : Span} (akin : template.Akin (trees.places source) template')
      (at_ : trees.places source span span') :
      Node.Akin source (.embed template withContext ignoreMissing span)
        (.embed template' withContext ignoreMissing span')
  | importAs (boundAs : String) (withContext : Bool) {source : String}
      {template template' : Expr} {span span' : Span}
      (akin : template.Akin (trees.places source) template')
      (at_ : trees.places source span span') :
      Node.Akin source (.importAs template boundAs withContext span)
        (.importAs template' boundAs withContext span')
  | importNames (withContext : Bool) {source : String} {template template' : Expr}
      {names names' : List ImportName} {span span' : Span}
      (akin : template.Akin (trees.places source) template')
      (each : List.Forall₂ (ImportName.Akin (trees.places source)) names names')
      (at_ : trees.places source span span') :
      Node.Akin source (.importNames template names withContext span)
        (.importNames template' names' withContext span')
  | define (name : String) {source : String} {params params' : List Param}
      {body body' : List Node} {span span' : Span}
      (given : ∀ source, List.Forall₂ (Param.Akin (trees.places source)) params params')
      (inner : ∀ source, Nodes.Akin source body body') (at_ : trees.places source span span') :
      Node.Akin source (.define name params body span) (.define name params' body' span')
  /-- A body without parameters is rendered on the spot. -/
  | callBlock {source : String} {call call' : Expr} {body body' : List Node}
      {span span' : Span} (akin : call.Akin (trees.places source) call')
      (form : call.isCall = call'.isCall)
      (inner : Nodes.Akin source body body') (at_ : trees.places source span span') :
      Node.Akin source (.callBlock call [] body span) (.callBlock call' [] body' span')
  | callBlockWith {source : String} {call call' : Expr} {params params' : List Param}
      {body body' : List Node} {span span' : Span} (akin : call.Akin (trees.places source) call')
      (form : call.isCall = call'.isCall)
      (given : ∀ source, List.Forall₂ (Param.Akin (trees.places source)) params params')
      (inner : ∀ source, Nodes.Akin source body body') (at_ : trees.places source span span') :
      Node.Akin source (.callBlock call params body span) (.callBlock call' params' body' span')
  | withBlock {source : String} {bindings bindings' : List Binding}
      {body body' : List Node} {span span' : Span}
      (each : List.Forall₂ (Binding.Akin (trees.places source)) bindings bindings')
      (inner : Nodes.Akin source body body') (at_ : trees.places source span span') :
      Node.Akin source (.withBlock bindings body span) (.withBlock bindings' body' span')
  | filterBlock {source : String} {filters filters' : List FilterCall}
      {body body' : List Node} {span span' : Span}
      (calls : List.Forall₂ (FilterCall.Akin (trees.places source)) filters filters')
      (inner : Nodes.Akin source body body') (at_ : trees.places source span span') :
      Node.Akin source (.filterBlock filters body span) (.filterBlock filters' body' span')
  | custom (name : String) {source : String} {args args' : List Expr}
      {body body' : Option (List Node)} {span span' : Span}
      (given : Expr.ArgsAkin (trees.places source) args args')
      (inner : Otherwise.Akin source body body')
      (seen : trees.tags source ⟨name, args, body, span⟩ ⟨name, args', body', span'⟩)
      (at_ : trees.places source span span') :
      Node.Akin source (.custom name args body span) (.custom name args' body' span')

/-- Whether two bodies are akin, statement by statement. -/
inductive Nodes.Akin : String → List Node → List Node → Prop where
  | nil {source : String} : Nodes.Akin source [] []
  | cons {source : String} {node node' : Node} {rest rest' : List Node}
      (first : Node.Akin source node node') (others : Nodes.Akin source rest rest') :
      Nodes.Akin source (node :: rest) (node' :: rest')

inductive Branches.Akin : String → List Branch → List Branch → Prop where
  | nil {source : String} : Branches.Akin source [] []
  | cons {source : String} {test test' : Expr} {body body' : List Node}
      {span span' : Span} {rest rest' : List Branch} (tested : test.Akin (trees.places source) test')
      (inner : Nodes.Akin source body body') (others : Branches.Akin source rest rest') :
      Branches.Akin source (.mk test body span :: rest) (.mk test' body' span' :: rest')

inductive Otherwise.Akin : String → Option (List Node) → Option (List Node) → Prop where
  | none {source : String} : Otherwise.Akin source none none
  | some {source : String} {body body' : List Node}
      (inner : Nodes.Akin source body body') : Otherwise.Akin source (some body) (some body')

end

variable {trees : Likeness} {source : String}

/-! ### Statements with other expressions -/

/-- Whether the parts of all statements of a kind are akin to what becomes of them with other
expressions. The statements inside of them are of the kind, too. -/
structure Adapts (trees : Likeness) (change : Expr → Expr) (kind : String → Node → Prop) :
    Prop where
  span : ∀ {source node}, kind source node → trees.places source node.span node.span
  expr : ∀ {source node}, kind source node → ∀ expr ∈ node.exprs,
    expr.Akin (trees.places source) (change expr)
  target : ∀ {source node}, kind source node → ∀ target ∈ node.targets,
    target.Akin (trees.places source) (target.mapExprs change)
  filter : ∀ {source node}, kind source node → ∀ call ∈ node.filters,
    call.Akin (trees.places source) (call.mapExprs change)
  wanted : ∀ {source node}, kind source node → ∀ wanted ∈ node.imports,
    trees.places source wanted.span wanted.span
  param : ∀ {source node}, kind source node → ∀ other, ∀ param ∈ node.params,
    param.Akin (trees.places other) (param.mapExprs change)
  call : ∀ {source call params body span}, kind source (.callBlock call params body span) →
    call.isCall = (change call).isCall
  args : ∀ {source name args body span}, kind source (.custom name args body span) →
    args.map Expr.isKeyword = (args.map change).map Expr.isKeyword
  seen : ∀ {source name args body span}, kind source (.custom name args body span) →
    trees.tags source ⟨name, args, body, span⟩
      ⟨name, args.map change, mapExprsOfBody? change body, span⟩
  inside : ∀ {source node}, kind source node → ∀ {body inner}, body ∈ node.bodies → inner ∈ body →
    kind source inner
  lent : ∀ {source node}, kind source node → node.isLender = true → ∀ {body inner},
    body ∈ node.bodies → inner ∈ body → ∀ other, kind other inner

namespace Adapts

variable {change : Expr → Expr} {kind : String → Node → Prop}

theorem condition (adapts : Adapts trees change kind) {node : Node} (isKind : kind source node)
    {condition : Option Expr} (member : ∀ expr ∈ condition, expr ∈ node.exprs) :
    Option.Rel (Expr.Akin (trees.places source)) condition (condition.map change) := by
  cases condition with
  | none => exact .none
  | some expr => exact .some (adapts.expr isKind expr (member expr rfl))

theorem filters (adapts : Adapts trees change kind) {node : Node} (isKind : kind source node) :
    List.Forall₂ (FilterCall.Akin (trees.places source)) node.filters
      (node.filters.map (FilterCall.mapExprs change)) :=
  List.forall₂_map_right_iff.mpr (List.forall₂_same.mpr (adapts.filter isKind))

theorem params (adapts : Adapts trees change kind) {node : Node} (isKind : kind source node)
    (other : String) : List.Forall₂ (Param.Akin (trees.places other)) node.params
      (node.params.map (Param.mapExprs change)) :=
  List.forall₂_map_right_iff.mpr (List.forall₂_same.mpr (adapts.param isKind other))

mutual

theorem node (adapts : Adapts trees change kind) {source : String} (node : Node)
    (isKind : kind source node) : node.Akin trees source (node.mapExprs change) := by
  have at_ : trees.places source node.span node.span := adapts.span isKind
  have inside {body : List Node} (isBody : body ∈ node.bodies) :
      ∀ inner ∈ body, kind source inner := fun inner => adapts.inside isKind isBody
  have lent {body : List Node} (isLender : node.isLender = true) (isBody : body ∈ node.bodies)
      (other : String) : ∀ inner ∈ body, kind other inner :=
    fun inner isInner => adapts.lent isKind isLender isBody isInner other
  match node with
  | .text content span => exact .text content at_
  | .verbatim content span => exact .verbatim content at_
  | .comment content span => exact .comment content at_
  | .output value span => exact .output (adapts.expr isKind _ List.mem_cons_self) at_
  | .choose branches none span =>
      refine .choose (adapts.branches branches (fun branch member => ?_) fun branch member => ?_)
        .none at_
      · exact adapts.expr isKind _ (List.mem_map_of_mem member)
      · exact inside (List.mem_append_left _ (List.mem_map_of_mem member))
  | .choose branches (some other) span =>
      refine .choose (adapts.branches branches (fun branch member => ?_) fun branch member => ?_)
        (.some (adapts.nodes other (inside ?_))) at_
      · exact adapts.expr isKind _ (List.mem_map_of_mem member)
      · exact inside (List.mem_append_left _ (List.mem_map_of_mem member))
      · exact List.mem_append_right _ List.mem_cons_self
  | .each target items condition body none span =>
      refine .each (adapts.target isKind _ List.mem_cons_self) (adapts.expr isKind _ ?_)
        (adapts.condition isKind fun expr member => ?_)
        (adapts.nodes body (inside List.mem_cons_self)) .none at_
      · exact List.mem_append_right _ List.mem_cons_self
      · exact List.mem_append_right _ (List.mem_cons_of_mem _ (Option.mem_toList.mpr member))
  | .each target items condition body (some other) span =>
      refine .each (adapts.target isKind _ List.mem_cons_self) (adapts.expr isKind _ ?_)
        (adapts.condition isKind fun expr member => ?_)
        (adapts.nodes body (inside List.mem_cons_self)) (.some (adapts.nodes other (inside ?_))) at_
      · exact List.mem_append_right _ List.mem_cons_self
      · exact List.mem_append_right _ (List.mem_cons_of_mem _ (Option.mem_toList.mpr member))
      · exact List.mem_cons_of_mem _ List.mem_cons_self
  | .assign target value span =>
      exact .assign (adapts.target isKind _ List.mem_cons_self)
        (adapts.expr isKind _ (List.mem_append_right _ List.mem_cons_self)) at_
  | .capture target filters body span =>
      exact .capture (adapts.target isKind _ List.mem_cons_self) (adapts.filters isKind)
        (adapts.nodes body (inside List.mem_cons_self)) at_
  | .block name body span => exact .block name (adapts.nodes body (inside List.mem_cons_self)) at_
  | .inherit template span => exact .inherit (adapts.expr isKind _ List.mem_cons_self) at_
  | .embed template withContext ignoreMissing span =>
      exact .embed withContext ignoreMissing (adapts.expr isKind _ List.mem_cons_self) at_
  | .importAs template boundAs withContext span =>
      exact .importAs boundAs withContext (adapts.expr isKind _ List.mem_cons_self) at_
  | .importNames template names withContext span =>
      refine .importNames withContext (adapts.expr isKind _ List.mem_cons_self) ?_ at_
      exact List.forall₂_same.mpr fun wanted member => ⟨rfl, rfl, adapts.wanted isKind _ member⟩
  | .define name params body span =>
      exact .define name (adapts.params isKind)
        (fun other => adapts.nodes body (lent rfl List.mem_cons_self other)) at_
  | .callBlock call [] body span =>
      exact .callBlock (adapts.expr isKind _ List.mem_cons_self) (adapts.call isKind)
        (adapts.nodes body (inside List.mem_cons_self)) at_
  | .callBlock call (param :: params) body span =>
      exact .callBlockWith (adapts.expr isKind _ List.mem_cons_self) (adapts.call isKind)
        (adapts.params isKind)
        (fun other => adapts.nodes body (lent rfl List.mem_cons_self other)) at_
  | .withBlock bindings body span =>
      refine .withBlock (List.forall₂_map_right_iff.mpr (List.forall₂_same.mpr
        fun binding member => ⟨?_, ?_⟩)) (adapts.nodes body (inside List.mem_cons_self)) at_
      · exact adapts.target isKind _ (List.mem_map_of_mem member)
      · exact adapts.expr isKind _ (List.mem_flatMap.mpr ⟨binding, member, by simp⟩)
  | .filterBlock filters body span =>
      exact .filterBlock (adapts.filters isKind) (adapts.nodes body (inside List.mem_cons_self)) at_
  | .custom name args none span =>
      have each := List.forall₂_map_right_iff.mpr (List.forall₂_same.mpr (adapts.expr isKind))
      exact .custom name ⟨each, adapts.args isKind⟩ .none (adapts.seen isKind) at_
  | .custom name args (some body) span =>
      have each := List.forall₂_map_right_iff.mpr (List.forall₂_same.mpr (adapts.expr isKind))
      exact .custom name ⟨each, adapts.args isKind⟩
        (.some (adapts.nodes body (inside List.mem_cons_self))) (adapts.seen isKind) at_

theorem nodes (adapts : Adapts trees change kind) {source : String} (nodes : List Node)
    (areKind : ∀ node ∈ nodes, kind source node) :
    Nodes.Akin trees source nodes (mapExprsOfNodes change nodes) := by
  match nodes with
  | [] => exact .nil
  | first :: rest =>
      exact .cons (adapts.node first (areKind first List.mem_cons_self))
        (adapts.nodes rest fun other member => areKind other (List.mem_cons_of_mem _ member))

theorem branches (adapts : Adapts trees change kind) {source : String} (branches : List Branch)
    (tests : ∀ branch ∈ branches, branch.test.Akin (trees.places source) (change branch.test))
    (areKind : ∀ branch ∈ branches, ∀ node ∈ branch.body, kind source node) :
    Branches.Akin trees source branches (mapExprsOfBranches change branches) := by
  match branches with
  | [] => exact .nil
  | .mk test body span :: rest =>
      exact .cons (tests (.mk test body span) List.mem_cons_self)
        (adapts.nodes body (areKind (.mk test body span) List.mem_cons_self))
        (adapts.branches rest (fun other member => tests other (List.mem_cons_of_mem _ member))
          fun other member => areKind other (List.mem_cons_of_mem _ member))

end

end Adapts

/-! ### Statements against themselves -/

/-- Whether the spans of a statement are related to themselves, those inside bodies that it hands
around for any template. -/
structure Node.SelfAkin (trees : Likeness) (source : String) (node : Node) :
    Prop where
  own : ∀ span, node.Marks span → trees.places source span span
  lent : ∀ other span, node.Lends span → trees.places other span span

/-- Whether the tags whose parts are related to themselves are so as a whole. -/
def Likeness.TagsAreSelf (trees : Likeness) : Prop :=
  ∀ {source name args body span}, (Node.custom name args body span).SelfAkin trees source →
    trees.tags source ⟨name, args, body, span⟩ ⟨name, args, body, span⟩

theorem adapts_id (same : trees.TagsAreSelf) : Adapts trees id (Node.SelfAkin trees) where
  span self := self.own _ (.own _)
  expr self expr member := .refl expr fun span marks => self.own span (.expr member marks)
  target self target member := by
    rw [target.mapExprs_id]
    exact .refl target fun span marks => self.own span (.target member marks)
  filter self call member := by
    rw [call.mapExprs_id]
    refine .refl call (fun arg isArg span marks => ?_) (self.own call.span (.filter member))
    exact self.own span (.expr (Node.mem_exprs_of_filters member isArg) marks)
  wanted self wanted member := self.own wanted.span (.wanted member)
  param self other param member := by
    rw [param.mapExprs_id]
    exact .refl param fun _ isDefault span marks =>
      self.lent other span (.default member isDefault marks)
  call _ := rfl
  args _ := by rw [List.map_id]
  seen self := by
    rw [List.map_id, mapExprsOfBody?_id]
    exact same self
  inside self _ _ isBody member :=
    ⟨fun span marks => self.own span (.inside isBody member marks),
      fun other span lends => self.lent other span (.inside isBody member lends)⟩
  lent self isLender _ _ isBody member other :=
    ⟨fun span marks => self.lent other span (.body isLender isBody member marks),
      fun other span lends => self.lent other span (.inside isBody member lends)⟩

/-- Statements are akin to themselves if their spans are related to themselves. -/
theorem Nodes.Akin.refl (same : trees.TagsAreSelf) (nodes : List Node)
    (self : ∀ node ∈ nodes, node.SelfAkin trees source) :
    Nodes.Akin trees source nodes nodes := by
  have adapted := (adapts_id same).nodes nodes self
  rwa [mapExprsOfNodes_id] at adapted

theorem Node.Akin.span {node node' : Node} (akin : node.Akin trees source node') :
    trees.places source node.span node'.span := by
  cases akin <;> assumption

/-! ### Definitions -/

variable (trees source)

structure MacroDefinition.Akin (definition definition' : MacroDefinition) : Prop where
  name : definition.name = definition'.name
  params : ∀ source, List.Forall₂ (Param.Akin (trees.places source)) definition.params definition'.params
  body : ∀ source, Nodes.Akin trees source definition.body definition'.body

structure BlockDefinition.Akin (block block' : BlockDefinition) : Prop where
  name : block.name = block'.name
  body : Nodes.Akin trees source block.body block'.body

inductive Definition.Akin : Definition → Definition → Prop where
  | block {block block' : BlockDefinition} (akin : block.Akin trees source block') :
      Definition.Akin (.block block) (.block block')
  | macro_ {definition definition' : MacroDefinition}
      (akin : definition.Akin trees definition') :
      Definition.Akin (.macro_ definition) (.macro_ definition')

variable {trees source}

mutual

theorem Node.Akin.definitions {node node' : Node} (akin : node.Akin trees source node') :
    List.Forall₂ (Definition.Akin trees source) node.definitions node'.definitions := by
  match node, akin with
  | _, .text .. | _, .verbatim .. | _, .comment .. | _, .output .. | _, .assign .. | _, .inherit ..
  | _, .embed .. | _, .importAs .. | _, .importNames .. => exact .nil
  | .choose branches none _, .choose each .none _ =>
      exact List.rel_append (Branches.Akin.definitions each) .nil
  | .choose branches (some body) _, .choose each (.some inner) _ =>
      exact List.rel_append (Branches.Akin.definitions each) (Nodes.Akin.definitions inner)
  | .each _ _ _ body none _, .each _ _ _ inner .none _ =>
      exact List.rel_append (Nodes.Akin.definitions inner) .nil
  | .each _ _ _ body (some other) _, .each _ _ _ inner (.some others) _ =>
      exact List.rel_append (Nodes.Akin.definitions inner) (Nodes.Akin.definitions others)
  | .capture _ _ body _, .capture _ _ inner _ => exact Nodes.Akin.definitions inner
  | .block _ body _, .block name inner _ =>
      exact .cons (.block ⟨rfl, inner⟩) (Nodes.Akin.definitions inner)
  | .define _ _ _ _, .define name given inner _ => exact .cons (.macro_ ⟨rfl, given, inner⟩) .nil
  | .callBlock _ _ body _, .callBlock _ _ inner _ => exact Nodes.Akin.definitions inner
  | .callBlock _ _ body _, .callBlockWith _ _ _ inner _ =>
      exact Nodes.Akin.definitions (inner source)
  | .withBlock _ body _, .withBlock _ inner _ => exact Nodes.Akin.definitions inner
  | .filterBlock _ body _, .filterBlock _ inner _ => exact Nodes.Akin.definitions inner
  | .custom _ _ none _, .custom _ _ .none _ _ => exact .nil
  | .custom _ _ (some body) _, .custom _ _ (.some inner) _ _ => exact Nodes.Akin.definitions inner

theorem Nodes.Akin.definitions {nodes nodes' : List Node}
    (akin : Nodes.Akin trees source nodes nodes') :
    List.Forall₂ (Definition.Akin trees source) (definitionsOfNodes nodes)
      (definitionsOfNodes nodes') := by
  match nodes, akin with
  | [], .nil => exact .nil
  | node :: rest, .cons first others =>
      exact List.rel_append (Node.Akin.definitions first) (Nodes.Akin.definitions others)

theorem Branches.Akin.definitions {branches branches' : List Branch}
    (akin : Branches.Akin trees source branches branches') :
    List.Forall₂ (Definition.Akin trees source) (definitionsOfBranches branches)
      (definitionsOfBranches branches') := by
  match branches, akin with
  | [], .nil => exact .nil
  | .mk _ body _ :: rest, .cons _ inner others =>
      exact List.rel_append (Nodes.Akin.definitions inner) (Branches.Akin.definitions others)

end

variable {nodes nodes' : List Node}

theorem Nodes.Akin.macroTable (akin : Nodes.Akin trees source nodes nodes') :
    Table.Akin (MacroDefinition.Akin trees) (Host.macroTable nodes) (Host.macroTable nodes') := by
  have macros : List.Forall₂ (MacroDefinition.Akin trees) (macrosOf nodes) (macrosOf nodes') := by
    refine List.rel_filterMap (fun _ _ related => ?_) akin.definitions
    cases related with
    | block => exact .none
    | macro_ akin => exact .some akin
  refine Table.Akin.ofEntries (List.rel_map (fun definition definition' related => ?_) macros)
  exact ⟨related.name, related⟩

theorem Nodes.Akin.blockTable (akin : Nodes.Akin trees source nodes nodes') :
    Table.Akin (BlockDefinition.Akin trees source) (Host.blockTable nodes)
      (Host.blockTable nodes') := by
  have blocks : List.Forall₂ (BlockDefinition.Akin trees source) (blocksOf nodes)
      (blocksOf nodes') := by
    refine List.rel_filterMap (fun _ _ related => ?_) akin.definitions
    cases related with
    | block akin => exact .some akin
    | macro_ => exact .none
  refine List.rel_foldl (fun table table' areAkin block block' related => ?_) .nil blocks
  rw [← related.name, areAkin.has]
  split
  · exact areAkin
  · exact areAkin.put _ related

/-- Templates that are akin are built on the same template, if they are built on one. -/
theorem Nodes.Akin.parent? {template template' : Template}
    (akin : Nodes.Akin trees source template.body template'.body) :
    Option.Rel (fun parent parent' => parent.1.Akin (trees.places source) parent'.1)
      template.parent? template'.parent? := by
  unfold Template.parent?
  generalize template.body = nodes at akin
  generalize template'.body = nodes' at akin
  induction nodes generalizing nodes' with
  | nil =>
      cases akin
      exact .none
  | cons node rest inductionHypothesis =>
      cases akin with
      | cons first others =>
          have found := inductionHypothesis _ others
          cases first <;> first
            | exact found
            | exact .some ‹_›

end Syntax

end Stencil
