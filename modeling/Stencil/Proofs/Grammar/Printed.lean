import Stencil.Proofs.Grammar.Layout
import Stencil.Proofs.Grammar.Written
import Stencil.Proofs.Syntax.Unplaced

/-!
Contract: how a template is printed, tag by tag.

Owns:
- the words of clauses and targets, and the fragments of every statement;
- the statements that are printed so: identifiers for names, plain names for values, names and
  tuples of names for targets;
- the fragments of such a statement can be laid out.

Does not own: reading the words back (`Stencil.Proofs.Grammar.Statement`).
-/

set_option autoImplicit false

namespace Stencil.Syntax

open Stencil.Grammar (Word Fragment isName reservedWords)
open Stencil.Text (Span)
open Stencil.Token (commentCloser)

/-! ### Clauses -/

mutual

def Target.expr : Target → Expr
  | .name bound span => .name bound span
  | .tuple items span => .tuple (targetExprs items) span
  | .attribute value attr span => .attribute value attr span
  | .item value index span => .item value index span

/-- The expressions that are read as several targets. -/
def targetExprs : List Target → List Expr
  | [] => []
  | target :: rest => target.expr :: targetExprs rest

end

theorem targetExprs_eq_map (targets : List Target) :
    targetExprs targets = targets.map Target.expr := by
  induction targets with
  | nil => rfl
  | cons target rest inductionHypothesis =>
      rw [targetExprs, inductionHypothesis, List.map_cons]

/-- The words of a target. Tuples stand in parentheses. -/
def Target.written (target : Target) : List Word := target.expr.written

/-- The words of a filter. Without arguments there are no parentheses. -/
def FilterCall.written (call : FilterCall) : List Word :=
  match call.args with
  | [] => Word.dotted call.name
  | args => Word.dotted call.name ++ Expr.argumentWords args

def ImportName.written (imported : ImportName) : List Word :=
  match imported.boundAs with
  | none => [.name imported.name]
  | some boundAs => [.name imported.name, .name "as", .name boundAs]

def Param.written (param : Param) : List Word :=
  match param.default with
  | none => [.name param.name]
  | some value => .name param.name :: .symbol .assign :: value.written

def paramWords (params : List Param) : List Word :=
  Word.enclosed .leftParen .rightParen (params.map Param.written)

def Binding.written (binding : Binding) : List Word :=
  binding.target.written ++ .symbol .assign :: binding.value.written

def contextWords : Bool → List Word
  | false => []
  | true => [.name "with", .name "context"]

/-- The clause that puts up with a missing template. -/
def missingWords : Bool → List Word
  | false => []
  | true => [.name "ignore", .name "missing"]

def conditionWords : Option Expr → List Word
  | none => []
  | some condition => .name "if" :: condition.written

/-- The words of several filters with a bar before each. -/
def filterWords (filters : List FilterCall) : List Word :=
  filters.flatMap fun call => .symbol .pipe :: call.written

/-- The words of the parameters of a call block. Without parameters there are no parentheses. -/
def callerWords : List Param → List Word
  | [] => []
  | params => paramWords params

/-! ### Statements -/

def blockTag (word : String) (words : List Word) : Fragment := .tag .block (.name word :: words)

mutual

def Node.fragments : Node → List Fragment
  | .text content _ => [.text content.toList]
  | .comment content _ => [.comment content.toList]
  | .output value _ => [.tag .output value.written]
  | .choose branches otherwise _ =>
      branchFragments "if" branches ++ (otherwiseFragments otherwise ++ [blockTag "endif" []])
  | .each target items condition body otherwise _ =>
      blockTag "for"
          (target.written ++ .name "in" :: (items.written ++ conditionWords condition)) ::
        (bodyFragments body ++ (otherwiseFragments otherwise ++ [blockTag "endfor" []]))
  | .assign target value _ =>
      [blockTag "set" (target.written ++ .symbol .assign :: value.written)]
  | .capture target filters body _ =>
      blockTag "set" (target.written ++ filterWords filters) ::
        (bodyFragments body ++ [blockTag "endset" []])
  | .block word body _ =>
      blockTag "block" [.name word] :: (bodyFragments body ++ [blockTag "endblock" []])
  | .inherit template _ => [blockTag "extends" template.written]
  | .embed template withContext ignoreMissing _ =>
      [blockTag "include"
        (template.written ++ (missingWords ignoreMissing ++ contextWords withContext))]
  | .importAs template boundAs withContext _ =>
      [blockTag "import"
        (template.written ++ .name "as" :: .name boundAs :: contextWords withContext)]
  | .importNames template names withContext _ =>
      [blockTag "from" (template.written ++ .name "import" ::
        (Word.separated (.symbol .comma) (names.map ImportName.written) ++
          contextWords withContext))]
  | .define word params body _ =>
      blockTag "macro" (.name word :: paramWords params) ::
        (bodyFragments body ++ [blockTag "endmacro" []])
  | .callBlock call params body _ =>
      blockTag "call" (callerWords params ++ call.written) ::
        (bodyFragments body ++ [blockTag "endcall" []])
  | .withBlock bindings body _ =>
      blockTag "with" (Word.separated (.symbol .comma) (bindings.map Binding.written)) ::
        (bodyFragments body ++ [blockTag "endwith" []])
  | .filterBlock filters body _ =>
      blockTag "filter" (Word.separated (.symbol .pipe) (filters.map FilterCall.written)) ::
        (bodyFragments body ++ [blockTag "endfilter" []])
  | .verbatim _ _ => []
  | .custom _ _ _ _ => []

def bodyFragments : List Node → List Fragment
  | [] => []
  | node :: rest => node.fragments ++ bodyFragments rest

/-- The fragments of the body that a choice or a loop has otherwise. -/
def otherwiseFragments : Option (List Node) → List Fragment
  | none => []
  | some body => blockTag "else" [] :: bodyFragments body

/-- The fragments of branches; the word begins the first of them. -/
def branchFragments (word : String) : List Branch → List Fragment
  | [] => []
  | .mk test body _ :: rest =>
      blockTag word test.written :: (bodyFragments body ++ branchFragments "elif" rest)

end

/-! ### What is printed so -/

def keptWords : List String :=
  reservedWords ++ ["true", "True", "false", "False", "none", "None"]

/-- Whether a text can stand for a variable, a block, a macro and so on. -/
structure IsIdentifier (text : String) : Prop where
  named : isName text = true
  free : text ∉ keptWords

inductive Expr.IsVariable : Expr → Prop where
  | name {text : String} (span : Span) (identifier : IsIdentifier text) :
      Expr.IsVariable (.name text span)

/-- Whether a call block calls a plain name, with plain names as its arguments or without any. -/
inductive Expr.IsPlainCall : Expr → Prop where
  | bare {callee : Expr} (isVariable : callee.IsVariable) : Expr.IsPlainCall callee
  | call {callee : Expr} {args : List Expr} (span : Span) (isVariable : callee.IsVariable)
      (argsVariable : ∀ arg ∈ args, arg.IsVariable) : Expr.IsPlainCall (.call callee args span)

/-- Whether a target is made of names and tuples only. -/
inductive Target.IsPlain : Target → Prop where
  | name {bound : String} (span : Span) (identifier : IsIdentifier bound) :
      Target.IsPlain (.name bound span)
  | tuple {items : List Target} (span : Span) (itemsPlain : ∀ item ∈ items, Target.IsPlain item) :
      Target.IsPlain (.tuple items span)

/-- Whether a filter has an identifier for its name and plain names for its arguments. -/
structure FilterCall.IsPlain (call : FilterCall) : Prop where
  identifier : IsIdentifier call.name
  argsVariable : ∀ arg ∈ call.args, arg.IsVariable

structure ImportName.IsPlain (imported : ImportName) : Prop where
  identifier : IsIdentifier imported.name
  aliasIdentifier : ∀ boundAs, imported.boundAs = some boundAs → IsIdentifier boundAs

structure Param.IsPlain (param : Param) : Prop where
  identifier : IsIdentifier param.name
  defaultVariable : ∀ value, param.default = some value → value.IsVariable

structure Binding.IsPlain (binding : Binding) : Prop where
  targetPlain : binding.target.IsPlain
  isVariable : binding.value.IsVariable

def Node.isText : Node → Bool
  | .text _ _ => true
  | _ => false

def TextsApart : List Node → Prop
  | [] => True
  | node :: rest =>
      (node.isText = true → ∀ next ∈ rest.head?, next.isText = false) ∧ TextsApart rest

/-- The statements that are printed, with bodies nested to any depth. -/
inductive Node.IsPlain : Node → Prop where
  | text {content : String} (span : Span) (nonempty : content ≠ "")
      (noBrace : '{' ∉ content.toList) : Node.IsPlain (.text content span)
  | comment {content : String} (span : Span) (trimmed : Text.trim content = content)
      (unclosed : Text.contains commentCloser content.toList = false) :
      Node.IsPlain (.comment content span)
  | output {value : Expr} (span : Span) (isVariable : value.IsVariable) :
      Node.IsPlain (.output value span)
  | choose {branches : List Branch} {otherwise : Option (List Node)} (span : Span)
      (nonempty : branches ≠ []) (tests : ∀ branch ∈ branches, branch.test.IsVariable)
      (branchesApart : ∀ branch ∈ branches, TextsApart branch.body)
      (branchesPlain : ∀ branch ∈ branches, ∀ node ∈ branch.body, Node.IsPlain node)
      (otherwiseApart : ∀ body, otherwise = some body → TextsApart body)
      (otherwisePlain : ∀ body, otherwise = some body → ∀ node ∈ body, Node.IsPlain node) :
      Node.IsPlain (.choose branches otherwise span)
  | each {target : Target} {items : Expr} {condition : Option Expr} {body : List Node}
      {otherwise : Option (List Node)} (span : Span) (targetPlain : target.IsPlain)
      (itemsVariable : items.IsVariable)
      (conditionVariable : ∀ value, condition = some value → value.IsVariable)
      (apart : TextsApart body) (bodyPlain : ∀ node ∈ body, Node.IsPlain node)
      (otherwiseApart : ∀ body, otherwise = some body → TextsApart body)
      (otherwisePlain : ∀ body, otherwise = some body → ∀ node ∈ body, Node.IsPlain node) :
      Node.IsPlain (.each target items condition body otherwise span)
  | assign {target : Target} {value : Expr} (span : Span) (targetPlain : target.IsPlain)
      (isVariable : value.IsVariable) : Node.IsPlain (.assign target value span)
  | capture {target : Target} {filters : List FilterCall} {body : List Node} (span : Span)
      (targetPlain : target.IsPlain) (filtersPlain : ∀ call ∈ filters, call.IsPlain)
      (apart : TextsApart body) (bodyPlain : ∀ node ∈ body, Node.IsPlain node) :
      Node.IsPlain (.capture target filters body span)
  | block {word : String} {body : List Node} (span : Span) (identifier : IsIdentifier word)
      (apart : TextsApart body) (bodyPlain : ∀ node ∈ body, Node.IsPlain node) :
      Node.IsPlain (.block word body span)
  | inherit {template : Expr} (span : Span) (isVariable : template.IsVariable) :
      Node.IsPlain (.inherit template span)
  | embed {template : Expr} (withContext ignoreMissing : Bool) (span : Span)
      (isVariable : template.IsVariable) :
      Node.IsPlain (.embed template withContext ignoreMissing span)
  | importAs {template : Expr} {boundAs : String} (withContext : Bool) (span : Span)
      (isVariable : template.IsVariable) (identifier : IsIdentifier boundAs) :
      Node.IsPlain (.importAs template boundAs withContext span)
  | importNames {template : Expr} {names : List ImportName} (withContext : Bool) (span : Span)
      (isVariable : template.IsVariable) (nonempty : names ≠ [])
      (namesPlain : ∀ imported ∈ names, imported.IsPlain) :
      Node.IsPlain (.importNames template names withContext span)
  | define {word : String} {params : List Param} {body : List Node} (span : Span)
      (identifier : IsIdentifier word) (paramsPlain : ∀ param ∈ params, param.IsPlain)
      (apart : TextsApart body) (bodyPlain : ∀ node ∈ body, Node.IsPlain node) :
      Node.IsPlain (.define word params body span)
  | callBlock {call : Expr} {params : List Param} {body : List Node} (span : Span)
      (callPlain : call.IsPlainCall) (paramsPlain : ∀ param ∈ params, param.IsPlain)
      (apart : TextsApart body) (bodyPlain : ∀ node ∈ body, Node.IsPlain node) :
      Node.IsPlain (.callBlock call params body span)
  | withBlock {bindings : List Binding} {body : List Node} (span : Span)
      (bindingsPlain : ∀ binding ∈ bindings, binding.IsPlain)
      (apart : TextsApart body) (bodyPlain : ∀ node ∈ body, Node.IsPlain node) :
      Node.IsPlain (.withBlock bindings body span)
  | filterBlock {filters : List FilterCall} {body : List Node} (span : Span)
      (nonempty : filters ≠ []) (filtersPlain : ∀ call ∈ filters, call.IsPlain)
      (apart : TextsApart body) (bodyPlain : ∀ node ∈ body, Node.IsPlain node) :
      Node.IsPlain (.filterBlock filters body span)

end Stencil.Syntax

namespace Stencil.Grammar

open Stencil.Syntax
open Stencil.Syntax.Expr (argumentWords)
open Stencil.Token (Symbol)

/-! ### Words that stand alone -/

def AllAlone (words : List Word) : Prop := ∀ word ∈ words, word.StandsAlone

theorem allAlone_nil : AllAlone [] := fun _ member => nomatch member

theorem AllAlone.cons {word : Word} {words : List Word} (first : word.StandsAlone)
    (rest : AllAlone words) : AllAlone (word :: words) := by
  intro other member
  rcases List.mem_cons.mp member with rfl | memberRest
  · exact first
  · exact rest other memberRest

theorem AllAlone.append {first second : List Word} (left : AllAlone first)
    (right : AllAlone second) : AllAlone (first ++ second) := by
  intro word member
  rcases List.mem_append.mp member with memberFirst | memberSecond
  · exact left word memberFirst
  · exact right word memberSecond

theorem allAlone_flatMap {α : Type} {items : List α} {written : α → List Word}
    (each : ∀ item ∈ items, AllAlone (written item)) : AllAlone (items.flatMap written) := by
  intro word member
  obtain ⟨item, isItem, memberItem⟩ := List.mem_flatMap.mp member
  exact each item isItem word memberItem

theorem allAlone_separated {separator : Word} (alone : separator.StandsAlone)
    {groups : List (List Word)} (each : ∀ words ∈ groups, AllAlone words) :
    AllAlone (Word.separated separator groups) := by
  cases groups with
  | nil => exact allAlone_nil
  | cons first rest =>
      refine (each first List.mem_cons_self).append (allAlone_flatMap fun words member => ?_)
      exact .cons alone (each words (List.mem_cons_of_mem _ member))

theorem standsAlone_leftParen : (Word.symbol .leftParen).StandsAlone :=
  standsAlone_symbol (by decide)

theorem standsAlone_rightParen : (Word.symbol .rightParen).StandsAlone :=
  standsAlone_symbol (by decide)

theorem standsAlone_comma : (Word.symbol .comma).StandsAlone := standsAlone_symbol (by decide)

theorem allAlone_enclosed {groups : List (List Word)} (each : ∀ words ∈ groups, AllAlone words) :
    AllAlone (Word.enclosed .leftParen .rightParen groups) :=
  .cons standsAlone_leftParen
    ((allAlone_separated standsAlone_comma each).append (.cons standsAlone_rightParen allAlone_nil))

theorem allAlone_tupled {groups : List (List Word)} (each : ∀ words ∈ groups, AllAlone words) :
    AllAlone (Word.tupled groups) := by
  rw [Word.tupled.eq_def]
  split
  · have only := each _ (List.mem_singleton.mpr rfl)
    exact .cons standsAlone_leftParen
      (only.append (.cons standsAlone_comma (.cons standsAlone_rightParen allAlone_nil)))
  · exact allAlone_enclosed each

theorem standsAlone_assign : (Word.symbol .assign).StandsAlone := standsAlone_symbol (by decide)

theorem standsAlone_pipe : (Word.symbol .pipe).StandsAlone := standsAlone_symbol (by decide)

theorem allAlone_variable {value : Expr} (isVariable : value.IsVariable) :
    AllAlone value.written := by
  cases isVariable with
  | name span identifier => exact .cons (standsAlone_name identifier.named) allAlone_nil

theorem allAlone_arguments {args : List Expr} (argsVariable : ∀ arg ∈ args, arg.IsVariable) :
    AllAlone (argumentWords args) := by
  refine allAlone_enclosed (List.forall_mem_map.mpr fun arg member => ?_)
  exact allAlone_variable (argsVariable arg member)

theorem allAlone_call {call : Expr} (plain : call.IsPlainCall) : AllAlone call.written := by
  cases plain with
  | bare isVariable => exact allAlone_variable isVariable
  | @call callee args span isVariable argsVariable =>
      rw [Expr.written_call]
      exact (allAlone_variable isVariable).append (allAlone_arguments argsVariable)

theorem allAlone_target {target : Target} (plain : target.IsPlain) : AllAlone target.written := by
  induction plain with
  | name span identifier => exact .cons (standsAlone_name identifier.named) allAlone_nil
  | @tuple items span _ itemsAlone =>
      rw [Target.written, Target.expr, Expr.written, Expr.writtenAll_eq_map, targetExprs_eq_map,
        List.map_map]
      exact allAlone_tupled (List.forall_mem_map.mpr itemsAlone)

theorem dotted_of_isName {text : String} (named : isName text = true) :
    Word.dotted text = [.name text] := by
  have single (chars : List Char) (noPoint : '.' ∉ chars) : Levels.segments chars = [chars] := by
    induction chars with
    | nil => rfl
    | cons c chars inductionHypothesis =>
        have notPoint : c ≠ '.' := fun isPoint => noPoint (isPoint ▸ List.mem_cons_self)
        rw [Levels.segments, if_neg notPoint,
          inductionHypothesis fun member => noPoint (List.mem_cons_of_mem _ member)]
  have noPoint : '.' ∉ text.toList := by
    intro member
    unfold isName at named
    split at named
    · cases named
    · rename_i first rest isText
      rw [Bool.and_eq_true] at named
      rw [isText] at member
      rcases List.mem_cons.mp member with isFirst | memberRest
      · rw [← isFirst] at named
        exact absurd named.1 (by decide)
      · exact absurd (List.all_eq_true.mp named.2 _ memberRest) (by decide)
  rw [Word.dotted, nameParts, single _ noPoint, List.map_singleton, String.ofList_toList]
  rfl

theorem allAlone_filter {call : FilterCall} (plain : call.IsPlain) : AllAlone call.written := by
  have name : AllAlone (Word.dotted call.name) := by
    rw [dotted_of_isName plain.identifier.named]
    exact .cons (standsAlone_name plain.identifier.named) allAlone_nil
  unfold FilterCall.written
  split
  · exact name
  · exact name.append (allAlone_arguments plain.argsVariable)

theorem allAlone_importName {imported : ImportName} (plain : imported.IsPlain) :
    AllAlone imported.written := by
  have name := standsAlone_name plain.identifier.named
  unfold ImportName.written
  split
  · exact .cons name allAlone_nil
  · rename_i boundAs isAlias
    exact .cons name (.cons (standsAlone_name (by decide))
      (.cons (standsAlone_name (plain.aliasIdentifier boundAs isAlias).named) allAlone_nil))

theorem allAlone_params {params : List Param} (plain : ∀ param ∈ params, param.IsPlain) :
    AllAlone (paramWords params) := by
  refine allAlone_enclosed (List.forall_mem_map.mpr fun param member => ?_)
  have name := standsAlone_name (plain param member).identifier.named
  unfold Param.written
  split
  · exact .cons name allAlone_nil
  · rename_i value isDefault
    exact .cons name (.cons standsAlone_assign
      (allAlone_variable ((plain param member).defaultVariable value isDefault)))

theorem allAlone_caller {params : List Param} (plain : ∀ param ∈ params, param.IsPlain) :
    AllAlone (callerWords params) := by
  unfold callerWords
  split
  · exact allAlone_nil
  · exact allAlone_params plain

theorem allAlone_binding {binding : Binding} (plain : binding.IsPlain) :
    AllAlone binding.written :=
  (allAlone_target plain.targetPlain).append
    (.cons standsAlone_assign (allAlone_variable plain.isVariable))

theorem allAlone_context (withContext : Bool) : AllAlone (contextWords withContext) := by
  cases withContext with
  | false => exact allAlone_nil
  | true =>
      exact .cons (standsAlone_name (by decide)) (.cons (standsAlone_name (by decide)) allAlone_nil)

theorem allAlone_missing (ignoreMissing : Bool) : AllAlone (missingWords ignoreMissing) := by
  cases ignoreMissing with
  | false => exact allAlone_nil
  | true =>
      exact .cons (standsAlone_name (by decide)) (.cons (standsAlone_name (by decide)) allAlone_nil)

theorem allAlone_filters {filters : List FilterCall} (plain : ∀ call ∈ filters, call.IsPlain) :
    AllAlone (filterWords filters) :=
  allAlone_flatMap fun call member => .cons standsAlone_pipe (allAlone_filter (plain call member))

theorem allAlone_condition {condition : Option Expr}
    (isVariable : ∀ value, condition = some value → value.IsVariable) :
    AllAlone (conditionWords condition) := by
  cases condition with
  | none => exact allAlone_nil
  | some value =>
      exact .cons (standsAlone_name (by decide)) (allAlone_variable (isVariable value rfl))

/-! ### Fragments that can be laid out -/

theorem sound_blockTag {word : String} {words : List Word} (named : isName word = true)
    (notRaw : word ≠ "raw") (alone : AllAlone words) : (blockTag word words).Sound := by
  refine ⟨AllAlone.cons (standsAlone_name named) alone, fun _ isRaw => notRaw ?_⟩
  exact congrArg Word.lexeme (List.cons.inj isRaw).1

/-- Fragments that do not begin with text can stand behind all others. -/
theorem Laid.append_tags {first rest : List Fragment} (left : Laid first) (right : Laid rest)
    (tagged : ∀ next ∈ rest.head?, next.isText = false) : Laid (first ++ rest) :=
  left.append right fun _ _ _ => tagged

theorem Laid.tag {word : String} {words : List Word} {rest : List Fragment}
    (sound : (blockTag word words).Sound) (laid : Laid rest) :
    Laid (blockTag word words :: rest) :=
  ⟨sound, nofun, laid⟩

/-- Whether the fragments of a statement can be laid out, and begin and end with text only if the
statement is text. -/
structure LaysOut (node : Node) : Prop where
  laid : Laid node.fragments
  first : ∀ fragment ∈ node.fragments.head?, fragment.isText = node.isText
  last : ∀ fragment ∈ node.fragments.getLast?, fragment.isText = node.isText
  nonempty : node.fragments ≠ []

theorem laid_bodyFragments {body : List Node} (layOut : ∀ node ∈ body, LaysOut node)
    (apart : TextsApart body) : Laid (bodyFragments body) := by
  induction body with
  | nil => trivial
  | cons node rest inductionHypothesis =>
      have laidNode := layOut node List.mem_cons_self
      have laidRest := inductionHypothesis
        (fun other member => layOut other (List.mem_cons_of_mem _ member)) apart.2
      refine laidNode.laid.append laidRest fun last isLast isText next isNext => ?_
      rw [laidNode.last last isLast] at isText
      cases rest with
      | nil => cases isNext
      | cons other others =>
          have laidOther := layOut other (List.mem_cons_of_mem _ List.mem_cons_self)
          have isFirst : next ∈ other.fragments.head? := by
            rw [bodyFragments, List.head?_append] at isNext
            cases areFragments : other.fragments with
            | nil => exact (laidOther.nonempty areFragments).elim
            | cons fragment fragments => rwa [areFragments] at isNext
          rw [laidOther.first next isFirst]
          exact apart.1 isText other rfl

theorem laysOut_single {node : Node} {fragment : Fragment}
    (areFragments : node.fragments = [fragment])
    (same : fragment.isText = node.isText) (sound : fragment.Sound) : LaysOut node where
  laid := by
    rw [areFragments]
    exact ⟨sound, fun _ next isNext => (nomatch isNext), trivial⟩
  first other isFirst := by
    rw [areFragments] at isFirst
    rw [← Option.some.inj isFirst, same]
  last other isLast := by
    have isPart : fragment = other := by
      rw [areFragments] at isLast
      exact Option.some.inj isLast
    rw [← isPart, same]
  nonempty := by
    rw [areFragments]
    exact List.cons_ne_nil _ _

/-- A statement with bodies begins with its tag and ends with its closing tag. -/
theorem laysOut_tags {node : Node} {word ending : String} {words : List Word}
    {inside : List Fragment}
    (areFragments : node.fragments = blockTag word words :: (inside ++ [blockTag ending []]))
    (other : node.isText = false) (sound : (blockTag word words).Sound)
    (laid : Laid (inside ++ [blockTag ending []])) : LaysOut node where
  laid := by
    rw [areFragments]
    exact laid.tag sound
  first fragment isFirst := by
    rw [areFragments] at isFirst
    rw [other, ← Option.some.inj isFirst]
    rfl
  last fragment isLast := by
    rw [areFragments, ← List.cons_append, List.getLast?_concat] at isLast
    rw [other, ← Option.some.inj isLast]
    rfl
  nonempty := by
    rw [areFragments]
    exact List.cons_ne_nil _ _

/-- The closing tag of a statement can be laid out behind its bodies. -/
theorem laid_ending {inside : List Fragment} (laid : Laid inside) {ending : String}
    (named : isName ending = true) (notRaw : ending ≠ "raw") :
    Laid (inside ++ [blockTag ending []]) := by
  refine laid.append_tags (.tag (sound_blockTag named notRaw allAlone_nil) trivial) ?_
  intro next isNext
  rw [← Option.some.inj isNext]
  rfl

/-- The other body of a statement can be laid out behind everything before it. -/
theorem laid_otherwise {inside : List Fragment} (laidInside : Laid inside)
    {otherwise : Option (List Node)}
    (laid : ∀ body, otherwise = some body → Laid (bodyFragments body)) :
    Laid (inside ++ otherwiseFragments otherwise) := by
  cases otherwise with
  | none => exact laidInside.append_tags trivial nofun
  | some body =>
      refine laidInside.append_tags
        (.tag (sound_blockTag (by decide) (by decide) allAlone_nil) (laid body rfl)) ?_
      intro next isNext
      rw [← Option.some.inj isNext]
      rfl

/-- The further branches of a choice can be laid out behind its first one. -/
theorem laid_branches {branches : List Branch}
    (tests : ∀ branch ∈ branches, AllAlone branch.test.written)
    (laid : ∀ branch ∈ branches, Laid (bodyFragments branch.body)) {inside : List Fragment}
    (laidInside : Laid inside) : Laid (inside ++ branchFragments "elif" branches) := by
  induction branches generalizing inside with
  | nil => exact laidInside.append_tags trivial nofun
  | cons branch rest inductionHypothesis =>
      obtain ⟨test, body, span⟩ := branch
      have laidRest : Laid (bodyFragments body ++ branchFragments "elif" rest) :=
        inductionHypothesis (fun other member => tests other (List.mem_cons_of_mem _ member))
          (fun other member => laid other (List.mem_cons_of_mem _ member))
          (laid _ List.mem_cons_self)
      have sound : (blockTag "elif" test.written).Sound :=
        sound_blockTag (by decide) (by decide) (tests _ List.mem_cons_self)
      refine laidInside.append_tags (laidRest.tag sound) ?_
      intro next isNext
      rw [← Option.some.inj isNext]
      rfl

theorem laysOut_body {node : Node} {word ending : String} {words : List Word} {body : List Node}
    (areFragments :
      node.fragments = blockTag word words :: (bodyFragments body ++ [blockTag ending []]))
    (other : node.isText = false) (named : isName word = true ∧ isName ending = true)
    (notRaw : word ≠ "raw" ∧ ending ≠ "raw") (alone : AllAlone words)
    (layOut : ∀ node ∈ body, LaysOut node) (apart : TextsApart body) : LaysOut node :=
  laysOut_tags areFragments other (sound_blockTag named.1 notRaw.1 alone)
    (laid_ending (laid_bodyFragments layOut apart) named.2 notRaw.2)

/-- Every statement that is printed so can be laid out. -/
theorem laysOut_of_isPlain {node : Node} (plain : node.IsPlain) : LaysOut node := by
  induction plain with
  | text span nonempty noBrace =>
      exact laysOut_single (Node.fragments.eq_def _) rfl
        ⟨fun isEmpty => nonempty (String.toList_eq_nil_iff.mp isEmpty), noBrace⟩
  | comment span trimmed unclosed => exact laysOut_single (Node.fragments.eq_def _) rfl unclosed
  | output span isVariable =>
      exact laysOut_single (Node.fragments.eq_def _) rfl ⟨allAlone_variable isVariable, nofun⟩
  | @choose branches otherwise span nonempty tests branchesApart _ otherwiseApart _
      branchesLayOut otherwiseLayOut =>
      have laidBranch (branch : Branch) (member : branch ∈ branches) :
          Laid (bodyFragments branch.body) :=
        laid_bodyFragments (branchesLayOut branch member) (branchesApart branch member)
      cases branches with
      | nil => contradiction
      | cons branch rest =>
          obtain ⟨test, body, branchSpan⟩ := branch
          have laidBranches := laid_branches
            (fun other member => allAlone_variable (tests other (List.mem_cons_of_mem _ member)))
            (fun other member => laidBranch other (List.mem_cons_of_mem _ member))
            (laidBranch _ List.mem_cons_self)
          have laid := laid_otherwise laidBranches fun body isBody =>
            laid_bodyFragments (otherwiseLayOut body isBody) (otherwiseApart body isBody)
          have areFragments :
              (Node.choose (.mk test body branchSpan :: rest) otherwise span).fragments =
              blockTag "if" test.written :: ((bodyFragments body ++ branchFragments "elif" rest ++
                otherwiseFragments otherwise) ++ [blockTag "endif" []]) := by
            rw [Node.fragments, branchFragments]
            simp only [List.append_assoc, List.cons_append]
          have alone := allAlone_variable (tests _ List.mem_cons_self)
          exact laysOut_tags areFragments rfl (sound_blockTag (by decide) (by decide) alone)
            (laid_ending laid (by decide) (by decide))
  | @each target items condition body otherwise span targetPlain itemsVariable conditionVariable
      apart _ otherwiseApart _ bodyLayOut otherwiseLayOut =>
      have laid := laid_otherwise (laid_bodyFragments bodyLayOut apart) fun body isBody =>
        laid_bodyFragments (otherwiseLayOut body isBody) (otherwiseApart body isBody)
      have areFragments : (Node.each target items condition body otherwise span).fragments =
          blockTag "for" (target.written ++ .name "in" ::
            (items.written ++ conditionWords condition)) ::
              ((bodyFragments body ++ otherwiseFragments otherwise) ++ [blockTag "endfor" []]) := by
        rw [Node.fragments, List.append_assoc]
      have isIn : (Word.name "in").StandsAlone := standsAlone_name (by decide)
      have alone := (allAlone_target targetPlain).append (.cons isIn
        ((allAlone_variable itemsVariable).append (allAlone_condition conditionVariable)))
      exact laysOut_tags areFragments rfl (sound_blockTag (by decide) (by decide) alone)
        (laid_ending laid (by decide) (by decide))
  | assign span targetPlain isVariable =>
      refine laysOut_single (Node.fragments.eq_def _) rfl
        (sound_blockTag (by decide) (by decide) ?_)
      exact (allAlone_target targetPlain).append
        (.cons standsAlone_assign (allAlone_variable isVariable))
  | capture span targetPlain filtersPlain apart _ bodyLayOut =>
      exact laysOut_body (Node.fragments.eq_def _) rfl (by decide) (by decide)
        ((allAlone_target targetPlain).append (allAlone_filters filtersPlain)) bodyLayOut apart
  | block span identifier apart _ bodyLayOut =>
      exact laysOut_body (Node.fragments.eq_def _) rfl (by decide) (by decide)
        (.cons (standsAlone_name identifier.named) allAlone_nil) bodyLayOut apart
  | inherit span isVariable =>
      exact laysOut_single (Node.fragments.eq_def _) rfl
        (sound_blockTag (by decide) (by decide) (allAlone_variable isVariable))
  | embed withContext ignoreMissing span isVariable =>
      refine laysOut_single (Node.fragments.eq_def _) rfl
        (sound_blockTag (by decide) (by decide) ?_)
      exact (allAlone_variable isVariable).append
        ((allAlone_missing ignoreMissing).append (allAlone_context withContext))
  | importAs withContext span isVariable identifier =>
      refine laysOut_single (Node.fragments.eq_def _) rfl
        (sound_blockTag (by decide) (by decide) ?_)
      exact (allAlone_variable isVariable).append (.cons (standsAlone_name (by decide))
        (.cons (standsAlone_name identifier.named) (allAlone_context withContext)))
  | importNames withContext span isVariable nonempty namesPlain =>
      refine laysOut_single (Node.fragments.eq_def _) rfl
        (sound_blockTag (by decide) (by decide) ?_)
      have names := allAlone_separated standsAlone_comma (List.forall_mem_map.mpr
        fun imported member => allAlone_importName (namesPlain imported member))
      exact (allAlone_variable isVariable).append (.cons (standsAlone_name (by decide))
        (names.append (allAlone_context withContext)))
  | define span identifier paramsPlain apart _ bodyLayOut =>
      exact laysOut_body (Node.fragments.eq_def _) rfl (by decide) (by decide)
        (.cons (standsAlone_name identifier.named) (allAlone_params paramsPlain)) bodyLayOut apart
  | callBlock span callPlain paramsPlain apart _ bodyLayOut =>
      exact laysOut_body (Node.fragments.eq_def _) rfl (by decide) (by decide)
        ((allAlone_caller paramsPlain).append (allAlone_call callPlain)) bodyLayOut apart
  | withBlock span bindingsPlain apart _ bodyLayOut =>
      exact laysOut_body (Node.fragments.eq_def _) rfl (by decide) (by decide)
        (allAlone_separated standsAlone_comma (List.forall_mem_map.mpr
          fun binding member => allAlone_binding (bindingsPlain binding member))) bodyLayOut apart
  | filterBlock span nonempty filtersPlain apart _ bodyLayOut =>
      exact laysOut_body (Node.fragments.eq_def _) rfl (by decide) (by decide)
        (allAlone_separated standsAlone_pipe (List.forall_mem_map.mpr
          fun call member => allAlone_filter (filtersPlain call member))) bodyLayOut apart

end Stencil.Grammar
