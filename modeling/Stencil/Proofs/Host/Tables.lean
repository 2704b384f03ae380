import Mathlib.Data.List.Lex
import Mathlib.Order.Bounds.Basic
import Stencil.Host.Shelf
import Stencil.Proofs.Syntax.Definitions

/-!
Contract: the tables of blocks and macros of a template.

Owns:
- looking up what was put into a table several times;
- the table of blocks finds the first block of a name in a body, and the table of macros the last
  macro;
- nothing is missing from the tables but what is inside macros.

Does not own: where the definitions of a body stand (`Stencil.Proofs.Syntax.Definitions`).
-/

set_option autoImplicit false

namespace Stencil.Table

variable {α : Type}

/-- What is put into a table under a name last counts. -/
theorem lookup?_putAll (table entries : Table α) (name : String) :
    (table.putAll entries).lookup? name =
      ((entries.filter (·.1 = name)).getLast?.map (·.2)).or (table.lookup? name) := by
  induction entries generalizing table with
  | nil => rfl
  | cons entry rest inductionHypothesis =>
      rw [putAll, List.foldl_cons]
      change (putAll (table.put entry.1 entry.2) rest).lookup? name = _
      rw [inductionHypothesis]
      by_cases same : entry.1 = name
      · subst same
        rw [lookup?_put_self, List.filter_cons_of_pos (by simp), List.getLast?_cons]
        cases (rest.filter (·.1 = entry.1)).getLast? <;> rfl
      · rw [lookup?_put_other _ _ (Ne.symm same), List.filter_cons_of_neg (by simpa using same)]

end Stencil.Table

namespace Stencil.Host

open Stencil.Syntax

/-! ### Tables of blocks -/

/-- Puts the blocks into a table that are the first ones of their names. -/
def addBlocks (table : Table BlockDefinition) (blocks : List BlockDefinition) :
    Table BlockDefinition :=
  blocks.foldl (fun table block => if table.has block.name then table else table.put block.name block)
    table

theorem lookup?_addBlocks (table : Table BlockDefinition) (blocks : List BlockDefinition)
    (name : String) :
    (addBlocks table blocks).lookup? name =
      (table.lookup? name).or (blocks.find? (·.name = name)) := by
  induction blocks generalizing table with
  | nil => simp [addBlocks]
  | cons block rest inductionHypothesis =>
      show (addBlocks (if _ then _ else _) rest).lookup? name = _
      rw [inductionHypothesis]
      by_cases isKnown : table.has block.name = true
      · rw [if_pos isKnown]
        by_cases same : block.name = name
        · subst same
          obtain ⟨known, isFound⟩ := Option.isSome_iff_exists.mp isKnown
          simp [isFound]
        · simp [same]
      · rw [if_neg isKnown]
        by_cases same : block.name = name
        · subst same
          have isNone : table.lookup? block.name = none := by simpa [Table.has] using isKnown
          simp [Table.lookup?_put_self, isNone]
        · simp [Table.lookup?_put_other _ _ (Ne.symm same), same]

theorem lookup?_blockTable (nodes : List Node) (name : String) :
    (blockTable nodes).lookup? name = (blocksOf nodes).find? (·.name = name) :=
  lookup?_addBlocks [] (blocksOf nodes) name

/-! ### Tables of macros -/

theorem lookup?_macroTable (nodes : List Node) (name : String) :
    (macroTable nodes).lookup? name = (macrosOf nodes).reverse.find? (·.name = name) := by
  rw [macroTable, Table.ofEntries, Table.lookup?_putAll, Table.lookup?_nil, Option.or_none,
    List.filter_map, List.getLast?_map, Option.map_map, ← List.head?_reverse, ← List.filter_reverse,
    List.head?_filter]
  exact Option.map_id'

/-! ### First and last -/

section Ordered

variable {κ α β : Type} {before : κ → κ → Prop} {entries : List (κ × α)}

/-- In a list of entries in order, the first one that passes a test is the one before all others
that pass it. -/
theorem find?_map_snd_eq_some_iff {test : α → Bool} {value : α}
    (never : ∀ key other, before key other → ¬before other key)
    (ordered : (entries.map Prod.fst).Pairwise before) :
    (entries.map Prod.snd).find? test = some value ↔
      ∃ key, (key, value) ∈ entries ∧ test value = true ∧
        ∀ other found, (other, found) ∈ entries → test found = true → ¬before other key := by
  induction entries with
  | nil => simp
  | cons entry rest inductionHypothesis =>
      obtain ⟨key, here⟩ := entry
      obtain ⟨isFirst, ordered⟩ := List.pairwise_cons.mp ordered
      have comesFirst {other : κ} {found : α} (member : (other, found) ∈ rest) : before key other :=
        isFirst other (List.mem_map_of_mem member)
      rw [List.map_cons]
      cases passes : test here with
      | true =>
          -- the head is found, and the entries behind it are behind it in the order too
          rw [List.find?_cons_of_pos passes, Option.some.injEq]
          constructor
          · rintro rfl
            refine ⟨key, List.mem_cons_self, passes, fun other found member _ => ?_⟩
            rcases List.mem_cons.mp member with isSame | isBehind
            · obtain ⟨rfl, rfl⟩ := Prod.mk.inj isSame
              exact fun isBefore => never _ _ isBefore isBefore
            · exact never _ _ (comesFirst isBehind)
          · rintro ⟨other, member, -, isLeast⟩
            rcases List.mem_cons.mp member with isSame | isBehind
            · exact (Prod.mk.inj isSame).2.symm
            · exact absurd (comesFirst isBehind) (isLeast key here List.mem_cons_self passes)
      | false =>
          -- the head can neither be found nor come before what is found
          have fails : ¬test here = true := by
            rw [passes]
            exact Bool.false_ne_true
          rw [List.find?_cons_of_neg fails, inductionHypothesis ordered]
          have isBehind {other : κ} {found : α} (passes : test found = true) :
              (other, found) ∈ (key, here) :: rest ↔ (other, found) ∈ rest := by
            refine List.mem_cons.trans (or_iff_right fun isSame => ?_)
            exact fails ((Prod.mk.inj isSame).2 ▸ passes)
          constructor
          · rintro ⟨other, member, passes, isLeast⟩
            refine ⟨other, (isBehind passes).mpr member, passes, fun next found member passes => ?_⟩
            exact isLeast next found ((isBehind passes).mp member) passes
          · rintro ⟨other, member, passes, isLeast⟩
            refine ⟨other, (isBehind passes).mp member, passes, fun next found member passes => ?_⟩
            exact isLeast next found ((isBehind passes).mpr member) passes

/-- The same for entries of one kind, picked out of a list of entries. -/
theorem find?_filterMap_eq_some_iff {pick : α → Option β} (wrap : β → α)
    (picks : ∀ entry value, pick entry = some value ↔ entry = wrap value) {test : β → Bool}
    {value : β} (never : ∀ key other, before key other → ¬before other key)
    (ordered : (entries.map Prod.fst).Pairwise before) :
    ((entries.map Prod.snd).filterMap pick).find? test = some value ↔
      ∃ key, (key, wrap value) ∈ entries ∧ test value = true ∧
        ∀ other found, (other, wrap found) ∈ entries → test found = true → ¬before other key := by
  have picked (value : β) : pick (wrap value) = some value := (picks _ _).mpr rfl
  have isPicked : ((entries.map Prod.snd).filterMap pick).find? test = some value ↔
      (entries.map Prod.snd).find? (fun entry => (pick entry).any test) = some (wrap value) := by
    rw [List.find?_filterMap, Option.bind_eq_some_iff]
    constructor
    · rintro ⟨entry, isFirst, isPicked⟩
      rw [isFirst, (picks entry value).mp isPicked]
    · exact fun isFirst => ⟨wrap value, isFirst, picked value⟩
  rw [isPicked, find?_map_snd_eq_some_iff never ordered]
  refine exists_congr fun key => and_congr_right fun _ => ?_
  rw [picked, Option.any_some]
  refine and_congr_right fun _ => ⟨fun isLeast other found member passes => ?_, ?_⟩
  · refine isLeast other (wrap found) member ?_
    rw [picked, Option.any_some]
    exact passes
  · intro isLeast other entry member passes
    obtain ⟨found, isPicked, isPassed⟩ := (Option.any_eq_true ..).mp passes
    obtain rfl := (picks entry found).mp isPicked
    exact isLeast other found member isPassed

end Ordered

/-! ### Definitions of one kind -/

section Kind

variable {kind : Type} {wrap : kind → Definition} {title : kind → String}
  {pick : Definition → Option kind} {nodes : List Node} {name : String}

/-- Where the definitions of one kind and of a name stand in a body, outside all (other) macros. -/
def addressesOf (wrap : kind → Definition) (title : kind → String) (nodes : List Node)
    (name : String) : Set (List Nat) :=
  {address | ∃ found, DefinedAt nodes address (wrap found) ∧ title found = name}

theorem mem_addressesOf {address : List Nat} {found : kind} (isInjective : Function.Injective wrap)
    (isDefined : DefinedAt nodes address (wrap found)) :
    address ∈ addressesOf wrap title nodes name ↔ title found = name := by
  refine ⟨fun ⟨other, isOther, isNamed⟩ => ?_, fun isNamed => ⟨found, isDefined, isNamed⟩⟩
  rwa [isInjective (isDefined.unique isOther)]

/-- In a list of all definitions in order, the first one of a kind and a name stands before all
others of this kind and name. -/
theorem find?_definitions_eq_some_iff (wrap : kind → Definition)
    {before : List Nat → List Nat → Prop} {listed : List (List Nat × Definition)}
    (picks : ∀ definition found, pick definition = some found ↔ definition = wrap found)
    (never : ∀ address other, before address other → ¬before other address)
    (ordered : (listed.map Prod.fst).Pairwise before)
    (complete : ∀ address definition, (address, definition) ∈ listed ↔
      DefinedAt nodes address definition) {found : kind} :
    ((listed.map Prod.snd).filterMap pick).find? (title · = name) = some found ↔
      ∃ address, DefinedAt nodes address (wrap found) ∧
        address ∈ addressesOf wrap title nodes name ∧
        ∀ other ∈ addressesOf wrap title nodes name, ¬before other address := by
  have isInjective : Function.Injective wrap := fun found other same =>
    Option.some.inj (((picks _ found).mpr rfl).symm.trans ((picks _ other).mpr same))
  rw [find?_filterMap_eq_some_iff wrap picks never ordered]
  simp only [complete, decide_eq_true_eq]
  refine exists_congr fun address => and_congr_right fun isDefined => ?_
  refine and_congr (mem_addressesOf isInjective isDefined).symm ⟨fun isFirst other => ?_, ?_⟩
  · rintro ⟨found, isOther, isNamed⟩
    exact isFirst other found isOther isNamed
  · exact fun isFirst other found isOther isNamed => isFirst other ⟨found, isOther, isNamed⟩

theorem isSome_find?_definitions
    (picks : ∀ definition found, pick definition = some found ↔ definition = wrap found) :
    (((definitionsOfNodes nodes).filterMap pick).find? (title · = name)).isSome ↔
      (addressesOf wrap title nodes name).Nonempty := by
  rw [List.find?_isSome]
  simp only [decide_eq_true_eq, List.mem_filterMap, picks, exists_eq_right,
    mem_definitions_iff_definedAt]
  constructor
  · rintro ⟨found, ⟨address, isDefined⟩, isNamed⟩
    exact ⟨address, found, isDefined, isNamed⟩
  · rintro ⟨address, found, isDefined, isNamed⟩
    exact ⟨found, ⟨address, isDefined⟩, isNamed⟩

/-- A body that makes all definitions of another one has one of a kind and a name if the other one
has. -/
theorem nonempty_addressesOf_mono {body : List Node}
    (areInside : definitionsOfNodes body ⊆ definitionsOfNodes nodes)
    (isNonempty : (addressesOf wrap title body name).Nonempty) :
    (addressesOf wrap title nodes name).Nonempty := by
  obtain ⟨inner, found, isDefined, isNamed⟩ := isNonempty
  have member := mem_definitions_iff_definedAt.mpr ⟨inner, isDefined⟩
  obtain ⟨outer, isDefined⟩ := mem_definitions_iff_definedAt.mp (areInside member)
  exact ⟨outer, found, isDefined, isNamed⟩

end Kind

/-! ### What the tables hold -/

/-- Where the blocks of a name stand in a body, outside all macros. -/
def blockAddresses (nodes : List Node) (name : String) : Set (List Nat) :=
  addressesOf .block BlockDefinition.name nodes name

/-- Where the macros of a name stand in a body, outside all other macros. -/
def macroAddresses (nodes : List Node) (name : String) : Set (List Nat) :=
  addressesOf .macro_ MacroDefinition.name nodes name

variable {nodes : List Node} {name : String}

theorem has_blockTable_iff :
    (blockTable nodes).has name = true ↔ (blockAddresses nodes name).Nonempty := by
  rw [Table.has, lookup?_blockTable]
  refine isSome_find?_definitions fun definition found => ?_
  cases definition <;> simp

theorem has_macroTable_iff :
    (macroTable nodes).has name = true ↔ (macroAddresses nodes name).Nonempty := by
  rw [Table.has, lookup?_macroTable, List.find?_isSome]
  simp only [List.mem_reverse]
  rw [← List.find?_isSome]
  refine isSome_find?_definitions fun definition found => ?_
  cases definition <;> simp

/-- The table of blocks holds the block that stands before all others of its name. -/
theorem lookup?_blockTable_eq_some_iff {block : BlockDefinition} :
    (blockTable nodes).lookup? name = some block ↔
      ∃ address, DefinedAt nodes address (.block block) ∧
        IsLeast (blockAddresses nodes name) address := by
  obtain ⟨listed, areDefinitions, ordered, complete⟩ := exists_definedAt nodes
  rw [lookup?_blockTable, blocksOf, ← areDefinitions]
  refine (find?_definitions_eq_some_iff .block ?_ (fun _ _ => lt_asymm) ordered complete).trans ?_
  · intro definition found
    cases definition <;> simp
  · simp only [not_lt]
    exact Iff.rfl

/-- The table of macros holds the macro that stands behind all others of its name. -/
theorem lookup?_macroTable_eq_some_iff {definition : MacroDefinition} :
    (macroTable nodes).lookup? name = some definition ↔
      ∃ address, DefinedAt nodes address (.macro_ definition) ∧
        IsGreatest (macroAddresses nodes name) address := by
  obtain ⟨listed, areDefinitions, ordered, complete⟩ := exists_definedAt nodes
  have descending : (listed.reverse.map Prod.fst).Pairwise (· > ·) := by
    rw [List.map_reverse, List.pairwise_reverse]
    exact ordered
  have completeReversed (address : List Nat) (definition : Definition) :
      (address, definition) ∈ listed.reverse ↔ DefinedAt nodes address definition :=
    List.mem_reverse.trans (complete address definition)
  rw [lookup?_macroTable, macrosOf, ← List.filterMap_reverse, ← areDefinitions, ← List.map_reverse]
  refine (find?_definitions_eq_some_iff .macro_ ?_ (fun _ _ => lt_asymm) descending
    completeReversed).trans ?_
  · intro definition found
    cases definition <;> simp
  · simp only [not_lt]
    exact Iff.rfl

/-- The tables of a body are complete: they have exactly the names of the blocks and macros that
stand somewhere in the body outside all (other) macros, the table of blocks holds the first block of
each name, and the table of macros holds the last macro. So whatever a statement that is no macro
has in one of its bodies is found. -/
theorem tables_complete (nodes : List Node) (name : String) :
    ((blockTable nodes).has name = true ↔ (blockAddresses nodes name).Nonempty) ∧
      (∀ block, (blockTable nodes).lookup? name = some block ↔
        ∃ address, DefinedAt nodes address (.block block) ∧
          IsLeast (blockAddresses nodes name) address) ∧
      ((macroTable nodes).has name = true ↔ (macroAddresses nodes name).Nonempty) ∧
      (∀ definition, (macroTable nodes).lookup? name = some definition ↔
        ∃ address, DefinedAt nodes address (.macro_ definition) ∧
          IsGreatest (macroAddresses nodes name) address) ∧
      ∀ address node body, partAt? nodes address = some (.node node) →
        leadsThroughMacro nodes address = false → (Part.node node).isMacro = false →
        body ∈ node.bodies →
          ((blockTable body).has name = true → (blockTable nodes).has name = true) ∧
            ((macroTable body).has name = true → (macroTable nodes).has name = true) := by
  refine ⟨has_blockTable_iff, fun _ => lookup?_blockTable_eq_some_iff, has_macroTable_iff,
    fun _ => lookup?_macroTable_eq_some_iff, ?_⟩
  intro address node body isFound noMacro isOpen isBody
  have areInside := definitions_of_body_at isFound noMacro isOpen isBody
  rw [has_blockTable_iff, has_blockTable_iff, has_macroTable_iff, has_macroTable_iff]
  exact ⟨nonempty_addressesOf_mono areInside, nonempty_addressesOf_mono areInside⟩

/-- A choice whose first body is a macro with a block `b` in it, and whose other body has two blocks
`b` and another macro of the same name. -/
theorem tables_complete_choice :
    let hidden : Node := .block "b" [.text "hidden" default] default
    let first : BlockDefinition := ⟨"b", [.text "first" default], default⟩
    let last : MacroDefinition := ⟨"m", [], [], default⟩
    let other : List Node := [.block "b" first.body default, .block "b" [] default,
      .define "m" [] [] default]
    let choice : Node :=
      .choose [.mk default [.define "m" [] [hidden] default] default] (some other) default
    (∃ address, DefinedAt [choice] address (.block first) ∧
        IsLeast (blockAddresses [choice] "b") address) ∧
      (∃ address, DefinedAt [choice] address (.macro_ last) ∧
        IsGreatest (macroAddresses [choice] "m") address) ∧
      partAt? [choice] [0] = some (.node choice) ∧ (blockTable other).has "b" = true ∧
      (blockTable [choice]).has "b" = true := by
  intro hidden first last other choice
  obtain ⟨-, isFirst, -, -, inside⟩ := tables_complete [choice] "b"
  obtain ⟨-, -, -, isLast, -⟩ := tables_complete [choice] "m"
  have inOther : (blockTable other).has "b" = true := by decide
  refine ⟨(isFirst first).mp rfl, (isLast last).mp rfl, rfl, inOther, ?_⟩
  exact (inside [0] choice other rfl rfl rfl (List.mem_cons_of_mem _ List.mem_cons_self)).1 inOther

end Stencil.Host
