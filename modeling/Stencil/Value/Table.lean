/-!
Contract: tables, lists of named entries that keep the order in which names were first put in.

Owns:
- look-up, replacement in place, insertion at the end, and removal;
- what each of them does to the names.

Does not own: what a table holds.
-/

set_option autoImplicit false

namespace Stencil

/-- Named entries in order. Every operation here leaves at most one entry of a name if there was at
most one before. -/
abbrev Table (α : Type) := List (String × α)

namespace Table

variable {α : Type}

def names (table : Table α) : List String := table.map (·.1)

def lookup? : Table α → String → Option α
  | [], _ => none
  | (key, value) :: rest, name => if key = name then some value else lookup? rest name

def has (table : Table α) (name : String) : Bool := (lookup? table name).isSome

/-- Puts an entry in the place of the one of its name, or at the end. -/
def put : Table α → String → α → Table α
  | [], name, value => [(name, value)]
  | (key, old) :: rest, name, value =>
      if key = name then (key, value) :: rest else (key, old) :: put rest name value

/-- The table without the entry of a name; the others keep their order. -/
def without (table : Table α) (name : String) : Table α :=
  table.filter fun entry => entry.1 ≠ name

/-- Puts all entries of a second table into the first. -/
def putAll (table other : Table α) : Table α :=
  other.foldl (fun table entry => put table entry.1 entry.2) table

/-- The table of entries given one after another; a later one replaces an earlier one. -/
def ofEntries (entries : List (String × α)) : Table α := putAll [] entries

@[simp] theorem lookup?_nil (name : String) : lookup? ([] : Table α) name = none := rfl

theorem lookup?_put_self (table : Table α) (name : String) (value : α) :
    lookup? (put table name value) name = some value := by
  induction table with
  | nil => simp [put, lookup?]
  | cons entry rest inductionHypothesis =>
      obtain ⟨key, old⟩ := entry
      by_cases same : key = name <;> simp [put, lookup?, same, inductionHypothesis]

theorem lookup?_put_other (table : Table α) {name other : String} (value : α)
    (different : other ≠ name) : lookup? (put table name value) other = lookup? table other := by
  induction table with
  | nil => simp [put, lookup?, Ne.symm different]
  | cons entry rest inductionHypothesis =>
      obtain ⟨key, old⟩ := entry
      by_cases same : key = name
      · subst same
        simp [put, lookup?, Ne.symm different]
      · by_cases found : key = other
        · subst found
          simp [put, lookup?, same]
        · simp [put, lookup?, same, found, inductionHypothesis]

/-- Putting an entry keeps the names in order and adds its own at the end if it is new. -/
theorem names_put (table : Table α) (name : String) (value : α) :
    names (put table name value) =
      if name ∈ names table then names table else names table ++ [name] := by
  induction table with
  | nil => simp [put, names]
  | cons entry rest inductionHypothesis =>
      obtain ⟨key, old⟩ := entry
      by_cases same : key = name
      · simp [put, names, same]
      · simp only [names] at inductionHypothesis
        simp only [put, same, if_false, names, List.map_cons, List.mem_cons, inductionHypothesis]
        by_cases member : name ∈ List.map (·.1) rest
        · simp [member]
        · simp [member, Ne.symm same]

/-- Putting an entry keeps the names in order, whether or not its own is new. -/
theorem names_prefix_put (table : Table α) (name : String) (value : α) :
    names table <+: names (put table name value) := by
  rw [names_put]
  split
  · exact List.prefix_refl _
  · exact List.prefix_append _ _

end Table

end Stencil
