import Stencil.Toml.Datum

/-!
Contract: how the lines of a document add up to a table.

Owns:
- tables under construction, which remember how they came to be;
- headers, keys with dots, and the definitions that clash.

A table is defined once: by a header, by keys with dots inside the table around it, or all at once.
Headers of tables inside it may come earlier and later.

Does not own: how headers and keys are written (`Stencil.Toml.Document`).
-/

set_option autoImplicit false

namespace Stencil.Toml

inductive Origin where
  /-- By the header of a table inside it. -/
  | implied
  /-- By a header of its own. -/
  | header
  /-- By keys with dots. -/
  | dotted
deriving DecidableEq, Repr

/-- An entry under construction: a finished datum, a table, or a list of tables that headers
extend. -/
inductive Item where
  | datum (datum : Datum)
  | table (origin : Origin) (entries : List (String × Item))
  | tables (elements : List (List (String × Item)))

abbrev Entries := List (String × Item)

mutual

def Item.finish : Item → Datum
  | .datum value => value
  | .table _ entries => .table (finishEntries entries)
  | .tables elements => .list (finishElements elements)

def finishEntries : List (String × Item) → List (String × Datum)
  | [] => []
  | (key, item) :: rest => (key, item.finish) :: finishEntries rest

def finishElements : List (List (String × Item)) → List Datum
  | [] => []
  | entries :: rest => .table (finishEntries entries) :: finishElements rest

end

/-- Adds an entry under a key that may have dots. -/
def addEntry (entries : Entries) (path : List String) (value : Datum) : Option Entries :=
  match path with
  | [] => none
  | [key] => if Table.has entries key then none else some (Table.put entries key (.datum value))
  | key :: rest =>
      match Table.lookup? entries key with
      | none => (addEntry [] rest value).map fun inner =>
          Table.put entries key (.table .dotted inner)
      | some (.table .header _) => none
      | some (.table _ inner) => (addEntry inner rest value).map fun inner =>
          Table.put entries key (.table .dotted inner)
      | some _ => none

/-- Changes the table that keys lead to; of a list of tables it is the last one. Tables on the way
that are not there are implied. -/
def changeAt (change : Entries → Option Entries) (path : List String) (entries : Entries) :
    Option Entries :=
  match path with
  | [] => change entries
  | key :: rest =>
      match Table.lookup? entries key with
      | none => (changeAt change rest []).map fun inner =>
          Table.put entries key (.table .implied inner)
      | some (.table origin inner) => (changeAt change rest inner).map fun inner =>
          Table.put entries key (.table origin inner)
      | some (.tables elements) =>
          (changeAt change rest (elements.getLast?.getD [])).map fun inner =>
            Table.put entries key (.tables (elements.dropLast ++ [inner]))
      | some (.datum _) => none

def openTable (key : String) (entries : Entries) : Option Entries :=
  match Table.lookup? entries key with
  | none => some (Table.put entries key (.table .header []))
  | some (.table .implied inner) => some (Table.put entries key (.table .header inner))
  | some _ => none

def openElement (key : String) (entries : Entries) : Option Entries :=
  match Table.lookup? entries key with
  | none => some (Table.put entries key (.tables [[]]))
  | some (.tables elements) => some (Table.put entries key (.tables (elements ++ [[]])))
  | some _ => none

/-- Carries out a header: the keys before the last one lead to the table around the new one. -/
def openAt (isElement : Bool) (path : List String) (entries : Entries) : Option Entries :=
  match path.getLast? with
  | none => none
  | some key =>
      changeAt (if isElement then openElement key else openTable key) path.dropLast entries

end Stencil.Toml
