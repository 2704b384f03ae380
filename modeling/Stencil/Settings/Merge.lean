import Stencil.Settings.Place

/-!
Contract: settings from several documents as one table.

Owns:
- laying one document over another, place by place.

Tables are laid over one another entry by entry. Anything else replaces what was there.

Does not own: the places that keys name (`Stencil.Settings.Place`), and which documents there are
and in which order (`Stencil.Settings.Load`).
-/

set_option autoImplicit false

namespace Stencil.Settings

open Stencil.Toml (Datum)

mutual

def lay (under : Datum) : Datum → Datum
  | .table entries => .table (layEntries (entriesOf under) entries)
  | .text value => .text value
  | .int value => .int value
  | .float value => .float value
  | .bool value => .bool value
  | .list items => .list items

/-- Entries laid over a table, one after another. -/
def layEntries (under : Table Datum) : List (String × Datum) → Table Datum
  | [] => under
  | (key, datum) :: rest =>
      let part := (Table.lookup? under key).getD gap
      layEntries (Table.put under key (lay part datum)) rest

end

/-- A document laid over settings. Its keys name places in them. -/
def layDocument (under : Datum) (document : Datum) : Datum :=
  (entriesOf document).foldl
    (fun under entry => changeAt (fun part => lay part entry.2) (stepsOf entry.1) under) under

/-- Documents laid over one another, the later ones on top. -/
def merge (documents : List Datum) : Datum := documents.foldl layDocument (.table [])

end Stencil.Settings
