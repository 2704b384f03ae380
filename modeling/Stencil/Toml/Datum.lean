import Stencil.Value.Table

/-!
Contract: the data of TOML documents.

Owns:
- data and their tables.

Dates and times are kept as texts.

Does not own: how data are written (`Stencil.Toml.Scalar`, `Stencil.Toml.Document`).
-/

set_option autoImplicit false

namespace Stencil.Toml

inductive Datum where
  | text (value : String)
  | int (value : Int)
  | float (value : Float)
  | bool (value : Bool)
  | list (items : List Datum)
  | table (entries : List (String × Datum))

namespace Datum

instance : Inhabited Datum := ⟨.table []⟩

def entries? : Datum → Option (Table Datum)
  | .table entries => some entries
  | _ => none

def entry? (datum : Datum) (key : String) : Option Datum :=
  datum.entries?.bind fun entries => Table.lookup? entries key

end Datum

end Stencil.Toml
