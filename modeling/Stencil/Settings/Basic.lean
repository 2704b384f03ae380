import Stencil.Decimal.Notation
import Stencil.Decimal.Reading
import Stencil.Host.TagScript
import Stencil.Report.Policy
import Stencil.Settings.Merge
import Stencil.Value.Display

/-!
Contract: the settings of a project.

Owns:
- settings and their defaults;
- reading them from a table, and which data stand for which settings.

Does not own: where the table comes from (`Stencil.Settings.Load`).
-/

set_option autoImplicit false

namespace Stencil

open Stencil.Host (Strictness)
open Stencil.Report (Policy Ruling)
open Stencil.Toml (Datum)

structure Settings where
  strict : Strictness
  allowOverride : Bool
  /-- The directories of templates, as they are written. -/
  directories : List String
  maxSteps : Option Nat
  policy : Policy

namespace Settings

/-- The settings unless something else is said. -/
def default : Settings := ⟨.none, false, [], none, .empty⟩

/-! ## Data as settings -/

def truthOfWord? (word : String) : Option Bool :=
  if word ∈ ["true", "1", "on", "yes"] then some true
  else if word ∈ ["false", "0", "off", "no"] then some false
  else none

def truth? : Datum → Option Bool
  | .bool value => some value
  | .int value => some (value != 0)
  | .float value => some (value != 0.0)
  | .text value => truthOfWord? value.toLower
  | .list _ => none
  | .table _ => none

def maxCount : Nat := Nat.pow 2 64 - 1

/-- The number that digits write, perhaps after a plus sign. -/
def countOfText? (text : List Char) : Option Nat :=
  let digits := match text with
    | '+' :: rest => rest
    | rest => rest
  (Decimal.natural? digits).bind fun value => if value ≤ maxCount then some value else none

def countOfWord? (word : String) : Option Nat :=
  let lower := word.toLower
  if lower ∈ ["true", "on", "yes"] then some 1
  else if lower ∈ ["false", "off", "no"] then some 0
  else countOfText? word.toList

/-- A datum as a natural number of 64 bits. A number with a fraction is rounded, and one out of
range counts as the nearest that is in range. -/
def count? : Datum → Option Nat
  | .int value => if 0 ≤ value then some value.toNat else none
  | .float value => some value.round.toUInt64.toNat
  | .bool value => some (if value then 1 else 0)
  | .text value => countOfWord? value
  | .list _ => none
  | .table _ => none

/-- A floating-point number as a text; whole numbers have no point. -/
def textOfFloat (value : Float) : String :=
  let text := (Value.printed.write value).toList
  String.ofList (if text.reverse.take 2 = ['0', '.'] then text.dropLast.dropLast else text)

def text? : Datum → Option String
  | .text value => some value
  | .int value => some (toString value)
  | .float value => some (textOfFloat value)
  | .bool value => some (Text.inspectBool value)
  | .list _ => none
  | .table _ => none

def texts? : Datum → Option (List String)
  | .list items => items.mapM text?
  | _ => none

/-- A datum as a ruling: a word, or a table with the word as its only key. -/
def ruling? : Datum → Option Ruling
  | .text word => Ruling.ofWord? word
  | .table [(word, _)] => Ruling.ofWord? word
  | _ => none

def rulings? (datum : Datum) : Option Policy := do
  let entries ← datum.entries?
  return ⟨← entries.mapM fun entry => return (entry.1, ← ruling? entry.2)⟩

/-- A datum as a policy: a table with a table of rulings, or a list that begins with one. -/
def policy? : Datum → Option Policy
  | .table entries =>
      match Table.lookup? entries "severity" with
      | some datum => rulings? datum
      | none => some .empty
  | .list (datum :: _) => rulings? datum
  | .list [] => some .empty
  | _ => none

/-! ## Tables as settings -/

/-- The setting under a key, or what is set unless something else is said. -/
def settingOr {α : Type} (table : Datum) (key : String) (read : Datum → Option α) (otherwise : α) :
    Option α :=
  match table.entry? key with
  | some datum => read datum
  | none => some otherwise

/-- The settings of a table; keys that are none of theirs do not matter. -/
def ofDatum? (table : Datum) : Option Settings := do
  let undefined ← settingOr table "strict_undefined" truth? false
  let filters ← settingOr table "strict_filters" truth? false
  let tests ← settingOr table "strict_tests" truth? false
  let functions ← settingOr table "strict_functions" truth? false
  let allowOverride ← settingOr table "allow_tag_override" truth? false
  let directories ← settingOr table "template_dirs" texts? []
  let maxSteps ← settingOr table "max_render_steps" (fun datum => (count? datum).map some) none
  let policy ← settingOr table "diagnostics" policy? .empty
  return ⟨⟨undefined, filters, tests, functions⟩, allowOverride, directories, maxSteps, policy⟩

end Settings

end Stencil
