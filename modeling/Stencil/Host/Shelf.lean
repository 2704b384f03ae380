import Stencil.Host.Environment
import Stencil.Syntax.Definitions

/-!
Contract: templates that have been loaded and parsed.

Owns:
- loaded templates with the blocks and macros they define;
- the shelf they stand on: a template is loaded once, and what cannot be loaded is not kept;
- the record of what loaders were asked for.

Does not own: when templates are needed (`Stencil.Render`).
-/

set_option autoImplicit false

namespace Stencil.Host

open Stencil.Report (Diagnostic)
open Stencil.Syntax (BlockDefinition MacroDefinition Node Template)

/-- The blocks of a template by name; the first one of a name counts. -/
def blockTable (nodes : List Node) : Table BlockDefinition :=
  (Syntax.blocksOf nodes).foldl
    (fun table block => if table.has block.name then table else table.put block.name block) []

/-- The macros of a template by name; the last one of a name counts. -/
def macroTable (nodes : List Node) : Table MacroDefinition :=
  .ofEntries ((Syntax.macrosOf nodes).map fun definition => (definition.name, definition))

/-- A template with its text and what was wrong with it. -/
structure Loaded where
  name : String
  source : String
  template : Template
  problems : List Diagnostic

def Loaded.blocks (loaded : Loaded) : Table BlockDefinition := blockTable loaded.template.body

def Loaded.macros (loaded : Loaded) : Table MacroDefinition := macroTable loaded.template.body

/-- The loaded templates by name, and the names that loaders were asked for, the latest first. -/
structure Shelf where
  templates : Table Loaded
  asked : List String

namespace Shelf

def empty : Shelf := ⟨[], []⟩

instance : Inhabited Shelf := ⟨empty⟩

def size (shelf : Shelf) : Nat := shelf.templates.length

def has (shelf : Shelf) (name : String) : Bool := shelf.templates.has name

/-- The template a text forms, as it stands on a shelf. -/
def loaded (environment : Environment) (name source : String) : Loaded :=
  let parsed := environment.parse name source
  ⟨name, source, parsed.template, parsed.problems⟩

/-- Takes a template from the shelf, or loads it and puts it there. -/
def fetch (environment : Environment) (name : String) (shelf : Shelf) :
    Except LoadFault Loaded × Shelf :=
  match shelf.templates.lookup? name with
  | some found => (.ok found, shelf)
  | none =>
      match environment.loader? with
      | none => (.error .noLoader, shelf)
      | some loader =>
          let asked := name :: shelf.asked
          match loader shelf.asked name with
          | .error fault => (.error fault, { shelf with asked := asked })
          | .ok source =>
              let new := loaded environment name source
              (.ok new, ⟨shelf.templates.put name new, asked⟩)

end Shelf

end Stencil.Host
