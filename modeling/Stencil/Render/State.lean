import Stencil.Host.Shelf
import Stencil.Render.Scopes

/-!
Contract: the state of a render.

Owns:
- where a render stands: the templates, blocks and macros it is inside of;
- what its course depends on, and the ledger that nothing in a template can see;
- the names of reports: one that arises outside the first template carries the name of its own.

All stacks have their innermost entry first.

Does not own: how the state changes (`Stencil.Render.Action`).
-/

set_option autoImplicit false

namespace Stencil.Render

open Stencil.Host (Shelf)
open Stencil.Report (Diagnostic)
open Stencil.Syntax (BlockDefinition MacroDefinition Node Param)

/-- A macro with the macros of the template that defines it. -/
structure Macro where
  definition : MacroDefinition
  home : Table MacroDefinition

/-- What a call block hands to the macro it calls. -/
inductive Caller where
  /-- A body without parameters, rendered beforehand. -/
  | rendered (text : String)
  /-- A body with parameters, rendered whenever the macro asks for it. -/
  | deferred (params : List Param) (body : List Node)

/-- A definition of a block, with the template it stands in. -/
structure Level where
  body : List Node
  template : String

/-- The definitions of blocks by name, the one that replaces all others first. -/
abbrev Overrides := Table (List Level)

/-- Adds the blocks of a template behind all that replace them. -/
def Overrides.add (overrides : Overrides) (template : String) (blocks : Table BlockDefinition) :
    Overrides :=
  blocks.foldl (fun table entry =>
    table.put entry.1 ((table.lookup? entry.1).getD [] ++ [⟨entry.2.body, template⟩])) overrides

structure Place where
  /-- The templates that are being rendered. None of them can be entered again. -/
  loads : List String
  /-- The templates whose statements are being rendered; reports carry their names. -/
  templates : List String
  /-- The definitions of blocks that count here. -/
  overrides : Overrides
  /-- The blocks the render is inside of, each with the level of its definition. -/
  supers : List (String × Nat)
  /-- What the callers of the macros being rendered have handed them. -/
  callers : List (Option Caller)
  /-- The sister macros of the macros being rendered. -/
  homes : List (Table MacroDefinition)
  loopDepth : Nat
  callDepth : Nat

def Place.outside : Place := ⟨[], [], [], [], [], [], 0, 0⟩

structure View where
  scopes : Scopes
  /-- The macros that can be called by name. -/
  macros : Table Macro
  /-- The macros that can be called by name under another name. -/
  namespaces : Table (Table MacroDefinition)
  place : Place
  /-- Whether the render has run out of steps. -/
  halted : Bool

/-- The state of a render: what its course depends on, the steps it has taken, the templates it has
loaded, those whose problems it has reported, and all reports. -/
structure State extends View where
  steps : Nat
  shelf : Shelf
  reported : List String
  problems : Array Diagnostic

namespace State

def initial (context : Table Value) (shelf : Shelf) : State :=
  ⟨⟨.root context, [], [], .outside, false⟩, 0, shelf, [], #[]⟩

def ascribe (place : Place) (diagnostic : Diagnostic) : Diagnostic :=
  match place.templates.getLast?, place.templates.head? with
  | some first, some current =>
      if first = current then diagnostic else diagnostic.inTemplate current
  | _, _ => diagnostic

def report (state : State) (diagnostic : Diagnostic) : State :=
  { state with problems := state.problems.push (ascribe state.place diagnostic) }

/-- Reports what was wrong with a loaded template, if that was not done before. -/
def reportLoaded (state : State) (loaded : Host.Loaded) : State :=
  if loaded.name ∈ state.reported then state
  else { state with
    reported := loaded.name :: state.reported
    problems := state.problems ++ (loaded.problems.map (·.inTemplate loaded.name)).toArray }

end State

end Stencil.Render
