import Stencil.Grammar.Template
import Stencil.Host.Loader
import Stencil.Host.TagScript

/-!
Contract: what a host gives to all renders.

Owns:
- layers of filters, tests, functions, tag renderers, values and a loader, where the closest layer
  that has a name decides;
- the tags a host has added, the methods of its objects, and the settings of a render;
- environments built on one another.

Does not own: what a render does with them (`Stencil.Render`).
-/

set_option autoImplicit false

namespace Stencil.Host

open Stencil.Grammar (Parsed Register)

structure Layer where
  filters : Table Filter
  tests : Table Test
  functions : Table Function
  renderers : Table TagRenderer
  globals : Table Value
  loader : Option Loader

def Layer.empty : Layer := ⟨[], [], [], [], [], none⟩

/-- The registrations that a render sees: its own, those it inherits from the closest on, and the
methods of objects. -/
structure Registry where
  own : Layer
  inherited : List Layer
  methods : Table Method

namespace Registry

def layers (registry : Registry) : List Layer := registry.own :: registry.inherited

def filter? (registry : Registry) (name : String) : Option Filter :=
  registry.layers.findSome? fun layer => layer.filters.lookup? name

def test? (registry : Registry) (name : String) : Option Test :=
  registry.layers.findSome? fun layer => layer.tests.lookup? name

def function? (registry : Registry) (name : String) : Option Function :=
  registry.layers.findSome? fun layer => layer.functions.lookup? name

def renderer? (registry : Registry) (name : String) : Option TagRenderer :=
  registry.layers.findSome? fun layer => layer.renderers.lookup? name

def global? (registry : Registry) (name : String) : Option Value :=
  registry.layers.findSome? fun layer => layer.globals.lookup? name

def loader? (registry : Registry) : Option Loader :=
  registry.layers.findSome? fun layer => layer.loader

/-- The method of a name that a value answers to. -/
def method? (registry : Registry) (value : Value) (name : String) : Option Method :=
  match value with
  | .object _ _ _ methods _ _ _ => if name ∈ methods then registry.methods.lookup? name else none
  | _ => none

end Registry

/-- An environment: its registrations, the tags it adds to the language, and its settings. -/
structure Environment extends Registry, Terms where
  tags : Register

namespace Environment

/-- An environment without registrations that reports no failed look-up and never stops. -/
def empty : Environment := ⟨⟨.empty, [], []⟩, ⟨.none, none⟩, .empty⟩

instance : Inhabited Environment := ⟨empty⟩

/-- An environment built on another one. It sees the registrations of that one and starts with the
same tags and settings. -/
def child (environment : Environment) : Environment :=
  { environment with own := .empty, inherited := environment.layers }

def addFilter (environment : Environment) (name : String) (filter : Filter) : Environment :=
  { environment with
    own := { environment.own with filters := environment.own.filters.put name filter } }

def addTest (environment : Environment) (name : String) (test : Test) : Environment :=
  { environment with own := { environment.own with tests := environment.own.tests.put name test } }

def addFunction (environment : Environment) (name : String) (function : Function) : Environment :=
  { environment with
    own := { environment.own with functions := environment.own.functions.put name function } }

/-- Registers how tags of a name are rendered. -/
def addRenderer (environment : Environment) (name : String) (renderer : TagRenderer) :
    Environment :=
  { environment with
    own := { environment.own with renderers := environment.own.renderers.put name renderer } }

def addGlobal (environment : Environment) (name : String) (value : Value) : Environment :=
  { environment with
    own := { environment.own with globals := environment.own.globals.put name value } }

def addTag (environment : Environment) (name : String) (extension : Grammar.Extension) :
    Environment :=
  { environment with tags := environment.tags.insert name extension }

/-- Lets the added tags win over the tags of the language, or not. -/
def allowOverride (environment : Environment) (allow : Bool) : Environment :=
  { environment with tags := { environment.tags with allowOverride := allow } }

def withLoader (environment : Environment) (loader : Loader) : Environment :=
  { environment with own := { environment.own with loader := some loader } }

/-- The template that a text forms with the tags of the environment. -/
def parse (environment : Environment) (name source : String) : Parsed :=
  Grammar.parse environment.tags name source

end Environment

end Stencil.Host
