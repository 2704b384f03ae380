import Stencil.Host.Environment
import Stencil.Value.Display

/-!
Contract: what an environment shows of itself.

Owns:
- the text with its own registrations by name, whether it is built on another one, its values and
  settings;
- what it tells the scripts of tags.

Does not own: how values and registers of tags are shown (`Stencil.Value.Display`,
`Stencil.Grammar.Hook`).
-/

set_option autoImplicit false

namespace Stencil.Host

/-- The names of a table in ascending order, for looking at. -/
def describeNames {α : Type} (table : Table α) : String :=
  Text.bracketed ((table.names.mergeSort (· ≤ ·)).map Text.inspect)

def Strictness.describe (strict : Strictness) : String :=
  "StrictMode \x7b undefined: " ++ Text.inspectBool strict.undefined ++
    ", filters: " ++ Text.inspectBool strict.filters ++
    ", tests: " ++ Text.inspectBool strict.tests ++
    ", functions: " ++ Text.inspectBool strict.functions ++ " \x7d"

/-- A limit that may be missing, for looking at. -/
def describeLimit : Option Nat → String
  | none => "None"
  | some limit => "Some(" ++ toString limit ++ ")"

def Environment.describe (environment : Environment) : String :=
  "Environment \x7b parent: " ++ Text.inspectBool (!environment.inherited.isEmpty) ++
    ", filters: " ++ describeNames environment.own.filters ++
    ", tests: " ++ describeNames environment.own.tests ++
    ", functions: " ++ describeNames environment.own.functions ++
    ", tag_renderers: " ++ describeNames environment.own.renderers ++
    ", tags: " ++ environment.tags.describe ++
    ", loader: " ++ Text.inspectBool environment.own.loader.isSome ++
    ", globals: " ++ (Value.map environment.own.globals).inspect ++
    ", strict: " ++ environment.strict.describe ++
    ", max_steps: " ++ describeLimit environment.maxSteps ++ " \x7d"

def Environment.facade (environment : Environment) : Facade where
  toTerms := environment.toTerms
  filter? := environment.filter?
  test? := environment.test?
  function? := environment.function?
  hasRenderer name := (environment.renderer? name).isSome
  global? := environment.global?
  method? := environment.method?
  loader? := environment.loader?
  tags := environment.tags
  description := environment.describe

end Stencil.Host
