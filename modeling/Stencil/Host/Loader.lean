import Stencil.Value.Table

/-!
Contract: where the texts of templates come from.

Owns:
- loaders, which give the text of a template by name;
- why a text cannot be had, in words;
- templates held in memory.

Does not own: templates in files (`Stencil.Files.Loader`).
-/

set_option autoImplicit false

namespace Stencil.Host

/-- A file that is there and cannot be read. -/
structure ReadFault where
  path : String
  reason : String
deriving DecidableEq, Repr

/-- Why the text of a template cannot be had. -/
inductive LoadFault where
  | notFound (name : String)
  | invalidName (name : String)
  | noLoader
  | unreadable (fault : ReadFault)
deriving DecidableEq, Repr

namespace LoadFault

def message : LoadFault → String
  | .notFound name => "no template named '" ++ name ++ "'"
  | .invalidName name => "invalid template name '" ++ name ++ "'"
  | .noLoader => "no loader configured"
  | .unreadable fault => "failed to read '" ++ fault.path ++ "': " ++ fault.reason

/-- Whether the template is merely not there. -/
def isAbsence : LoadFault → Bool
  | .notFound _ => true
  | .noLoader => true
  | .invalidName _ => false
  | .unreadable _ => false

end LoadFault

/-- A loader gives texts by name. It may change its answers: they depend on the names that it was
asked for before, the latest first. -/
abbrev Loader := List String → String → Except LoadFault String

/-- A loader that never changes its answers. -/
def Loader.steady (answer : String → Except LoadFault String) : Loader := fun _ => answer

instance : Coe (String → Except LoadFault String) Loader := ⟨Loader.steady⟩

def Loader.ofTable (texts : Table String) : Loader := .steady fun name =>
  match texts.lookup? name with
  | some source => .ok source
  | none => .error (.notFound name)

end Stencil.Host
