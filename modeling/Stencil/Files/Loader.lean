import Stencil.Files.Tree
import Stencil.Host.Loader

/-!
Contract: templates in files.

Owns:
- the names that can be those of templates;
- the search for a template in one directory after another.

Does not own: the files (`Stencil.Files.Tree`).
-/

set_option autoImplicit false

namespace Stencil.Files

open Stencil.Host (LoadFault)

/-- The paths at which a template is looked for. -/
def candidates (directories : List String) (name : String) : List String :=
  directories.map fun directory => join directory name

/-- The first path with a file, and what reading the file comes to. -/
def firstFile? (system : FileSystem) : List String → Option (String × Except String ByteArray)
  | [] => none
  | path :: rest =>
      match system.file? path with
      | some reading => some (path, reading)
      | none => firstFile? system rest

/-- The text that reading a file comes to, or why there is none. -/
def textOf : Except String ByteArray → Except String String
  | .error reason => .error reason
  | .ok content =>
      match String.fromUTF8? content with
      | some text => .ok text
      | none => .error "stream did not contain valid UTF-8"

/-- The loader of templates in directories. The first directory that has a file of the name
provides it, whether it can be read or not. -/
def loader (system : FileSystem) (directories : List String) (name : String) :
    Except LoadFault String :=
  if leadsDown name then
    match firstFile? system (candidates directories name) with
    | none => .error (.notFound name)
    | some (path, reading) =>
        match textOf reading with
        | .ok source => .ok source
        | .error reason => .error (.unreadable ⟨path, reason⟩)
  else .error (.invalidName name)

end Stencil.Files
