import Stencil.Files.Loader
import Stencil.Host.Environment
import Stencil.Settings.Basic
import Stencil.Toml.Document

/-!
Contract: the settings of a project from its files.

Owns:
- the files that settings are read from, and which of them win;
- why settings cannot be read, in words;
- the environment that settings describe.

Does not own: what the entries of the files mean (`Stencil.Settings.Basic`).
-/

set_option autoImplicit false

namespace Stencil.Settings

open Stencil.Files (Tree isAbsolute join)
open Stencil.Host (Environment)
open Stencil.Toml (Datum)

inductive LoadFault where
  /-- A file is malformed, or an entry is of the wrong kind. -/
  | config
  /-- The project's description is there and cannot be read. -/
  | descriptionUnreadable
  /-- The project's description is malformed. -/
  | descriptionMalformed
deriving DecidableEq, Repr

def LoadFault.message : LoadFault → String
  | .config => "Configuration build/deserialize error"
  | .descriptionUnreadable => "Failed to read pyproject.toml"
  | .descriptionMalformed => "Failed to parse pyproject.toml TOML"

/-- The documents at a path: one if there is a file, and none otherwise. A file whose name has the
ending twice stands in for a missing one. Before the document the file may have a mark of its own. -/
def documentAt (tree : Tree) (path : String) : Except LoadFault (List Datum) :=
  match (tree.read? path).orElse fun _ => tree.read? (path ++ ".toml") with
  | none => .ok []
  | some content =>
      match (String.fromUTF8? content).bind fun text => Toml.parse? (Toml.withoutMark text) with
      | some document => .ok [document]
      | none => .error .config

def sectionOf (description : Datum) : List Datum :=
  match (description.entry? "tool").bind fun tool => tool.entry? "jtl" with
  | some (.table entries) => [.table entries]
  | _ => []

/-- The documents in a project's description. -/
def descriptionAt (tree : Tree) (root : String) : Except LoadFault (List Datum) :=
  let path := join root "pyproject.toml"
  if tree.hasDirectory path then .error .descriptionUnreadable
  else
    match tree.read? path with
    | none => .ok []
    | some content =>
        match String.fromUTF8? content with
        | none => .error .descriptionUnreadable
        | some text =>
            match Toml.parse? text with
            | none => .error .descriptionMalformed
            | some description => .ok (sectionOf description)

/-- The settings of the project in a directory. The user's own file counts least, then the project's
description, then its hidden file, and its plain file most. -/
def load (tree : Tree) (root userFile : String) : Except LoadFault Settings := do
  let description ← descriptionAt tree root
  let user ← documentAt tree userFile
  let hidden ← documentAt tree (join root ".jtl.toml")
  let plain ← documentAt tree (join root "jtl.toml")
  match ofDatum? (merge (user ++ description ++ hidden ++ plain)) with
  | some settings => .ok settings
  | none => .error .config

/-- The directories of templates; those that are not absolute are in the project's directory. -/
def searchPath (settings : Settings) (root : String) : List String :=
  settings.directories.map (join root)

/-- The environment that settings describe. There is a loader if there are directories of
templates. -/
def environment (settings : Settings) (tree : Tree) (root : String) : Environment :=
  let plain : Environment :=
    { (Environment.empty.allowOverride settings.allowOverride) with
      strict := settings.strict, maxSteps := settings.maxSteps }
  if settings.directories.isEmpty then plain
  else plain.withLoader (Files.loader tree (settings.searchPath root))

end Stencil.Settings
