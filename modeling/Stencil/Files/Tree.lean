import Stencil.Files.Path

/-!
Contract: files in directories.

Owns:
- the content of files, by the names that lead to them from the root;
- what is at a path;
- file systems, of which nothing is known but what looking at paths comes to.

Does not own: what the content means.
-/

set_option autoImplicit false

namespace Stencil.Files

/-- The names that lead to a file or directory from the root. -/
abbrev Location := List String

/-- Files by location. The directories are those that lead to files. -/
structure Tree where
  files : List (Location × ByteArray)

namespace Tree

def file? (tree : Tree) (location : Location) : Option ByteArray :=
  (tree.files.find? fun file => file.1 == location).map (·.2)

/-- Whether there is a directory at a location. -/
def isDirectory (tree : Tree) (location : Location) : Bool :=
  location.isEmpty ||
    tree.files.any fun file => location.isPrefixOf file.1 && location.length < file.1.length

/-- The location that a segment leads to. Nothing leads on from where there is no directory. -/
def enter? (tree : Tree) (location : Location) (segment : String) : Option Location :=
  if tree.isDirectory location then
    if segment = "" ∨ segment = "." then some location
    else if segment = ".." then some location.dropLast
    else some (location ++ [segment])
  else none

def follow? (tree : Tree) : Location → List String → Option Location
  | location, [] => some location
  | location, segment :: rest =>
      match tree.enter? location segment with
      | none => none
      | some next => tree.follow? next rest

def read? (tree : Tree) (path : String) : Option ByteArray :=
  (tree.follow? [] (segments path)).bind tree.file?

def hasDirectory (tree : Tree) (path : String) : Bool :=
  (tree.follow? [] (segments path)).any tree.isDirectory

end Tree

/-- A look-up of paths: where there is a file it gives what the file holds, or says why that cannot
be read. -/
structure FileSystem where
  file? : String → Option (Except String ByteArray)

/-- The files of a tree, all of which can be read. -/
def Tree.fileSystem (tree : Tree) : FileSystem := ⟨fun path => (tree.read? path).map .ok⟩

instance : Coe Tree FileSystem := ⟨Tree.fileSystem⟩

end Stencil.Files
