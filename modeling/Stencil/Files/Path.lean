/-!
Contract: paths, texts that name files and directories.

Owns:
- the segments between separators, and the components that they make up;
- the paths that lead down only, which alone can name templates.

Does not own: what is at a path (`Stencil.Files.Tree`).
-/

set_option autoImplicit false

namespace Stencil.Files

/-- The parts of a path between separators; there is one more of them than separators. -/
def split : List Char → List (List Char)
  | [] => [[]]
  | c :: rest =>
      if c = '/' then [] :: split rest
      else
        match split rest with
        | [] => [[c]]
        | first :: others => (c :: first) :: others

def segments (path : String) : List String := (split path.toList).map String.ofList

theorem split_ne_nil (path : List Char) : split path ≠ [] := by
  induction path with
  | nil => simp [split]
  | cons c rest inductionHypothesis =>
      unfold split
      split
      · simp
      · split <;> simp

inductive Component where
  /-- The root of all files. -/
  | root
  /-- The directory that the path starts from. -/
  | current
  /-- The directory around the one reached. -/
  | parent
  /-- A name in the directory reached. -/
  | normal (name : String)
deriving DecidableEq, Repr

/-- What a segment behind the first one stands for. Separators collapse, and a directory named from
inside itself is nothing new. -/
def componentOf? (segment : String) : Option Component :=
  if segment = "" ∨ segment = "." then none
  else if segment = ".." then some .parent
  else some (.normal segment)

/-- What the first segment of a path stands for; before the first separator, an empty one stands for
the root. -/
def firstComponent? (segment : String) (alone : Bool) : Option Component :=
  if segment = "" then (if alone then none else some .root)
  else if segment = "." then some .current
  else componentOf? segment

def components (path : String) : List Component :=
  match segments path with
  | [] => []
  | first :: rest => (firstComponent? first rest.isEmpty).toList ++ rest.filterMap componentOf?

/-- Whether a component leads to a name in the directory reached. -/
def Component.isNormal : Component → Bool
  | .normal _ => true
  | _ => false

/-- Whether a path leads down from directory to directory, and nowhere else. -/
def leadsDown (path : String) : Bool := path ≠ "" && (components path).all Component.isNormal

/-- Whether a path starts from the root of all files. -/
def isAbsolute (path : String) : Bool := path.toList.head? == some '/'

/-- A path that starts from a directory; an absolute one starts from the root all the same. A
separator is put in unless one ends the directory or there is nothing to separate. -/
def join (directory path : String) : String :=
  if isAbsolute path then path
  else if directory.toList.getLast?.all (· == '/') then directory ++ path
  else directory ++ "/" ++ path

end Stencil.Files
