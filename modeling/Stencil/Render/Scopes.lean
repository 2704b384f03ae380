import Stencil.Value.Basic

/-!
Contract: the variables of a render, frame upon frame.

Owns:
- looking a name up from the innermost frame outwards;
- binding a name in the innermost frame, and changing a variable where it is bound;
- entering and leaving frames; the outermost frame is never left.

Does not own: the values of the environment, which lie beyond all frames
(`Stencil.Host.Environment`).
-/

set_option autoImplicit false

namespace Stencil.Render

/-- Frames of variables: the innermost one, and those around it from the inside out. -/
structure Scopes where
  inner : Table Value
  outer : List (Table Value)

namespace Scopes

def root (frame : Table Value) : Scopes := ⟨frame, []⟩

instance : Inhabited Scopes := ⟨root []⟩

def frames (scopes : Scopes) : List (Table Value) := scopes.inner :: scopes.outer

def depth (scopes : Scopes) : Nat := scopes.outer.length + 1

def push (scopes : Scopes) (frame : Table Value) : Scopes := ⟨frame, scopes.frames⟩

/-- Leaves the innermost frame; the outermost one stays. -/
def pop (scopes : Scopes) : Scopes :=
  match scopes.outer with
  | [] => scopes
  | frame :: rest => ⟨frame, rest⟩

def top? (scopes : Scopes) : Option (Table Value) :=
  if scopes.outer.isEmpty then none else some scopes.inner

/-- The value of a name in the innermost frame that binds it. -/
def lookup? (scopes : Scopes) (name : String) : Option Value :=
  scopes.frames.findSome? fun frame => Table.lookup? frame name

def has (scopes : Scopes) (name : String) : Bool := (scopes.lookup? name).isSome

def bind (scopes : Scopes) (name : String) (value : Value) : Scopes :=
  { scopes with inner := Table.put scopes.inner name value }

/-- Changes a variable in the innermost of the frames that binds it. -/
def replaceIn : List (Table Value) → String → Value → List (Table Value)
  | [], _, _ => []
  | frame :: rest, name, value =>
      if Table.has frame name then Table.put frame name value :: rest
      else frame :: replaceIn rest name value

/-- Changes a variable where it is bound; nothing happens if no frame binds it. -/
def replace (scopes : Scopes) (name : String) (value : Value) : Scopes :=
  if Table.has scopes.inner name then scopes.bind name value
  else { scopes with outer := replaceIn scopes.outer name value }

@[simp] theorem pop_push (scopes : Scopes) (frame : Table Value) :
    (scopes.push frame).pop = scopes := rfl

@[simp] theorem depth_push (scopes : Scopes) (frame : Table Value) :
    (scopes.push frame).depth = scopes.depth + 1 := rfl

@[simp] theorem depth_bind (scopes : Scopes) (name : String) (value : Value) :
    (scopes.bind name value).depth = scopes.depth := rfl

theorem depth_pop {scopes : Scopes} (isInside : 1 < scopes.depth) :
    scopes.pop.depth + 1 = scopes.depth := by
  obtain ⟨inner, outer⟩ := scopes
  cases outer with
  | nil => simp [depth] at isInside
  | cons frame rest => rfl

theorem length_replaceIn (frames : List (Table Value)) (name : String) (value : Value) :
    (replaceIn frames name value).length = frames.length := by
  induction frames with
  | nil => rfl
  | cons frame rest inductionHypothesis =>
      unfold replaceIn
      split <;> simp [inductionHypothesis]

@[simp] theorem depth_replace (scopes : Scopes) (name : String) (value : Value) :
    (scopes.replace name value).depth = scopes.depth := by
  unfold replace
  split
  · rfl
  · simp [depth, length_replaceIn]

theorem lookup?_bind_self (scopes : Scopes) (name : String) (value : Value) :
    (scopes.bind name value).lookup? name = some value := by
  simp [lookup?, bind, frames, Table.lookup?_put_self]

end Scopes

end Stencil.Render
