import Stencil.Report.Diagnostic

/-!
Contract: which problems are shown, and how serious they count.

Owns:
- a table from label patterns to a severity or to silence;
- the choice of the entry for a label, and its effect on a list of diagnostics.

Does not own: the file format in which a table is written (`Stencil.Settings`).
-/

set_option autoImplicit false

namespace Stencil.Report

/-- What a table says about a kind of problem. -/
inductive Ruling where
  | off
  | shown (severity : Severity)
deriving DecidableEq, Repr

namespace Ruling

/-- The ruling that a word of a settings file stands for. -/
def ofWord? : String → Option Ruling
  | "off" => some .off
  | "error" => some (.shown .error)
  | "warning" => some (.shown .warning)
  | "info" => some (.shown .info)
  | _ => none

end Ruling

/-- A table of rulings; each pattern speaks for the labels that begin with it. -/
structure Policy where
  entries : List (String × Ruling)
deriving DecidableEq, Repr

namespace Policy

/-- The table that leaves everything as it is. -/
def empty : Policy := ⟨[]⟩

instance : Inhabited Policy := ⟨empty⟩

/-- Whether the first text begins the second, letter case of ASCII letters aside. -/
def begins : List Char → List Char → Bool
  | [], _ => true
  | _ :: _, [] => false
  | p :: pattern, c :: label => p.toLower == c.toLower && begins pattern label

def covers (pattern label : String) : Bool := begins pattern.toList label.toList

/-- Of two entries the one with the longer pattern; the second one on a tie. -/
def longer (best entry : String × Ruling) : String × Ruling :=
  if entry.1.utf8ByteSize < best.1.utf8ByteSize then best else entry

/-- The entry with the longest pattern that speaks for a label. -/
def entryFor? (policy : Policy) (label : String) : Option (String × Ruling) :=
  (policy.entries.filter fun entry => covers entry.1 label).foldl
    (fun best entry => some (match best with
      | none => entry
      | some best => longer best entry))
    none

def rulingFor? (policy : Policy) (label : String) : Option Ruling :=
  (policy.entryFor? label).map (·.2)

/-- Whether problems with the label are shown. -/
def shows (policy : Policy) (label : String) : Bool :=
  policy.rulingFor? label != some .off

/-- One diagnostic under the table: dropped, regraded or left alone. -/
def applyOne (policy : Policy) (diagnostic : Diagnostic) : Option Diagnostic :=
  match policy.rulingFor? diagnostic.code.label with
  | none => some diagnostic
  | some .off => none
  | some (.shown severity) => some (diagnostic.withSeverity severity)

/-- The diagnostics under the table, in their order. -/
def apply (policy : Policy) (diagnostics : List Diagnostic) : List Diagnostic :=
  diagnostics.filterMap policy.applyOne

end Policy

end Stencil.Report
