import Stencil.Report.Diagnostic

/-!
Contract: reports in the order of the text.

Owns:
- late reports, which are made at the end of something and point to its beginning;
- reports that are made on the way from one offset to another, each of them no earlier in the text
  than those before it unless it is late, and how such ways are put together.

Does not own: which reports the tokens and the grammar make (`Stencil.Token`, `Stencil.Grammar`).
-/

set_option autoImplicit false

namespace Stencil.Report

/-- Whether a report is made at the end of what it is about: a tag or a body that is never closed,
or a value in the place of a target. -/
def Diagnostic.IsLate (report : Diagnostic) : Prop :=
  report.code ∈ [.unterminatedExpression, .unterminatedBlock, .missingEndTag,
    .invalidAssignmentTarget]

instance (report : Diagnostic) : Decidable report.IsLate := by
  unfold Diagnostic.IsLate
  infer_instance

/-- Whether each report begins no earlier than those before it, unless it is late. -/
def InTextOrder (reports : List Diagnostic) : Prop :=
  reports.Pairwise fun earlier later =>
    later.IsLate ∨ earlier.span.start.offset ≤ later.span.start.offset

instance (reports : List Diagnostic) : Decidable (InTextOrder reports) := by
  unfold InTextOrder
  infer_instance

/-- Whether reports are made in order on the way from one offset to another. -/
structure InCourse (low high : Nat) (reports : List Diagnostic) : Prop where
  forward : low ≤ high
  ordered : InTextOrder reports
  low : ∀ report ∈ reports, report.IsLate ∨ low ≤ report.span.start.offset
  high : ∀ report ∈ reports, report.span.start.offset ≤ high

namespace InCourse

variable {low middle high : Nat} {reports others : List Diagnostic}

theorem none (forward : low ≤ high) : InCourse low high [] :=
  ⟨forward, .nil, List.forall_mem_nil _, List.forall_mem_nil _⟩

theorem one {report : Diagnostic} (forward : low ≤ high)
    (isLow : report.IsLate ∨ low ≤ report.span.start.offset)
    (isHigh : report.span.start.offset ≤ high) : InCourse low high [report] := by
  refine ⟨forward, List.pairwise_singleton _ _, ?_, ?_⟩
  · exact List.forall_mem_singleton.mpr isLow
  · exact List.forall_mem_singleton.mpr isHigh

/-- What is reported on the first part of the way, and then on the second part. -/
theorem append (first : InCourse low middle reports) (second : InCourse middle high others) :
    InCourse low high (reports ++ others) := by
  refine ⟨Nat.le_trans first.forward second.forward, ?_, ?_, ?_⟩
  · apply List.pairwise_append.mpr
    refine ⟨first.ordered, second.ordered, fun earlier isEarlier later isLater => ?_⟩
    apply (second.low later isLater).imp_right
    exact Nat.le_trans (first.high earlier isEarlier)
  · intro report member
    rcases List.mem_append.mp member with member | member
    · exact first.low report member
    · apply (second.low report member).imp_right
      exact Nat.le_trans first.forward
  · intro report member
    rcases List.mem_append.mp member with member | member
    · exact Nat.le_trans (first.high report member) second.forward
    · exact second.high report member

end InCourse

end Stencil.Report
