import Stencil.Report.Policy
import Stencil.Text.Position
import Mathlib.Data.List.Nodup
import Mathlib.Data.String.Basic

/-!
Contract: which ruling of a table counts, and what a table makes of a list of diagnostics.

Owns:
- texts without regard to letter case, and tables whose patterns differ in more than that;
- the longest pattern that begins a label, whose ruling counts whatever the order of the entries;
- the diagnostics that a table leaves, and that nothing changes when it is used on them again.

Does not own: where the entries of a table come from (`Stencil.Settings`).
-/

set_option autoImplicit false

namespace Stencil.Report

open Stencil.Text (byteLength)

/-- What becomes of the severity of a diagnostic under a ruling. -/
def Ruling.severity? : Ruling → Option Severity
  | .off => none
  | .shown severity => some severity

namespace Policy

variable {entries : List (String × Ruling)} {label : String}

/-! ### Letter case -/

/-- A text without regard to the case of ASCII letters. -/
def folded (text : String) : List Char := text.toList.map Char.toLower

theorem utf8Size_toLower (c : Char) : c.toLower.utf8Size = c.utf8Size := by
  unfold Char.toLower
  split
  · rename_i isUpper
    obtain ⟨low, high⟩ := isUpper
    have isZ : 'Z'.val.toNat = 90 := rfl
    have isDistance : ('a'.val - 'A'.val).toNat = 32 := rfl
    have isLimit : (127 : UInt32).toNat = 127 := rfl
    rw [UInt32.le_iff_toNat_le] at high
    have isOne : c.utf8Size = 1 := by
      rw [Char.utf8Size_eq_one_iff, UInt32.le_iff_toNat_le]
      omega
    rw [isOne, Char.utf8Size_eq_one_iff, UInt32.le_iff_toNat_le, UInt32.toNat_add]
    omega
  · rfl

/-- Folding the case of a text does not change how many bytes it takes. -/
theorem byteLength_folded (text : String) : byteLength (folded text) = text.utf8ByteSize := by
  have sizes : ∀ cs : List Char, byteLength (cs.map Char.toLower) = String.utf8Len cs := by
    intro cs
    induction cs with
    | nil => rfl
    | cons c rest inductionHypothesis =>
        rw [List.map_cons, Text.byteLength_cons, utf8Size_toLower, inductionHypothesis,
          String.utf8Len_cons, Nat.add_comm]
  rw [folded, sizes, ← String.utf8ByteSize_ofList, String.ofList_toList]

theorem begins_iff {pattern label : List Char} :
    begins pattern label = true ↔ pattern.map Char.toLower <+: label.map Char.toLower := by
  induction pattern generalizing label with
  | nil => simp [begins]
  | cons p pattern inductionHypothesis =>
      cases label with
      | nil => simp [begins]
      | cons c label =>
          rw [begins, Bool.and_eq_true, beq_iff_eq, inductionHypothesis, List.map_cons, List.map_cons,
            List.cons_prefix_cons]

/-- A pattern speaks for the labels that it begins, letter case aside. -/
theorem covers_iff {pattern : String} :
    covers pattern label = true ↔ folded pattern <+: folded label :=
  begins_iff

/-- Of the patterns that begin one label, those of equal length differ in letter case at most. -/
theorem folded_eq_of_size {pattern other : String} (begins : folded pattern <+: folded label)
    (otherBegins : folded other <+: folded label)
    (sameSize : other.utf8ByteSize = pattern.utf8ByteSize) : folded other = folded pattern := by
  rw [← byteLength_folded, ← byteLength_folded] at sameSize
  have noLonger : ∀ {short long : List Char}, short <+: long → byteLength long = byteLength short →
      long = short := by
    rintro short _ ⟨rest, rfl⟩ same
    cases rest with
    | nil => exact List.append_nil short
    | cons c rest =>
        have positive : 0 < c.utf8Size := Char.utf8Size_pos c
        rw [Text.byteLength_append, Text.byteLength_cons] at same
        omega
  rcases List.prefix_or_prefix_of_prefix begins otherBegins with isBefore | isBefore
  · exact noLonger isBefore sameSize
  · exact (noLonger isBefore sameSize.symm).symm

/-- Whether no two patterns of a table are the same but for letter case. -/
def Unambiguous (entries : List (String × Ruling)) : Prop :=
  (entries.map fun entry => folded entry.1).Nodup

instance (entries : List (String × Ruling)) : Decidable (Unambiguous entries) := by
  unfold Unambiguous
  infer_instance

/-! ### The longest pattern -/

/-- Whether an entry of a table speaks for a label, and has a longer pattern than all others that
do. -/
structure IsLongest (entries : List (String × Ruling)) (label : String) (entry : String × Ruling) :
    Prop where
  member : entry ∈ entries
  begins : folded entry.1 <+: folded label
  longest : ∀ other ∈ entries, folded other.1 <+: folded label → other ≠ entry →
    other.1.utf8ByteSize < entry.1.utf8ByteSize

theorem longer_eq_or (best entry : String × Ruling) :
    longer best entry = best ∨ longer best entry = entry := by
  unfold longer
  split
  · exact .inl rfl
  · exact .inr rfl

theorem size_le_longer (best entry : String × Ruling) :
    best.1.utf8ByteSize ≤ (longer best entry).1.utf8ByteSize ∧
      entry.1.utf8ByteSize ≤ (longer best entry).1.utf8ByteSize := by
  unfold longer
  split <;> omega

/-- Going through entries keeps one of them, and none of them has a longer pattern. -/
theorem foldl_longer (best : String × Ruling) (rest : List (String × Ruling)) :
    rest.foldl longer best ∈ best :: rest ∧
      ∀ other ∈ best :: rest, other.1.utf8ByteSize ≤ (rest.foldl longer best).1.utf8ByteSize := by
  induction rest generalizing best with
  | nil => simp
  | cons entry rest inductionHypothesis =>
      obtain ⟨member, longest⟩ := inductionHypothesis (longer best entry)
      have sizes := size_le_longer best entry
      have isLongest := longest _ List.mem_cons_self
      rw [List.foldl_cons]
      constructor
      · rcases List.mem_cons.mp member with same | member
        · rw [same]
          rcases longer_eq_or best entry with same | same <;> simp [same]
        · simp [member]
      · intro other isOther
        rcases List.mem_cons.mp isOther with rfl | isOther
        · exact Nat.le_trans sizes.1 isLongest
        · rcases List.mem_cons.mp isOther with rfl | isOther
          · exact Nat.le_trans sizes.2 isLongest
          · exact longest other (List.mem_cons_of_mem _ isOther)

/-- A fold that begins with nothing and keeps something from its first step on. -/
theorem foldl_some {α : Type} {keep : Option α → α → Option α} {choose : α → α → α}
    (isChoice : ∀ best entry, keep (some best) entry = some (choose best entry)) (best : α)
    (rest : List α) : rest.foldl keep (some best) = some (rest.foldl choose best) := by
  induction rest generalizing best with
  | nil => rfl
  | cons entry rest inductionHypothesis =>
      rw [List.foldl_cons, isChoice, inductionHypothesis, List.foldl_cons]

/-- Where patterns begin the label, the entry that counts is the longest of them. -/
theorem entryFor?_of_cons {policy : Policy} {first : String × Ruling}
    {rest : List (String × Ruling)}
    (areCandidates : policy.entries.filter (fun entry => covers entry.1 label) = first :: rest) :
    policy.entryFor? label = some (rest.foldl longer first) := by
  rw [entryFor?, areCandidates]
  exact foldl_some (fun _ _ => rfl) first rest

theorem mem_candidates {policy : Policy} {entry : String × Ruling} :
    entry ∈ policy.entries.filter (fun entry => covers entry.1 label) ↔
      entry ∈ policy.entries ∧ folded entry.1 <+: folded label := by
  rw [List.mem_filter, covers_iff]

theorem entryFor?_eq_none_iff (policy : Policy) (label : String) :
    policy.entryFor? label = none ↔ ∀ entry ∈ policy.entries, ¬folded entry.1 <+: folded label := by
  have isNil : (policy.entries.filter fun entry => covers entry.1 label) = [] ↔
      ∀ entry ∈ policy.entries, ¬folded entry.1 <+: folded label := by
    simp only [List.filter_eq_nil_iff, covers_iff]
  rw [← isNil]
  cases areCandidates : policy.entries.filter fun entry => covers entry.1 label with
  | nil => simp [entryFor?, areCandidates]
  | cons first rest => simp [entryFor?_of_cons areCandidates]

theorem longest_of_entryFor? {policy : Policy} {entry : String × Ruling}
    (isEntry : policy.entryFor? label = some entry) :
    entry ∈ policy.entries ∧ folded entry.1 <+: folded label ∧
      ∀ other ∈ policy.entries, folded other.1 <+: folded label →
        other.1.utf8ByteSize ≤ entry.1.utf8ByteSize := by
  cases areCandidates : policy.entries.filter fun entry => covers entry.1 label with
  | nil => simp [entryFor?, areCandidates] at isEntry
  | cons first rest =>
      cases (entryFor?_of_cons areCandidates).symm.trans isEntry
      obtain ⟨member, longest⟩ := foldl_longer first rest
      rw [← areCandidates] at member longest
      obtain ⟨isThere, begins⟩ := mem_candidates.mp member
      refine ⟨isThere, begins, fun other isOther otherBegins => ?_⟩
      exact longest other (mem_candidates.mpr ⟨isOther, otherBegins⟩)

/-- In a table without ambiguity the entry that counts is the one with the longest pattern. -/
theorem entryFor?_eq_some_iff {policy : Policy} (distinct : Unambiguous policy.entries)
    (entry : String × Ruling) :
    policy.entryFor? label = some entry ↔ IsLongest policy.entries label entry := by
  constructor
  · intro isEntry
    obtain ⟨member, begins, longest⟩ := longest_of_entryFor? isEntry
    refine ⟨member, begins, fun other isOther otherBegins isDifferent => ?_⟩
    apply Nat.lt_of_le_of_ne (longest other isOther otherBegins)
    intro sameSize
    apply isDifferent
    exact List.inj_on_of_nodup_map distinct isOther member
      (folded_eq_of_size begins otherBegins sameSize)
  · intro isLongest
    cases isEntry : policy.entryFor? label with
    | none =>
        have noEntry := (entryFor?_eq_none_iff policy label).mp isEntry
        exact absurd isLongest.begins (noEntry entry isLongest.member)
    | some other =>
        obtain ⟨member, begins, longest⟩ := longest_of_entryFor? isEntry
        by_cases isSame : other = entry
        · rw [isSame]
        · have shorter := isLongest.longest other member begins isSame
          have noShorter := longest entry isLongest.member isLongest.begins
          omega

/-- The entry that counts does not depend on the order of the entries. -/
theorem entryFor?_eq_of_perm {order : List (String × Ruling)} (distinct : Unambiguous entries)
    (isOrder : order.Perm entries) :
    (Policy.mk order).entryFor? label = (Policy.mk entries).entryFor? label := by
  have distinctOrder : Unambiguous order := (isOrder.map _).nodup_iff.mpr distinct
  have sameLongest (entry : String × Ruling) :
      IsLongest order label entry ↔ IsLongest entries label entry := by
    constructor
    · intro isLongest
      exact ⟨isOrder.mem_iff.mp isLongest.member, isLongest.begins,
        fun other isOther => isLongest.longest other (isOrder.mem_iff.mpr isOther)⟩
    · intro isLongest
      exact ⟨isOrder.mem_iff.mpr isLongest.member, isLongest.begins,
        fun other isOther => isLongest.longest other (isOrder.mem_iff.mp isOther)⟩
  apply Option.ext
  intro entry
  rw [entryFor?_eq_some_iff distinctOrder, entryFor?_eq_some_iff distinct]
  exact sameLongest entry

/-! ### Diagnostics -/

/-- A diagnostic with the severity of the ruling for its label, if that has one. -/
def regraded (policy : Policy) (diagnostic : Diagnostic) : Diagnostic :=
  { diagnostic with severity :=
      ((policy.rulingFor? diagnostic.code.label).bind Ruling.severity?).getD diagnostic.severity }

theorem applyOne_eq (policy : Policy) (diagnostic : Diagnostic) :
    policy.applyOne diagnostic =
      if policy.shows diagnostic.code.label then some (policy.regraded diagnostic) else none := by
  unfold applyOne shows regraded
  cases policy.rulingFor? diagnostic.code.label with
  | none => rfl
  | some ruling => cases ruling <;> rfl

theorem apply_eq (policy : Policy) (diagnostics : List Diagnostic) :
    policy.apply diagnostics =
      (diagnostics.filter fun diagnostic => policy.shows diagnostic.code.label).map
        policy.regraded := by
  induction diagnostics with
  | nil => rfl
  | cons diagnostic rest inductionHypothesis =>
      rw [apply] at inductionHypothesis ⊢
      rw [List.filterMap_cons, List.filter_cons, applyOne_eq, inductionHypothesis]
      split <;> simp_all

/-- What is regraded has its code, and regrading it again changes nothing. -/
theorem regraded_regraded (policy : Policy) (diagnostic : Diagnostic) :
    policy.regraded (policy.regraded diagnostic) = policy.regraded diagnostic := by
  unfold regraded
  cases (policy.rulingFor? diagnostic.code.label).bind Ruling.severity? <;> rfl

theorem apply_apply (policy : Policy) (diagnostics : List Diagnostic) :
    policy.apply (policy.apply diagnostics) = policy.apply diagnostics := by
  rw [apply, apply, List.filterMap_filterMap]
  congr 1
  funext diagnostic
  rw [applyOne_eq]
  split
  · rename_i isShown
    have stays : policy.shows (policy.regraded diagnostic).code.label = true := isShown
    rw [Option.bind_some, applyOne_eq, if_pos stays, regraded_regraded]
  · rfl

/-! ### Tables without ambiguity -/

/-- In a table whose patterns differ in more than letter case, the ruling for a label is that of the
longest pattern that begins it, letter case aside; where no pattern does, there is none. The order of
the entries has no influence. The table drops the diagnostics for which it says `off`, and leaves all
others in their order; of those it changes the severity, if it says one, and nothing else. To use it
again changes nothing. -/
theorem longest_pattern_rules {order : List (String × Ruling)} (distinct : Unambiguous entries)
    (isOrder : order.Perm entries) :
    let policy := Policy.mk order
    (∀ label ruling, policy.rulingFor? label = some ruling ↔
      ∃ pattern, IsLongest entries label (pattern, ruling)) ∧
    (∀ label, policy.rulingFor? label = none ↔
      ∀ entry ∈ entries, ¬folded entry.1 <+: folded label) ∧
    (∀ diagnostics, policy.apply diagnostics =
      (diagnostics.filter fun diagnostic =>
        policy.rulingFor? diagnostic.code.label != some .off).map policy.regraded) ∧
    (∀ diagnostics, policy.apply (policy.apply diagnostics) = policy.apply diagnostics) ∧
    ∀ diagnostics, policy.apply diagnostics = (Policy.mk entries).apply diagnostics := by
  intro policy
  have sameEntry (label : String) : policy.entryFor? label = (Policy.mk entries).entryFor? label :=
    entryFor?_eq_of_perm distinct isOrder
  have sameRuling : policy.rulingFor? = (Policy.mk entries).rulingFor? := by
    funext label
    rw [rulingFor?, rulingFor?, sameEntry]
  refine ⟨fun label ruling => ?_, fun label => ?_, policy.apply_eq, policy.apply_apply,
    fun diagnostics => ?_⟩
  · rw [rulingFor?, sameEntry, Option.map_eq_some_iff]
    constructor
    · rintro ⟨⟨pattern, _⟩, isEntry, rfl⟩
      exact ⟨pattern, (entryFor?_eq_some_iff distinct _).mp isEntry⟩
    · rintro ⟨pattern, isLongest⟩
      exact ⟨(pattern, ruling), (entryFor?_eq_some_iff distinct _).mpr isLongest, rfl⟩
  · rw [rulingFor?, sameEntry, Option.map_eq_none_iff, entryFor?_eq_none_iff]
  · have sameOne : policy.applyOne = (Policy.mk entries).applyOne := by
      funext diagnostic
      rw [applyOne, applyOne, sameRuling]
    rw [apply, apply, sameOne]

/-- A pattern in small letters, one that begins every label, and one that is longer than a label. -/
theorem longest_pattern_rules_runtime :
    let entries := [("", Ruling.shown .info), ("r3", .off), ("R310x", .shown .error), ("Ř", .off)]
    let policy := Policy.mk entries.reverse
    Unambiguous entries ∧ entries.reverse.Perm entries ∧
      policy.rulingFor? "R310" = some .off ∧ policy.rulingFor? "P202" = some (.shown .info) ∧
      policy.apply [.new .templateCycle "" default, .new .missingEndTag "" default] =
        [(Diagnostic.new .missingEndTag "" default).withSeverity .info] := by
  intro entries policy
  have distinct : Unambiguous entries := by decide
  have isOrder : entries.reverse.Perm entries := entries.reverse_perm
  obtain ⟨isRuling, -, isApplied, -⟩ := longest_pattern_rules distinct isOrder
  have cycle : policy.rulingFor? "R310" = some .off :=
    (isRuling "R310" .off).mpr ⟨"r3", by decide, by decide, by decide⟩
  have ending : policy.rulingFor? "P202" = some (.shown .info) :=
    (isRuling "P202" (.shown .info)).mpr ⟨"", by decide, by decide, by decide⟩
  refine ⟨distinct, isOrder, cycle, ending, ?_⟩
  rw [isApplied]
  decide

end Policy

end Stencil.Report
