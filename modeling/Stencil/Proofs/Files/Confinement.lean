import Stencil.Files.Loader

/-!
Contract: templates in files come from below the directories that are searched.

Owns:
- the segments of a path, by its text alone, and the names that cannot be those of templates;
- the place that the text of a path leads to, whatever files there are;
- a directory with a name behind it leads to a place strictly below that of the directory, and to
  files strictly below those that the directory leads to;
- the directory that provides a template.

Does not own: templates that are not in files (`Stencil.Host.Loader`).
-/

set_option autoImplicit false

namespace Stencil.Files

/-! ### Segments -/

/-- Whether a path is a segment, or begins with it and a separator. -/
def BeginsWithSegment (path segment : List Char) : Prop :=
  '/' ∉ segment ∧ (path = segment ∨ ∃ after, path = segment ++ '/' :: after)

/-- Whether a segment stands in a path, at its beginning or behind a separator. -/
def HasSegment (path segment : List Char) : Prop :=
  BeginsWithSegment path segment ∨
    ∃ before rest, path = before ++ '/' :: rest ∧ BeginsWithSegment rest segment

section Segments

variable {path segment : List Char}

theorem split_eq_splitOn (path : List Char) : split path = path.splitOn '/' := by
  induction path with
  | nil => rfl
  | cons c rest inductionHypothesis =>
      rw [split, List.splitOn_cons_eq_if_modifyHead, inductionHypothesis]
      by_cases isSeparator : c = '/'
      · simp [isSeparator]
      · cases areSegments : rest.splitOn '/' with
        | nil => exact absurd areSegments (List.splitOn_ne_nil _ _)
        | cons first others => simp [isSeparator]

theorem split_append (before rest : List Char) :
    split (before ++ '/' :: rest) = split before ++ split rest := by
  simp only [split_eq_splitOn, List.splitOn_append_cons_self]

theorem BeginsWithSegment.split_eq (begins : BeginsWithSegment path segment) :
    ∃ others, split path = segment :: others := by
  obtain ⟨plain, rfl | ⟨after, rfl⟩⟩ := begins
  · exact ⟨[], by rw [split_eq_splitOn, List.splitOn_eq_singleton plain]⟩
  · exact ⟨split after, by
      rw [split_append, split_eq_splitOn segment, List.splitOn_eq_singleton plain]
      rfl⟩

/-- A path is its first segment, or goes on behind a separator with the others. -/
theorem cut_first (path : List Char) :
    ('/' ∉ path ∧ split path = [path]) ∨
      ∃ first rest, '/' ∉ first ∧ path = first ++ '/' :: rest ∧
        split path = first :: split rest := by
  by_cases hasSeparator : '/' ∈ path
  · obtain ⟨first, rest, rfl, plain⟩ := List.eq_append_cons_of_mem hasSeparator
    refine .inr ⟨first, rest, plain, rfl, ?_⟩
    rw [split_append, split_eq_splitOn first, List.splitOn_eq_singleton plain]
    rfl
  · exact .inl ⟨hasSeparator, by rw [split_eq_splitOn, List.splitOn_eq_singleton hasSeparator]⟩

theorem head?_split : (split path).head? = some segment ↔ BeginsWithSegment path segment := by
  constructor
  · intro isHead
    rcases cut_first path with ⟨plain, isSplit⟩ | ⟨first, rest, plain, isPath, isSplit⟩
    · rw [isSplit] at isHead
      cases isHead
      exact ⟨plain, .inl rfl⟩
    · rw [isSplit] at isHead
      cases isHead
      exact ⟨plain, .inr ⟨rest, isPath⟩⟩
  · intro begins
    obtain ⟨others, isSplit⟩ := begins.split_eq
    rw [isSplit]
    rfl

theorem hasSegment_of_mem {path segment : List Char} (member : segment ∈ split path) :
    HasSegment path segment := by
  rcases cut_first path with ⟨plain, isSplit⟩ | ⟨first, rest, plain, isPath, isSplit⟩
  · rw [isSplit, List.mem_singleton] at member
    exact .inl ⟨member ▸ plain, .inl member.symm⟩
  · rw [isSplit, List.mem_cons] at member
    rcases member with rfl | member
    · exact .inl ⟨plain, .inr ⟨rest, isPath⟩⟩
    · rcases hasSegment_of_mem member with begins | ⟨before, behind, isRest, begins⟩
      · exact .inr ⟨first, rest, isPath, begins⟩
      · refine .inr ⟨first ++ '/' :: before, behind, ?_, begins⟩
        rw [isPath, isRest, List.append_assoc]
        rfl
termination_by path.length
decreasing_by
  rw [isPath, List.length_append, List.length_cons]
  omega

theorem mem_split : segment ∈ split path ↔ HasSegment path segment := by
  constructor
  · exact hasSegment_of_mem
  · rintro (begins | ⟨before, rest, rfl, begins⟩)
    · obtain ⟨others, isSplit⟩ := begins.split_eq
      simp [isSplit]
    · obtain ⟨others, isSplit⟩ := begins.split_eq
      simp [split_append, isSplit]

end Segments

theorem mem_segments {path : String} {segment : List Char} :
    String.ofList segment ∈ segments path ↔ HasSegment path.toList segment := by
  rw [segments, List.mem_map, ← mem_split]
  constructor
  · rintro ⟨other, member, same⟩
    exact String.ofList_injective same ▸ member
  · exact fun member => ⟨segment, member, rfl⟩

theorem head?_segments {path : String} {segment : List Char} :
    (segments path).head? = some (String.ofList segment) ↔
      BeginsWithSegment path.toList segment := by
  rw [segments, List.head?_map, ← head?_split, Option.map_eq_some_iff]
  constructor
  · rintro ⟨first, isFirst, same⟩
    exact String.ofList_injective same ▸ isFirst
  · exact fun isFirst => ⟨segment, isFirst, rfl⟩

theorem exists_segments (path : String) : ∃ first others, segments path = first :: others := by
  cases areSegments : segments path with
  | nil => exact absurd (List.map_eq_nil_iff.mp areSegments) (split_ne_nil _)
  | cons first others => exact ⟨first, others, rfl⟩

/-! ### Names of templates -/

/-- Whether a name cannot be that of a template. -/
inductive IsImproper (name : String) : Prop where
  | empty (isEmpty : name = "")
  /-- It starts from the root. -/
  | absolute (begins : ['/'] <+: name.toList)
  /-- It names the directory that it starts from. -/
  | current (begins : BeginsWithSegment name.toList ['.'])
  /-- It leads to the directory around the one reached. -/
  | parent (has : HasSegment name.toList ['.', '.'])

/-- The names of files and directories among segments. -/
def namesAmong (segments : List String) : List String :=
  segments.filter fun segment => segment ≠ "" ∧ segment ≠ "."

section Names

variable {name first : String} {others segs : List String}

/-- An empty segment comes first in an empty path and behind the root. -/
theorem head?_segments_empty :
    (segments name).head? = some "" ↔ name = "" ∨ ['/'] <+: name.toList := by
  have isHead : (segments name).head? = some (String.ofList []) ↔ _ := head?_segments
  rw [show "" = String.ofList [] from rfl, isHead, BeginsWithSegment]
  constructor
  · rintro ⟨-, isEmpty | ⟨after, isPath⟩⟩
    · exact .inl (String.toList_eq_nil_iff.mp isEmpty)
    · exact .inr ⟨after, isPath.symm⟩
  · rintro (rfl | ⟨after, isPath⟩)
    · exact ⟨List.not_mem_nil, .inl rfl⟩
    · exact ⟨List.not_mem_nil, .inr ⟨after, isPath.symm⟩⟩

theorem isImproper_iff : IsImproper name ↔
    (segments name).head? = some "" ∨ (segments name).head? = some "." ∨ ".." ∈ segments name := by
  have isCurrent : (segments name).head? = some "." ↔ _ := @head?_segments name ['.']
  have hasParent : ".." ∈ segments name ↔ _ := @mem_segments name ['.', '.']
  rw [head?_segments_empty, isCurrent, hasParent]
  constructor
  · rintro (isEmpty | begins | begins | has)
    · exact .inl (.inl isEmpty)
    · exact .inl (.inr begins)
    · exact .inr (.inl begins)
    · exact .inr (.inr has)
  · rintro ((isEmpty | begins) | begins | has)
    · exact .empty isEmpty
    · exact .absolute begins
    · exact .current begins
    · exact .parent has

theorem components_eq (areSegments : segments name = first :: others) :
    components name =
      (firstComponent? first others.isEmpty).toList ++ others.filterMap componentOf? := by
  rw [components, areSegments]

/-- Behind the first segment only two points lead anywhere but down. -/
theorem all_isNormal_filterMap :
    (segs.filterMap componentOf?).all Component.isNormal = true ↔ ".." ∉ segs := by
  induction segs with
  | nil => simp
  | cons segment segs inductionHypothesis =>
      rw [List.filterMap_cons, List.mem_cons, not_or, ← inductionHypothesis]
      by_cases isNothing : segment = "" ∨ segment = "."
      · have notParent : ".." ≠ segment := by
          rcases isNothing with rfl | rfl <;> decide
        simp [componentOf?, isNothing, notParent]
      · by_cases isParent : segment = ".."
        · simp [componentOf?, isParent, Component.isNormal]
        · simp [componentOf?, isNothing, isParent, Ne.symm isParent, Component.isNormal]

theorem filterMap_componentOf? (noParent : ".." ∉ segs) :
    segs.filterMap componentOf? = (namesAmong segs).map .normal := by
  induction segs with
  | nil => rfl
  | cons segment segs inductionHypothesis =>
      rw [List.mem_cons, not_or] at noParent
      rw [List.filterMap_cons, inductionHypothesis noParent.2]
      by_cases isNothing : segment = "" ∨ segment = "."
      · rcases isNothing with rfl | rfl <;> simp [componentOf?, namesAmong]
      · have isName : segment ≠ "" ∧ segment ≠ "." := not_or.mp isNothing
        simp [componentOf?, isName, Ne.symm noParent.1, namesAmong]

theorem ne_of_mem_namesAmong (noParent : ".." ∉ segs) :
    ∀ part ∈ namesAmong segs, part ∉ ["", ".", ".."] := by
  intro part member
  obtain ⟨isSegment, isName⟩ := List.mem_filter.mp member
  have notParent : part ≠ ".." := fun isParent => noParent (isParent ▸ isSegment)
  simpa [notParent] using isName

theorem eq_empty_of_segments (areSegments : segments name = [""]) : name = "" := by
  rcases cut_first name.toList with ⟨-, isSplit⟩ | ⟨_, rest, -, -, isSplit⟩
  · rw [segments, isSplit, List.map_singleton, String.ofList_toList] at areSegments
    exact List.singleton_inj.mp areSegments
  · rw [segments, isSplit, List.map_cons, List.cons.injEq, List.map_eq_nil_iff] at areSegments
    exact absurd areSegments.2 (split_ne_nil rest)

theorem firstComponent?_eq (notEmpty : first ≠ "") (notCurrent : first ≠ ".") (alone : Bool) :
    firstComponent? first alone = componentOf? first := by
  rw [firstComponent?, if_neg notEmpty, if_neg notCurrent]

/-- A path whose first segment is a name has a component for each segment that stands for one. -/
theorem components_of_name (areSegments : segments name = first :: others) (notEmpty : first ≠ "")
    (notCurrent : first ≠ ".") : components name = (segments name).filterMap componentOf? := by
  rw [components_eq areSegments, firstComponent?_eq notEmpty notCurrent, areSegments,
    List.filterMap_cons]
  cases componentOf? first <;> rfl

/-- The names that lead down are those that can be names of templates. -/
theorem leadsDown_eq_false_iff : leadsDown name = false ↔ IsImproper name := by
  obtain ⟨first, others, areSegments⟩ := exists_segments name
  rw [isImproper_iff, areSegments, List.head?_cons, Option.some_inj, Option.some_inj]
  by_cases isEmpty : first = ""
  · refine iff_of_true ?_ (.inl isEmpty)
    rw [leadsDown, components_eq areSegments, isEmpty]
    cases others with
    | nil => simp [eq_empty_of_segments (isEmpty ▸ areSegments)]
    | cons => simp [firstComponent?, Component.isNormal]
  · by_cases isCurrent : first = "."
    · refine iff_of_true ?_ (.inr (.inl isCurrent))
      rw [leadsDown, components_eq areSegments, isCurrent]
      simp [firstComponent?, Component.isNormal]
    · have nonempty : name ≠ "" := by
        rintro rfl
        exact isEmpty (List.cons.inj areSegments).1.symm
      rw [leadsDown, components_of_name areSegments isEmpty isCurrent, areSegments,
        decide_eq_true nonempty, Bool.true_and, Bool.eq_false_iff, ne_eq, all_isNormal_filterMap,
        Decidable.not_not]
      simp [isEmpty, isCurrent]

/-- A name that can be that of a template is a row of names, which lead down one after another. -/
theorem names_of_proper (proper : ¬IsImproper name) :
    ".." ∉ segments name ∧ namesAmong (segments name) ≠ [] ∧
      components name = (namesAmong (segments name)).map .normal := by
  obtain ⟨first, others, areSegments⟩ := exists_segments name
  rw [isImproper_iff, not_or, not_or, areSegments, List.head?_cons, Option.some_inj,
    Option.some_inj] at proper
  obtain ⟨notEmpty, notCurrent, noParent⟩ := proper
  have areNames : namesAmong (first :: others) = first :: namesAmong others := by
    simp [namesAmong, notEmpty, notCurrent]
  refine ⟨areSegments ▸ noParent, ?_, ?_⟩
  · rw [areSegments, areNames]
    exact List.cons_ne_nil _ _
  · rw [components_of_name areSegments notEmpty notCurrent, areSegments,
      filterMap_componentOf? noParent]

end Names

/-! ### Places -/

/-- Where a path leads to by its text: from the root or not, then up over so many directories, and
from there down by names. -/
structure Place where
  fromRoot : Bool
  up : Nat
  down : List String
deriving DecidableEq

namespace Place

/-- Where a path starts from. -/
def start : Place := ⟨false, 0, []⟩

/-- The place that a component leads to. The directory around the root is the root. -/
def enter (place : Place) : Component → Place
  | .root => ⟨true, 0, []⟩
  | .current => place
  | .parent =>
      if place.down ≠ [] then { place with down := place.down.dropLast }
      else if place.fromRoot then place
      else { place with up := place.up + 1 }
  | .normal name => { place with down := place.down ++ [name] }

/-- The place that names lead down to. -/
def below (place : Place) (names : List String) : Place :=
  { place with down := place.down ++ names }

theorem foldl_enter_normal (place : Place) (names : List String) :
    (names.map Component.normal).foldl enter place = place.below names := by
  induction names generalizing place with
  | nil => simp [below]
  | cons name names inductionHypothesis =>
      rw [List.map_cons, List.foldl_cons, inductionHypothesis]
      simp [enter, below]

end Place

/-- Where the text of a path leads to, whatever files there are. -/
def placeOf (path : String) : Place := (components path).foldl Place.enter .start

/-! ### Directories with names behind them -/

section Joined

variable {directory name : String} {tree : Tree} {base location : Location} {segs : List String}

theorem isAbsolute_of_proper (proper : ¬IsImproper name) : isAbsolute name = false := by
  refine Bool.eq_false_iff.mpr fun isAbsolute => proper (.absolute ?_)
  obtain ⟨rest, isPath⟩ := List.head?_eq_some_iff.mp (beq_iff_eq.mp isAbsolute)
  exact ⟨rest, isPath.symm⟩

/-- The segments of a directory come first, but for an empty one at their end. -/
theorem segments_join (proper : ¬IsImproper name) (nonempty : directory ≠ "") :
    ∃ front back, front ≠ [] ∧ (back = [] ∨ back = [""]) ∧ segments directory = front ++ back ∧
      segments (join directory name) = front ++ segments name := by
  rw [join, isAbsolute_of_proper proper, if_neg Bool.false_ne_true]
  cases isLast : directory.toList.getLast? with
  | none =>
      exact absurd (String.toList_eq_nil_iff.mp (List.getLast?_eq_none_iff.mp isLast)) nonempty
  | some last =>
      obtain ⟨front, isDirectory⟩ := List.getLast?_eq_some_iff.mp isLast
      by_cases isSeparator : last = '/'
      · subst isSeparator
        refine ⟨(split front).map String.ofList, [""], ?_, .inr rfl, ?_, ?_⟩
        · exact fun isNil => split_ne_nil front (List.map_eq_nil_iff.mp isNil)
        · rw [segments, isDirectory, split_append, List.map_append]
          rfl
        · rw [Option.all_some, beq_self_eq_true, if_pos rfl, segments, String.toList_append,
            isDirectory, List.append_assoc, List.singleton_append, split_append, List.map_append]
          rfl
      · refine ⟨segments directory, [], ?_, .inl rfl, (List.append_nil _).symm, ?_⟩
        · exact fun isNil => split_ne_nil _ (List.map_eq_nil_iff.mp isNil)
        · rw [Option.all_some, if_neg (by simpa using isSeparator), segments, String.toList_append,
            String.toList_append, List.append_assoc]
          rw [show "/".toList ++ name.toList = '/' :: name.toList from rfl, split_append,
            List.map_append]
          rfl

theorem join_empty (proper : ¬IsImproper name) : join "" name = name := by
  rw [join, isAbsolute_of_proper proper]
  simp

/-- The components of a name come behind those of the directory. -/
theorem components_join (proper : ¬IsImproper name) (directory : String) :
    components (join directory name) = components directory ++ components name := by
  by_cases isEmpty : directory = ""
  · rw [isEmpty, join_empty proper]
    rfl
  · obtain ⟨front, back, nonempty, isBack, areSegments, areJoined⟩ := segments_join proper isEmpty
    obtain ⟨first, others, rfl⟩ := List.exists_cons_of_ne_nil nonempty
    have nothing : back.filterMap componentOf? = [] := by
      rcases isBack with rfl | rfl <;> rfl
    have sameFirst : firstComponent? first (others ++ segments name).isEmpty =
        firstComponent? first (others ++ back).isEmpty := by
      by_cases isFirst : first = ""
      · have more : others ++ back ≠ [] := by
          intro isNil
          rw [List.cons_append, isNil, isFirst] at areSegments
          exact isEmpty (eq_empty_of_segments areSegments)
        have moreNames : others ++ segments name ≠ [] := by
          obtain ⟨_, _, areNames⟩ := exists_segments name
          simp [areNames]
        rw [List.isEmpty_eq_false_iff.mpr more, List.isEmpty_eq_false_iff.mpr moreNames]
      · rw [firstComponent?, firstComponent?, if_neg isFirst, if_neg isFirst]
    obtain ⟨noParent, -, areComponents⟩ := names_of_proper proper
    rw [List.cons_append] at areSegments areJoined
    rw [components_eq areSegments, components_eq areJoined, sameFirst, List.filterMap_append,
      List.filterMap_append, nothing, List.append_nil, ← List.append_assoc, areComponents,
      filterMap_componentOf? noParent]

theorem placeOf_join (proper : ¬IsImproper name) (directory : String) :
    placeOf (join directory name) =
      (placeOf directory).below (namesAmong (segments name)) := by
  rw [placeOf, components_join proper, (names_of_proper proper).2.2, List.foldl_append,
    Place.foldl_enter_normal]
  rfl

theorem follow?_append (tree : Tree) (base : Location) (front back : List String) :
    tree.follow? base (front ++ back) =
      (tree.follow? base front).bind fun location => tree.follow? location back := by
  induction front generalizing base with
  | nil => rfl
  | cons segment front inductionHypothesis =>
      rw [List.cons_append, Tree.follow?, Tree.follow?]
      cases tree.enter? base segment with
      | none => rfl
      | some next => exact inductionHypothesis next

/-- Where no segment leads up, the names among the segments lead down one after another. -/
theorem eq_append_of_follow? (noParent : ".." ∉ segs)
    (follows : tree.follow? base segs = some location) : location = base ++ namesAmong segs := by
  induction segs generalizing base with
  | nil =>
      cases follows
      simp [namesAmong]
  | cons segment segs inductionHypothesis =>
      rw [List.mem_cons, not_or] at noParent
      rw [Tree.follow?, Tree.enter?] at follows
      by_cases isDirectory : tree.isDirectory base = true
      · rw [if_pos isDirectory] at follows
        by_cases isNothing : segment = "" ∨ segment = "."
        · rw [if_pos isNothing] at follows
          rw [inductionHypothesis noParent.2 follows]
          rcases isNothing with rfl | rfl <;> simp [namesAmong]
        · rw [if_neg isNothing, if_neg (Ne.symm noParent.1)] at follows
          rw [inductionHypothesis noParent.2 follows]
          simp [namesAmong, not_or.mp isNothing]
      · rw [if_neg isDirectory] at follows
        cases follows

/-- The segments of a name are followed from where the directory leads to. -/
theorem follow?_join (proper : ¬IsImproper name)
    (follows : tree.follow? [] (segments (join directory name)) = some location) :
    ∃ base, tree.follow? [] (segments directory) = some base ∧
      tree.follow? base (segments name) = some location := by
  by_cases isEmpty : directory = ""
  · rw [isEmpty, join_empty proper] at follows
    exact ⟨[], by rw [isEmpty]; rfl, follows⟩
  · obtain ⟨front, back, -, isBack, areSegments, areJoined⟩ := segments_join proper isEmpty
    rw [areJoined, follow?_append, Option.bind_eq_some_iff] at follows
    obtain ⟨base, reaches, follows⟩ := follows
    refine ⟨base, ?_, follows⟩
    rw [areSegments, follow?_append, reaches, Option.bind_some]
    rcases isBack with rfl | rfl
    · rfl
    · -- the name is followed from a directory, which an empty segment does not leave
      obtain ⟨first, others, areNames⟩ := exists_segments name
      rw [areNames, Tree.follow?, Tree.enter?] at follows
      by_cases isDirectory : tree.isDirectory base = true
      · rw [Tree.follow?, Tree.enter?, if_pos isDirectory, if_pos (.inl rfl)]
        rfl
      · rw [if_neg isDirectory] at follows
        cases follows

/-- What is read behind a directory is a file strictly below where the directory leads to. -/
theorem file?_of_read? {content : ByteArray} (proper : ¬IsImproper name)
    (isRead : tree.read? (join directory name) = some content) :
    ∃ base, tree.follow? [] (segments directory) = some base ∧
      tree.file? (base ++ namesAmong (segments name)) = some content := by
  obtain ⟨location, follows, isFile⟩ := Option.bind_eq_some_iff.mp isRead
  obtain ⟨base, reaches, follows⟩ := follow?_join proper follows
  exact ⟨base, reaches, eq_append_of_follow? (names_of_proper proper).1 follows ▸ isFile⟩

end Joined

/-! ### The search -/

/-- Whether a directory is the first one with a file of a name, and what reading the file comes
to. -/
structure Provides (system : FileSystem) (directories : List String) (name directory : String)
    (reading : Except String ByteArray) : Prop where
  isFile : system.file? (join directory name) = some reading
  isFirst : ∃ before after, directories = before ++ directory :: after ∧
    ∀ other ∈ before, system.file? (join other name) = none

section Search

variable {system : FileSystem} {directories : List String} {name directory : String}
  {reading : Except String ByteArray}

theorem firstFile?_eq_findSome? (system : FileSystem) (paths : List String) :
    firstFile? system paths = paths.findSome? fun path =>
      (system.file? path).map fun reading => (path, reading) := by
  induction paths with
  | nil => rfl
  | cons path paths inductionHypothesis =>
      rw [firstFile?, List.findSome?_cons, inductionHypothesis]
      cases system.file? path <;> rfl

/-- A directory is the first one with a file, or there is none. -/
theorem provides_or_absent (system : FileSystem) (directories : List String) (name : String) :
    (∃ directory reading, Provides system directories name directory reading) ∨
      ∀ directory ∈ directories, system.file? (join directory name) = none := by
  cases isFound : directories.findSome? fun directory => system.file? (join directory name) with
  | none => exact .inr (List.findSome?_eq_none_iff.mp isFound)
  | some reading =>
      obtain ⟨before, directory, after, isSplit, isFile, noFile⟩ :=
        List.findSome?_eq_some_iff.mp isFound
      exact .inl ⟨directory, reading, isFile, before, after, isSplit, noFile⟩

theorem loader_of_improper (improper : IsImproper name) :
    loader system directories name = .error (.invalidName name) := by
  rw [loader, leadsDown_eq_false_iff.mpr improper]
  rfl

theorem leadsDown_of_proper (proper : ¬IsImproper name) : leadsDown name = true := by
  rwa [← leadsDown_eq_false_iff, Bool.not_eq_false] at proper

theorem firstFile?_of_provides (provides : Provides system directories name directory reading) :
    firstFile? system (candidates directories name) = some (join directory name, reading) := by
  obtain ⟨isFile, before, after, isSplit, noFile⟩ := provides
  rw [firstFile?_eq_findSome?, candidates, List.findSome?_map, List.findSome?_eq_some_iff]
  refine ⟨before, directory, after, isSplit, ?_, fun other member => ?_⟩
  · exact Option.map_eq_some_iff.mpr ⟨reading, isFile, rfl⟩
  · exact Option.map_eq_none_iff.mpr (noFile other member)

theorem loader_of_text (proper : ¬IsImproper name)
    (provides : Provides system directories name directory reading) {source : String}
    (isText : textOf reading = .ok source) : loader system directories name = .ok source := by
  simp only [loader, leadsDown_of_proper proper, if_true, firstFile?_of_provides provides, isText]

theorem loader_of_noText (proper : ¬IsImproper name)
    (provides : Provides system directories name directory reading) {reason : String}
    (noText : textOf reading = .error reason) :
    loader system directories name = .error (.unreadable ⟨join directory name, reason⟩) := by
  simp only [loader, leadsDown_of_proper proper, if_true, firstFile?_of_provides provides, noText]

theorem loader_of_absent (proper : ¬IsImproper name)
    (absent : ∀ directory ∈ directories, system.file? (join directory name) = none) :
    loader system directories name = .error (.notFound name) := by
  have noFile : firstFile? system (candidates directories name) = none := by
    rw [firstFile?_eq_findSome?, candidates, List.findSome?_map, List.findSome?_eq_none_iff]
    exact fun directory member => Option.map_eq_none_iff.mpr (absent directory member)
  simp only [loader, leadsDown_of_proper proper, if_true, noFile]

/-- What becomes of a name that can be that of a template: a text, a file that cannot be read as a
text, or nothing. -/
theorem loader_cases (system : FileSystem) (directories : List String) (proper : ¬IsImproper name) :
    (∃ directory reading source, Provides system directories name directory reading ∧
      textOf reading = .ok source ∧ loader system directories name = .ok source) ∨
    (∃ directory reading reason, Provides system directories name directory reading ∧
      textOf reading = .error reason ∧
      loader system directories name = .error (.unreadable ⟨join directory name, reason⟩)) ∨
    ((∀ directory ∈ directories, system.file? (join directory name) = none) ∧
      loader system directories name = .error (.notFound name)) := by
  rcases provides_or_absent system directories name with ⟨directory, reading, provides⟩ | absent
  · cases isText : textOf reading with
    | ok source =>
        exact .inl ⟨directory, reading, source, provides, isText,
          loader_of_text proper provides isText⟩
    | error reason =>
        exact .inr (.inl ⟨directory, reading, reason, provides, isText,
          loader_of_noText proper provides isText⟩)
  · exact .inr (.inr ⟨absent, loader_of_absent proper absent⟩)

end Search

/-- The loader of templates in directories does not leave them, whatever there is at which path, the
directories and the name are. It rejects the names that are empty, that start from the root or with
the directory itself, and those with a segment that leads up. Any other name leads strictly down from
each directory, by the same names from all of them: by the text of the path that is looked at, and
in every tree of files, where nothing is read that is not below the directory. The template is that of
the first directory with a file; if that cannot be read as a text neither can the template, and it is
not found if there is no such file. -/
theorem loader_confined (system : FileSystem) (directories : List String) (name : String) :
    (loader system directories name = .error (.invalidName name) ↔ IsImproper name) ∧
    (¬IsImproper name →
      (∃ names, names ≠ [] ∧ (∀ part ∈ names, part ∉ ["", ".", ".."]) ∧
        ∀ directory ∈ directories, placeOf (join directory name) = (placeOf directory).below names ∧
        ∀ (tree : Tree) content, tree.read? (join directory name) = some content →
          ∃ base, tree.follow? [] (segments directory) = some base ∧
            tree.file? (base ++ names) = some content) ∧
      (∀ source, loader system directories name = .ok source ↔
        ∃ directory reading, Provides system directories name directory reading ∧
          textOf reading = .ok source) ∧
      (∀ fault, loader system directories name = .error (.unreadable fault) ↔
        ∃ directory reading, Provides system directories name directory reading ∧
          textOf reading = .error fault.reason ∧ fault.path = join directory name) ∧
      (loader system directories name = .error (.notFound name) ↔
        ∀ directory ∈ directories, system.file? (join directory name) = none)) := by
  constructor
  · refine ⟨fun isRejected => Classical.byContradiction fun proper => ?_, loader_of_improper⟩
    rcases loader_cases system directories proper with
      ⟨_, _, _, _, _, loaded⟩ | ⟨_, _, _, _, _, loaded⟩ | ⟨_, loaded⟩ <;>
      cases isRejected.symm.trans loaded
  · intro proper
    have outcome := loader_cases system directories proper
    obtain ⟨noParent, nonempty, -⟩ := names_of_proper proper
    refine ⟨⟨namesAmong (segments name), nonempty, ne_of_mem_namesAmong noParent, fun directory _ =>
      ⟨placeOf_join proper directory, fun tree content => file?_of_read? proper⟩⟩, ?_, ?_, ?_⟩
    · refine fun source => ⟨fun isLoaded => ?_, ?_⟩
      · rw [isLoaded] at outcome
        rcases outcome with ⟨directory, reading, _, provides, isText, loaded⟩ |
          ⟨_, _, _, _, _, loaded⟩ | ⟨_, loaded⟩ <;> cases loaded
        exact ⟨directory, reading, provides, isText⟩
      · rintro ⟨directory, reading, provides, isText⟩
        exact loader_of_text proper provides isText
    · refine fun fault => ⟨fun isUnreadable => ?_, ?_⟩
      · rw [isUnreadable] at outcome
        rcases outcome with ⟨_, _, _, _, _, loaded⟩ |
          ⟨directory, reading, _, provides, noText, loaded⟩ | ⟨_, loaded⟩ <;> cases loaded
        exact ⟨directory, reading, provides, noText, rfl⟩
      · obtain ⟨path, reason⟩ := fault
        rintro ⟨directory, reading, provides, noText, rfl⟩
        exact loader_of_noText proper provides noText
    · refine ⟨fun isMissing => ?_, loader_of_absent proper⟩
      rw [isMissing] at outcome
      rcases outcome with ⟨_, _, _, _, _, loaded⟩ | ⟨_, _, _, _, _, loaded⟩ | ⟨absent, _⟩
      · cases loaded
      · cases loaded
      · exact absent

/-- Separators and single points in odd places, behind a directory that leads up on its way, and a
segment that leads up. -/
theorem loader_confined_odd_spelling :
    let tree : Tree := ⟨[(["base", "page"], "far".toUTF8), (["b", "x", "page"], "near".toUTF8)]⟩
    let directories := ["a", "b/../b//", "base"]
    let name := "x//./page"
    let wrong := "x/../page"
    ¬IsImproper name ∧ loader tree directories name = .ok "near" ∧
      (∃ names, names ≠ [] ∧
        placeOf (join "b/../b//" name) = (placeOf "b/../b//").below names) ∧
      IsImproper wrong ∧ loader tree directories wrong = .error (.invalidName wrong) := by
  intro tree directories name wrong
  have proper : ¬IsImproper name := by
    rw [← leadsDown_eq_false_iff]
    decide
  have improper : IsImproper wrong := leadsDown_eq_false_iff.mp (by decide)
  obtain ⟨⟨names, nonempty, -, places⟩, loads, -⟩ :=
    (loader_confined tree directories name).2 proper
  have isRead : tree.read? (join "b/../b//" name) = some "near".toUTF8 := by decide
  have isText : String.fromUTF8? "near".toUTF8 = some "near" := by decide
  have provides : Provides tree directories name "b/../b//" (.ok "near".toUTF8) :=
    ⟨congrArg (Option.map Except.ok) isRead, ["a"], ["base"], rfl, by decide⟩
  exact ⟨proper, (loads "near").mpr ⟨_, _, provides, by simp only [textOf, isText]⟩,
    ⟨names, nonempty, (places "b/../b//" (by decide)).1⟩, improper,
    (loader_confined tree directories wrong).1.mpr improper⟩

end Stencil.Files
