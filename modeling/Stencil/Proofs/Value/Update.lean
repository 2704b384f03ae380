import Stencil.Proofs.Render.Frames

/-!
Contract: changing a part of a value is lawful.

Owns:
- reading a value along a path, by attributes and items;
- the paths at whose end a value can be put, and paths that part from one another;
- that a value put at the end of a path is read there and nowhere else, and what it leaves as it
  was; that a variable is not changed at all if the value cannot be put there.

Does not own: how paths are written and evaluated (`Stencil.Render.Assign`).
-/

set_option autoImplicit false

namespace Stencil

namespace Value

variable {value part new updated : Value} {key other next : Key} {path rest more : List Key}

/-! ### Indices -/

/-- An index has a place among items if it is in range, counted from either end. -/
theorem resolveIndex_isSome_iff {index : Int} {length : Nat} :
    (resolveIndex index length).isSome = true ↔ -(length : Int) ≤ index ∧ index < length := by
  unfold resolveIndex
  by_cases isNegative : index < 0
  · simp only [isNegative, if_true]
    split <;> simp <;> omega
  · simp only [isNegative, if_false]
    split <;> simp <;> omega

theorem lt_of_resolveIndex {index : Int} {length place : Nat}
    (isPlace : resolveIndex index length = some place) : place < length := by
  obtain ⟨inRange, isPlace⟩ := Option.ite_none_right_eq_some.mp isPlace
  obtain rfl := Option.some.inj isPlace
  omega

theorem Key.lt_of_place? {length place : Nat} (isPlace : key.place? length = some place) :
    place < length := by
  cases key with
  | name text => cases isPlace
  | index index =>
      obtain ⟨number, _, isPlace⟩ := Option.bind_eq_some_iff.mp isPlace
      exact lt_of_resolveIndex isPlace

/-! ### Reading -/

/-- The part of a value under an attribute's name or an index. -/
def step? (value : Value) : Key → Option Value
  | .name name => value.attribute? name
  | .index index => value.item? index

/-- The part of a value at the end of a path. -/
def read? : Value → List Key → Option Value
  | value, [] => some value
  | value, key :: rest => (value.step? key).bind fun part => part.read? rest

theorem read?_cons (value : Value) (key : Key) (rest : List Key) :
    value.read? (key :: rest) = (value.step? key).bind fun part => part.read? rest := rfl

theorem step?_map (entries : Table Value) (key : Key) :
    (Value.map entries).step? key = entries.lookup? key.text := by
  cases key <;> rfl

theorem step?_seq (items : List Value) (key : Key) :
    (Value.seq items).step? key = (key.place? items.length).bind fun place => items[place]? := by
  cases key with
  | name name => rfl
  | index index =>
      show ((index.toInt?).bind fun number => (resolveIndex number items.length).bind _) = _
      rw [Key.place?, Option.bind_assoc]

/-- Where a value can be changed, the part under a step is the one that is read there. -/
theorem step?_of_part? (isPart : value.part? key = some part) : value.step? key = some part := by
  cases value with
  | map entries => exact (step?_map entries key).trans isPart
  | seq items => exact (step?_seq items key).trans isPart
  | _ => cases isPart

/-! ### Steps that can be changed -/

/-- The entry of a map or the item of a sequence that a step stands for, whether or not there is one
already. -/
def slot? (value : Value) (key : Key) : Option (String ⊕ Nat) :=
  match value with
  | .map _ => some (.inl key.text)
  | .seq items => (key.place? items.length).map .inr
  | _ => none

theorem slot?_isSome_of_part? (isPart : value.part? key = some part) :
    (value.slot? key).isSome = true := by
  cases value with
  | map entries => rfl
  | seq items =>
      obtain ⟨place, isPlace, _⟩ := Option.bind_eq_some_iff.mp isPart
      rw [slot?, isPlace]
      rfl
  | _ => cases isPart

theorem step?_withPart_self (part : Value) (isSlot : (value.slot? key).isSome = true) :
    (value.withPart key part).step? key = some part := by
  cases value with
  | map entries => exact (step?_map _ key).trans (Table.lookup?_put_self _ _ _)
  | seq items =>
      rw [slot?, Option.isSome_map] at isSlot
      obtain ⟨place, isPlace⟩ := Option.isSome_iff_exists.mp isSlot
      simp only [withPart, isPlace]
      rw [step?_seq, List.length_set, isPlace, Option.bind_some]
      exact List.getElem?_set_self (Key.lt_of_place? isPlace)
  | _ => cases isSlot

theorem step?_withPart_other (part : Value) (isSlot : (value.slot? key).isSome = true)
    (different : value.slot? key ≠ value.slot? other) :
    (value.withPart key part).step? other = value.step? other := by
  cases value with
  | map entries =>
      have differentText : other.text ≠ key.text := fun same => different (by rw [slot?, slot?, same])
      rw [withPart, step?_map, step?_map]
      exact Table.lookup?_put_other _ _ differentText
  | seq items =>
      rw [slot?, Option.isSome_map] at isSlot
      obtain ⟨place, isPlace⟩ := Option.isSome_iff_exists.mp isSlot
      simp only [withPart, isPlace]
      rw [step?_seq, step?_seq, List.length_set]
      cases isOther : other.place? items.length with
      | none => rfl
      | some place' =>
          refine List.getElem?_set_ne fun same => different ?_
          rw [slot?, slot?, isPlace, isOther, same]
  | _ => cases isSlot

/-- Two steps for the same entry or item read the same. -/
theorem step?_congr (same : value.slot? key = value.slot? other)
    (isSlot : (value.slot? key).isSome = true) : value.step? key = value.step? other := by
  cases value with
  | map entries =>
      rw [step?_map, step?_map, Sum.inl.inj (Option.some.inj same)]
  | seq items =>
      have samePlace : key.place? items.length = other.place? items.length :=
        Option.map_injective (fun _ _ => Sum.inr.inj) same
      rw [step?_seq, step?_seq, samePlace]
  | _ => cases isSlot

theorem slot?_withPart (value : Value) (key other : Key) (part : Value) :
    (value.withPart key part).slot? other = value.slot? other := by
  cases value with
  | map entries => rfl
  | seq items =>
      unfold withPart
      dsimp only
      split
      · rw [slot?, slot?, List.length_set]
      · rfl
  | _ => rfl

/-! ### Paths -/

/-- Whether a value can be put at the end of a path: each step before the last leads to a part of a
map or of a sequence, and the last one to an entry of a map, new or not, or to an item of a
sequence. -/
inductive Admits : Value → List Key → Prop where
  | entry (entries : Table Value) (key : Key) : Admits (.map entries) [key]
  | item {items : List Value} {index : Value} {number : Int} (isNumber : index.toInt? = some number)
      (inRange : -(items.length : Int) ≤ number ∧ number < items.length) :
      Admits (.seq items) [.index index]
  | inEntry {entries : Table Value} {key next : Key} {rest : List Key} {part : Value}
      (isPart : entries.lookup? key.text = some part) (inside : Admits part (next :: rest)) :
      Admits (.map entries) (key :: next :: rest)
  | inItem {items : List Value} {index part : Value} {number : Int} {next : Key} {rest : List Key}
      (isNumber : index.toInt? = some number)
      (inRange : -(items.length : Int) ≤ number ∧ number < items.length)
      (isPart : (Value.seq items).item? index = some part) (inside : Admits part (next :: rest)) :
      Admits (.seq items) (.index index :: next :: rest)

/-- Whether two paths part at some map or sequence: up to there they lead to the same entries and
items, and from there to different ones. -/
inductive Diverges : Value → List Key → List Key → Prop where
  | here {value : Value} {key other : Key} {rest more : List Key}
      (different : value.slot? key ≠ value.slot? other) : Diverges value (key :: rest) (other :: more)
  | inside {value part : Value} {key other : Key} {rest more : List Key}
      (same : value.slot? key = value.slot? other) (isPart : value.part? key = some part)
      (diverges : Diverges part rest more) : Diverges value (key :: rest) (other :: more)

theorem place?_isSome_iff {index : Value} {length : Nat} :
    ((Key.index index).place? length).isSome = true ↔ ∃ number, index.toInt? = some number ∧
      -(length : Int) ≤ number ∧ number < length := by
  rw [Key.place?, Option.isSome_bind]
  cases index.toInt? with
  | none => simp
  | some number => simpa using resolveIndex_isSome_iff

theorem storeHere_isOk_iff :
    (∃ updated, value.storeHere key new = .ok updated) ↔ value.Admits [key] := by
  constructor
  · rintro ⟨updated, stored⟩
    unfold storeHere at stored
    split at stored
    · exact .entry _ _
    · rename_i items index
      split at stored
      · rename_i isPlace
        obtain ⟨number, isNumber, inRange⟩ := place?_isSome_iff.mp isPlace
        exact .item isNumber inRange
      · cases stored
    · cases stored
  · intro admits
    cases admits with
    | entry entries => exact ⟨_, rfl⟩
    | item isNumber inRange =>
        have isPlace := place?_isSome_iff.mpr ⟨_, isNumber, inRange⟩
        exact ⟨_, if_pos isPlace⟩

theorem storeHere_eq_ok (stored : value.storeHere key new = .ok updated) :
    (value.slot? key).isSome = true ∧ updated = value.withPart key new := by
  unfold storeHere at stored
  split at stored
  · exact ⟨rfl, (Except.ok.inj stored).symm⟩
  · split at stored
    · rename_i isPlace
      exact ⟨by rw [slot?, Option.isSome_map]; exact isPlace, (Except.ok.inj stored).symm⟩
    · cases stored
  · cases stored

/-- What is put behind a step is put into the part that the step leads to. -/
theorem store_eq_ok (stored : value.store (key :: next :: rest) new = .ok updated) :
    ∃ part changed, value.part? key = some part ∧ part.store (next :: rest) new = .ok changed ∧
      updated = value.withPart key changed := by
  rw [store_cons_cons] at stored
  split at stored
  · cases stored
  · rename_i part isPart
    cases isChanged : part.store (next :: rest) new with
    | error refusal =>
        rw [isChanged] at stored
        cases stored
    | ok changed =>
        rw [isChanged] at stored
        exact ⟨part, changed, isPart, isChanged, (Except.ok.inj stored).symm⟩

theorem admits_cons_iff :
    value.Admits (key :: next :: rest) ↔
      ∃ part, value.part? key = some part ∧ part.Admits (next :: rest) := by
  constructor
  · intro admits
    cases admits with
    | inEntry isPart inside => exact ⟨_, isPart, inside⟩
    | @inItem items index _ _ _ _ _ _ isPart inside =>
        exact ⟨_, (step?_seq items (.index index)).symm.trans isPart, inside⟩
  · rintro ⟨part, isPart, inside⟩
    cases value with
    | map entries => exact .inEntry isPart inside
    | seq items =>
        obtain ⟨place, isPlace, isItem⟩ := Option.bind_eq_some_iff.mp isPart
        cases key with
        | name name => cases isPlace
        | index index =>
            obtain ⟨number, isNumber, inRange⟩ :=
              place?_isSome_iff.mp (Option.isSome_iff_exists.mpr ⟨place, isPlace⟩)
            exact .inItem isNumber inRange ((step?_seq items (.index index)).trans isPart) inside
    | _ => cases isPart

/-! ### The laws -/

theorem store_isOk_iff (isPath : path ≠ []) :
    (∃ updated, value.store path new = .ok updated) ↔ value.Admits path := by
  induction path generalizing value with
  | nil => exact absurd rfl isPath
  | cons key rest inductionHypothesis =>
      cases rest with
      | nil => exact storeHere_isOk_iff
      | cons next rest =>
          rw [admits_cons_iff]
          constructor
          · rintro ⟨updated, stored⟩
            obtain ⟨part, changed, isPart, isChanged, _⟩ := store_eq_ok stored
            exact ⟨part, isPart, (inductionHypothesis (List.cons_ne_nil _ _)).mp ⟨changed, isChanged⟩⟩
          · rintro ⟨part, isPart, inside⟩
            obtain ⟨changed, isChanged⟩ := (inductionHypothesis (List.cons_ne_nil _ _)).mpr inside
            refine ⟨value.withPart key changed, ?_⟩
            simp only [store_cons_cons, isPart, isChanged]
            rfl

theorem read?_store (isPath : path ≠ []) (stored : value.store path new = .ok updated) :
    updated.read? path = some new := by
  induction path generalizing value updated with
  | nil => exact absurd rfl isPath
  | cons key rest inductionHypothesis =>
      cases rest with
      | nil =>
          obtain ⟨isSlot, rfl⟩ := storeHere_eq_ok stored
          rw [read?_cons, step?_withPart_self new isSlot]
          rfl
      | cons next rest =>
          obtain ⟨part, changed, isPart, isChanged, rfl⟩ := store_eq_ok stored
          rw [read?_cons, step?_withPart_self changed (slot?_isSome_of_part? isPart)]
          exact inductionHypothesis (List.cons_ne_nil _ _) isChanged

/-- What is read at the end of a path that parts from the changed one is what was read before. -/
theorem read?_store_of_diverges {path other : List Key}
    (stored : value.store path new = .ok updated) (diverges : value.Diverges path other) :
    updated.read? other = value.read? other := by
  induction diverges generalizing updated with
  | @here value key other rest more different =>
      have isChange : (value.slot? key).isSome = true ∧ ∃ part, updated = value.withPart key part := by
        cases rest with
        | nil =>
            obtain ⟨isSlot, rfl⟩ := storeHere_eq_ok stored
            exact ⟨isSlot, new, rfl⟩
        | cons next rest =>
            obtain ⟨part, changed, isPart, _, rfl⟩ := store_eq_ok stored
            exact ⟨slot?_isSome_of_part? isPart, changed, rfl⟩
      obtain ⟨isSlot, part, rfl⟩ := isChange
      rw [read?_cons, read?_cons, step?_withPart_other part isSlot different]
  | @inside value part key other rest more same isPart diverges inductionHypothesis =>
      cases rest with
      | nil => cases diverges
      | cons next rest =>
          obtain ⟨old, changed, isOld, isChanged, rfl⟩ := store_eq_ok stored
          obtain rfl := Option.some.inj (isPart.symm.trans isOld)
          have isSlot := slot?_isSome_of_part? isPart
          have isSlot' : ((value.withPart key changed).slot? key).isSome = true := by
            rw [slot?_withPart]
            exact isSlot
          have same' : (value.withPart key changed).slot? key =
              (value.withPart key changed).slot? other := by
            rw [slot?_withPart, slot?_withPart]
            exact same
          rw [read?_cons, read?_cons, ← step?_congr same isSlot, ← step?_congr same' isSlot',
            step?_withPart_self changed isSlot, step?_of_part? isPart]
          exact inductionHypothesis isChanged

/-- Every value on the way to what was changed keeps its shape. -/
theorem keepsShape_read?_store {front : List Key}
    (stored : value.store (front ++ key :: rest) new = .ok updated) :
    ∃ before after, value.read? front = some before ∧ updated.read? front = some after ∧
      before.KeepsShape after := by
  induction front generalizing value updated with
  | nil =>
      refine ⟨value, updated, rfl, rfl, ?_⟩
      rw [List.nil_append, ← List.dropLast_append_getLast (List.cons_ne_nil key rest)] at stored
      exact keepsShape_store stored
  | cons first front inductionHypothesis =>
      obtain ⟨next, more, isNext⟩ : ∃ next more, front ++ key :: rest = next :: more :=
        List.exists_cons_of_ne_nil (by simp)
      rw [List.cons_append, isNext] at stored
      obtain ⟨part, changed, isPart, isChanged, rfl⟩ := store_eq_ok stored
      rw [← isNext] at isChanged
      rw [read?_cons, read?_cons, step?_of_part? isPart,
        step?_withPart_self changed (slot?_isSome_of_part? isPart)]
      exact inductionHypothesis isChanged

end Value

/-! ### Variables -/

namespace Render

open Value (Key)

theorem Scopes.lookup?_replace_self {scopes : Scopes} {name : String} {old : Value}
    (isOld : scopes.lookup? name = some old) (new : Value) :
    (scopes.replace name new).lookup? name = some new := by
  obtain ⟨inner, outer⟩ := scopes
  unfold replace
  dsimp only
  split
  · exact lookup?_bind_self _ _ _
  · rename_i isMissing
    have isFree : Table.lookup? inner name = none := by
      simpa [Table.has] using isMissing
    simp only [lookup?, frames, List.findSome?_cons, isFree] at isOld ⊢
    induction outer with
    | nil => cases isOld
    | cons frame rest inductionHypothesis =>
        rw [List.findSome?_cons] at isOld
        unfold replaceIn
        cases isFound : Table.lookup? frame name with
        | some value =>
            have has : Table.has frame name = true := by rw [Table.has, isFound]; rfl
            rw [if_pos has, List.findSome?_cons, Table.lookup?_put_self]
        | none =>
            have lacks : ¬Table.has frame name = true := by
              rw [Table.has, isFound]
              exact Bool.false_ne_true
            rw [isFound] at isOld
            rw [if_neg lacks, List.findSome?_cons, isFound]
            exact inductionHypothesis isOld

/-- Assigning to a part of a variable either fails and changes nothing at all, or the value is then
read at the end of the path, paths that part from it read as before, and all maps and sequences on
the way keep their keys in order and their lengths. It succeeds exactly if the value of the variable
admits the path. -/
theorem store_lawful {state : State} {root : String} {value : Value}
    (isVariable : state.scopes.lookup? root = some value) (front : List Key) (last : Key)
    (new : Value) :
    (¬value.Admits (front ++ [last]) ∧
        ∃ refusal, state.store root front last new = (some refusal, state)) ∨
      value.Admits (front ++ [last]) ∧ ∃ updated after,
        state.store root front last new = (none, after) ∧
          after.scopes.lookup? root = some updated ∧
          updated.read? (front ++ [last]) = some new ∧
          (∀ other, value.Diverges (front ++ [last]) other →
            updated.read? other = value.read? other) ∧
          ∀ {way key rest}, front ++ [last] = way ++ key :: rest →
            ∃ before behind, value.read? way = some before ∧ updated.read? way = some behind ∧
              before.KeepsShape behind := by
  have isPath : front ++ [last] ≠ [] := by simp
  have stores : (∃ updated, value.store (front ++ [last]) new = .ok updated) ↔
      value.Admits (front ++ [last]) := Value.store_isOk_iff isPath
  cases stored : value.store (front ++ [last]) new with
  | error refusal =>
      refine .inl ⟨fun admits => ?_, refusal.describe, ?_⟩
      · obtain ⟨updated, isUpdated⟩ := stores.mpr admits
        cases stored.symm.trans isUpdated
      · simp only [State.store, isVariable, stored]
  | ok updated =>
      refine .inr ⟨stores.mp ⟨updated, stored⟩, updated,
        { state with scopes := state.scopes.replace root updated }, ?_, ?_, ?_, ?_, ?_⟩
      · simp only [State.store, isVariable, stored]
      · exact Scopes.lookup?_replace_self isVariable updated
      · exact Value.read?_store isPath stored
      · exact fun other diverges => Value.read?_store_of_diverges stored diverges
      · intro way key rest isWay
        exact Value.keepsShape_read?_store (isWay ▸ stored)

/-- The last item of a sequence in a map, counted from its end, next to the first one. -/
theorem store_lawful_last_item :
    let value : Value := .map [("rows", .seq [.int 1, .int 2]), ("x", .nil)]
    let state : State := .initial [("data", value)] .empty
    let front : List Key := [.name "rows"]
    let last : Key := .index (.int (-1))
    let beside : List Key := [.index (.text "rows"), .index (.int 0)]
    state.scopes.lookup? "data" = some value ∧
      value.Diverges (front ++ [last]) beside ∧ ∃ updated after,
        state.store "data" front last (.bool true) = (none, after) ∧
          after.scopes.lookup? "data" = some updated ∧
          updated.read? (front ++ [last]) = some (.bool true) ∧
          updated.read? beside = some (.int 1) := by
  intro value state front last beside
  have isVariable : state.scopes.lookup? "data" = some value := rfl
  have diverges : value.Diverges (front ++ [last]) beside :=
    .inside rfl rfl (.here (by decide))
  refine ⟨isVariable, diverges, ?_⟩
  rcases store_lawful isVariable front last (.bool true) with ⟨refused, _⟩ |
    ⟨_, updated, after, stored, isUpdated, isNew, others, _⟩
  · exact absurd (.inEntry rfl (.item rfl (by decide))) refused
  · exact ⟨updated, after, stored, isUpdated, isNew, others beside diverges⟩

end Render

end Stencil
