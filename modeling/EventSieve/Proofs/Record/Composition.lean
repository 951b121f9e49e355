import EventSieve.Proofs.Record.Writing

/-!
# Objects are taken apart again

An object that is made of the cells of a dictionary gives every cell back to its
column when each of them is one of two kinds. A cell that is no object stands under
its own key, and its column takes the member under that key for the cell. An
object in a JSON column is merged into the whole; its members are what remains when
the named ones are gone, as long as it has some, their keys are not those of the
dictionary, and there is no other JSON column.
-/

namespace EventSieve

namespace Json

/-- A key without a value gets it at the end. -/
theorem put_of_not_mem {key : String} {members : Members} (absent : key ∉ members.map (·.1))
    (value : Json) : put key value members = members ++ [(key, value)] := by
  induction members with
  | nil => rfl
  | cons member rest inductionHypothesis =>
    obtain ⟨different, later⟩ := not_or.mp (mt List.mem_cons.mpr absent)
    simp [put, Ne.symm different, inductionHypothesis later]

/-- Members with distinct keys are put one behind the other. -/
theorem putAll_of_nodup {members additions : Members}
    (distinct : ((members ++ additions).map (·.1)).Nodup) :
    putAll members additions = members ++ additions := by
  induction additions generalizing members with
  | nil => exact (List.append_nil members).symm
  | cons addition rest inductionHypothesis =>
    have absent : addition.1 ∉ members.map (·.1) := by
      rw [List.map_append, List.map_cons] at distinct
      intro again
      exact (List.nodup_append.mp distinct).2.2 _ again _ List.mem_cons_self rfl
    have step : putAll members (addition :: rest) =
        putAll (put addition.1 addition.2 members) rest := rfl
    rw [step, put_of_not_mem absent, inductionHypothesis (by simpa using distinct)]
    simp

/-- Pairs with distinct keys are the members that they denote. -/
theorem ofPairs_of_nodup {pairs : Members} (distinct : (pairs.map (·.1)).Nodup) :
    ofPairs pairs = pairs := by
  rw [ofPairs_eq_putAll]
  exact putAll_of_nodup distinct

/-- A key has no value exactly when no member has it. -/
theorem lookup_eq_none_iff {key : String} {members : Members} :
    lookup key members = none ↔ key ∉ members.map (·.1) := by
  induction members with
  | nil => simp [lookup]
  | cons member rest inductionHypothesis =>
    by_cases same : member.1 = key
    · simp [lookup, same]
    · simp [lookup, same, Ne.symm same, inductionHypothesis]

end Json

namespace Encoder

/-- A dictionary with distinct keys gives a key the column that it names. -/
theorem columnOf?_eq_some_iff {pairs : List (String × Nat)} (distinct : (pairs.map (·.1)).Nodup)
    {key : String} {index : Nat} : columnOf? pairs key = some index ↔ (key, index) ∈ pairs := by
  induction pairs with
  | nil => simp [columnOf?]
  | cons pair rest inductionHypothesis =>
    obtain ⟨apart, later⟩ := List.nodup_cons.mp distinct
    obtain ⟨name, column⟩ := pair
    have others := inductionHypothesis later
    rw [columnOf?] at others ⊢
    by_cases same : name = key
    · subst same
      have once : (name, index) ∉ rest :=
        fun again => apart (List.mem_map.mpr ⟨(name, index), again, rfl⟩)
      simp only [List.find?_cons_of_pos, decide_true, Option.map_some, Option.some.injEq,
        List.mem_cons, Prod.mk.injEq, true_and, or_iff_left once]
      exact eq_comm
    · rw [List.find?_cons_of_neg (by simpa using same), others]
      simp [Ne.symm same]

/-- A dictionary has no column for a key that it does not name. -/
theorem columnOf?_eq_none {pairs : List (String × Nat)} {key : String}
    (absent : key ∉ pairs.map (·.1)) : columnOf? pairs key = none := by
  rw [columnOf?, Option.map_eq_none_iff, List.find?_eq_none]
  intro pair member same
  exact absent (List.mem_map.mpr ⟨pair, member, of_decide_eq_true same⟩)

/-- Whether a cell goes into an object under the key of its column. -/
def IsNamed (types : List ColumnType) (index : Nat) (cell : Cell) : Prop :=
  cell.members? = none ∧ stored types index (.ofJson cell.toJson) = cell

/-- Whether a cell is merged into an object without touching the keys of a
dictionary. -/
def IsMerged (types : List ColumnType) (pairs : List (String × Nat)) (index : Nat) (cell : Cell) :
    Prop :=
  types[index]? = some .json ∧ ∃ inner, cell = .json (.object inner) ∧ inner ≠ [] ∧
    (inner.map (·.1)).Nodup ∧ ∀ member ∈ inner, member.1 ∉ pairs.map (·.1)

/-- Cells that the columns of a dictionary get back from their object: its keys are
distinct, each cell is named or merged, and at most one column is a JSON column. -/
structure Separates (types : List ColumnType) (pairs : List (String × Nat)) (cellOf : Nat → Cell) :
    Prop where
  distinct : (pairs.map (·.1)).Nodup
  single : ∀ pair ∈ pairs, ∀ other ∈ pairs,
    types[pair.2]? = some .json → types[other.2]? = some .json → pair = other
  apart : ∀ pair ∈ pairs,
    IsNamed types pair.2 (cellOf pair.2) ∨ IsMerged types pairs pair.2 (cellOf pair.2)

/-- The members that the cells of a dictionary contribute. -/
def contributions (pairs : List (String × Nat)) (cellOf : Nat → Cell) : Json.Members :=
  pairs.flatMap fun pair => Locator.contribution pair.1 (cellOf pair.2)

section

variable {types : List ColumnType} {pairs : List (String × Nat)} {cellOf : Nat → Cell}

/-- A named cell contributes one member. -/
theorem IsNamed.contribution_eq {index : Nat} {cell : Cell} (named : IsNamed types index cell)
    (key : String) : Locator.contribution key cell = [(key, cell.toJson)] := by
  rw [Locator.contribution, named.1]

/-- No two cells contribute members with one key. A named cell contributes its own key, and
these differ; the merged cell has keys that differ among themselves and are no key of a
pair, and there is only one such cell. -/
theorem Separates.nodup_contributions (separates : Separates types pairs cellOf) :
    ((contributions pairs cellOf).map (·.1)).Nodup := by
  obtain ⟨distinct, single, apart⟩ := separates
  rw [contributions, List.map_flatMap, List.nodup_flatMap]
  constructor
  · intro pair member
    rcases apart pair member with named | ⟨_, inner, same, _, keys, _⟩
    · simp [named.contribution_eq]
    · rw [same]
      exact keys
  · apply (List.pairwise_map.mp distinct).imp_of_mem
    intro pair other member present different key first second
    rcases apart pair member with named | ⟨own, inner, same, _, _, free⟩ <;>
      rcases apart other present with otherNamed | ⟨theirs, otherInner, otherSame, _, _, otherFree⟩
    · simp only [named.contribution_eq, otherNamed.contribution_eq, List.map_cons, List.map_nil,
        List.mem_singleton] at first second
      exact different (first.symm.trans second)
    · simp only [named.contribution_eq, List.map_cons, List.map_nil, List.mem_singleton] at first
      simp only [otherSame] at second
      obtain ⟨entry, inside, rfl⟩ := List.mem_map.mp second
      exact otherFree entry inside (first ▸ List.mem_map_of_mem member)
    · simp only [otherNamed.contribution_eq, List.map_cons, List.map_nil, List.mem_singleton]
        at second
      simp only [same] at first
      obtain ⟨entry, inside, rfl⟩ := List.mem_map.mp first
      exact free entry inside (second ▸ List.mem_map_of_mem present)
    · exact different (congrArg Prod.fst (single pair member other present own theirs))

/-- The members of the object are the contributions of its cells. -/
theorem Separates.compose_eq (separates : Separates types pairs cellOf) :
    Locator.compose (pairs.map fun pair => (pair.1, cellOf pair.2)) =
      contributions pairs cellOf := by
  rw [Locator.compose, List.flatMap_map]
  exact Json.ofPairs_of_nodup separates.nodup_contributions

/-- Writing the members that a dictionary names. -/
theorem foldl_named {members : Json.Members}
    (kept : ∀ member ∈ members, ∀ index, columnOf? pairs member.1 = some index →
      stored types index (.ofJson member.2) = cellOf index) (row : Row) :
    members.foldl (fun row member =>
        match columnOf? pairs member.1 with
        | some index => write types row index (.ofJson member.2)
        | none => row) row =
      row.overwrite cellOf (members.filterMap fun member => columnOf? pairs member.1) := by
  induction members generalizing row with
  | nil => rfl
  | cons member rest inductionHypothesis =>
    obtain ⟨own, later⟩ := List.forall_mem_cons.mp kept
    rw [List.foldl_cons, inductionHypothesis later]
    cases found : columnOf? pairs member.1 with
    | none => simp only [List.filterMap_cons, found]
    | some index =>
      simp only [List.filterMap_cons, found, write_eq_set, own index found]
      rfl

/-- A contribution with a key of the dictionary comes from the named cell of that
key. -/
theorem Separates.mem_contributions (separates : Separates types pairs cellOf)
    {member : String × Json} (inside : member ∈ contributions pairs cellOf) {index : Nat}
    (place : columnOf? pairs member.1 = some index) :
    IsNamed types index (cellOf index) ∧ member.2 = (cellOf index).toJson := by
  obtain ⟨pair, present, contributed⟩ := List.mem_flatMap.mp inside
  rcases separates.apart pair present with named | ⟨_, inner, same, _, _, free⟩
  · rw [named.contribution_eq, List.mem_singleton] at contributed
    rw [contributed] at place ⊢
    have found := (columnOf?_eq_some_iff separates.distinct).mpr present
    cases found.symm.trans place
    exact ⟨named, rfl⟩
  · rw [same] at contributed
    have absent := free member contributed
    rw [columnOf?_eq_none absent] at place
    cases place

/-- The columns of named cells are those that contributions are written to by their
keys. -/
theorem Separates.mem_named_iff (separates : Separates types pairs cellOf) (index : Nat) :
    (index ∈ (contributions pairs cellOf).filterMap fun member => columnOf? pairs member.1) ↔
      ∃ pair ∈ pairs, pair.2 = index ∧ IsNamed types pair.2 (cellOf pair.2) := by
  rw [List.mem_filterMap]
  constructor
  · rintro ⟨member, inside, place⟩
    have present := (columnOf?_eq_some_iff separates.distinct).mp place
    exact ⟨_, present, rfl, (separates.mem_contributions inside place).1⟩
  · rintro ⟨pair, present, rfl, named⟩
    refine ⟨(pair.1, (cellOf pair.2).toJson), ?_,
      (columnOf?_eq_some_iff separates.distinct).mpr present⟩
    refine List.mem_flatMap.mpr ⟨pair, present, ?_⟩
    rw [named.contribution_eq]
    exact List.mem_singleton_self _

/-- Named cells leave no members over. -/
theorem IsNamed.leftovers_eq {pair : String × Nat} (named : IsNamed types pair.2 (cellOf pair.2))
    (distinct : (pairs.map (·.1)).Nodup) (present : pair ∈ pairs) :
    (Locator.contribution pair.1 (cellOf pair.2)).filter
      (fun member => (columnOf? pairs member.1).isNone) = [] := by
  rw [named.contribution_eq, List.filter_singleton, (columnOf?_eq_some_iff distinct).mpr present]
  rfl

/-- A merged cell leaves all of its members over. -/
theorem leftovers_merged {inner : Json.Members}
    (free : ∀ member ∈ inner, member.1 ∉ pairs.map (·.1)) :
    inner.filter (fun member => (columnOf? pairs member.1).isNone) = inner := by
  rw [List.filter_eq_self]
  intro member inside
  rw [columnOf?_eq_none (free member inside)]
  rfl

/-- The members that are left over are those of the merged cell, if there is one. Named
cells leave nothing over, because a key of a pair has a column. So what is left over does
not depend on where the merged cell stands among the pairs. -/
theorem Separates.leftovers_eq (separates : Separates types pairs cellOf) {pair : String × Nat}
    {inner : Json.Members} (present : pair ∈ pairs) (declared : types[pair.2]? = some .json)
    (object : cellOf pair.2 = .json (.object inner))
    (free : ∀ member ∈ inner, member.1 ∉ pairs.map (·.1)) :
    (contributions pairs cellOf).filter (fun member => (columnOf? pairs member.1).isNone) =
      inner := by
  obtain ⟨front, back, split⟩ := List.append_of_mem present
  have alone : ∀ other ∈ front ++ back, (Locator.contribution other.1 (cellOf other.2)).filter
      (fun member => (columnOf? pairs member.1).isNone) = [] := by
    intro other member
    have inside : other ∈ pairs := by
      rw [split]
      rcases List.mem_append.mp member with before | after
      · exact List.mem_append_left _ before
      · exact List.mem_append_right _ (List.mem_cons_of_mem _ after)
    rcases separates.apart other inside with named | ⟨theirs, _⟩
    · exact named.leftovers_eq separates.distinct inside
    · have same := separates.single pair present other inside declared theirs
      have once := separates.distinct.of_map
      rw [split] at once
      have apart := (List.nodup_middle.mp once)
      exact absurd (same ▸ member) (List.nodup_cons.mp apart).1
  have nothing (others : List (String × Nat)) (within : ∀ other ∈ others, other ∈ front ++ back) :
      (contributions others cellOf).filter (fun member => (columnOf? pairs member.1).isNone) = [] := by
    rw [contributions, List.filter_flatMap, List.flatMap_eq_nil_iff]
    intro other member
    exact alone other (within other member)
  have whole : contributions pairs cellOf =
      contributions front cellOf ++ (inner ++ contributions back cellOf) := by
    rw [split, contributions, List.flatMap_append, List.flatMap_cons, object]
    rfl
  rw [whole, List.filter_append, List.filter_append,
    nothing front fun _ member => List.mem_append_left _ member,
    nothing back fun _ member => List.mem_append_right _ member, leftovers_merged free,
    List.nil_append, List.append_nil]

/-- The members that are left over go to the JSON column that they were merged out of. The
column is searched for as the first of JSON type whose key is not among the members. The
merged cell has not contributed its own key, and any other column of JSON type would be this
one. -/
theorem Separates.freeJsonColumn?_eq (separates : Separates types pairs cellOf)
    {pair : String × Nat} {inner : Json.Members} (present : pair ∈ pairs)
    (declared : types[pair.2]? = some .json) (object : cellOf pair.2 = .json (.object inner)) :
    freeJsonColumn? types pairs (contributions pairs cellOf) = some pair.2 := by
  have absent : pair.1 ∉ (contributions pairs cellOf).map (·.1) := by
    intro again
    obtain ⟨member, inside, key⟩ := List.mem_map.mp again
    have place : columnOf? pairs member.1 = some pair.2 := by
      rw [columnOf?_eq_some_iff separates.distinct, key]
      exact present
    obtain ⟨⟨plain, _⟩, _⟩ := separates.mem_contributions inside place
    rw [object] at plain
    cases plain
  rw [freeJsonColumn?]
  cases found : pairs.find? fun other =>
      (Json.lookup other.1 (contributions pairs cellOf)).isNone && types[other.2]? = some .json with
  | none =>
    refine absurd ?_ (List.find?_eq_none.mp found pair present)
    simp [Json.lookup_eq_none_iff.mpr absent, declared]
  | some other =>
    have chosen : types[other.2]? = some .json := by
      have both := List.find?_some found
      simp only [Bool.and_eq_true, decide_eq_true_eq] at both
      exact both.2
    rw [Option.map_some,
      separates.single pair present other (List.mem_of_find?_eq_some found) declared chosen]

/-- Writing the members that a dictionary names gives the columns of named cells
their cells back. -/
theorem Separates.foldl_contributions (separates : Separates types pairs cellOf) (row : Row) :
    (contributions pairs cellOf).foldl (fun row member =>
        match columnOf? pairs member.1 with
        | some index => write types row index (.ofJson member.2)
        | none => row) row =
      row.overwrite cellOf
        ((contributions pairs cellOf).filterMap fun member => columnOf? pairs member.1) := by
  refine foldl_named (fun member inside index place => ?_) row
  obtain ⟨⟨_, kept⟩, same⟩ := separates.mem_contributions inside place
  rw [same, kept]

/-- The object of named cells gives all columns their cells back. Each member finds the
column that it was taken from, and cells are written into different columns, so their order
does not matter. -/
theorem Separates.writeDict_of_named {table : Table} (separates : Separates table.types pairs cellOf)
    (all : ∀ pair ∈ pairs, IsNamed table.types pair.2 (cellOf pair.2)) (row : Row) :
    writeDict table row pairs (.json (.object (contributions pairs cellOf))) =
      row.overwrite cellOf (pairs.map (·.2)) := by
  have nothing : (contributions pairs cellOf).filter
      (fun member => (columnOf? pairs member.1).isNone) = [] := by
    rw [contributions, List.filter_flatMap, List.flatMap_eq_nil_iff]
    intro pair present
    exact (all pair present).leftovers_eq separates.distinct present
  have written : writeDict table row pairs (.json (.object (contributions pairs cellOf))) =
      row.overwrite cellOf
        ((contributions pairs cellOf).filterMap fun member => columnOf? pairs member.1) := by
    simp only [writeDict, Cell.members?, nothing, List.isEmpty_nil, if_true]
    exact separates.foldl_contributions row
  rw [written]
  refine Row.overwrite_congr row cellOf fun index => (separates.mem_named_iff index).trans ?_
  rw [List.mem_map]
  constructor
  · rintro ⟨pair, present, same, _⟩
    exact ⟨pair, present, same⟩
  · rintro ⟨pair, present, same⟩
    exact ⟨pair, present, same, all pair present⟩

/-- The object of named cells and a merged one gives all columns their cells back. What the
members of the object leave over goes back into the column of the merged cell, as one
object; the other members find their columns by their keys. -/
theorem Separates.writeDict_of_merged {table : Table}
    (separates : Separates table.types pairs cellOf) {pair : String × Nat} (present : pair ∈ pairs)
    (merged : IsMerged table.types pairs pair.2 (cellOf pair.2)) (row : Row) :
    writeDict table row pairs (.json (.object (contributions pairs cellOf))) =
      row.overwrite cellOf (pairs.map (·.2)) := by
  obtain ⟨declared, inner, object, filled, _, free⟩ := merged
  have kept : stored table.types pair.2 (.json (.object inner)) = cellOf pair.2 := by
    rw [object]
    exact stored_eq declared rfl
  have written : writeDict table row pairs (.json (.object (contributions pairs cellOf))) =
      row.overwrite cellOf
        (((contributions pairs cellOf).filterMap fun member => columnOf? pairs member.1) ++
          [pair.2]) := by
    have left : inner.isEmpty = false := by simpa using filled
    simp only [writeDict, Cell.members?, separates.leftovers_eq present declared object free, left,
      Bool.false_eq_true, if_false, separates.freeJsonColumn?_eq present declared object]
    rw [write_eq_set, kept, ← Row.overwrite_append, ← separates.foldl_contributions row]
    rfl
  rw [written]
  apply Row.overwrite_congr row cellOf
  intro index
  rw [List.mem_append, List.mem_singleton, List.mem_map, separates.mem_named_iff]
  constructor
  · rintro (⟨other, inside, same, _⟩ | rfl)
    · exact ⟨other, inside, same⟩
    · exact ⟨pair, present, rfl⟩
  · rintro ⟨other, inside, rfl⟩
    rcases separates.apart other inside with own | ⟨theirs, _⟩
    · exact .inl ⟨other, inside, rfl, own⟩
    · exact .inr (congrArg Prod.snd
        (separates.single other inside pair present theirs declared))

/-- The object of a dictionary gives all of its columns their cells back. -/
theorem Separates.writeDict_eq {table : Table} (separates : Separates table.types pairs cellOf)
    (row : Row) :
    writeDict table row pairs (.json (.object (contributions pairs cellOf))) =
      row.overwrite cellOf (pairs.map (·.2)) := by
  by_cases merges : ∃ pair ∈ pairs, IsMerged table.types pairs pair.2 (cellOf pair.2)
  · obtain ⟨pair, present, merged⟩ := merges
    exact separates.writeDict_of_merged present merged row
  · refine separates.writeDict_of_named (fun pair present => ?_) row
    rcases separates.apart pair present with named | merged
    · exact named
    · exact absurd ⟨pair, present, merged⟩ merges

end

end Encoder

end EventSieve
