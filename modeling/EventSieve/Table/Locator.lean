/-!
# Where a logical field stands in a row

A logical field of a record is backed by no column, by one, by several whose
texts are joined, or by several that make up one object key by key. A mapping
gives fields their locators; it is kept in the order of the field names, and a
field that it does not name is absent.
-/

namespace EventSieve

/-- The columns behind one logical field, by their positions. -/
inductive Locator where
  | absent
  | single (index : Nat)
  | list (indices : List Nat)
  | dict (pairs : List (String × Nat))
deriving DecidableEq, Repr

/-- The positions that a locator refers to, in order. -/
def Locator.indices : Locator → List Nat
  | .absent => []
  | .single index => [index]
  | .list indices => indices
  | .dict pairs => pairs.map (·.2)

/-- Whether a locator suits a row of so many columns: a list is not empty, and every
position is that of a column. -/
def Locator.Fits (columns : Nat) (locator : Locator) : Prop :=
  locator ≠ .list [] ∧ ∀ index ∈ locator.indices, index < columns

/-- The locators of logical fields, by field name in ascending order. -/
abbrev Mapping := List (String × Locator)

namespace Mapping

/-- Gives a field its locator, in place of an earlier one. -/
def insert (field : String) (locator : Locator) : Mapping → Mapping
  | [] => [(field, locator)]
  | (name, other) :: rest =>
    match compare field name with
    | .lt => (field, locator) :: (name, other) :: rest
    | .eq => (field, locator) :: rest
    | .gt => (name, other) :: insert field locator rest

/-- The mapping of a list of pairs; later pairs replace earlier ones. -/
def ofList (pairs : List (String × Locator)) : Mapping :=
  pairs.foldl (fun mapping pair => insert pair.1 pair.2 mapping) []

/-- The locator of a field. -/
def locate (field : String) : Mapping → Locator
  | [] => .absent
  | (name, locator) :: rest => if name = field then locator else locate field rest

/-- A locator that was just given is found. -/
theorem locate_insert_same (field : String) (locator : Locator) (mapping : Mapping) :
    locate field (insert field locator mapping) = locator := by
  induction mapping with
  | nil => simp [insert, locate]
  | cons entry rest inductionHypothesis =>
    simp only [insert]
    split
    · simp [locate]
    · simp [locate]
    · rename_i after
      have different : entry.1 ≠ field := by
        intro same
        simp [same] at after
      simp [locate, different, inductionHypothesis]

/-- Giving a field its locator leaves the other fields alone. -/
theorem locate_insert_other {field other : String} (different : field ≠ other) (locator : Locator)
    (mapping : Mapping) : locate other (insert field locator mapping) = locate other mapping := by
  induction mapping with
  | nil => simp [insert, locate, different]
  | cons entry rest inductionHypothesis =>
    simp only [insert]
    split
    · simp [locate, different]
    · rename_i same
      have equal : field = entry.1 := by simpa using same
      simp [locate, different, ← equal]
    · simp [locate, inductionHypothesis]

/-- A field that no pair names has the locator it had before. -/
theorem locate_foldl_of_not_mem {pairs : List (String × Locator)} {field : String}
    (unnamed : field ∉ pairs.map (·.1)) (mapping : Mapping) :
    locate field (pairs.foldl (fun mapping pair => insert pair.1 pair.2 mapping) mapping) =
      locate field mapping := by
  induction pairs generalizing mapping with
  | nil => rfl
  | cons pair rest inductionHypothesis =>
    rw [List.map_cons, List.mem_cons, not_or] at unnamed
    rw [List.foldl_cons, inductionHypothesis unnamed.2, locate_insert_other (Ne.symm unnamed.1)]

/-- A field that no pair names is absent. -/
theorem locate_ofList_of_not_mem {pairs : List (String × Locator)} {field : String}
    (unnamed : field ∉ pairs.map (·.1)) : locate field (ofList pairs) = .absent :=
  locate_foldl_of_not_mem unnamed []

/-- A field that one pair names has the locator of this pair. -/
theorem locate_ofList_of_mem {pairs : List (String × Locator)}
    (distinct : (pairs.map (·.1)).Nodup) {field : String} {locator : Locator}
    (given : (field, locator) ∈ pairs) : locate field (ofList pairs) = locator := by
  obtain ⟨front, back, rfl⟩ := List.append_of_mem given
  rw [List.map_append, List.map_cons] at distinct
  have later : field ∉ back.map (·.1) :=
    (List.nodup_cons.mp (List.nodup_append.mp distinct).2.1).1
  rw [ofList, List.foldl_append, List.foldl_cons, locate_foldl_of_not_mem later,
    locate_insert_same]

/-- The entries of a mapping come from the pairs that it was made of. -/
theorem mem_of_mem_insert {field : String} {locator : Locator} {mapping : Mapping}
    {entry : String × Locator} (inside : entry ∈ insert field locator mapping) :
    entry = (field, locator) ∨ entry ∈ mapping := by
  induction mapping with
  | nil => simpa [insert] using inside
  | cons first rest inductionHypothesis =>
    simp only [insert] at inside
    split at inside
    · exact List.mem_cons.mp inside
    · rcases List.mem_cons.mp inside with same | later
      · exact Or.inl same
      · exact Or.inr (List.mem_cons_of_mem _ later)
    · rcases List.mem_cons.mp inside with same | later
      · exact Or.inr (List.mem_cons.mpr (Or.inl same))
      · exact (inductionHypothesis later).imp_right (List.mem_cons_of_mem _)

/-- Entries of a mapping after some more pairs are among these pairs, or were there. -/
theorem mem_of_mem_foldl {pairs : List (String × Locator)} {mapping : Mapping}
    {entry : String × Locator}
    (inside : entry ∈ pairs.foldl (fun mapping pair => insert pair.1 pair.2 mapping) mapping) :
    entry ∈ pairs ∨ entry ∈ mapping := by
  induction pairs generalizing mapping with
  | nil => exact Or.inr inside
  | cons pair rest inductionHypothesis =>
    rcases inductionHypothesis inside with later | earlier
    · exact Or.inl (List.mem_cons_of_mem _ later)
    · rcases mem_of_mem_insert earlier with rfl | old
      · exact Or.inl List.mem_cons_self
      · exact Or.inr old

/-- Every entry of a mapping that was made of pairs is one of them. -/
theorem mem_of_mem_ofList {pairs : List (String × Locator)} {entry : String × Locator}
    (inside : entry ∈ ofList pairs) : entry ∈ pairs :=
  (mem_of_mem_foldl inside).resolve_right List.not_mem_nil

end Mapping

end EventSieve
