import EventSieve.Cell.ColumnType
import EventSieve.Table.Error
import EventSieve.Table.Locator

/-!
# Tables

A table has a name, its columns in their order, a mapping from logical fields to
columns, and a text that joins the parts of composed fields. No two columns
share a name, no list of columns is empty, and every position that the mapping
mentions is that of a column. These checks are part of the type, so no reader of
rows has to repeat them.
-/

namespace EventSieve

namespace Table

/-- The first name that stands a second time in a list of names. -/
def repeated? : List String → List String → Option String
  | _, [] => none
  | seen, name :: rest => if seen.contains name then some name else repeated? (name :: seen) rest

/-- What is wrong with one entry of a mapping over so many columns. -/
def entryError? (name : String) (columns : Nat) (entry : String × Locator) : Option TableError :=
  if entry.2 = .list [] then some (.invalidLocator entry.1 .emptyList)
  else (entry.2.indices.find? fun index => columns ≤ index).map fun index =>
    .indexOutOfRange name entry.1 index columns

/-- The first thing that is wrong with the parts of a table: a repeated column
name comes before every fault of the mapping. -/
def error? (name : String) (columns : List Column) (mapping : Mapping) : Option TableError :=
  match repeated? [] (columns.map (·.name)) with
  | some column => some (.duplicateColumn name column)
  | none => mapping.findSome? (entryError? name columns.length)

end Table

/-- The columns of a data source with the logical fields they hold. -/
structure Table where
  name : String
  columns : List Column
  mapping : Mapping
  concatenator : String
  consistent : Table.error? name columns mapping = none

namespace Table

/-- The text that joins the parts of composed fields unless a table says otherwise. -/
def defaultConcatenator : String := "."

/-- Builds a table when its parts fit together. -/
def make (name : String) (columns : List Column) (mapping : Mapping) (concatenator : String) :
    Except TableError Table :=
  match verdict : error? name columns mapping with
  | none => .ok ⟨name, columns, mapping, concatenator, verdict⟩
  | some error => .error error

/-- A table that was made has the parts that it was made of. -/
theorem make_eq_ok {name : String} {columns : List Column} {mapping : Mapping}
    {concatenator : String} {table : Table}
    (made : make name columns mapping concatenator = .ok table) :
    table.name = name ∧ table.columns = columns ∧ table.mapping = mapping ∧
      table.concatenator = concatenator := by
  simp only [make] at made
  split at made
  · cases made
    exact ⟨rfl, rfl, rfl, rfl⟩
  · cases made

/-- The declared types of the columns in their order. -/
def types (table : Table) : List ColumnType :=
  table.columns.map (·.type)

/-- The position of the first column of a name in a list of columns. -/
def positionIn? (columns : List Column) (name : String) : Option Nat :=
  columns.findIdx? fun column => column.name = name

/-- The position of the column of a name. -/
def position? (table : Table) (name : String) : Option Nat :=
  positionIn? table.columns name

/-- The locator of a logical field. -/
def locate (table : Table) (field : String) : Locator :=
  table.mapping.locate field

/-- A locator found in a mapping is one of its entries, or absent. -/
theorem locate_mem (field : String) (mapping : Mapping) :
    mapping.locate field = .absent ∨ (field, mapping.locate field) ∈ mapping := by
  induction mapping with
  | nil => exact Or.inl rfl
  | cons entry rest inductionHypothesis =>
    by_cases same : entry.1 = field
    · subst same
      exact Or.inr (by simp [Mapping.locate])
    · rcases inductionHypothesis with absent | found
      · exact Or.inl (by simpa [Mapping.locate, same] using absent)
      · exact Or.inr (by simpa [Mapping.locate, same] using Or.inr found)

/-- No name stands a second time exactly when the names are distinct and none was seen
before. The induction is on the names, with any names seen before them. -/
theorem repeated?_eq_none_iff {seen names : List String} :
    repeated? seen names = none ↔ names.Nodup ∧ ∀ name ∈ names, name ∉ seen := by
  induction names generalizing seen with
  | nil => simp [repeated?]
  | cons name rest inductionHypothesis =>
    simp only [repeated?, List.contains_eq_mem, decide_eq_true_eq, List.nodup_cons,
      List.forall_mem_cons]
    split
    · rename_i again
      simp [again]
    · rename_i fresh
      rw [inductionHypothesis]
      constructor
      · rintro ⟨distinct, others⟩
        refine ⟨⟨fun again => others name again List.mem_cons_self, distinct⟩, fresh, ?_⟩
        intro other member inside
        exact others other member (List.mem_cons_of_mem _ inside)
      · rintro ⟨⟨apart, distinct⟩, -, others⟩
        refine ⟨distinct, ?_⟩
        intro other member inside
        rcases List.mem_cons.mp inside with rfl | earlier
        · exact apart member
        · exact others other member earlier

/-- Nothing is wrong with an entry exactly when its locator suits the columns. -/
theorem entryError?_eq_none_iff {name : String} {columns : Nat} {entry : String × Locator} :
    entryError? name columns entry = none ↔ entry.2.Fits columns := by
  simp only [entryError?, Locator.Fits]
  split
  · rename_i empty
    simp [empty]
  · rename_i present
    simp [present]

/-- Nothing is wrong with the parts of a table exactly when no two columns share a name
and every locator suits the columns. -/
theorem error?_eq_none_iff {name : String} {columns : List Column} {mapping : Mapping} :
    error? name columns mapping = none ↔
      (columns.map (·.name)).Nodup ∧ ∀ entry ∈ mapping, entry.2.Fits columns.length := by
  have distinct : repeated? [] (columns.map (·.name)) = none ↔ (columns.map (·.name)).Nodup := by
    simp [repeated?_eq_none_iff]
  simp only [error?]
  split
  · rename_i column again
    rw [← distinct, again]
    simp
  · rename_i absent
    simp [distinct.mp absent, entryError?_eq_none_iff]

/-- Parts make a table exactly when nothing is wrong with them. -/
theorem exists_make_eq_ok_iff {name : String} {columns : List Column} {mapping : Mapping}
    {concatenator : String} :
    (∃ table, make name columns mapping concatenator = .ok table) ↔
      error? name columns mapping = none := by
  simp only [make]
  split
  · rename_i verdict
    simp [verdict]
  · rename_i error verdict
    simp [verdict]

/-- The locator of a field suits the columns. -/
theorem locate_fits (table : Table) (field : String) :
    (table.locate field).Fits table.columns.length := by
  rcases locate_mem field table.mapping with absent | found
  · rw [locate, absent]
    simp [Locator.Fits, Locator.indices]
  · exact (error?_eq_none_iff.mp table.consistent).2 _ found

/-- Every position that a table's locators mention is that of one of its columns. -/
theorem index_lt (table : Table) (field : String) (index : Nat)
    (mentioned : index ∈ (table.locate field).indices) : index < table.columns.length :=
  (table.locate_fits field).2 index mentioned

/-- No two columns of a table share a name. -/
theorem nodup_names (table : Table) : (table.columns.map (·.name)).Nodup :=
  (error?_eq_none_iff.mp table.consistent).1

/-- A list of columns that a table gives a field is not empty. -/
theorem list_ne_nil (table : Table) {field : String} {indices : List Nat}
    (place : table.locate field = .list indices) : indices ≠ [] := by
  rintro rfl
  exact (table.locate_fits field).1 place

end Table

end EventSieve
