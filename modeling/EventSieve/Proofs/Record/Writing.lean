import EventSieve.Proofs.Text.Pieces
import EventSieve.Record.Encoder
import EventSieve.Record.Locate
import Mathlib.Data.List.Nodup

/-!
# Writing fields back

Writing a field puts cells into the columns of its locator and leaves all others
alone. When every value that is written is kept as the cell that belongs into its
column, it does not matter in which order the columns are written, or whether one
of them is written twice.

That holds for the parts of a joined text as long as none of them has the
concatenator. It holds for the members of an object when the cells that it is made
of do not get into each other's way: members that were merged out of a JSON column
have keys that the dictionary does not name, and so go back to that column.
-/

namespace EventSieve

/-- Puts the cells that belong into some columns there, one after the other. -/
def Row.overwrite (row : Row) (cellOf : Nat → Cell) (indices : List Nat) : Row :=
  indices.foldl (fun row index => row.set index (cellOf index)) row

/-- Writing some columns keeps the width of a row. -/
theorem Row.length_overwrite (row : Row) (cellOf : Nat → Cell) (indices : List Nat) :
    (row.overwrite cellOf indices).length = row.length := by
  induction indices generalizing row with
  | nil => rfl
  | cons index rest inductionHypothesis =>
    exact (inductionHypothesis (row.set index (cellOf index))).trans List.length_set

/-- A column that is written holds the cell that belongs there, and any other one
what it held before. -/
theorem Row.getElem?_overwrite (row : Row) (cellOf : Nat → Cell) (indices : List Nat)
    (position : Nat) :
    (row.overwrite cellOf indices)[position]? =
      if position ∈ indices ∧ position < row.length then some (cellOf position)
      else row[position]? := by
  induction indices generalizing row with
  | nil => simp [overwrite]
  | cons index rest inductionHypothesis =>
    have step : row.overwrite cellOf (index :: rest) =
        Row.overwrite (row.set index (cellOf index)) cellOf rest := rfl
    rw [step, inductionHypothesis, List.length_set, List.getElem?_set]
    by_cases same : position = index
    · subst same
      by_cases inside : position < row.length
      · simp [inside]
      · simp [inside]
    · simp [same, Ne.symm same]

/-- The order in which columns are written does not matter. -/
theorem Row.overwrite_congr (row : Row) (cellOf : Nat → Cell) {left right : List Nat}
    (same : ∀ index, index ∈ left ↔ index ∈ right) :
    row.overwrite cellOf left = row.overwrite cellOf right := by
  apply List.ext_getElem?
  intro position
  simp only [getElem?_overwrite, same]

/-- Writing some columns and then others is writing all of them. -/
theorem Row.overwrite_append (row : Row) (cellOf : Nat → Cell) (left right : List Nat) :
    (row.overwrite cellOf left).overwrite cellOf right = row.overwrite cellOf (left ++ right) :=
  List.foldl_append.symm

namespace Encoder

/-- What a column keeps of a value: the converted value, when it converts. -/
def stored (types : List ColumnType) (index : Nat) (value : Cell) : Cell :=
  match types[index]? with
  | some type =>
    match value.convert type with
    | .ok converted => converted
    | .error _ => value
  | none => value

/-- A column keeps a value that converts to itself. -/
theorem stored_eq {types : List ColumnType} {index : Nat} {type : ColumnType} {value converted : Cell}
    (declared : types[index]? = some type) (made : value.convert type = .ok converted) :
    stored types index value = converted := by
  simp only [stored, declared, made]

/-- Writing a value sets its column to what the column keeps. -/
theorem write_eq_set (types : List ColumnType) (row : Row) (index : Nat) (value : Cell) :
    write types row index value = row.set index (stored types index value) := by
  simp only [write, stored]
  cases types[index]? with
  | none => rfl
  | some type =>
    cases made : value.convert type with
    | ok converted => simp only [made]
    | error error => simp only [made]

/-- Writing values that are kept as the cells that belong into their columns. -/
theorem foldl_write {types : List ColumnType} {cellOf : Nat → Cell} {entries : List (Nat × Cell)}
    (kept : ∀ entry ∈ entries, stored types entry.1 entry.2 = cellOf entry.1) (row : Row) :
    entries.foldl (fun row entry => write types row entry.1 entry.2) row =
      row.overwrite cellOf (entries.map (·.1)) := by
  induction entries generalizing row with
  | nil => rfl
  | cons entry rest inductionHypothesis =>
    obtain ⟨own, later⟩ := List.forall_mem_cons.mp kept
    rw [List.foldl_cons, inductionHypothesis later, write_eq_set, own]
    rfl

/-- A joined text goes back to its columns when none of its parts has the concatenator.
Cutting the joined text gives the texts back, one for each column, and each is written as
the cell that its column keeps. -/
theorem writeList_eq {table : Table} {separator : Char} {indices : List Nat} {texts : List String}
    {cellOf : Nat → Cell} (single : table.concatenator = String.singleton separator)
    (present : texts ≠ []) (absent : ∀ text ∈ texts, separator ∉ text.toList)
    (width : indices.length = texts.length)
    (kept : ∀ entry ∈ indices.zip texts,
      stored table.types entry.1 (.text entry.2) = cellOf entry.1) (row : Row) :
    writeList table row indices (.text (table.concatenator.intercalate texts)) =
      row.overwrite cellOf indices := by
  have parts : Text.piecesOf table.concatenator.toList
      (Cell.text (table.concatenator.intercalate texts)).display.toList =
        texts.map String.toList := by
    rw [single, String.toList_singleton]
    exact Text.piecesOf_intercalate present absent
  have fits : (texts.map String.toList).length = indices.length := by
    rw [List.length_map, width]
  have columns : (indices.zip texts).map (·.1) = indices :=
    List.map_fst_zip (Nat.le_of_eq width)
  rw [writeList, if_neg (by simp [Cell.isNull])]
  simp only [parts, fits, if_true]
  have written := @foldl_write table.types cellOf
    ((indices.zip texts).map fun entry => (entry.1, .text entry.2)) (List.forall_mem_map.mpr kept) row
  rw [List.map_map] at written
  rw [List.zip_map_right, List.foldl_map]
  rw [List.foldl_map] at written
  simp only [Prod.map, id_eq, String.ofList_toList]
  exact written.trans (congrArg _ columns)

end Encoder

end EventSieve
