import EventSieve.Record.Format

/-!
# Encoding records

Encoding writes the fields of a record back to the columns that they came from.
One column gets the value of its field in its declared type; a value that does
not convert is kept as it is. A list of columns gets the parts of the text
between concatenators, but only when there are as many parts as columns. A
dictionary gets the values of its keys; members whose keys it does not name were
merged from a JSON column, and go back together to the first JSON column whose
own key the object does not have. Columns that nothing is written to are null.
-/

namespace EventSieve

namespace Encoder

/-- Writes a value to a column, in the declared type when it converts. -/
def write (types : List ColumnType) (row : Row) (index : Nat) (value : Cell) : Row :=
  match types[index]? with
  | some type =>
    match value.convert type with
    | .ok converted => row.set index converted
    | .error _ => row.set index value
  | none => row.set index value

/-- Writes the parts of a text to a list of columns. -/
def writeList (table : Table) (row : Row) (indices : List Nat) (value : Cell) : Row :=
  if value.isNull then row
  else
    let parts := Text.piecesOf table.concatenator.toList value.display.toList
    if parts.length = indices.length then
      let types := table.types
      (indices.zip parts).foldl
        (fun row (index, part) => write types row index (.text (String.ofList part))) row
    else row

/-- The column that a dictionary gives a key. -/
def columnOf? (pairs : List (String × Nat)) (key : String) : Option Nat :=
  (pairs.find? fun pair => pair.1 = key).map (·.2)

/-- The first JSON column of a dictionary whose own key an object does not have. -/
def freeJsonColumn? (types : List ColumnType) (pairs : List (String × Nat))
    (members : Json.Members) : Option Nat :=
  (pairs.find? fun pair =>
    (Json.lookup pair.1 members).isNone && types[pair.2]? = some .json).map (·.2)

/-- Writes the members of an object to the columns of a dictionary. -/
def writeDict (table : Table) (row : Row) (pairs : List (String × Nat)) (value : Cell) : Row :=
  match value.members? with
  | none => row
  | some members =>
    let types := table.types
    let named := members.foldl
      (fun row (key, item) =>
        match columnOf? pairs key with
        | some index => write types row index (.ofJson item)
        | none => row) row
    let leftovers := members.filter fun member => (columnOf? pairs member.1).isNone
    if leftovers.isEmpty then named
    else
      match freeJsonColumn? types pairs members with
      | some index => write types named index (.json (.object leftovers))
      | none => named

/-- Writes the value of one field. -/
def writeField (table : Table) (row : Row) (field : String) (value : Cell) : Row :=
  match table.locate field with
  | .absent => row
  | .single index => write table.types row index value
  | .list indices => writeList table row indices value
  | .dict pairs => writeDict table row pairs value

end Encoder

/-- The row of a record in a table. -/
def RecordFormat.encode {α : Type} (format : RecordFormat α) (table : Table) (record : α) : Row :=
  format.fields.foldl
    (fun row field => Encoder.writeField table row field (format.fieldValue record field))
    (List.replicate table.columns.length .null)

/-- Writing a value keeps the width of a row. -/
theorem Encoder.length_write (types : List ColumnType) (row : Row) (index : Nat) (value : Cell) :
    (Encoder.write types row index value).length = row.length := by
  simp only [Encoder.write]
  repeat' split
  all_goals simp

end EventSieve
