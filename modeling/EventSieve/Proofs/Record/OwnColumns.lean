import EventSieve.Proofs.Record.Accounting
import EventSieve.Proofs.Record.Untouched

/-!
# Columns that belong to one field

Writing a field makes the cell of a column from the cell that was there before and the
value of the field; no other cell of the row has a part in it. That holds of one write,
so it holds of the many writes of a list or of a dictionary, and also of the members of
an object that are left over and go to another column.

A record is therefore encoded column by column. A column that no field refers to is
null. A column that one field alone refers to holds what this field writes to an empty
row, whatever the other fields hold. On a list of columns that is nothing at all as long
as the text of the field does not have as many parts as there are columns.
-/

namespace EventSieve

/-- Steps that make the cell of a column from the cell before make it from the first cell
when all of them are made. -/
theorem Row.getElem?_foldl_congr {Entry : Type} {step : Row → Entry → Row} {entries : List Entry}
    {position : Nat} (within : ∀ entry ∈ entries, ∀ row other : Row,
      row[position]? = other[position]? → (step row entry)[position]? = (step other entry)[position]?)
    {row other : Row} (same : row[position]? = other[position]?) :
    (entries.foldl step row)[position]? = (entries.foldl step other)[position]? := by
  induction entries generalizing row other with
  | nil => exact same
  | cons entry rest inductionHypothesis =>
    obtain ⟨own, later⟩ := List.forall_mem_cons.mp within
    exact inductionHypothesis later (own row other same)

/-- A row of a table with nothing in it. -/
def Table.emptyRow (table : Table) : Row :=
  List.replicate table.columns.length .null

/-- An empty row holds null in every column. -/
theorem Table.getElem?_emptyRow {table : Table} {index : Nat} (inside : index < table.columns.length) :
    table.emptyRow[index]? = some .null := by
  rw [emptyRow, List.getElem?_replicate, if_pos inside]

namespace Encoder

variable {table : Table} {position : Nat} {row other : Row}

/-- A value that is written makes the cell of a column from the cell before. -/
theorem getElem?_write_congr (same : row[position]? = other[position]?) (types : List ColumnType)
    (index : Nat) (value : Cell) :
    (write types row index value)[position]? = (write types other index value)[position]? := by
  by_cases own : position = index
  · subst own
    have widths : position < row.length ↔ position < other.length := by
      rw [← not_iff_not, not_lt, not_lt, ← List.getElem?_eq_none_iff, same,
        List.getElem?_eq_none_iff]
    simp only [write_eq_set, List.getElem?_set, if_true, widths]
  · rw [getElem?_write_of_ne own, getElem?_write_of_ne own, same]

/-- The parts of a text make the cell of a column from the cell before. -/
theorem getElem?_writeList_congr (same : row[position]? = other[position]?) (indices : List Nat)
    (value : Cell) :
    (writeList table row indices value)[position]? =
      (writeList table other indices value)[position]? := by
  simp only [writeList]
  split
  · exact same
  · split
    · apply Row.getElem?_foldl_congr _ same
      rintro ⟨index, part⟩ - before after again
      exact getElem?_write_congr again _ _ _
    · exact same

/-- The members of an object make the cell of a column from the cell before. Which column a
member goes into depends on the members and the types, and not on the row. -/
theorem getElem?_writeDict_congr (same : row[position]? = other[position]?)
    (pairs : List (String × Nat)) (value : Cell) :
    (writeDict table row pairs value)[position]? =
      (writeDict table other pairs value)[position]? := by
  cases object : value.members? with
  | none =>
    simp only [writeDict, object]
    exact same
  | some members =>
    simp only [writeDict, object]
    -- Whatever is done with the members that are left over, the named ones come first.
    split
    case' isFalse =>
      cases freeJsonColumn? table.types pairs members
      case' some index =>
        dsimp only
        apply getElem?_write_congr
    all_goals
      apply Row.getElem?_foldl_congr _ same
      rintro ⟨key, item⟩ - before after again
      dsimp only
      cases columnOf? pairs key with
      | none => exact again
      | some index => exact getElem?_write_congr again _ _ _

/-- Writing a field makes the cell of a column from the cell before and the value of the
field alone. -/
theorem getElem?_writeField_congr (same : row[position]? = other[position]?) (field : String)
    (value : Cell) :
    (writeField table row field value)[position]? =
      (writeField table other field value)[position]? := by
  simp only [writeField]
  cases table.locate field with
  | absent => exact same
  | single index => exact getElem?_write_congr same _ _ _
  | list indices => exact getElem?_writeList_congr same _ _
  | dict pairs => exact getElem?_writeDict_congr same _ _

/-- A text that does not have as many parts as there are columns is not written. -/
theorem writeList_of_other_length {indices : List Nat} {value : Cell}
    (other : (Text.piecesOf table.concatenator.toList value.display.toList).length ≠ indices.length)
    (row : Row) : writeList table row indices value = row := by
  simp only [writeList, if_neg other, ite_self]

end Encoder

namespace RecordFormat

variable {Kind : Type} {format : RecordFormat Kind} {table : Table} {field : String} {index : Nat}

/-- Whether a field of records is the only one that refers to a column. -/
structure Owns (format : RecordFormat Kind) (table : Table) (field : String) (index : Nat) : Prop where
  member : field ∈ format.fields
  refers : index ∈ (table.locate field).indices
  alone : ∀ other ∈ format.fields, other ≠ field → index ∉ (table.locate other).indices

/-- A record is encoded to one cell for each column. -/
theorem length_encode (format : RecordFormat Kind) (table : Table) (record : Kind) :
    (format.encode table record).length = table.columns.length := by
  rw [encode, Row.length_foldl (fun _ _ => Encoder.length_writeField _ _ _ _), List.length_replicate]

/-- A column that no field of a record refers to is null. -/
theorem getElem?_encode_of_not_mem
    (apart : ∀ field ∈ format.fields, index ∉ (table.locate field).indices)
    (inside : index < table.columns.length) (record : Kind) :
    (format.encode table record)[index]? = some .null := by
  rw [encode, Row.getElem?_foldl, List.getElem?_replicate, if_pos inside]
  intro field member row
  exact Encoder.getElem?_writeField_of_not_mem (apart field member) row _

/-- The column of one field alone holds what this field writes to an empty row. -/
theorem Owns.getElem?_encode (owns : format.Owns table field index) (once : format.fields.Nodup)
    (record : Kind) :
    (format.encode table record)[index]? =
      (Encoder.writeField table table.emptyRow field (format.fieldValue record field))[index]? := by
  have apart : ∀ other ∈ format.fields, other ≠ field → ∀ position ∈ [index],
      position ∉ (table.locate other).indices := by
    intro other member different
    exact List.forall_mem_singleton.mpr (owns.alone other member different)
  have inside : index < table.columns.length := table.index_lt field index owns.refers
  obtain ⟨row, -, empty, written⟩ :=
    RecordFormat.getElem?_encode once owns.member apart record
  rw [List.forall_mem_singleton] at empty written
  rw [written]
  apply Encoder.getElem?_writeField_congr
  rw [empty inside, Table.getElem?_emptyRow inside]

/-- The columns that a list of columns has to itself stay null when the text of their
field does not have as many parts as there are columns. -/
theorem Owns.getElem?_encode_list (owns : format.Owns table field index)
    (once : format.fields.Nodup) {indices : List Nat} (place : table.locate field = .list indices)
    {record : Kind} (other : (Text.piecesOf table.concatenator.toList
      (format.fieldValue record field).display.toList).length ≠ indices.length) :
    (format.encode table record)[index]? = some .null := by
  have inside : index < table.columns.length := table.index_lt field index owns.refers
  rw [owns.getElem?_encode once, Encoder.writeField, place]
  simp only [Encoder.writeList_of_other_length other]
  exact Table.getElem?_emptyRow inside

end RecordFormat

/-- No kind of records has a field twice. -/
theorem RecordKind.nodup_fields {Kind : Type} (kind : RecordKind Kind) :
    kind.format.fields.Nodup := by
  cases kind with
  | event => decide
  | feature => decide

/-- An event or a feature is encoded to one cell for each column of a table that was
accepted. A column that none of its fields refers to is null. A column that one field alone
refers to holds what this field writes to an empty row, so records with one value in this
field have one cell there. The columns that a list has to itself are all null unless the
text of the field has as many parts as there are columns.

Proof: writing a field keeps the width of a row and leaves the cells of all other columns
alone. So a column that no field refers to keeps its null, and for one that a single field
refers to the fields in front and behind can be left out. A list whose text has another
number of parts writes nothing. -/
theorem encoding_writes_where_fields_point {name : String} {columns : List Column}
    {mapping : Mapping} {concatenator : String} {table : Table}
    (accepted : Table.make name columns mapping concatenator = .ok table) {Kind : Type}
    (kind : RecordKind Kind) (record : Kind) :
    (kind.format.encode table record).length = columns.length ∧
    (∀ index < columns.length, (∀ field ∈ kind.format.fields,
        index ∉ (mapping.locate field).indices) →
      (kind.format.encode table record)[index]? = some .null) ∧
    (∀ field index, kind.format.Owns table field index →
      (kind.format.encode table record)[index]? =
        (Encoder.writeField table table.emptyRow field (kind.format.fieldValue record field))[index]? ∧
      ∀ other : Kind, kind.format.fieldValue other field = kind.format.fieldValue record field →
        (kind.format.encode table other)[index]? = (kind.format.encode table record)[index]?) ∧
    (∀ field indices, mapping.locate field = .list indices →
      (Text.piecesOf concatenator.toList
        (kind.format.fieldValue record field).display.toList).length ≠ indices.length →
      ∀ index, kind.format.Owns table field index →
        (kind.format.encode table record)[index]? = some .null) := by
  obtain ⟨rfl, rfl, rfl, rfl⟩ := Table.make_eq_ok accepted
  have once := kind.nodup_fields
  refine ⟨kind.format.length_encode table record, ?_, ?_, ?_⟩
  · intro index inside apart
    exact RecordFormat.getElem?_encode_of_not_mem apart inside record
  · intro field index owns
    refine ⟨owns.getElem?_encode once record, ?_⟩
    intro other same
    rw [owns.getElem?_encode once, owns.getElem?_encode once, same]
  · intro field indices place parts index owns
    exact owns.getElem?_encode_list once place parts

/-- A table of rounds: a version in two columns, an object in two, one column for two
fields, and one for none. -/
def roundTable : Table where
  name := "rounds"
  columns := [⟨"round", .str, none⟩, ⟨"major", .str, none⟩, ⟨"minor", .str, none⟩,
    ⟨"level", .int, none⟩, ⟨"rest", .json, none⟩, ⟨"note", .str, none⟩]
  mapping := .ofList [("session_id", .single 0), ("app_id", .single 0),
    ("app_version", .list [1, 2]), ("event_data", .dict [("level", 3), ("rest", 4)])]
  concatenator := "."
  consistent := by decide +kernel

/-- A round whose version has three parts. -/
def roundEvent : Event where
  sessionId := "s1"
  appId := "quest"
  timestamp := Event.epoch
  eventName := "won"
  eventData := [("level", .text "3"), ("area", .text "cave")]
  eventSource := .game
  appVersion := some "1.2.3"
  appBranch := none
  logVersion := none
  timeOffset := none
  userId := none
  userData := []
  gameState := []
  eventSequenceIndex := none

/-- The column without a field and the columns of the version are null in the row of this
round. What is left over of its object stands where every round with this object has
it. -/
theorem encoding_writes_where_fields_point_rounds :
    Table.make roundTable.name roundTable.columns roundTable.mapping "." = .ok roundTable ∧
      (Event.format.encode roundTable roundEvent).length = 6 ∧
      (Event.format.encode roundTable roundEvent)[5]? = some .null ∧
      (Event.format.encode roundTable roundEvent)[2]? = some .null ∧
      ∀ other : Event, other.eventData = roundEvent.eventData →
        (Event.format.encode roundTable other)[4]? =
          some (.json (.object [("area", .text "cave")])) := by
  have accepted : Table.make roundTable.name roundTable.columns roundTable.mapping "." =
      .ok roundTable := rfl
  obtain ⟨width, free, own, parts⟩ :=
    encoding_writes_where_fields_point accepted .event roundEvent
  refine ⟨accepted, width, free 5 (by decide) (by decide), ?_, ?_⟩
  · exact parts "app_version" [1, 2] rfl (by decide) 2 ⟨by decide, by decide, by decide⟩
  · intro other same
    obtain ⟨written, agree⟩ := own "event_data" 4 ⟨by decide, by decide, by decide⟩
    have held := agree other (congrArg (fun members => Cell.json (.object members)) same)
    exact held.trans (written.trans rfl)

end EventSieve
