import EventSieve.Proofs.Cell.Conversion
import EventSieve.Proofs.Traversal
import EventSieve.Record.Decoder

/-!
# Rows of the right width always have a record

A table only mentions positions of its columns, so a row with one cell for each
column has a cell wherever a locator looks for one. Nothing else can keep a field from
being resolved: a cell that does not convert becomes its text, and the texts of a list
are joined as they are. Reading a record therefore never reports that a cell is
missing, and the width of a row alone decides whether it is decoded.

A locator is gone through once for any way to convert cells. What holds of the
conversion of each cell that it mentions, and stays true when computations are put
behind one another, holds of the whole value. That serves the strict reading, which
ends with the first cell that does not convert, and the reading with repairs.
-/

namespace EventSieve

/-- What holds of the conversion of every cell that a locator mentions, and of joining the
texts of its list, holds of the value that it gives. This is stated for any monad and any
property that values without effect have and that sequencing keeps, since fields are read
both strictly and with repairs. -/
theorem Locator.gather_holds {m : Type → Type} [Monad m] [LawfulMonad m]
    (Holds : ∀ {α : Type}, m α → Prop)
    (holdsPure : ∀ {α : Type} (value : α), Holds (pure value : m α))
    (holdsBind : ∀ {α β : Type} {first : m α} {next : α → m β},
      Holds first → (∀ value, Holds (next value)) → Holds (first >>= next))
    {locator : Locator} {convert : Nat → m Cell} {join : List Nat → m String}
    (converts : ∀ index ∈ locator.indices, Holds (convert index))
    (joins : Holds (join locator.indices)) (fallback : Cell) :
    Holds (locator.gather convert join fallback) := by
  cases locator with
  | absent => exact holdsPure fallback
  | single index => exact converts index (List.mem_singleton_self index)
  | list indices =>
    apply holdsBind joins
    intro text
    exact holdsPure (Cell.text text)
  | dict pairs =>
    have cells : ∀ pair ∈ pairs, Holds (do
        let cell ← convert pair.2
        pure (pair.1, cell) : m (String × Cell)) := by
      intro pair member
      apply holdsBind (converts pair.2 (List.mem_map_of_mem member))
      intro cell
      exact holdsPure (pair.1, cell)
    apply holdsBind (mapM_holds Holds holdsPure holdsBind cells)
    intro composed
    exact holdsPure (Cell.json (.object (compose composed)))

/-- Whether an issue is about a cell that the row has, or about a value that was found. -/
def IssueCause.HasCell : IssueCause → Prop
  | .unresolved _ => False
  | .unconverted _ (.missingCell _) => False
  | _ => True

section

variable {row : Row} {table : Table}

/-- A row of the width of a table has a cell, and the table a column, at every
position that a locator of the table mentions. -/
theorem Row.exists_cell (width : row.length = table.columns.length) {field : String} {index : Nat}
    (mentioned : index ∈ (table.locate field).indices) :
    ∃ cell column, row[index]? = some cell ∧ table.columns[index]? = some column := by
  have inside : index < table.columns.length := table.index_lt field index mentioned
  have within : index < row.length := by rwa [width]
  exact ⟨row[index], table.columns[index], List.getElem?_eq_getElem within,
    List.getElem?_eq_getElem inside⟩

/-- The texts of a list of columns are all there to be joined. -/
theorem Row.exists_join (width : row.length = table.columns.length) (field concatenator : String) :
    ∃ text, row.join concatenator (table.locate field).indices = .ok text := by
  have texts : ∀ index ∈ (table.locate field).indices, ∃ text, row.textAt index = .ok text := by
    intro index mentioned
    obtain ⟨cell, _, present, _⟩ := exists_cell width mentioned
    exact ⟨cell.display, by rw [textAt, present]⟩
  obtain ⟨found, all⟩ := exists_mapM_eq_ok texts
  exact ⟨String.intercalate concatenator found, by rw [join_eq, all]; rfl⟩

/-- The strict reading of a field never ends with a cell that the row does not have. The
property is not to end with that error. The table gives every index that a locator mentions
a column, and the row gives it a cell. -/
theorem Row.resolve_ne_missingCell (width : row.length = table.columns.length)
    (field concatenator : String) (fallback : Cell) (index : Nat) :
    row.resolve table.types concatenator fallback (table.locate field) ≠
      .error (.missingCell index) := by
  apply Locator.gather_holds (m := Except ConvertError) fun result => result ≠ .error (.missingCell index)
  · intro α value failed
    cases failed
  · intro α β first next own later
    cases first with
    | error error =>
      intro failed
      exact own (congrArg Except.error (Except.error.inj failed))
    | ok value => exact later value
  · intro position mentioned
    obtain ⟨cell, column, present, stands⟩ := exists_cell width mentioned
    have declared : table.types[position]? = some column.type := by
      rw [Table.types, List.getElem?_map, stands]
      rfl
    rw [convertAt, present, declared]
    intro failed
    cases Cell.convert_eq_error failed
  · obtain ⟨text, joined⟩ := exists_join width field concatenator
    rw [joined]
    intro failed
    cases failed

end

namespace Noted

variable {ι α β : Type} {Holds : ι → Prop}

/-- Whether something holds of every note of a computation. -/
def Every (Holds : ι → Prop) (noted : Noted ι α) : Prop :=
  ∀ note ∈ noted.notes, Holds note

/-- A value alone comes without notes. -/
theorem every_pure (value : α) : (pure value : Noted ι α).Every Holds := by
  intro note member
  cases member

/-- A note that is taken is the only one. -/
theorem every_note {entry : ι} (holds : Holds entry) : (note entry).Every Holds :=
  List.forall_mem_singleton.mpr holds

/-- The notes of a computation in two parts are those of the parts. -/
theorem Every.bind {first : Noted ι α} {next : α → Noted ι β} (own : first.Every Holds)
    (later : ∀ value, (next value).Every Holds) : (first >>= next).Every Holds := by
  intro note member
  rcases List.mem_append.mp member with front | back
  · exact own note front
  · exact later first.value note back

end Noted

namespace RowReader

/-- Whether a computation has no reason to note that a cell is missing. -/
abbrev Reads.HasCells {α : Type} (reading : Reads α) : Prop :=
  reading.Every fun issue => issue.cause.HasCell

/-- Whether a computation that may fail does not, and has no reason to note that a cell
is missing. -/
structure Succeeds {α : Type} (reading : ExceptT ConvertError Reads α) : Prop where
  value : ∃ result, reading.run.value = .ok result
  notes : Reads.HasCells reading.run

variable {reader : RowReader}

/-- The value of a field is gathered from cells that are there. The property is to come to a
value and to note nothing about a missing cell. A cell that does not convert is noted and
replaced by its text. -/
theorem succeeds_gather (width : reader.row.length = reader.table.columns.length) (field : String) :
    Succeeds ((reader.table.locate field).gather (reader.repairedAt field) reader.join
      (reader.fallback field)) := by
  apply Locator.gather_holds (m := ExceptT ConvertError Reads) Succeeds
  · intro α value
    exact ⟨⟨value, rfl⟩, Noted.every_pure _⟩
  · intro α β first next own later
    obtain ⟨result, found⟩ := own.value
    constructor
    · obtain ⟨final, reached⟩ := (later result).value
      refine ⟨final, ?_⟩
      rw [ExceptT.run_bind, Noted.value_bind, found]
      exact reached
    · rw [ExceptT.run_bind]
      apply own.notes.bind
      intro outcome
      cases outcome with
      | ok value => exact (later value).notes
      | error error => exact Noted.every_pure _
  · intro index mentioned
    obtain ⟨cell, column, present, stands⟩ := Row.exists_cell width mentioned
    simp only [repairedAt, present, stands]
    cases converts : cell.convert column.type with
    | ok converted => exact ⟨⟨converted, rfl⟩, Noted.every_pure _⟩
    | error error =>
      cases Cell.convert_eq_error converts
      exact ⟨⟨.text cell.display, rfl⟩, Noted.every_note trivial⟩
  · obtain ⟨text, joined⟩ := Row.exists_join width field reader.table.concatenator
    exact ⟨⟨text, joined⟩, Noted.every_pure _⟩

section

variable {field : String}

/-- A field is resolved without a missing cell. -/
theorem hasCells_resolve (width : reader.row.length = reader.table.columns.length) :
    (reader.resolve field).HasCells := by
  obtain ⟨⟨cell, found⟩, notes⟩ := succeeds_gather width field
  intro issue member
  rw [resolve, Noted.notes_bind, found] at member
  rcases List.mem_append.mp member with front | back
  · exact notes issue front
  · cases back

/-- The text of a field is read without a missing cell. -/
theorem hasCells_text (width : reader.row.length = reader.table.columns.length) :
    (reader.text field).HasCells := by
  apply (hasCells_resolve width).bind
  intro cell
  cases cell with
  | null | text => exact Noted.every_pure _
  | _ => exact (Noted.every_note trivial).bind fun _ => Noted.every_pure _

/-- A text that is needed is read without a missing cell. -/
theorem hasCells_requiredText (width : reader.row.length = reader.table.columns.length) :
    (reader.requiredText field).HasCells := by
  apply (hasCells_text width).bind
  intro found
  cases found with
  | some value => exact Noted.every_pure _
  | none => exact (Noted.every_note trivial).bind fun _ => Noted.every_pure _

/-- A scalar of a field is read without a missing cell. -/
theorem hasCells_scalar {Value : Type} {read? : Cell → Option Value} {expected : String}
    (width : reader.row.length = reader.table.columns.length) :
    (reader.scalar read? expected field).HasCells := by
  apply (hasCells_resolve width).bind
  intro cell
  cases cell with
  | null => exact Noted.every_pure _
  | _ =>
    dsimp only
    split
    · exact Noted.every_pure _
    · exact (Noted.every_note trivial).bind fun _ => Noted.every_pure _

/-- The object of a field is read without a missing cell. -/
theorem hasCells_object (width : reader.row.length = reader.table.columns.length) :
    (reader.object field).HasCells := by
  apply (hasCells_resolve width).bind
  intro cell
  split
  · exact Noted.every_pure _
  · exact Noted.every_pure _
  · split
    · exact Noted.every_pure _
    · exact (Noted.every_note trivial).bind fun _ => Noted.every_pure _
  · exact (Noted.every_note trivial).bind fun _ => Noted.every_pure _

/-- The list of a field is read without a missing cell. -/
theorem hasCells_list (width : reader.row.length = reader.table.columns.length) :
    (reader.list field).HasCells := by
  apply (hasCells_resolve width).bind
  intro cell
  repeat' split
  all_goals exact Noted.every_pure _

end

end RowReader

open RowReader

/-- An event is read without a missing cell. An issue about the time or the source is about
a value that was found, and all other issues come from reading single fields. -/
theorem Event.hasCells_read {reader : RowReader}
    (width : reader.row.length = reader.table.columns.length) : (read reader).HasCells := by
  have timestamp : (readTimestamp reader).HasCells := by
    apply (hasCells_scalar width).bind
    intro found
    cases found with
    | some value => exact Noted.every_pure _
    | none => exact (Noted.every_note trivial).bind fun _ => Noted.every_pure _
  have source : (readSource reader).HasCells := by
    apply (hasCells_text width).bind
    intro found
    cases found with
    | none => exact Noted.every_pure _
    | some word =>
      dsimp only
      split
      · exact Noted.every_pure _
      · exact (Noted.every_note trivial).bind fun _ => Noted.every_pure _
  refine timestamp.bind fun _ => source.bind fun _ => ?_
  refine (hasCells_requiredText width).bind fun _ => (hasCells_requiredText width).bind fun _ =>
    (hasCells_requiredText width).bind fun _ => (hasCells_object width).bind fun _ => ?_
  refine (hasCells_text width).bind fun _ => (hasCells_text width).bind fun _ =>
    (hasCells_text width).bind fun _ => (hasCells_scalar width).bind fun _ => ?_
  refine (hasCells_text width).bind fun _ => (hasCells_object width).bind fun _ =>
    (hasCells_object width).bind fun _ => (hasCells_scalar width).bind fun _ => ?_
  exact Noted.every_pure _

/-- A feature is read without a missing cell. -/
theorem Feature.hasCells_read {reader : RowReader}
    (width : reader.row.length = reader.table.columns.length) : (read reader).HasCells := by
  refine (hasCells_list width).bind fun _ => (hasCells_requiredText width).bind fun _ => ?_
  refine (hasCells_requiredText width).bind fun _ => (hasCells_requiredText width).bind fun _ =>
    (hasCells_scalar width).bind fun _ => (hasCells_requiredText width).bind fun _ => ?_
  refine (hasCells_text width).bind fun _ => (hasCells_requiredText width).bind fun _ =>
    (hasCells_list width).bind fun _ => ?_
  exact Noted.every_pure _

/-- A decoder ends with an error exactly for a row of another width, and the error has
both widths and the number of rows before. -/
theorem Decoder.decode_eq_error_iff {α : Type} (decoder : Decoder) (format : RecordFormat α)
    (progress : Progress) (row : Row) (error : RowLengthError) :
    (decoder.decode format progress row).1 = .error error ↔
      row.length ≠ decoder.table.columns.length ∧
        error = ⟨decoder.table.name, progress.rowsSeen, decoder.table.columns.length, row.length⟩ := by
  rw [decode]
  split
  · rename_i fits
    simp [fits]
  · rename_i other
    simp [other, eq_comm]

/-- Decoding with a table that was accepted fails for rows of another width than the number
of its columns and for no others, for events and for features, with both widths in the
error. In a row of that width no field ends the strict reading with a missing cell, and
neither a field by itself nor a whole record has an issue that says so, whatever the cells,
the fallbacks and the diagnostics are.

Proof: decoding compares the width and nothing else before a record is read. In a row of
that width every index of a locator has a cell, because the table has a column for it; so
gathering the cells of a field does not miss one, in either reading, and records are read
field by field. -/
theorem decoding_fails_by_width_alone {name : String} {columns : List Column} {mapping : Mapping}
    {concatenator : String} {table : Table}
    (accepted : Table.make name columns mapping concatenator = .ok table)
    (fallback : String → Cell) (failFast : Bool) (progress : Progress) (row : Row) :
    let decoder : Decoder := ⟨table, fallback, failFast⟩
    (∀ error : RowLengthError,
      ((decoder.decode Event.format progress row).1 = .error error ↔
        row.length ≠ columns.length ∧
          error = ⟨name, progress.rowsSeen, columns.length, row.length⟩) ∧
      ((decoder.decode Feature.format progress row).1 = .error error ↔
        row.length ≠ columns.length ∧
          error = ⟨name, progress.rowsSeen, columns.length, row.length⟩)) ∧
    (row.length = columns.length →
      (∀ field index, row.resolve table.types concatenator (fallback field) (table.locate field) ≠
        .error (.missingCell index)) ∧
      (∀ field, (RowReader.resolve ⟨table, row, fallback⟩ field).HasCells) ∧
      (decoder.readRow Event.format row).HasCells ∧
      (decoder.readRow Feature.format row).HasCells) := by
  obtain ⟨rfl, rfl, rfl, rfl⟩ := Table.make_eq_ok accepted
  intro decoder
  constructor
  · intro error
    constructor
    · exact decoder.decode_eq_error_iff Event.format progress row error
    · exact decoder.decode_eq_error_iff Feature.format progress row error
  · intro width
    refine ⟨?_, ?_, ?_, ?_⟩
    · intro field index
      exact Row.resolve_ne_missingCell width field table.concatenator (fallback field) index
    · intro field
      exact hasCells_resolve width
    · exact Event.hasCells_read width
    · exact Feature.hasCells_read width

/-- A text, a number and an object. -/
def scoreColumns : List Column :=
  [⟨"player", .str, none⟩, ⟨"score", .int, none⟩, ⟨"extra", .json, none⟩]

/-- One field in two columns, and one made of a number and what an object holds. -/
def scoreMapping : Mapping :=
  [("event_data", .dict [("score", 1), ("extra", 2)]), ("session_id", .list [0, 1])]

/-- Cells of which two do not convert. -/
def scoreRow : Row := [.null, .text "many", .text "\x7b"]

/-- A table of scores is accepted. A row without its last cell is an error with both
widths; a row with cells that do not convert is none, and its issues are about cells
that are there. -/
theorem decoding_fails_by_width_alone_scores :
    ∃ table, Table.make "scores" scoreColumns scoreMapping "." = .ok table ∧
      ((⟨table, fun _ => .null, true⟩ : Decoder).decode Event.format (.start true)
          (scoreRow.take 2)).1 = .error ⟨"scores", 0, 3, 2⟩ ∧
      (∀ error, ((⟨table, fun _ => .null, true⟩ : Decoder).decode Feature.format (.start true)
          scoreRow).1 ≠ .error error) ∧
      ((⟨table, fun _ => .null, true⟩ : Decoder).readRow Event.format scoreRow).HasCells := by
  obtain ⟨table, accepted⟩ : ∃ table, Table.make "scores" scoreColumns scoreMapping "." =
      .ok table := ⟨_, rfl⟩
  have width : scoreRow.length = scoreColumns.length := rfl
  refine ⟨table, accepted, ?_, ?_, ?_⟩
  · have narrow := decoding_fails_by_width_alone accepted (fun _ => .null) true (.start true)
      (scoreRow.take 2)
    exact (narrow.1 _).1.mpr ⟨by decide, rfl⟩
  · have whole := decoding_fails_by_width_alone accepted (fun _ => .null) true (.start true)
      scoreRow
    intro error failed
    exact ((whole.1 error).2.mp failed).1 width
  · have whole := decoding_fails_by_width_alone accepted (fun _ => .null) true (.start true)
      scoreRow
    exact (whole.2 width).2.2.1

end EventSieve
