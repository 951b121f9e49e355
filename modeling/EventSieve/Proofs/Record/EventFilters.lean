import EventSieve.Proofs.Clause.MaskAgreement
import EventSieve.Proofs.Record.Rereading
import EventSieve.Record.Decoder

/-!
# Masks and decoded events

Rows can be filtered by masks before they are decoded, or events by their values
afterwards. Masks find a cell by the name of its column and read it into the domain of
the filter; a decoder finds it by its position, converts it to the declared type and
reads the field from what came out. Since no two columns of a table share a name, both
look at the same cell, and a filter gets the same value both ways when the field has a
single column of the type that fits it and the cell stands for a value.
-/

namespace EventSieve

open EventSieve.Filter (Field)

/-- The value of an event in a field that can be filtered; an event has no code. -/
def Event.filterValue? (event : Event) : (field : Field) → Option field.domain.Carrier
  | .session => some event.sessionId
  | .player => event.userId
  | .timestamp => some event.timestamp
  | .sessionIndex => event.eventSequenceIndex
  | .logVersion => event.logVersion.map Version.ofText
  | .appVersion => event.appVersion.map Version.ofText
  | .appBranch => event.appBranch
  | .eventName => some event.eventName
  | .eventCode => none

/-- Whether every filter that restricts something accepts the value of an event. -/
def Event.Passes (event : Event) (collection : FilterCollection) : Prop :=
  ∀ field ∈ collection.activeFields, ∃ value, event.filterValue? field = some value ∧
    (collection.filter field).accepts value = true

/-- The fields whose values an event takes from the row alone. -/
def Event.filterFields : List Field :=
  [.session, .player, .appBranch, .eventName, .appVersion, .logVersion, .timestamp]

/-- Whether a field has a single column, of the type that fits it. -/
def Table.Holds (table : Table) (field : Field) (index : Nat) (column : Column) : Prop :=
  table.locate field.logicalField = .single index ∧ table.columns[index]? = some column ∧
    column.type = field.domain.columnType

/-- Whether a cell stands for a value of a field: versions are texts, and the time is an
instant or a text that spells one. -/
def Filter.Field.IsShownBy (field : Field) (cell : Cell) : Prop :=
  cell.isNullLike = false ∧
    match field.domain with
    | .version => ∃ text, cell = .text text
    | .instant => ∃ instant, cell.instant? = some instant
    | _ => True

/-- The first column of a frame with the name of a column of a table is that column, when
the frame has the columns of the table. Names of columns of a table differ, so no column in
front has the name. -/
theorem Table.columnIndex?_eq {table : Table} {frame : Frame}
    (columns : frame.columns = table.columns.map (·.name)) {index : Nat} {column : Column}
    (stands : table.columns[index]? = some column) :
    frame.columnIndex? column.name = some index := by
  have named : frame.columns[index]? = some column.name := by
    rw [columns, List.getElem?_map, stands]
    rfl
  have distinct : frame.columns.Nodup := columns ▸ table.nodup_names
  obtain ⟨inside, same⟩ := List.getElem?_eq_some_iff.mp named
  rw [Frame.columnIndex?]
  apply List.findIdx?_eq_some_iff_getElem.mpr
  refine ⟨inside, by simpa using same, ?_⟩
  intro earlier before
  have within : earlier < frame.columns.length := by omega
  have apart : frame.columns[earlier] ≠ frame.columns[index] := by
    intro again
    have equal := (distinct.getElem_inj_iff).mp again
    omega
  rw [same] at apart
  simpa using apart

namespace Cell

/-- In a column of texts a cell that stands for a value is read as its text. -/
theorem repaired_str_of_known {cell : Cell} (known : cell.isNullLike = false) :
    cell.repaired .str = .text cell.display := by
  simp [repaired, convert, known, toType?]

/-- In a column of instants a cell that spells one is read as that instant. -/
theorem repaired_datetime_of_instant? {cell : Cell} {instant : Time.Instant}
    (known : cell.isNullLike = false) (spelled : cell.instant? = some instant) :
    cell.repaired .datetime = .instant instant := by
  have converted : cell.toInstant? = some (.instant instant) := by
    cases cell with
    | instant value =>
      cases spelled
      rfl
    | text value =>
      have read : Time.instant? value = some instant := spelled
      rw [toInstant?, read]
      rfl
    | null | boolean | integer | float | span | zone | json => cases spelled
  simp [repaired, convert, known, toType?, converted]

/-- The text of a cell that stands for a value is its reading as a text. -/
theorem textOfCell?_of_known {cell : Cell} (known : cell.isNullLike = false) :
    Filter.Domain.textOfCell? cell = some cell.display := by
  cases cell with
  | null => cases known
  | _ => rfl

end Cell

namespace Event

/-- Taking a place in a session changes none of the values that come from the row alone. -/
theorem filterValue?_complete {field : Field} (member : field ∈ filterFields)
    (sequence : SessionSequence) (event : Event) :
    (complete sequence event).1.filterValue? field = event.filterValue? field := by
  cases field with
  | sessionIndex | eventCode => exact absurd member (by decide)
  | _ => rfl

/-- The value of a decoded event in a field is the reading of the cell that the mask of a
filter on the field looks at. The cell shows a value of the kind of the field, so it is
repaired to what a mask reads. The fields are gone through by the kind of value that they
read. -/
theorem filterValue?_read {reader : RowReader} {field : Field} {index : Nat} {column : Column}
    {cell : Cell} (member : field ∈ filterFields) (holds : reader.table.Holds field index column)
    (present : reader.row[index]? = some cell) (shown : field.IsShownBy cell) :
    (read reader).value.filterValue? field = field.domain.ofCell? cell := by
  obtain ⟨place, stands, type⟩ := holds
  obtain ⟨known, spelled⟩ := shown
  have declared : reader.table.types[index]? = some field.domain.columnType := by
    rw [Table.types, List.getElem?_map, stands, ← type]
    rfl
  have found : (reader.resolve field.logicalField).value =
      cell.repaired field.domain.columnType :=
    RowReader.value_resolve_repaired place present declared
  rw [value_read]
  cases field with
  | session | eventName =>
    have text := found.trans (Cell.repaired_str_of_known known)
    have read := RowReader.value_requiredText_of_text text
    exact (congrArg some read).trans (Cell.textOfCell?_of_known known).symm
  | player | appBranch =>
    have text := found.trans (Cell.repaired_str_of_known known)
    have read := RowReader.value_text_of_text text
    exact read.trans (Cell.textOfCell?_of_known known).symm
  | appVersion | logVersion =>
    obtain ⟨version, rfl⟩ := spelled
    have text := found.trans (Cell.repaired_str_of_known known)
    have read := RowReader.value_text_of_text text
    exact congrArg (Option.map Version.ofText) read
  | timestamp =>
    obtain ⟨instant, spells⟩ := spelled
    have time := found.trans (Cell.repaired_datetime_of_instant? known spells)
    have read := value_readTimestamp time
    exact (congrArg some read).trans spells.symm
  | sessionIndex | eventCode => exact absurd member (by decide)

end Event

/-- Whether every filter of a collection is on a field that an event takes from the row
alone, with a single column of the type that fits it. -/
def Table.Places (table : Table) (collection : FilterCollection) : Prop :=
  ∀ field ∈ collection.activeFields, field ∈ Event.filterFields ∧
    ∃ index column, table.Holds field index column

/-- Whether the cells of a row that filters are about stand for values. -/
def Row.Shows (row : Row) (table : Table) (collection : FilterCollection) : Prop :=
  ∀ field ∈ collection.activeFields, ∀ index cell,
    table.locate field.logicalField = .single index → row[index]? = some cell →
      field.IsShownBy cell

section

variable {table : Table} {collection : FilterCollection}

/-- A filter of a table is compared with the column that holds its field. -/
theorem Table.Holds.target_eq {field : Field} {index : Nat} {column : Column}
    (holds : table.Holds field index column) :
    (Bindings.ofTable table).target field = .column ⟨column.name, column.type⟩ := by
  obtain ⟨place, stands, _⟩ := holds
  simp only [Bindings.ofTable, place, Bindings.targetOf, stands]

/-- A row of a table passes the masks of a collection exactly when the event that is read
from it has a value in each filtered field and passes the filters.

Proof: for every active field there is one column, one cell of the row in it and one value
of the event, and the value is the reading of that cell. The mask on the column accepts the
cell when the filter accepts this reading, so the two sides are compared field by field. -/
theorem Row.passes_iff {decoder : Decoder} {frame : Frame} {row : Row}
    (placed : decoder.table.Places collection)
    (columns : frame.columns = decoder.table.columns.map (·.name)) (member : row ∈ frame.rows)
    (shows : row.Shows decoder.table collection) (sequence : SessionSequence) :
    (∀ field binding cell, (Bindings.ofTable decoder.table).Compares collection field binding →
        frame.cell? row binding.column = some cell →
          (Mask.ofReading binding.column (collection.filter field)).accepts cell = true) ↔
      (Event.complete sequence (decoder.readRow Event.format row).value).1.Passes collection := by
  have same (field : Field) (active : field ∈ collection.activeFields) :
      ∃ (column : Column) (cell : Cell), (Bindings.ofTable decoder.table).target field =
          .column ⟨column.name, column.type⟩ ∧
        frame.cell? row column.name = some cell ∧
        (Event.complete sequence (decoder.readRow Event.format row).value).1.filterValue? field =
          field.domain.ofCell? cell := by
    obtain ⟨comparable, index, column, holds⟩ := placed field active
    have position := Table.columnIndex?_eq columns holds.2.1
    have inside : index < row.length := by
      rw [frame.rectangular row member]
      exact (List.findIdx?_eq_some_iff_getElem.mp position).1
    have present : row[index]? = some row[index] := List.getElem?_eq_getElem inside
    refine ⟨column, row[index], holds.target_eq, ?_, ?_⟩
    · rw [Frame.cell?, position]
      exact present
    · rw [Event.filterValue?_complete comparable]
      exact Event.filterValue?_read comparable holds present
        (shows field active index row[index] holds.1 present)
  constructor
  · intro all field active
    obtain ⟨column, cell, target, known, value⟩ := same field active
    have restricts := FilterCollection.mem_activeFields_iff.mp active
    have accepted := all field _ cell ⟨restricts, target⟩ known
    rw [value]
    exact Mask.ofReading_accepts_iff.mp accepted
  · intro passes field binding cell compares known
    have active := FilterCollection.mem_activeFields_iff.mpr compares.1
    obtain ⟨column, other, target, found, value⟩ := same field active
    cases target.symm.trans compares.2
    cases found.symm.trans known
    apply Mask.ofReading_accepts_iff.mpr
    rw [← value]
    exact passes field active

end

/-- Filtering rows by masks and filtering the events that are decoded from them is the same.
When filters are on fields with a single column of the type that fits them, and the frame
has the columns of the table, the masks keep a row whose filtered cells stand for values
exactly when every filter accepts the value of the event that the row is decoded to,
whatever was decoded before it.

Proof: the fields have columns, so compilation gives one mask for each active field, and
each mask finds its column in the frame. Evaluating them keeps a row when all of them accept
its cells, and the row, which has the width of the table, is decoded to an event whose
values are the readings of these cells. -/
theorem mask_keeps_iff_event_passes {decoder : Decoder} {collection : FilterCollection}
    {masks : MaskClause} {frame : Frame}
    (compiled : MaskClause.ofCollection (Bindings.ofTable decoder.table) collection = .ok masks)
    (placed : decoder.table.Places collection)
    (columns : frame.columns = decoder.table.columns.map (·.name)) :
    ∃ verdicts, masks.evaluate frame = .ok verdicts ∧
      List.Forall₂ (fun row verdict => row.Shows decoder.table collection →
        ∀ progress, ∃ event later,
          decoder.decode Event.format progress row = (.ok event, later) ∧
          (verdict = true ↔ event.Passes collection)) frame.rows verdicts := by
  obtain ⟨⟨⟩, valid, _⟩ := bind_eq_ok_iff.mp compiled
  have targets : ∀ field, (collection.filter field).isTrivial = false →
      ∃ binding, (Bindings.ofTable decoder.table).target field = .column binding := by
    intro field restricts
    obtain ⟨_, _, _, holds⟩ := placed field (FilterCollection.mem_activeFields_iff.mpr restricts)
    exact ⟨_, holds.target_eq⟩
  obtain ⟨made, same, reads, every⟩ := MaskClause.ofCollection_of_targets valid targets
  cases same.symm.trans compiled
  have present : ∀ field binding, (Bindings.ofTable decoder.table).Compares collection field binding →
      binding.column ∈ frame.columns := by
    rintro field binding ⟨restricts, target⟩
    obtain ⟨_, index, column, holds⟩ :=
      placed field (FilterCollection.mem_activeFields_iff.mpr restricts)
    cases holds.target_eq.symm.trans target
    rw [columns]
    exact List.mem_map_of_mem (List.mem_of_getElem? holds.2.1)
  obtain ⟨verdicts, evaluated, keeps⟩ := MaskClause.evaluate_eq_ok reads every present
  refine ⟨verdicts, evaluated, keeps.imp ?_⟩
  rintro row verdict ⟨member, keep⟩ shows progress
  have width : row.length = decoder.table.columns.length := by
    rw [frame.rectangular row member, columns, List.length_map]
  obtain ⟨later, decoded, _⟩ := Decoder.decode_of_width Event.format progress width
  refine ⟨_, later, decoded, keep.trans ?_⟩
  exact Row.passes_iff placed columns member shows progress.sequence

/-- A session, a version and a time, each in a column of its own, and a column that no
filter looks at. -/
def tripTable : Table where
  name := "trips"
  columns := [⟨"note", .json, none⟩, ⟨"traveller", .str, none⟩, ⟨"release", .str, none⟩,
    ⟨"moment", .datetime, none⟩]
  mapping := .ofList [("session_id", .single 1), ("app_version", .single 2),
    ("timestamp", .single 3)]
  concatenator := "."
  consistent := by decide +kernel

/-- A set of sessions to remove, a range of versions and the time from 1970 on. -/
def tripFilters : FilterCollection :=
  ((FilterCollection.empty.set .session
    (.set ⟨.exclude, (⟨["7"], trivial⟩ : Filter.ElementSet .text)⟩)).set .appVersion
    (.range ⟨.include, some (Version.ofText "1.2"), some (Version.ofText "1.10")⟩)).set .timestamp
      (.range ⟨.include, some Event.epoch, none⟩)

/-- A number in a column of texts, a version between the bounds that is no text between
them, and a time as a text. -/
def tripFrame : Frame where
  columns := ["note", "traveller", "release", "moment"]
  rows := [[.null, .integer 7, .text "1.9", .instant Event.epoch],
    [.text "\x7b", .text "ada", .text " 1.9 ", .text "2024-05-06T07:08:09Z"]]
  rectangular := by decide

/-- The filtered fields have single columns of the types that fit them. -/
theorem tripTable_places : tripTable.Places tripFilters := by
  have active : tripFilters.activeFields = [.session, .timestamp, .appVersion] := by
    decide +kernel
  rw [Table.Places, active]
  simp only [List.forall_mem_cons]
  refine ⟨⟨by decide, 1, _, rfl, rfl, rfl⟩, ⟨by decide, 3, _, rfl, rfl, rfl⟩,
    ⟨by decide, 2, _, rfl, rfl, rfl⟩, by simp⟩

/-- The filtered cells stand for values. -/
theorem tripFrame_shows : ∀ row ∈ tripFrame.rows, row.Shows tripTable tripFilters := by
  have active : tripFilters.activeFields = [.session, .timestamp, .appVersion] := by
    decide +kernel
  intro row member field filtered index cell place present
  rw [active] at filtered
  simp only [List.mem_cons, List.not_mem_nil, or_false] at filtered
  rcases List.mem_pair.mp member with rfl | rfl <;> rcases filtered with rfl | rfl | rfl <;>
    cases place <;> cases present
  · exact ⟨rfl, trivial⟩
  · exact ⟨rfl, _, rfl⟩
  · exact ⟨rfl, _, rfl⟩
  · exact ⟨rfl, trivial⟩
  · exact ⟨rfl, _, rfl⟩
  · exact ⟨rfl, _, rfl⟩

/-- The masks of the filters keep of the two rows those whose events pass the filters. -/
theorem mask_keeps_iff_event_passes_trips :
    ∃ masks verdicts, MaskClause.ofCollection (Bindings.ofTable tripTable) tripFilters = .ok masks ∧
      masks.evaluate tripFrame = .ok verdicts ∧
      List.Forall₂ (fun row verdict => ∀ progress, ∃ event later,
        (⟨tripTable, fun _ => .null, true⟩ : Decoder).decode Event.format progress row =
          (.ok event, later) ∧
        (verdict = true ↔ event.Passes tripFilters)) tripFrame.rows verdicts := by
  obtain ⟨masks, compiled⟩ : ∃ masks,
      MaskClause.ofCollection (Bindings.ofTable tripTable) tripFilters = .ok masks := ⟨_, rfl⟩
  obtain ⟨verdicts, evaluated, keeps⟩ :=
    @mask_keeps_iff_event_passes ⟨tripTable, fun _ => .null, true⟩ _ _ _ compiled tripTable_places
      (rfl : tripFrame.columns = tripTable.columns.map (·.name))
  refine ⟨masks, verdicts, compiled, evaluated, ?_⟩
  have shown := tripFrame_shows
  clear evaluated
  generalize tripFrame.rows = rows at keeps shown
  induction keeps with
  | nil => exact .nil
  | cons first _ inductionHypothesis =>
    obtain ⟨own, others⟩ := List.forall_mem_cons.mp shown
    exact .cons (first own) (inductionHypothesis others)

example : (do
    let masks ← MaskClause.ofCollection (Bindings.ofTable tripTable) tripFilters
    masks.evaluate tripFrame).toOption = some [false, true] := by
  decide +kernel

end EventSieve
