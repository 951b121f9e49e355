import EventSieve.Proofs.Record.EventRoundTrip
import EventSieve.Proofs.Record.Rereading

/-!
# Encoding events settles them

Encoding the events of any rows and decoding them again gives the same events, whatever
the cells of the rows are, and no row is skipped the second time. Only columns of their
own are asked for, of the type of the field, and that no column of texts holds JSON
null.

The columns keep what their fields are written to them, since no two fields share one.
So each event is read again from its row, and the numbers of events agree because both
runs see the same sessions in the same order: the rows that are skipped the first time
leave the sequence as it is.
-/

namespace EventSieve

/-- A column keeps what its type keeps. -/
theorem Encoder.stored_eq_kept {types : List ColumnType} {index : Nat} {type : ColumnType}
    (declared : types[index]? = some type) (value : Cell) :
    stored types index value = value.kept type := by
  rw [stored, declared]
  rfl

/-- Whether every field of events that a table stores has a column of its own, of a
type that suits it. -/
structure Table.StoresEvents (table : Table) : Prop where
  columns : ∀ field ∈ Event.fields, table.locate field = .absent ∨
    ∃ index type, table.locate field = .single index ∧ table.types[index]? = some type ∧
      (Event.content field).Takes type
  apart : ∀ field ∈ Event.fields, ∀ other ∈ Event.fields, field ≠ other →
    ∀ index ∈ (table.locate field).indices, index ∉ (table.locate other).indices

/-- Whether no column of texts holds JSON null. -/
def Row.IsSettling (row : Row) (types : List ColumnType) : Prop :=
  ∀ index : Nat, types[index]? = some .str → row[index]? ≠ some (.json .null)

namespace Event

/-- What the columns of a table keep of an event. -/
def cellAt (event : Event) (table : Table) (index : Nat) : Cell :=
  match fields.find? fun field => table.locate field = .single index with
  | some field => Encoder.stored table.types index (event.fieldValue field)
  | none => .null

section

variable {table : Table} {field : String} {index : Nat}

/-- A column of its own keeps the value of its field. -/
theorem cellAt_eq (stores : table.StoresEvents) (event : Event) (member : field ∈ fields)
    (place : table.locate field = .single index) :
    event.cellAt table index = Encoder.stored table.types index (event.fieldValue field) := by
  have own : fields.find? (fun other => table.locate other = .single index) = some field := by
    cases found : fields.find? fun other => table.locate other = .single index with
    | none =>
      have missing := List.find?_eq_none.mp found field member
      exact absurd (decide_eq_true place) missing
    | some other =>
      have elsewhere : table.locate other = .single index := by simpa using List.find?_some found
      by_cases same : other = field
      · rw [same]
      · have shared := stores.apart other (List.mem_of_find?_eq_some found) field member same index
        rw [elsewhere, place] at shared
        exact absurd List.mem_cons_self (shared List.mem_cons_self)
  rw [cellAt, own]

/-- An event is encoded to what the columns of the table keep of it. -/
theorem encode_eq_overwrite (stores : table.StoresEvents) (event : Event) :
    format.encode table event =
      Row.overwrite (List.replicate table.columns.length .null) (event.cellAt table)
        (format.references table) := by
  apply RecordFormat.encode_eq
  intro field member row
  rcases stores.columns field member with absent | ⟨index, type, single, -, -⟩
  · rw [Encoder.writeField, absent]
    rfl
  · have own := cellAt_eq stores event member single
    rw [Encoder.writeField, single]
    simp only [Encoder.write_eq_set, Locator.indices, Row.overwrite, List.foldl_cons, List.foldl_nil,
      own]
    rfl

/-- An event is encoded to a row as wide as the table. -/
theorem length_encode (stores : table.StoresEvents) (event : Event) :
    (format.encode table event).length = table.columns.length := by
  rw [encode_eq_overwrite stores, Row.length_overwrite, List.length_replicate]

/-- The column of a field holds what it keeps of the value of the field. -/
theorem getElem?_encode (stores : table.StoresEvents) (event : Event) (member : field ∈ fields)
    (place : table.locate field = .single index) :
    (format.encode table event)[index]? =
      some (Encoder.stored table.types index (event.fieldValue field)) := by
  have mentioned : index ∈ (table.locate field).indices := by
    rw [place]
    exact List.mem_cons_self
  have referred : index ∈ format.references table := List.mem_flatMap.mpr ⟨field, member, mentioned⟩
  have inside : index < table.columns.length := table.index_lt field index mentioned
  rw [encode_eq_overwrite stores, Row.getElem?_overwrite, List.length_replicate,
    if_pos ⟨referred, inside⟩, cellAt_eq stores event member place]

/-- The fields of an encoded event are read again by whoever has read a row of the table. A
field without a column is the fallback both times. Otherwise the column holds what its type
has made of the value of the field. -/
theorem rereads_encode (stores : table.StoresEvents) {row : Row}
    (width : row.length = table.columns.length) (settling : row.IsSettling table.types)
    (fallback : String → Cell) (event : Event) (member : field ∈ fields) :
    Rereads ⟨table, row, fallback⟩ ⟨table, format.encode table event, fallback⟩ (content field) field
      (event.fieldValue field) := by
  rcases stores.columns field member with absent | ⟨index, type, single, declared, takes⟩
  · apply Rereads.unchanged
    rw [RowReader.value_resolve_absent absent, RowReader.value_resolve_absent absent]
  · have mentioned : index ∈ (table.locate field).indices := by
      rw [single]
      exact List.mem_cons_self
    have inside : index < row.length := width ▸ table.index_lt field index mentioned
    have present : row[index]? = some row[index] := List.getElem?_eq_getElem inside
    have written := getElem?_encode stores event member single
    rw [Encoder.stored_eq_kept declared] at written
    apply Rereads.written type row[index] takes
    · rintro rfl null
      exact settling index declared (present.trans (congrArg some null))
    · exact RowReader.value_resolve_repaired single present declared
    · exact RowReader.value_resolve_repaired single written declared

end

/-- Encoding the events of rows and decoding the encoded rows gives the same events, from
the same place in the sequence.

Proof: by induction on the rows, with two decoders that are at the same place in the
sequence. A row of the right width gives an event; encoded, it has this width again, and the
event is read from it at the same place. A row of another width is passed over the first
time and has no row the second time. -/
theorem decodeAll_encode {decoder : Decoder} (goesOn : decoder.failFast = false)
    (stores : decoder.table.StoresEvents) {rows : List Row}
    (settling : ∀ row ∈ rows, row.IsSettling decoder.table.types) {progress again : Progress}
    (same : again.sequence = progress.sequence) :
    ∃ events skipped,
      (decoder.decodeAll format progress rows).1 = .ok ⟨events, skipped⟩ ∧
      (decoder.decodeAll format again (events.map (format.encode decoder.table))).1 =
        .ok ⟨events, 0⟩ := by
  induction rows generalizing progress again with
  | nil => exact ⟨[], 0, rfl, rfl⟩
  | cons row rest inductionHypothesis =>
    obtain ⟨own, others⟩ := List.forall_mem_cons.mp settling
    by_cases width : row.length = decoder.table.columns.length
    · obtain ⟨later, made, sequence⟩ := Decoder.decode_of_width format progress width
      let event := (complete progress.sequence (decoder.readRow format row).value).1
      obtain ⟨laterAgain, madeAgain, sequenceAgain⟩ :=
        Decoder.decode_of_width format again (length_encode stores event)
      have settled : complete again.sequence
          (decoder.readRow format (format.encode decoder.table event)).value =
            complete progress.sequence (decoder.readRow format row).value := by
        rw [same]
        apply complete_read_again
        intro field member
        exact rereads_encode stores width own decoder.fallback event member
      have still : laterAgain.sequence = later.sequence :=
        (sequenceAgain.trans (congrArg Prod.snd settled)).trans sequence.symm
      obtain ⟨events, skipped, first, second⟩ := inductionHypothesis others still
      refine ⟨event :: events, skipped, ?_, ?_⟩
      · rw [Decoder.decodeAll_of_ok made]
        simp only [first]
        rfl
      · have front : (format.complete again.sequence
            (decoder.readRow format (format.encode decoder.table event)).value).1 = event :=
          congrArg Prod.fst settled
        rw [List.map_cons, Decoder.decodeAll_of_ok madeAgain, front]
        simp only [second]
        rfl
    · obtain ⟨error, later, failed, kept⟩ :=
        Decoder.decode_of_other_width format progress width
      have still : again.sequence = (later.warn (.skippedRow error)).sequence := same.trans kept.symm
      obtain ⟨events, skipped, first, second⟩ := inductionHypothesis others still
      refine ⟨events, skipped + 1, ?_, second⟩
      rw [Decoder.decodeAll_of_skip failed goesOn]
      simp only [first]
      rfl

/-- The events of any rows come back when they are encoded and decoded once more, and every
encoded row is decoded.

Proof: both decoders start their sequences afresh, so they are at the same place, and what
the one makes of the rows the other makes of the encoded events. Whether issues are reported
does not matter. -/
theorem decode_encoded_events {table : Table} (stores : table.StoresEvents)
    (fallback : String → Cell) {rows : List Row}
    (settling : ∀ row ∈ rows, row.IsSettling table.types) (enabled enabledAgain : Bool) :
    let decoder : Decoder := ⟨table, fallback, false⟩
    ∃ events skipped,
      (decoder.decodeAll format (.start enabled) rows).1 = .ok ⟨events, skipped⟩ ∧
      (decoder.decodeAll format (.start enabledAgain) (events.map (format.encode table))).1 =
        .ok ⟨events, 0⟩ := by
  intro decoder
  have goesOn : decoder.failFast = false := rfl
  have same : (Progress.start enabledAgain).sequence = (Progress.start enabled).sequence := rfl
  exact decodeAll_encode goesOn stores settling same

end Event

/-- A table that gives six fields of events columns of their own. -/
def playTable : Table where
  name := "plays"
  columns := [⟨"session", .str, none⟩, ⟨"time", .datetime, none⟩, ⟨"zone", .timezone, none⟩,
    ⟨"position", .int, none⟩, ⟨"data", .json, none⟩,
    ⟨"source", .enum ["Game", "generated", "replay"], none⟩, ⟨"note", .str, none⟩]
  mapping := .ofList [("session_id", .single 0), ("timestamp", .single 1),
    ("time_offset", .single 2), ("event_sequence_index", .single 3), ("event_data", .single 4),
    ("event_source", .single 5)]
  concatenator := "."
  consistent := by decide +kernel

/-- Every field of events that plays have is stored in a column of its own. -/
theorem playTable_storesEvents : playTable.StoresEvents := by
  constructor
  · simp only [Event.fields, List.forall_mem_cons]
    exact ⟨.inr ⟨0, _, rfl, rfl, rfl⟩, .inl rfl, .inr ⟨1, _, rfl, rfl, rfl⟩, .inl rfl,
      .inr ⟨4, _, rfl, rfl, rfl⟩, .inr ⟨5, _, rfl, rfl, .inr ⟨_, rfl⟩⟩, .inl rfl, .inl rfl,
      .inl rfl, .inr ⟨2, _, rfl, rfl, rfl⟩, .inl rfl, .inl rfl, .inl rfl,
      .inr ⟨3, _, rfl, rfl, rfl⟩, by simp⟩
  · decide +kernel

/-- Rows of plays of which hardly a cell converts, and one that is too short. -/
def playRows : List Row :=
  [[.json (.text "None"), .text "yesterday", .boolean true, .text "first", .json (.list []),
      .text " GENERATED ", .null],
    [.null],
    [.float .nan, .integer 5, .text "nowhere", .json (.object []), .text "[1", .text "other",
      .text "nan"]]

/-- The events of these plays come back from the rows that they are encoded to. -/
theorem Event.decode_encoded_plays :
    ∃ events skipped,
      (Decoder.decodeAll ⟨playTable, fun _ => .null, false⟩ format (.start true) playRows).1 =
        .ok ⟨events, skipped⟩ ∧
      (Decoder.decodeAll ⟨playTable, fun _ => .null, false⟩ format (.start true)
        (events.map (format.encode playTable))).1 = .ok ⟨events, 0⟩ := by
  have settling : ∀ row ∈ playRows, row.IsSettling playTable.types := by
    have without : ∀ row ∈ playRows, Cell.json .null ∉ row := by simp [playRows]
    intro row member index _ null
    exact without row member (List.mem_of_getElem? null)
  exact decode_encoded_events playTable_storesEvents (fun _ => .null) settling true true

end EventSieve
