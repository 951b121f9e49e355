import EventSieve.Proofs.Record.Reencoding

/-!
# Events that are read without an issue

An event whose reading notes nothing has lost nothing. Every repair of a value comes with
an issue: a cell that does not convert, a value of another kind than its field, a text
or a time that is missing, a source that nobody knows. So if there is no issue, each cell
converts, the field of the event holds the converted cell, and the column gets this cell
back when the event is encoded.

Three fields read null without an issue. An event without an index is numbered within
its session, an event without an object has the empty one, and an event without a source
comes from the game. The column of the source holds a name of the source in any case, as
the source is all that an event keeps of its name.
-/

namespace EventSieve

namespace Noted

variable {ι α β : Type}

/-- Whether nothing was noted while a value was computed. -/
def Silent (noted : Noted ι α) : Prop :=
  noted.notes = []

/-- Nothing is noted in a computation when nothing is noted in its parts. -/
theorem silent_bind_iff {first : Noted ι α} {next : α → Noted ι β} :
    (first >>= next).Silent ↔ first.Silent ∧ (next first.value).Silent :=
  List.append_eq_nil_iff

/-- A note is one. -/
theorem not_silent_note (entry : ι) : ¬ (note entry).Silent :=
  List.cons_ne_nil _ _

end Noted

namespace RowReader

variable {reader : RowReader} {field : String}

/-- A field on one column is resolved without an issue only when its cell converts. -/
theorem convert_of_silent {index : Nat} {cell : Cell} {type : ColumnType}
    (place : reader.table.locate field = .single index) (present : reader.row[index]? = some cell)
    (declared : reader.table.types[index]? = some type) (silent : (reader.resolve field).Silent) :
    cell.convert type = .ok (reader.resolve field).value := by
  rw [value_resolve_repaired place present declared, Cell.repaired]
  rw [Table.types, List.getElem?_map, Option.map_eq_some_iff] at declared
  obtain ⟨column, stands, rfl⟩ := declared
  cases made : cell.convert column.type with
  | ok converted => rfl
  | error error =>
    rw [resolve, place] at silent
    simp only [Locator.gather, repairedAt, present, stands, made, Noted.silent_bind_iff] at silent
    exact absurd silent.1 (List.cons_ne_nil _ _)

/-- A text is read without an issue only when there is a text or nothing. -/
theorem silent_text (silent : (reader.text field).Silent) :
    (reader.resolve field).Silent ∧ ((reader.resolve field).value = .null ∨
      ∃ text, (reader.resolve field).value = .text text) := by
  obtain ⟨resolved, read⟩ := Noted.silent_bind_iff.mp silent
  refine ⟨resolved, ?_⟩
  cases found : (reader.resolve field).value with
  | null => exact .inl rfl
  | text text => exact .inr ⟨text, rfl⟩
  | boolean | integer | float | instant | span | zone | json =>
    rw [found] at read
    exact absurd (Noted.silent_bind_iff.mp read).1 (Noted.not_silent_note _)

/-- A text that is needed is read without an issue only when there is one. -/
theorem silent_requiredText (silent : (reader.requiredText field).Silent) :
    (reader.resolve field).Silent ∧ ∃ text, (reader.resolve field).value = .text text := by
  obtain ⟨read, needed⟩ := Noted.silent_bind_iff.mp silent
  obtain ⟨resolved, null | text⟩ := silent_text read
  · rw [value_text_of_null null] at needed
    exact absurd (Noted.silent_bind_iff.mp needed).1 (Noted.not_silent_note _)
  · exact ⟨resolved, text⟩

/-- A scalar is read without an issue only when there is one or nothing. -/
theorem silent_scalar {Value : Type} {read? : Cell → Option Value} {expected : String}
    (silent : (reader.scalar read? expected field).Silent) :
    (reader.resolve field).Silent ∧ ((reader.resolve field).value = .null ∨
      ∃ value, read? (reader.resolve field).value = some value) := by
  obtain ⟨resolved, read⟩ := Noted.silent_bind_iff.mp silent
  refine ⟨resolved, ?_⟩
  cases found : (reader.resolve field).value with
  | null => exact .inl rfl
  | boolean | integer | float | text | instant | span | zone | json =>
    right
    rw [found] at read
    cases known : read? _ with
    | some value => exact ⟨value, rfl⟩
    | none =>
      simp only [known] at read
      exact absurd (Noted.silent_bind_iff.mp read).1 (Noted.not_silent_note _)

/-- An object is read without an issue only when there is one, or nothing, or a text that
spells one. -/
theorem silent_object (silent : (reader.object field).Silent) :
    (reader.resolve field).Silent ∧ ((reader.resolve field).value = .null ∨
      (∃ members, (reader.resolve field).value = .json (.object members)) ∨
      ∃ text, (reader.resolve field).value = .text text) := by
  obtain ⟨resolved, read⟩ := Noted.silent_bind_iff.mp silent
  refine ⟨resolved, ?_⟩
  cases found : (reader.resolve field).value with
  | null => exact .inl rfl
  | text text => exact .inr (.inr ⟨text, rfl⟩)
  | boolean | integer | float | instant | span | zone =>
    rw [found] at read
    exact absurd (Noted.silent_bind_iff.mp read).1 (Noted.not_silent_note _)
  | json value =>
    cases value with
    | object members => exact .inr (.inl ⟨members, rfl⟩)
    | null | boolean | number | text | list =>
      rw [found] at read
      exact absurd (Noted.silent_bind_iff.mp read).1 (Noted.not_silent_note _)

end RowReader

namespace Event

/-- Whether a field is read from a value without an issue. -/
def Accepts (field : String) (value : Cell) : Prop :=
  match content field with
  | .text => (∃ text, value = .text text) ∨ (value = .null ∧ field ∉ requiredFields)
  | .instant => ∃ instant, value.instant? = some instant
  | .zone => value = .null ∨ ∃ zone, value.zone? = some zone
  | .integer => value = .null ∨ ∃ index, value.integer? = some index
  | .source => value = .null ∨
      ∃ text source, value = .text text ∧ EventSource.ofText? text = some source
  | .object => value = .null ∨ (∃ members, value = .json (.object members)) ∨
      ∃ text, value = .text text

section

variable {reader : RowReader} {field : String}

/-- The time of an event is read without an issue only when there is one. -/
theorem silent_readTimestamp (silent : (readTimestamp reader).Silent) :
    (reader.resolve "timestamp").Silent ∧
      ∃ instant, (reader.resolve "timestamp").value.instant? = some instant := by
  obtain ⟨read, needed⟩ := Noted.silent_bind_iff.mp silent
  obtain ⟨resolved, null | ⟨instant, known⟩⟩ := RowReader.silent_scalar read
  · have missing : (reader.instant "timestamp").value = none := RowReader.value_scalar_of_null null
    rw [missing] at needed
    exact absurd (Noted.silent_bind_iff.mp needed).1 (Noted.not_silent_note _)
  · exact ⟨resolved, instant, known⟩

/-- The source of an event is read without an issue only when a text names it or nothing
is said. -/
theorem silent_readSource (silent : (readSource reader).Silent) :
    (reader.resolve "event_source").Silent ∧ ((reader.resolve "event_source").value = .null ∨
      ∃ text source, (reader.resolve "event_source").value = .text text ∧
        EventSource.ofText? text = some source) := by
  obtain ⟨read, needed⟩ := Noted.silent_bind_iff.mp silent
  obtain ⟨resolved, null | ⟨text, found⟩⟩ := RowReader.silent_text read
  · exact ⟨resolved, .inl null⟩
  · refine ⟨resolved, .inr ⟨text, ?_⟩⟩
    rw [RowReader.value_text_of_text found] at needed
    cases known : EventSource.ofText? text with
    | some source => exact ⟨source, found, rfl⟩
    | none =>
      simp only [known] at needed
      exact absurd (Noted.silent_bind_iff.mp needed).1 (Noted.not_silent_note _)

/-- When an event is read without an issue, every field is resolved without one, from a
value that it accepts. Reading an event reads its fields in order, so it is silent when each
of these readings is. There is one case for each field, and fields of the same content are
treated alike. -/
theorem silent_read (silent : (read reader).Silent) (member : field ∈ fields) :
    (reader.resolve field).Silent ∧ Accepts field (reader.resolve field).value := by
  simp only [read, Noted.silent_bind_iff] at silent
  obtain ⟨time, source, session, app, name, data, version, branch, log, offset, user, userData,
    state, index, -⟩ := silent
  have required (name : String) (text : content name = .text)
      (own : (reader.requiredText name).Silent) :
      (reader.resolve name).Silent ∧ Accepts name (reader.resolve name).value := by
    simp only [Accepts, text]
    exact (RowReader.silent_requiredText own).imp_right .inl
  have optional (name : String) (text : content name = .text) (free : name ∉ requiredFields)
      (own : (reader.text name).Silent) :
      (reader.resolve name).Silent ∧ Accepts name (reader.resolve name).value := by
    simp only [Accepts, text]
    exact (RowReader.silent_text own).imp_right fun found => found.symm.imp_right (⟨·, free⟩)
  have object (name : String) (members : content name = .object)
      (own : (reader.object name).Silent) :
      (reader.resolve name).Silent ∧ Accepts name (reader.resolve name).value := by
    simp only [Accepts, members]
    exact RowReader.silent_object own
  simp only [fields, List.mem_cons, List.not_mem_nil, or_false] at member
  rcases member with rfl | rfl | rfl | rfl | rfl | rfl | rfl | rfl | rfl | rfl | rfl | rfl | rfl | rfl
  · exact required _ rfl session
  · exact required _ rfl app
  · exact silent_readTimestamp time
  · exact required _ rfl name
  · exact object _ rfl data
  · exact silent_readSource source
  · exact optional _ rfl (by decide) version
  · exact optional _ rfl (by decide) branch
  · exact optional _ rfl (by decide) log
  · exact RowReader.silent_scalar offset
  · exact optional _ rfl (by decide) user
  · exact object _ rfl userData
  · exact object _ rfl state
  · exact RowReader.silent_scalar index

end

/-- Whether the column of a field of an event holds its converted cell again, or what
stands for null: the number that the event has taken in its session, the empty object,
or a name of the source. -/
def Returns (event : Event) (number : Nat) (field : String) (converted back : Cell) : Prop :=
  match content field with
  | .text | .instant | .zone => back = converted
  | .integer => (converted ≠ .null ∧ back = converted) ∨
      (converted = .null ∧ back = .integer (Int64.ofNat number))
  | .object => (converted ≠ .null ∧ back = converted) ∨
      (converted = .null ∧ back = .json (.object []))
  | .source => (∃ word, back = .text word ∧ event.eventSource.NamedBy word) ∧
      ((converted = .null ∧ event.eventSource = .game) ∨
        ∃ text, converted = .text text ∧ EventSource.ofText? text = some event.eventSource)

section

variable {reader : RowReader} {field : String} {type : ColumnType} {converted : Cell}

/-- A value of the kind of a column that suits a field is kept by the field that is read
from it without an issue. Null does not count for integers and objects. The cases follow the
content of the field: its type of column leaves the kinds of cells that it keeps, and null
where an absent value is one. -/
theorem Accepts.keeps (accepts : Accepts field converted) (takes : (content field).Takes type)
    (kind : converted.IsOf type) (present : content field = .integer ∨ content field = .object →
      converted ≠ .null) (other : content field ≠ .source) : Keeps field converted := by
  rw [Accepts] at accepts
  rw [Keeps]
  cases held : content field with
  | source => exact absurd held other
  | text =>
    rw [held] at accepts
    exact accepts
  | instant =>
    rw [held] at accepts takes
    cases takes
    obtain ⟨instant, known⟩ := accepts
    cases converted with
    | null => cases known
    | instant value => exact ⟨value, rfl⟩
    | _ => exact kind.elim
  | zone =>
    rw [held] at takes
    cases takes
    cases converted with
    | null => exact .inl rfl
    | zone value => exact .inr ⟨value, rfl⟩
    | _ => exact kind.elim
  | integer =>
    rw [held] at takes
    cases takes
    cases converted with
    | null => exact absurd rfl (present (.inl held))
    | integer value => exact ⟨value, rfl⟩
    | _ => exact kind.elim
  | object =>
    rw [held] at accepts takes
    cases takes
    rcases accepts with null | object | ⟨text, rfl⟩
    · exact absurd null (present (.inr held))
    · exact object
    · exact kind.elim

/-- Only one field holds an integer. -/
theorem only_index (member : field ∈ fields) (held : content field = .integer) :
    field = "event_sequence_index" := by
  have places : ∀ name ∈ fields, content name = .integer → name = "event_sequence_index" := by
    decide
  exact places field member held

/-- Only one field holds a source. -/
theorem only_source (member : field ∈ fields) (held : content field = .source) :
    field = "event_source" := by
  have places : ∀ name ∈ fields, content name = .source → name = "event_source" := by decide
  exact places field member held

/-- An event that was read without an index has its number in the session there. -/
theorem fieldValue_of_null_index (null : (reader.resolve "event_sequence_index").value = .null)
    (sequence : SessionSequence) :
    let event := (complete sequence (read reader).value).1
    event.fieldValue "event_sequence_index" =
      .integer (Int64.ofNat (sequence.observe event.sessionId).1) := by
  have missing : (read reader).value.eventSequenceIndex = none :=
    RowReader.value_scalar_of_null null
  simp only [fieldValue, complete, missing, Option.getD_none]
  rfl

/-- An event that was read without an object has the empty one there. -/
theorem fieldValue_of_null_object (member : field ∈ fields) (held : content field = .object)
    (null : (reader.resolve field).value = .null) (sequence : SessionSequence) :
    fieldValue (complete sequence (read reader).value).1 field = .json (.object []) := by
  have empty : (reader.object field).value = [] := by
    simp only [RowReader.object, Noted.value_bind, null]
    rfl
  have places : ∀ name ∈ fields, content name = .object →
      name = "event_data" ∨ name = "user_data" ∨ name = "game_state" := by decide
  rcases places field member held with rfl | rfl | rfl
  all_goals exact congrArg (fun members => Cell.json (.object members)) empty

/-- The source of an event is read without an issue from null, or from a text that
names it. -/
theorem eventSource_of_accepts
    (accepts : Accepts "event_source" (reader.resolve "event_source").value) :
    ((reader.resolve "event_source").value = .null ∧ (read reader).value.eventSource = .game) ∨
      ∃ text, (reader.resolve "event_source").value = .text text ∧
        EventSource.ofText? text = some (read reader).value.eventSource := by
  have same : (read reader).value.eventSource = (readSource reader).value := rfl
  rw [same]
  rcases accepts with null | ⟨text, source, found, known⟩
  · refine .inl ⟨null, ?_⟩
    simp only [readSource, Noted.value_bind, RowReader.value_text_of_null null]
    rfl
  · refine .inr ⟨text, found, known.trans ?_⟩
    simp only [readSource, Noted.value_bind, RowReader.value_text_of_text found, known]
    rfl

/-- A column that suits any content but that of the source has a type that keeps its own
cells, and only objects stand in a column of JSON type. -/
theorem Content.Takes.isStable {content : Content} (takes : content.Takes type)
    (other : content ≠ .source) : type.IsStable ∧ (type = .json → content = .object) := by
  cases content with
  | source => exact absurd rfl other
  | object =>
    cases takes
    exact ⟨trivial, fun _ => rfl⟩
  | text | instant | zone | integer =>
    cases takes
    refine ⟨trivial, ?_⟩
    intro json
    cases json

/-- A column keeps for the event what its cell was converted to, unless the field is the
source, or an index or an object without a value. The field keeps the value, so it is
written as it was found; and such a value converts to itself. -/
theorem kept_of_accepts {cell : Cell} (member : field ∈ fields)
    (takes : (content field).Takes type) (plain : type = .str → cell ≠ .json .null)
    (made : cell.convert type = .ok (reader.resolve field).value)
    (accepts : Accepts field (reader.resolve field).value) (sequence : SessionSequence)
    (other : content field ≠ .source)
    (present : content field = .integer ∨ content field = .object →
      (reader.resolve field).value ≠ .null) :
    (fieldValue (complete sequence (read reader).value).1 field).kept type =
      (reader.resolve field).value := by
  have keeps := accepts.keeps takes (Cell.isOf_of_convert made) present other
  obtain ⟨stable, object⟩ := takes.isStable other
  have settled :
      (reader.resolve field).value.convert type = .ok (reader.resolve field).value :=
    Cell.convert_convert stable plain (fun json => present (.inr (object json))) made
  rw [fieldValue_of_keeps member keeps sequence, Cell.kept, settled]

/-- A column that suits its field keeps for the event what its cell was converted to, when
the field was read from it without an issue.

Proof: unless the value is null in an index or an object, or the field is the source, the
field keeps it, and the column keeps what is written. An index that is null is written as
the number that was filled in, an object that is null as the empty one, and a source as its
name. -/
theorem returns_of_accepts {cell : Cell} (member : field ∈ fields)
    (takes : (content field).Takes type) (plain : type = .str → cell ≠ .json .null)
    (made : cell.convert type = .ok (reader.resolve field).value)
    (accepts : Accepts field (reader.resolve field).value) (sequence : SessionSequence) :
    let event := (complete sequence (read reader).value).1
    event.Returns (sequence.observe event.sessionId).1 field (reader.resolve field).value
      ((event.fieldValue field).kept type) := by
  intro event
  have unchanged := kept_of_accepts member takes plain made accepts sequence
  rw [Returns]
  cases held : content field with
  | text | instant | zone => exact unchanged (by simp [held]) (by simp [held])
  | integer =>
    rw [held] at takes
    cases takes
    obtain rfl := only_index member held
    by_cases null : (reader.resolve "event_sequence_index").value = .null
    · refine .inr ⟨null, ?_⟩
      rw [fieldValue_of_null_index null sequence]
      rfl
    · exact .inl ⟨null, unchanged (by simp [held]) fun _ => null⟩
  | object =>
    by_cases null : (reader.resolve field).value = .null
    · refine .inr ⟨null, ?_⟩
      rw [held] at takes
      cases takes
      rw [fieldValue_of_null_object member held null sequence]
      rfl
    · exact .inl ⟨null, unchanged (by simp [held]) fun _ => null⟩
  | source =>
    rw [held] at takes
    obtain rfl := only_source member held
    exact ⟨(EventSource.namedBy_name event.eventSource).kept takes, eventSource_of_accepts accepts⟩

end

end Event

/-- A row is decoded without an issue only when nothing is noted while it is read. -/
theorem Decoder.silent_of_issues {Kind : Type} {decoder : Decoder} {format : RecordFormat Kind}
    {progress later : Progress} {row : Row} {record : Kind}
    (made : decoder.decode format progress row = (.ok record, later))
    (quiet : later.diagnostics.issues = progress.diagnostics.issues) :
    (decoder.readRow format row).Silent := by
  have counted := Diagnostics.noteAll_issues progress.diagnostics (decoder.readRow format row).notes
  rw [decode] at made
  split at made
  · cases made
    exact List.length_eq_zero_iff.mp (Nat.left_eq_add.mp (quiet.symm.trans counted))
  · cases made

/-- When a row is decoded to an event without an issue, the cells that fields refer to
convert, and their columns get the converted cells back when the event is encoded, or what
stands for null in an index, an object and a source.

Proof: issues are counted, so an unchanged count says that no field was read with one. A
silent reading of a field means that its cell was converted to a value that the field
accepts. What is written back then depends on the content of the field alone. -/
theorem Event.encode_of_silent_decode {decoder : Decoder} (stores : decoder.table.StoresEvents)
    {row : Row} (width : row.length = decoder.table.columns.length)
    (settling : row.IsSettling decoder.table.types) (progress : Progress) :
    ∃ event later, decoder.decode format progress row = (.ok event, later) ∧
      (later.diagnostics.issues = progress.diagnostics.issues →
        ∀ field ∈ fields, ∀ index ∈ (decoder.table.locate field).indices,
          ∃ converted back, row.convertAt decoder.table.types index = .ok converted ∧
            (format.encode decoder.table event)[index]? = some back ∧
            event.Returns (progress.sequence.observe event.sessionId).1 field converted back) := by
  obtain ⟨later, made, -⟩ := Decoder.decode_of_width format progress width
  let reader : RowReader := ⟨decoder.table, row, decoder.fallback⟩
  have own : decoder.readRow format row = read reader := rfl
  have taken : format.complete = complete := rfl
  rw [own, taken] at made
  refine ⟨_, later, made, ?_⟩
  intro quiet field member index mentioned
  have silent := Decoder.silent_of_issues made quiet
  rw [own] at silent
  obtain ⟨resolved, accepts⟩ := silent_read silent member
  rcases stores.columns field member with absent | ⟨position, type, single, declared, takes⟩
  · rw [absent] at mentioned
    cases mentioned
  · have inside : index < row.length := width ▸ decoder.table.index_lt field index mentioned
    have same : index = position := by
      rw [single] at mentioned
      exact List.mem_singleton.mp mentioned
    subst same
    have present : row[index]? = some row[index] := List.getElem?_eq_getElem inside
    have converts : row[index].convert type = .ok (reader.resolve field).value :=
      RowReader.convert_of_silent single present declared resolved
    have plain : type = .str → row[index] ≠ .json .null := by
      rintro rfl null
      exact settling index declared (present.trans (congrArg some null))
    refine ⟨(reader.resolve field).value, _,
      Row.convertAt_eq_ok_iff.mpr ⟨_, type, present, declared, converts⟩,
      getElem?_encode stores _ member single, ?_⟩
    rw [Encoder.stored_eq_kept declared]
    exact returns_of_accepts member takes plain converts accepts progress.sequence

/-- A play whose position, data and source are words for no value. -/
def quietPlay : Row :=
  [.integer 12, .text "2024-01-15", .null, .text "null", .text "nan", .text "None", .null]

/-- The names that plays have without a column. -/
def playNames (field : String) : Cell :=
  if field = "app_id" ∨ field = "event_name" then .text "play" else .null

/-- Nothing is noted when this play is decoded, so all its columns have their cells again,
or what stands for null. -/
theorem Event.encode_of_quietPlay :
    ∃ event later,
      Decoder.decode ⟨playTable, playNames, true⟩ format (.start true) quietPlay =
        (.ok event, later) ∧
      later.diagnostics.issues = 0 ∧
      ∀ field ∈ fields, ∀ index ∈ (playTable.locate field).indices,
        ∃ converted back, quietPlay.convertAt playTable.types index = .ok converted ∧
          (format.encode playTable event)[index]? = some back ∧
          event.Returns 0 field converted back := by
  have settling : quietPlay.IsSettling playTable.types := by
    have without : Cell.json .null ∉ quietPlay := by simp [quietPlay]
    exact fun index _ null => without (List.mem_of_getElem? null)
  let decoder : Decoder := ⟨playTable, playNames, true⟩
  have width : quietPlay.length = decoder.table.columns.length := rfl
  obtain ⟨event, later, made, returned⟩ :=
    @encode_of_silent_decode decoder playTable_storesEvents _ width settling (.start true)
  have quiet : (decoder.decode format (.start true) quietPlay).2.diagnostics.issues = 0 := by
    decide +kernel
  rw [made] at quiet
  exact ⟨event, later, made, quiet, returned quiet⟩

end EventSieve
