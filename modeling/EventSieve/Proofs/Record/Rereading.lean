import EventSieve.Proofs.Cell.Conversion
import EventSieve.Proofs.Record.EventReading

/-!
# Reading events again

Reading an event repairs what it finds: a cell that does not convert becomes its text,
a text that is needed and missing becomes empty, a value that is no object is wrapped
in one, a time that cannot be read becomes the start of 1970. Each of these values
survives being written to a column that suits its field and being read from there.

A second reader rereads a field when it finds there what the first one found, or what
the column of the field keeps of the value that the event has. Every kind of field
then has the same value for both readers, and so has the whole event, once it has
taken its place in the sequence of its session. Texts ask for one thing more: JSON
null in a column of texts is read as the text `null`, and a column keeps that text as
no value.
-/

namespace EventSieve

namespace Cell

/-- A cell in a declared type, or its text when it does not convert. -/
def repaired (type : ColumnType) (cell : Cell) : Cell :=
  match cell.convert type with
  | .ok converted => converted
  | .error _ => .text cell.display

/-- What a column of a declared type keeps of a value. -/
def kept (type : ColumnType) (value : Cell) : Cell :=
  match value.convert type with
  | .ok converted => converted
  | .error _ => value

/-- A value that converts to itself is found again in a column that kept it. -/
theorem repaired_kept {type : ColumnType} {value : Cell}
    (same : value.convert type = .ok value) : (value.kept type).repaired type = value := by
  have stays : value.kept type = value := by rw [kept, same]
  rw [stays, repaired, same]

/-- In a column of texts a cell is read as null or as a text that stands for a value. -/
theorem repaired_str {cell : Cell} (other : cell ≠ .json .null) :
    cell.repaired .str = .null ∨ ∃ text ∉ emptyWords, cell.repaired .str = .text text := by
  cases known : cell.isNullLike with
  | true =>
    left
    simp [repaired, convert, known]
  | false =>
    right
    refine ⟨cell.display, display_not_mem_emptyWords known other, ?_⟩
    simp [repaired, convert, known, toType?]

end Cell

namespace EventSource

section

variable {source : EventSource} {text : String} {type : ColumnType}

/-- A column keeps a name of a source as a name of that source. -/
theorem NamedBy.kept (named : source.NamedBy text)
    (takes : type = .str ∨ ∃ variants, type = .enum variants) :
    ∃ word, (Cell.text text).kept type = .text word ∧ source.NamedBy word := by
  rw [Cell.kept]
  cases made : (Cell.text text).convert type with
  | ok converted => exact named.convert takes made
  | error error => exact ⟨text, rfl, named⟩

/-- A name of a source that is repaired is still a name of that source. -/
theorem NamedBy.repaired (named : source.NamedBy text)
    (takes : type = .str ∨ ∃ variants, type = .enum variants) :
    ∃ word, (Cell.text text).repaired type = .text word ∧ source.NamedBy word := by
  rw [Cell.repaired]
  cases made : (Cell.text text).convert type with
  | ok converted => exact named.convert takes made
  | error error => exact ⟨text, rfl, named⟩

end

end EventSource

namespace RowReader

variable {reader first second : RowReader} {field : String}

/-- The value of a field without columns is the fallback. -/
theorem value_resolve_absent (place : reader.table.locate field = .absent) :
    (reader.resolve field).value = reader.fallback field := by
  rw [resolve, place]
  rfl

/-- The value of a field on one column is its cell, repaired when it does not convert. -/
theorem value_resolve_repaired {index : Nat} {cell : Cell} {type : ColumnType}
    (place : reader.table.locate field = .single index) (present : reader.row[index]? = some cell)
    (declared : reader.table.types[index]? = some type) :
    (reader.resolve field).value = cell.repaired type := by
  rw [Table.types, List.getElem?_map, Option.map_eq_some_iff] at declared
  obtain ⟨column, stands, rfl⟩ := declared
  rw [resolve, place]
  simp only [Locator.gather, repairedAt, present, stands, Cell.repaired]
  cases cell.convert column.type <;> rfl

/-- The text of a field depends on its value alone. -/
theorem value_text_congr (same : (second.resolve field).value = (first.resolve field).value) :
    (second.text field).value = (first.text field).value := by
  simp only [text, Noted.value_bind, same]

/-- A scalar of a field depends on its value alone. -/
theorem value_scalar_congr {Value : Type} {read? : Cell → Option Value} {expected : String}
    (same : (second.resolve field).value = (first.resolve field).value) :
    (second.scalar read? expected field).value = (first.scalar read? expected field).value := by
  simp only [scalar, Noted.value_bind, same]

/-- The object of a field depends on its value alone. -/
theorem value_object_congr (same : (second.resolve field).value = (first.resolve field).value) :
    (second.object field).value = (first.object field).value := by
  simp only [object, Noted.value_bind, same]

/-- A text that is needed depends on the text that is there alone. -/
theorem value_requiredText_congr (same : (second.text field).value = (first.text field).value) :
    (second.requiredText field).value = (first.requiredText field).value := by
  simp only [requiredText, Noted.value_bind, same]

end RowReader

namespace Event

/-- Whether a single column of a type suits a kind of values. -/
def Content.Takes (content : Content) (type : ColumnType) : Prop :=
  match content with
  | .text => type = .str
  | .instant => type = .datetime
  | .zone => type = .timezone
  | .integer => type = .int
  | .source => type = .str ∨ ∃ variants, type = .enum variants
  | .object => type = .json

/-- Whether a second reader finds in a field what the first one finds, or finds what
the column of the field keeps of a value. -/
inductive Rereads (first second : RowReader) (content : Content) (field : String) (value : Cell) :
    Prop where
  | unchanged (same : (second.resolve field).value = (first.resolve field).value)
  | written (type : ColumnType) (cell : Cell) (takes : content.Takes type)
      (plain : type = .str → cell ≠ .json .null)
      (found : (first.resolve field).value = cell.repaired type)
      (back : (second.resolve field).value = (value.kept type).repaired type)

section

variable {first second : RowReader} {field : String}

/-- A text that may be missing is read again. -/
theorem Rereads.text
    (again : Rereads first second .text field (.ofText? (first.text field).value)) :
    (second.text field).value = (first.text field).value := by
  cases again with
  | unchanged same => exact RowReader.value_text_congr same
  | written type cell takes plain found back =>
    cases takes
    rcases Cell.repaired_str (plain rfl) with null | ⟨text, known, shown⟩
    · have missing := RowReader.value_text_of_null (found.trans null)
      rw [missing] at back ⊢
      exact RowReader.value_text_of_null back
    · have present := RowReader.value_text_of_text (found.trans shown)
      rw [present] at back ⊢
      exact RowReader.value_text_of_text (back.trans (Cell.repaired_kept (Cell.convert_text known)))

/-- A text that cannot be missing is read again; the empty text in place of a missing
one stands for a value. -/
theorem Rereads.requiredText
    (again : Rereads first second .text field (.text (first.requiredText field).value)) :
    (second.requiredText field).value = (first.requiredText field).value := by
  cases again with
  | unchanged same => exact RowReader.value_requiredText_congr (RowReader.value_text_congr same)
  | written type cell takes plain found back =>
    cases takes
    have known : (first.requiredText field).value ∉ Cell.emptyWords := by
      rcases Cell.repaired_str (plain rfl) with null | ⟨text, known, shown⟩
      · have missing := RowReader.value_text_of_null (found.trans null)
        have empty : (first.requiredText field).value = "" := by
          simp only [RowReader.requiredText, Noted.value_bind, missing]
          rfl
        rw [empty]
        decide
      · rw [RowReader.value_requiredText_of_text (found.trans shown)]
        exact known
    rw [Cell.repaired_kept (Cell.convert_text known)] at back
    exact RowReader.value_requiredText_of_text back

/-- An object is read again, also one that wraps another value. -/
theorem Rereads.object
    (again : Rereads first second .object field (.json (.object (first.object field).value))) :
    (second.object field).value = (first.object field).value := by
  cases again with
  | unchanged same => exact RowReader.value_object_congr same
  | written type cell takes plain found back =>
    cases takes
    rw [Cell.repaired_kept rfl] at back
    exact RowReader.value_object_of_object back

/-- A time zone that may be missing is read again. -/
theorem Rereads.zone (again : Rereads first second .zone field (.ofZone? (first.zone field).value)) :
    (second.zone field).value = (first.zone field).value := by
  cases again with
  | unchanged same => exact RowReader.value_scalar_congr same
  | written type cell takes plain found back =>
    cases takes
    cases present : (first.zone field).value with
    | none =>
      rw [present] at back
      exact RowReader.value_scalar_of_null back
    | some zone =>
      rw [present, Cell.ofZone?, Cell.repaired_kept rfl] at back
      exact RowReader.value_scalar_of_read back (fun null => nomatch null) rfl

/-- An index is read again, or the one that was written is. -/
theorem Rereads.integer {index : Int64}
    (again : Rereads first second .integer field (.integer index)) :
    (second.integer field).value = (first.integer field).value ∨
      (second.integer field).value = some index := by
  cases again with
  | unchanged same => exact .inl (RowReader.value_scalar_congr same)
  | written type cell takes plain found back =>
    cases takes
    rw [Cell.repaired_kept rfl] at back
    exact .inr (RowReader.value_scalar_of_read back (fun null => nomatch null) rfl)

/-- The time of an event is read again, also the one that stands for a missing time. -/
theorem Rereads.timestamp
    (again : Rereads first second .instant "timestamp" (.instant (readTimestamp first).value)) :
    (readTimestamp second).value = (readTimestamp first).value := by
  cases again with
  | unchanged same =>
    have read : (second.instant "timestamp").value = (first.instant "timestamp").value :=
      RowReader.value_scalar_congr same
    simp only [readTimestamp, Noted.value_bind, read]
  | written type cell takes plain found back =>
    cases takes
    rw [Cell.repaired_kept rfl] at back
    exact value_readTimestamp back

/-- The source of an event is read again. -/
theorem Rereads.source
    (again : Rereads first second .source "event_source" (.text (readSource first).value.name)) :
    (readSource second).value = (readSource first).value := by
  cases again with
  | unchanged same =>
    simp only [readSource, Noted.value_bind, RowReader.value_text_congr same]
  | written type cell takes plain found back =>
    obtain ⟨stored, keeps, named⟩ := (EventSource.namedBy_name (readSource first).value).kept takes
    obtain ⟨word, reads, again⟩ := named.repaired takes
    rw [keeps, reads] at back
    exact value_readSource again back

/-- An event is made of what its fields hold. -/
theorem value_read (reader : RowReader) :
    (read reader).value =
      { sessionId := (reader.requiredText "session_id").value
        appId := (reader.requiredText "app_id").value
        timestamp := (readTimestamp reader).value
        eventName := (reader.requiredText "event_name").value
        eventData := (reader.object "event_data").value
        eventSource := (readSource reader).value
        appVersion := (reader.text "app_version").value
        appBranch := (reader.text "app_branch").value
        logVersion := (reader.text "log_version").value
        timeOffset := (reader.zone "time_offset").value
        userId := (reader.text "user_id").value
        userData := (reader.object "user_data").value
        gameState := (reader.object "game_state").value
        eventSequenceIndex := (reader.integer "event_sequence_index").value } :=
  rfl

/-- An event whose fields are read again takes the same place in the sequence. Every field
but the index is read as before. The index may have been filled in, and then the number is
found in its column. -/
theorem complete_read_again (sequence : SessionSequence)
    (again : ∀ field ∈ fields, Rereads first second (content field) field
      (fieldValue (complete sequence (read first).value).1 field)) :
    complete sequence (read second).value = complete sequence (read first).value := by
  simp only [fields, List.forall_mem_cons] at again
  obtain ⟨session, app, time, name, data, source, version, branch, log, offset, user, userData,
    state, index, -⟩ := again
  have same : (read second).value =
      { (read first).value with
        eventSequenceIndex := (second.integer "event_sequence_index").value } := by
    rw [value_read, value_read]
    simp only [Event.mk.injEq, and_true]
    exact ⟨Rereads.requiredText session, Rereads.requiredText app, Rereads.timestamp time,
      Rereads.requiredText name, Rereads.object data, Rereads.source source, Rereads.text version,
      Rereads.text branch, Rereads.text log, Rereads.zone offset, Rereads.text user,
      Rereads.object userData, Rereads.object state⟩
  rw [same]
  -- An index that was written is the one that the first reading, or the number, had given.
  rcases Rereads.integer index with unchanged | numbered
  · rw [unchanged]
    rfl
  · rw [numbered]
    rfl

end

end Event

end EventSieve
