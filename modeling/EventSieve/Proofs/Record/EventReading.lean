import EventSieve.Proofs.Record.SourceNames
import EventSieve.Record.Event

/-!
# What events keep of their fields

A field of an event holds a text, an instant, a time zone, an integer, a source or
an object. A value of that kind is read as it is, and it is the value that the
event has in the field afterwards. Some fields cannot be missing; there null is read
as something else.
-/

namespace EventSieve

namespace RowReader

variable {reader : RowReader} {field : String}

/-- A text is read as it is. -/
theorem value_text_of_text {value : String} (found : (reader.resolve field).value = .text value) :
    (reader.text field).value = some value := by
  simp only [text, Noted.value_bind, found]
  rfl

/-- Null is read as no text. -/
theorem value_text_of_null (found : (reader.resolve field).value = .null) :
    (reader.text field).value = none := by
  simp only [text, Noted.value_bind, found]
  rfl

/-- A text is there where one is needed. -/
theorem value_requiredText_of_text {value : String}
    (found : (reader.resolve field).value = .text value) :
    (reader.requiredText field).value = value := by
  simp only [requiredText, Noted.value_bind, value_text_of_text found]
  rfl

/-- Null is read as no value of any kind. -/
theorem value_scalar_of_null {Value : Type} {read? : Cell → Option Value} {expected : String}
    (found : (reader.resolve field).value = .null) :
    (reader.scalar read? expected field).value = none := by
  simp only [scalar, Noted.value_bind, found]
  rfl

/-- A cell of the kind that is asked for is read. -/
theorem value_scalar_of_read {Value : Type} {read? : Cell → Option Value} {expected : String}
    {cell : Cell} {value : Value} (found : (reader.resolve field).value = cell)
    (present : cell ≠ .null) (read : read? cell = some value) :
    (reader.scalar read? expected field).value = some value := by
  simp only [scalar, Noted.value_bind, found]
  cases cell with
  | null => exact absurd rfl present
  | _ =>
    simp only [read]
    rfl

/-- An object is read as it is. -/
theorem value_object_of_object {members : Json.Members}
    (found : (reader.resolve field).value = .json (.object members)) :
    (reader.object field).value = members := by
  simp only [object, Noted.value_bind, found]
  rfl

end RowReader

namespace Event

/-- The kinds of values that fields of events hold. -/
inductive Content where
  | text
  | instant
  | zone
  | integer
  | source
  | object
deriving DecidableEq, Repr

/-- The kind of values that a field holds. -/
def content (field : String) : Content :=
  if field = "timestamp" then .instant
  else if field = "time_offset" then .zone
  else if field = "event_sequence_index" then .integer
  else if field = "event_source" then .source
  else if ["event_data", "user_data", "game_state"].contains field then .object
  else .text

/-- The fields in which null is read as something else. -/
def requiredFields : List String :=
  ["session_id", "app_id", "event_name", "timestamp", "event_source", "event_sequence_index"]

/-- Whether a value is of the kind that a field holds; null only counts where it may
be missing. -/
def Keeps (field : String) (value : Cell) : Prop :=
  match content field with
  | .text => (∃ text, value = .text text) ∨ (value = .null ∧ field ∉ requiredFields)
  | .instant => ∃ instant, value = .instant instant
  | .zone => value = .null ∨ ∃ zone, value = .zone zone
  | .integer => ∃ index, value = .integer index
  | .source => ∃ source : EventSource, value = .text source.name
  | .object => ∃ members, value = .json (.object members)

section

variable {reader : RowReader} {field : String}

/-- A text that may be missing is kept. -/
theorem ofText?_value (kept : (∃ text, (reader.resolve field).value = .text text) ∨
    (reader.resolve field).value = .null) :
    Cell.ofText? (reader.text field).value = (reader.resolve field).value := by
  rcases kept with ⟨text, found⟩ | found
  · rw [RowReader.value_text_of_text found, found]
    rfl
  · rw [RowReader.value_text_of_null found, found]
    rfl

/-- A time zone that may be missing is kept. -/
theorem ofZone?_value (kept : (reader.resolve field).value = .null ∨
    ∃ zone, (reader.resolve field).value = .zone zone) :
    Cell.ofZone? (reader.zone field).value = (reader.resolve field).value := by
  rcases kept with found | ⟨zone, found⟩
  · have missing : (reader.zone field).value = none := RowReader.value_scalar_of_null found
    rw [missing, found]
    rfl
  · have known : (reader.zone field).value = some zone :=
      RowReader.value_scalar_of_read found (fun null => nomatch null) rfl
    rw [known, found]
    rfl

/-- The time of an event is read as it is. -/
theorem value_readTimestamp {instant : Time.Instant}
    (found : (reader.resolve "timestamp").value = .instant instant) :
    (readTimestamp reader).value = instant := by
  have known : (reader.instant "timestamp").value = some instant :=
    RowReader.value_scalar_of_read found (fun null => nomatch null) rfl
  simp only [readTimestamp, Noted.value_bind, known]
  rfl

/-- The source of an event is read from any text that names it. -/
theorem value_readSource {source : EventSource} {word : String} (named : source.NamedBy word)
    (found : (reader.resolve "event_source").value = .text word) :
    (readSource reader).value = source := by
  simp only [readSource, Noted.value_bind, RowReader.value_text_of_text found, named.ofText?_eq]
  rfl

/-- An event with an index of its own keeps it when it takes its place. -/
theorem complete_index {index : Int64}
    (found : (reader.resolve "event_sequence_index").value = .integer index)
    (sequence : SessionSequence) :
    (complete sequence (read reader).value).1.eventSequenceIndex = some index := by
  have known : (reader.integer "event_sequence_index").value = some index :=
    RowReader.value_scalar_of_read found (fun null => nomatch null) rfl
  have own : (read reader).value.eventSequenceIndex = some index := known
  simp only [complete, own, Option.getD_some]

/-- The value of a field of an event that was read from a row is the value that the reader
found there, if that is one that the field keeps. There is one case for each field of an
event, and fields of the same content are treated alike; the index is completed behind the
reading, which leaves an index that was read as it is. -/
theorem fieldValue_of_keeps (member : field ∈ fields)
    (kept : Keeps field (reader.resolve field).value) (sequence : SessionSequence) :
    fieldValue (complete sequence (read reader).value).1 field = (reader.resolve field).value := by
  have required (name : String) (text : content name = .text) (needed : name ∈ requiredFields)
      (own : Keeps name (reader.resolve name).value) :
      Cell.text (reader.requiredText name).value = (reader.resolve name).value := by
    simp only [Keeps, text] at own
    rcases own with ⟨value, found⟩ | ⟨_, free⟩
    · rw [RowReader.value_requiredText_of_text found, found]
    · exact absurd needed free
  have optional (name : String) (text : content name = .text)
      (own : Keeps name (reader.resolve name).value) :
      Cell.ofText? (reader.text name).value = (reader.resolve name).value := by
    simp only [Keeps, text] at own
    exact ofText?_value (own.imp_right And.left)
  have object (name : String) (members : content name = .object)
      (own : Keeps name (reader.resolve name).value) :
      Cell.json (.object (reader.object name).value) = (reader.resolve name).value := by
    simp only [Keeps, members] at own
    obtain ⟨value, found⟩ := own
    rw [RowReader.value_object_of_object found, found]
  simp only [fields, List.mem_cons, List.not_mem_nil, or_false] at member
  rcases member with rfl | rfl | rfl | rfl | rfl | rfl | rfl | rfl | rfl | rfl | rfl | rfl | rfl | rfl
  · exact required _ rfl (by decide) kept
  · exact required _ rfl (by decide) kept
  · obtain ⟨instant, found⟩ := kept
    rw [found]
    exact congrArg Cell.instant (value_readTimestamp found)
  · exact required _ rfl (by decide) kept
  · exact object _ rfl kept
  · obtain ⟨source, found⟩ := kept
    rw [found]
    exact congrArg (fun source => Cell.text (EventSource.name source))
      (value_readSource (EventSource.namedBy_name source) found)
  · exact optional _ rfl kept
  · exact optional _ rfl kept
  · exact optional _ rfl kept
  · exact ofZone?_value kept
  · exact optional _ rfl kept
  · exact object _ rfl kept
  · exact object _ rfl kept
  · obtain ⟨index, found⟩ := kept
    rw [found]
    exact congrArg Cell.ofInteger? (complete_index found sequence)

end

end Event

end EventSieve
