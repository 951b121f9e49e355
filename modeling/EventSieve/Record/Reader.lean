import EventSieve.Cell.Reading
import EventSieve.Record.Diagnostics
import EventSieve.Record.Locate
import EventSieve.Record.Noted
import EventSieve.Table.Basic

/-!
# Reading the fields of one row

A row reader looks up logical fields in a row by the mapping of a table. A cell
that does not convert to the type of its column is replaced by its text, and a
value of another kind than the one asked for is brought into that kind as well
as can be. Both are noted as issues of the field, in the order in which they are
met, so reading a field always has a result.
-/

namespace EventSieve

/-- A row with the table that says what its cells mean and with the values of
fields that have no column. -/
structure RowReader where
  table : Table
  row : Row
  fallback : String → Cell

namespace RowReader

/-- Reading with issues noted on the way. -/
abbrev Reads := Noted Issue

/-- Notes an issue of a field. -/
def warn (field : String) (cause : IssueCause) : Reads Unit :=
  Noted.note ⟨field, cause⟩

/-- The converted cell of a column, or its text when it does not convert. -/
def repairedAt (reader : RowReader) (field : String) (index : Nat) :
    ExceptT ConvertError Reads Cell :=
  match reader.row[index]?, reader.table.columns[index]? with
  | some cell, some column =>
    match cell.convert column.type with
    | .ok converted => pure converted
    | .error error => do
      ExceptT.lift (warn field (.unconverted column.name error))
      pure (.text cell.display)
  | _, _ => throw (.missingCell index)

/-- The texts of the cells of several columns as they are, joined by the
concatenator of the table. -/
def join (reader : RowReader) (indices : List Nat) : ExceptT ConvertError Reads String :=
  ExceptT.mk (pure (reader.row.join reader.table.concatenator indices))

/-- The logical value of a field. -/
def resolve (reader : RowReader) (field : String) : Reads Cell := do
  let gathered := (reader.table.locate field).gather (reader.repairedAt field) reader.join
    (reader.fallback field)
  match ← gathered.run with
  | .ok cell => pure cell
  | .error error =>
    warn field (.unresolved error)
    pure .null

/-- Notes that a value is of another kind than expected. -/
def mismatch (field expected : String) (found : Cell) : Reads Unit :=
  warn field (.mismatch expected found.kind)

/-- The text of a field. -/
def text (reader : RowReader) (field : String) : Reads (Option String) := do
  match ← reader.resolve field with
  | .null => pure none
  | .text value => pure (some value)
  | other =>
    mismatch field "str" other
    pure (some other.display)

/-- The text of a field that cannot be missing; a missing one is empty. -/
def requiredText (reader : RowReader) (field : String) : Reads String := do
  match ← reader.text field with
  | some value => pure value
  | none =>
    warn field .missingValue
    pure ""

/-- A value of a field that a reading of cells gives; every other cell but null
is noted as a mismatch. -/
def scalar {α : Type} (reader : RowReader) (read? : Cell → Option α) (expected field : String) :
    Reads (Option α) := do
  match ← reader.resolve field with
  | .null => pure none
  | cell =>
    match read? cell with
    | some value => pure (some value)
    | none =>
      mismatch field expected cell
      pure none

/-- The instant of a field. -/
def instant (reader : RowReader) (field : String) : Reads (Option Time.Instant) :=
  reader.scalar Cell.instant? "datetime" field

/-- The integer of a field. -/
def integer (reader : RowReader) (field : String) : Reads (Option Int64) :=
  reader.scalar Cell.integer? "int" field

/-- The time zone of a field. -/
def zone (reader : RowReader) (field : String) : Reads (Option Time.Zone) :=
  reader.scalar Cell.zone? "timezone" field

/-- The object that keeps a text under the one key `value`. -/
def wrapped (value : String) : Json.Members :=
  [("value", .text value)]

/-- The JSON object of a field. A text may spell one; any other value is kept as
the text under one key. -/
def object (reader : RowReader) (field : String) : Reads Json.Members := do
  match ← reader.resolve field with
  | .null => pure []
  | .json (.object members) => pure members
  | .text value =>
    match Json.read? value with
    | some (.object members) => pure members
    | _ =>
      mismatch field "json object" (.text value)
      pure (wrapped value)
  | other =>
    mismatch field "json object" other
    pure (wrapped other.display)

/-- The parts of a text between commas, trimmed, without empty ones. -/
def commaParts (value : String) : List Json :=
  ((Text.pieces ',' value.toList).map fun piece => String.ofList (Text.trimChars piece)).filterMap
    fun part => if part = "" then none else some (.text part)

/-- The JSON list of a field. An object gives its values; a text may spell a list
or be one between commas; every other value is a list of itself. -/
def list (reader : RowReader) (field : String) : Reads (List Json) := do
  match ← reader.resolve field with
  | .null => pure []
  | .json (.list items) => pure items
  | .json (.object members) => pure (members.map (·.2))
  | .text value =>
    match Json.read? value with
    | some (.list items) => pure items
    | _ => pure (commaParts value)
  | other => pure [other.toJson]

end RowReader

end EventSieve
