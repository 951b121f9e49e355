import EventSieve.Json.Printer
import EventSieve.Time.Instant
import EventSieve.Time.Span
import EventSieve.Time.Zone

/-!
# Cells of a row

A cell is one value of a raw row: nothing, a scalar, a point or length of time,
a time zone, or JSON. Every cell has a short name of its kind and a text; the
text of nothing is empty, texts stand as they are, and JSON is written
compactly.

A cell also has a JSON value. Times and zones are there by their text, and a
floating-point value that is not finite is null.
-/

namespace EventSieve

/-- One value of a raw row. -/
inductive Cell where
  | null
  | boolean (value : Bool)
  | integer (value : Int64)
  | float (value : Number.Binary64)
  | text (value : String)
  | instant (value : Time.Instant)
  | span (value : Time.Span)
  | zone (value : Time.Zone)
  | json (value : Json)
deriving Repr

namespace Cell

/-- Whether a cell holds nothing. -/
def isNull : Cell → Bool
  | .null => true
  | _ => false

/-- The short name of the kind of a cell, as messages give it. -/
def kind : Cell → String
  | .null => "null"
  | .boolean _ => "bool"
  | .integer _ => "int"
  | .float _ => "float"
  | .text _ => "str"
  | .instant _ => "datetime"
  | .span _ => "timedelta"
  | .zone _ => "timezone"
  | .json _ => "json"

/-- The text of a cell, as it is joined with other texts and shown in messages. -/
def display : Cell → String
  | .null => ""
  | .boolean value => if value then "true" else "false"
  | .integer value => Number.integerText value.toInt
  | .float value => Number.floatText Number.plainStyle value
  | .text value => value
  | .instant value => value.text
  | .span value => value.text
  | .zone value => value.text
  | .json value => value.compact

/-- The JSON value of a cell. -/
def toJson : Cell → Json
  | .null => .null
  | .boolean value => .boolean value
  | .integer value => .ofInt value.toInt
  | .float value => if value.isFinite then .number (.float value) else .null
  | .text value => .text value
  | .json value => value
  | .instant value => .text value.text
  | .span value => .text value.text
  | .zone value => .text value.text

/-- The cell of a JSON number: an integer when it fits 64 bits with sign. -/
def ofNumber : Json.Number → Cell
  | .integer value =>
    if Number.isInt64 value then .integer (Int64.ofInt value) else .float (.ofInt value)
  | .float value => .float value

/-- The cell of a JSON value. Lists and objects stay JSON. -/
def ofJson : Json → Cell
  | .null => .null
  | .boolean value => .boolean value
  | .number value => ofNumber value
  | .text value => .text value
  | .list items => .json (.list items)
  | .object members => .json (.object members)

/-- The members of a cell that holds a JSON object. -/
def members? : Cell → Option Json.Members
  | .json (.object members) => some members
  | _ => none

/-- A cell is null exactly when its kind says so. -/
theorem isNull_iff_kind (cell : Cell) : cell.isNull = true ↔ cell.kind = "null" := by
  cases cell <;> simp [isNull, kind]

/-- An integer comes back from its JSON value. -/
theorem ofJson_toJson_integer (value : Int64) :
    ofJson (Cell.integer value).toJson = .integer value := by
  have fits : Number.isInt64 value.toInt = true := by
    rw [Number.isInt64, Bool.and_eq_true]
    exact ⟨decide_eq_true value.le_toInt, decide_eq_true value.toInt_lt⟩
  simp only [toJson, Json.ofInt, ofJson, ofNumber, fits, if_true, Int64.ofInt_toInt]

end Cell

end EventSieve
