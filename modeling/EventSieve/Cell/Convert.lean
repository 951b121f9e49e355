import EventSieve.Cell.Basic
import EventSieve.Cell.ColumnType
import EventSieve.Json.Document
import EventSieve.Text.Letters
import EventSieve.Time.Layout

/-!
# Converting cells to declared types

A cell that stands for no value becomes null whatever the type; only a JSON
column turns nothing, `None` and the empty text into an empty object. A cell of
the declared kind is kept. Otherwise texts are read by the rules of the type, a
few kinds of scalars pass into each other, and everything has a text.

Integers come from texts and floating-point values only when the value is whole
and its size is below `2 ^ 63`; a text that is no integer is read as a
floating-point value first. A text for an enumeration is trimmed and compared
with the variants without regard to case, and becomes the variant as declared.
-/

namespace EventSieve

/-- Why a cell has no value of a declared type. -/
inductive ConvertError where
  /-- The text or the kind of the cell does not fit the type. -/
  | incompatible (kind value : String) (target : ColumnType)
  /-- The row has no cell at an index. -/
  | missingCell (index : Nat)
deriving DecidableEq, Repr

/-- The message of a failed conversion. -/
def ConvertError.message : ConvertError → String
  | .incompatible kind value target =>
    "cannot convert " ++ kind ++ " value '" ++ value ++ "' to " ++ target.tag
  | .missingCell index => "row has no cell at index " ++ Number.integerText index

namespace Cell

/-- The texts that stand for no value. -/
def emptyWords : List String := ["None", "null", "nan"]

/-- Whether a cell stands for no value. -/
def isNullLike : Cell → Bool
  | .null => true
  | .text value => emptyWords.contains value
  | .float value => value.isNaN
  | _ => false

/-- Whether a cell stands for the empty object in a JSON column. -/
def isEmptyObject : Cell → Bool
  | .null => true
  | .text value => value = "" || value = "None"
  | _ => false

/-- The integer that a floating-point value is equal to, when its size is below the
bound of 64 bits with sign. -/
def wholeFloat? (value : Number.Binary64) : Option Int64 :=
  (value.integer?.filter fun whole => whole.natAbs < Number.int64Bound).map Int64.ofInt

/-- A floating-point value is read as the integer that it is equal to, and only below the
bound. -/
theorem wholeFloat?_eq_some_iff {value : Number.Binary64} {whole : Int64} :
    wholeFloat? value = some whole ↔
      value.integer? = some whole.toInt ∧ whole.toInt.natAbs < Number.int64Bound := by
  have bound : Number.int64Bound = 2 ^ 63 := rfl
  simp only [wholeFloat?, Option.map_eq_some_iff, Option.filter_eq_some_iff, decide_eq_true_eq]
  constructor
  · rintro ⟨integer, ⟨found, small⟩, rfl⟩
    rw [Int64.toInt_ofInt_of_le (by omega) (by omega)]
    exact ⟨found, small⟩
  · rintro ⟨found, small⟩
    exact ⟨_, ⟨found, small⟩, Int64.ofInt_toInt whole⟩

/-- The integer that a text denotes: as an integer, or as a whole floating-point value. -/
def wholeText? (value : String) : Option Int64 :=
  let body := Text.trimChars value.toList
  match Number.int64? body with
  | some whole => some (Int64.ofInt whole)
  | none => (Number.float? body).bind wholeFloat?

/-- The cell as an integer. -/
def toInt? : Cell → Option Cell
  | .integer value => some (.integer value)
  | .boolean value => some (.integer (if value then 1 else 0))
  | .float value => (wholeFloat? value).map .integer
  | .text value => (wholeText? value).map .integer
  | _ => none

/-- The cell as a floating-point value. -/
def toFloat? : Cell → Option Cell
  | .float value => some (.float value)
  | .integer value => some (.float (.ofInt value.toInt))
  | .text value => (Number.float? (Text.trimChars value.toList)).map .float
  | _ => none

/-- The truth value that a trimmed word in lower case stands for. -/
def truthWord? (word : String) : Option Bool :=
  if word = "true" || word = "t" || word = "yes" || word = "1" then some true
  else if word = "false" || word = "f" || word = "no" || word = "0" then some false
  else none

/-- The cell as a truth value. -/
def toBoolean? : Cell → Option Cell
  | .boolean value => some (.boolean value)
  | .integer value =>
    if value = 0 then some (.boolean false)
    else if value = 1 then some (.boolean true)
    else none
  | .text value => (truthWord? (Text.lower (Text.trim value))).map .boolean
  | _ => none

/-- The cell as an instant. -/
def toInstant? : Cell → Option Cell
  | .instant value => some (.instant value)
  | .text value => (Time.instant? value).map .instant
  | _ => none

/-- The cell as a span of time. -/
def toSpan? : Cell → Option Cell
  | .span value => some (.span value)
  | .text value => (Time.Span.ofText? value).map .span
  | _ => none

/-- The cell as a time zone. -/
def toZone? : Cell → Option Cell
  | .zone value => some (.zone value)
  | .text value => (Time.Zone.ofText? value).map .zone
  | _ => none

/-- The cell as JSON. -/
def toJsonCell? : Cell → Option Cell
  | .json value => some (.json value)
  | .text value => (Json.read? value).map .json
  | _ => none

/-- The cell as one of the variants of an enumeration, or as any text when there
are none. -/
def toVariant? (variants : List String) (cell : Cell) : Option Cell :=
  if variants.isEmpty then some (.text cell.display)
  else
    let word := Text.trim cell.display
    (variants.find? fun variant => Text.sameLetters variant word).map .text

/-- The cell in a declared type, once it is known to stand for a value. -/
def toType? (type : ColumnType) (cell : Cell) : Option Cell :=
  match type with
  | .str => some (.text cell.display)
  | .int => cell.toInt?
  | .float => cell.toFloat?
  | .bool => cell.toBoolean?
  | .datetime => cell.toInstant?
  | .timedelta => cell.toSpan?
  | .timezone => cell.toZone?
  | .json => cell.toJsonCell?
  | .enum variants => cell.toVariant? variants

/-- Converts a cell to a declared type. -/
def convert (type : ColumnType) (cell : Cell) : Except ConvertError Cell :=
  if type = .json && cell.isEmptyObject then .ok (.json (.object []))
  else if cell.isNullLike then .ok .null
  else match cell.toType? type with
    | some converted => .ok converted
    | none => .error (.incompatible cell.kind cell.display type)

/-- A cell that stands for no value converts to every type. -/
theorem convert_isOk_of_isNullLike (type : ColumnType) (cell : Cell)
    (empty : cell.isNullLike = true) : ∃ converted, cell.convert type = .ok converted := by
  simp only [convert, empty, if_true]
  split <;> exact ⟨_, rfl⟩

/-- Every cell converts to text. -/
theorem convert_str_isOk (cell : Cell) : ∃ converted, cell.convert .str = .ok converted := by
  simp only [convert, toType?]
  repeat' split
  all_goals exact ⟨_, rfl⟩

end Cell

end EventSieve
