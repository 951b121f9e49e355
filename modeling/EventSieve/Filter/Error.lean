import EventSieve.Cell.Convert
import EventSieve.Filter.Field

/-!
# Filters that cannot be applied

A collection of filters can contradict itself, ask for a field that has no
column, or carry values that a column cannot be compared with. Each cause has
its message.
-/

namespace EventSieve

open EventSieve.Filter (Field Shape)

/-- Why a filter cannot be applied. -/
inductive FilterError where
  /-- The field does not admit filters of the shape. -/
  | shapeNotAllowed (field : Field) (shape : Shape)
  /-- The minimum of a range comes after its maximum. -/
  | invertedRange (column minimum maximum : String)
  /-- A filter that restricts something has no column. -/
  | unbound (field : Field)
  /-- The field is composed from several columns. -/
  | compositeBinding (field : Field)
  /-- A value does not convert to the type of the column. -/
  | elementType (column value : String) (source : ConvertError)
  /-- A range of versions meets a column that compares texts. -/
  | textOrderedRange (column : String)
  /-- A value stands for no value in the type of the column. -/
  | nullElement (column value : String)
  /-- The frame has no column of the name. -/
  | missingFrameColumn (column : String)
deriving DecidableEq, Repr

namespace FilterError

/-- The message of an error. -/
def message : FilterError → String
  | .shapeNotAllowed field shape => field.name ++ " does not accept a " ++ shape.text ++ " filter"
  | .invertedRange column minimum maximum =>
    "Range filter on '" ++ column ++ "' has minimum " ++ minimum ++ " greater than maximum " ++ maximum
  | .unbound field => field.name ++ " has an active filter but no column binding"
  | .compositeBinding field =>
    field.name ++ " is composed from several columns and cannot be filtered"
  | .elementType column value source =>
    "Filter element " ++ value ++ " cannot be used with column '" ++ column ++ "': " ++ source.message
  | .textOrderedRange column =>
    "Range filter on '" ++ column ++ "' compares versions, but the column is compared as text"
  | .nullElement column value =>
    "Filter element " ++ value ++ " converts to null for column '" ++ column ++ "'"
  | .missingFrameColumn column => "Frame has no column '" ++ column ++ "'"

/-- The messages of an error and of the errors behind it, outermost first. -/
def chain : FilterError → List String
  | .elementType column value source => [message (.elementType column value source), source.message]
  | error => [message error]

end FilterError

end EventSieve
