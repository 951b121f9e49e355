import EventSieve.Cell.Convert
import EventSieve.Cell.Row
import EventSieve.Table.Document

/-!
# Issues and warnings

Reading a record never fails because of a cell; what was wrong is noted as an
issue of a field. Diagnostics count all issues and log the first one of every
field, unless they are switched off. Other things worth a warning are rows that
were skipped and keys of a table document that mean nothing. Issues come one after
the other here; threads that share diagnostics are left out.
-/

namespace EventSieve

/-- What was wrong with a field. -/
inductive IssueCause where
  /-- The cell of a column does not convert to its type. -/
  | unconverted (column : String) (error : ConvertError)
  /-- The field has no value. -/
  | unresolved (error : ConvertError)
  /-- The value is of another kind than the record needs. -/
  | mismatch (expected found : String)
  /-- A value that the record cannot do without is missing. -/
  | missingValue
  /-- The record has no point in time. -/
  | missingTimestamp
  /-- The word for the source of an event is not known. -/
  | unknownSource (word : String)
  /-- Something that only the reader of a record knows about. -/
  | other (description : String)
deriving DecidableEq, Repr

/-- The message for a word that names no source. -/
def unknownSourceMessage (word : String) : String :=
  "unknown event source '" ++ word ++ "'"

/-- The message of an issue. -/
def IssueCause.message : IssueCause → String
  | .unconverted column error =>
    "Column '" ++ column ++ "' could not be converted: " ++ error.message
  | .unresolved error => "Field could not be resolved: " ++ error.message
  | .mismatch expected found => "Expected " ++ expected ++ " but found " ++ found ++ " value"
  | .missingValue => "Required value is missing"
  | .missingTimestamp => "Missing timestamp, using the Unix epoch"
  | .unknownSource word => unknownSourceMessage word
  | .other description => description

/-- Something that was wrong with a field of a record. -/
structure Issue where
  field : String
  cause : IssueCause
deriving DecidableEq, Repr

/-- What is worth a warning. -/
inductive Warning where
  | issue (issue : Issue)
  | skippedRow (error : RowLengthError)
  | unknownKeys (table : String) (keys : List String)
deriving DecidableEq, Repr

namespace Warning

/-- The message of a warning. -/
def message : Warning → String
  | .issue noted => noted.cause.message ++ " (further warnings for this field suppressed)"
  | .skippedRow _ => "Skipping row"
  | .unknownKeys _ _ => "Unknown fields in schema document (possible typos)"

/-- The named details that go with the message of a warning. -/
def details : Warning → List (String × String)
  | .issue noted => [("field", noted.field)]
  | .skippedRow error => [("error", error.message)]
  | .unknownKeys table keys => [("table", table), ("fields", String.intercalate ", " keys)]

/-- The warning about the keys of a table document that mean nothing. -/
def ofDocument (document : TableDocument) : List Warning :=
  if document.unknownKeys.isEmpty then [] else [.unknownKeys document.name document.unknownKeys]

end Warning

/-- The issues that have been seen. -/
structure Diagnostics where
  /-- Whether first issues are logged. -/
  enabled : Bool
  /-- The fields that have logged an issue, the latest first. -/
  warned : List String
  /-- The number of issues. -/
  issues : Nat
deriving DecidableEq, Repr

namespace Diagnostics

/-- Diagnostics that have seen nothing. -/
def fresh (enabled : Bool) : Diagnostics := ⟨enabled, [], 0⟩

/-- Counts an issue and says whether it is logged. -/
def note (diagnostics : Diagnostics) (issue : Issue) : Diagnostics × Bool :=
  let logged := diagnostics.enabled && !diagnostics.warned.contains issue.field
  ({ diagnostics with
      issues := diagnostics.issues + 1
      warned := if logged then issue.field :: diagnostics.warned else diagnostics.warned }, logged)

/-- Counts issues in order and collects the warnings of those that are logged. -/
def noteAll (diagnostics : Diagnostics) : List Issue → Diagnostics × List Warning
  | [] => (diagnostics, [])
  | issue :: rest =>
    let (noted, logged) := diagnostics.note issue
    let (final, warnings) := noted.noteAll rest
    (final, if logged then .issue issue :: warnings else warnings)

/-- The fields that have logged an issue, in ascending order. -/
def warnedFields (diagnostics : Diagnostics) : List String :=
  diagnostics.warned.mergeSort fun left right => compare left right != .gt

/-- Every issue is counted, logged or not. -/
theorem noteAll_issues (diagnostics : Diagnostics) (issues : List Issue) :
    (diagnostics.noteAll issues).1.issues = diagnostics.issues + issues.length := by
  induction issues generalizing diagnostics with
  | nil => rfl
  | cons issue rest inductionHypothesis =>
    simp only [noteAll, inductionHypothesis, note, List.length_cons]
    omega

end Diagnostics

end EventSieve
