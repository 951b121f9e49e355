import EventSieve.Clause.Identifier
import EventSieve.Number.Notation
import EventSieve.Text.Blank

/-!
# Dialects of clauses

The clauses of all dialects have one shape. A dialect decides how names are
quoted, how a parameter is referred to, and whether a set is bound as one array
or as one parameter for each of its values.
-/

namespace EventSieve

/-- The databases that clauses are written for. -/
inductive Dialect where
  | bigquery
  | mysql
  | postgres
deriving DecidableEq, Repr

namespace Dialect

/-- The name of a dialect. -/
def name : Dialect → String
  | .bigquery => "bigquery"
  | .mysql => "mysql"
  | .postgres => "postgres"

/-- The word by which a dialect is looked up: without blanks around it, in lower case. -/
def lookupWord (text : String) : String :=
  Text.lower (Text.trim text)

/-- The dialect that a text names. -/
def ofText? (text : String) : Option Dialect :=
  let word := lookupWord text
  if word = "bigquery" || word = "bq" then some .bigquery
  else if word = "mysql" then some .mysql
  else if word = "postgres" || word = "postgresql" || word = "pg" then some .postgres
  else none

/-- The message for a text that names no dialect. -/
def unknownMessage (text : String) : String :=
  "unknown backend '" ++ lookupWord text ++ "' (expected bigquery, mysql or postgres)"

/-- The character around names. -/
def quote : Dialect → Char
  | .bigquery => '\x60'
  | .mysql => '\x60'
  | .postgres => '"'

/-- A name as it stands in a clause. -/
def identifier (dialect : Dialect) (name : String) : String :=
  Clause.quoted dialect.quote name

/-- Whether parameters have names rather than positions. -/
def namesParameters : Dialect → Bool
  | .bigquery => true
  | .mysql => false
  | .postgres => false

/-- Whether a set is bound as one array. -/
def bindsArrays : Dialect → Bool
  | .bigquery => true
  | .mysql => false
  | .postgres => false

/-- The reference to a parameter by its name or its position, counted from one. -/
def reference (dialect : Dialect) (name : String) (position : Nat) : String :=
  match dialect with
  | .bigquery => "@" ++ name
  | .mysql => "%s"
  | .postgres => "$" ++ Number.integerText position

/-- What stands behind IN for one array. -/
def arrayOperand (reference : String) : String :=
  "UNNEST(" ++ reference ++ ")"

/-- What stands behind IN for one parameter for each value. -/
def listOperand (references : List String) : String :=
  "(" ++ String.intercalate ", " references ++ ")"

/-- The name of a dialect names it. -/
theorem ofText?_name (dialect : Dialect) : ofText? dialect.name = some dialect := by
  cases dialect <;> decide +kernel

end Dialect

end EventSieve
