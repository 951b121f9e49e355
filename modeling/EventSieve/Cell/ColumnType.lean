import EventSieve.Text.Ascii
import EventSieve.Text.Blank
import EventSieve.Text.Bytes
import EventSieve.Text.Cut

/-!
# Declared types of columns

A column declares one of eight kinds of cells, or text out of a list of
variants; an empty list allows every text. A type is written as a tag. Reading a
tag ignores blanks around it and the case of its letters, but the variants of an
enumeration keep their spelling, their order and their repetitions; blanks
around a variant and empty variants are dropped.
-/

namespace EventSieve

/-- The declared type of a column. -/
inductive ColumnType where
  | str
  | int
  | float
  | bool
  | datetime
  | timedelta
  | timezone
  | json
  | enum (variants : List String)
deriving DecidableEq, Repr

namespace ColumnType

/-- The tags that stand for one type each, in lower case. -/
def named? (tag : String) : Option ColumnType :=
  if tag = "str" || tag = "string" then some .str
  else if tag = "int" || tag = "integer" then some .int
  else if tag = "float" then some .float
  else if tag = "bool" || tag = "boolean" then some .bool
  else if tag = "datetime" then some .datetime
  else if tag = "timedelta" then some .timedelta
  else if tag = "timezone" then some .timezone
  else if tag = "json" then some .json
  else if tag = "enum" then some (.enum [])
  else none

/-- The variants that stand between the parentheses of a tag. -/
def variants (body : List Char) : List String :=
  ((Text.pieces ',' body).map fun piece => String.ofList (Text.trimChars piece)).filter (· ≠ "")

/-- The text between the parentheses of a trimmed enumeration tag. It is found among the
small letters of the tag, and cut out of the tag itself by the numbers of bytes in front
of it and behind it. -/
def enumBody? (tag : List Char) : Option (List Char) := do
  let opened ← Text.dropFront? "enum(".toList (Text.lowerChars tag)
  let inner ← Text.dropBack? [')'] opened
  Text.slice? (Text.size tag - Text.size inner - 1) (Text.size tag - 1) tag

/-- The type that a tag denotes. -/
def ofTag? (tag : String) : Option ColumnType :=
  let body := Text.trimChars tag.toList
  (named? (String.ofList (Text.lowerChars body))).or
    ((enumBody? body).map fun inner => .enum (variants inner))

/-- The tag of a type. -/
def tag : ColumnType → String
  | .str => "str"
  | .int => "int"
  | .float => "float"
  | .bool => "bool"
  | .datetime => "datetime"
  | .timedelta => "timedelta"
  | .timezone => "timezone"
  | .json => "json"
  | .enum [] => "enum"
  | .enum (variant :: more) => "enum(" ++ String.intercalate ", " (variant :: more) ++ ")"

example : ofTag? " Enum( A ,b,,A) " = some (.enum ["A", "b", "A"]) := by decide +kernel

example : ofTag? "enum(" = none := by decide +kernel

end ColumnType

/-- A column of a table with its declared type. -/
structure Column where
  name : String
  type : ColumnType
  description : Option String
deriving DecidableEq, Repr

end EventSieve
