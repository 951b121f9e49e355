import EventSieve.Record.Reader
import EventSieve.Record.Session

/-!
# Kinds of records

A kind of record says which logical fields are written back, how a record is
read from a row, which value a record has in a field, and how a record takes its
place in the sequence of its session.
-/

namespace EventSieve

/-- How records of one kind are read and written. -/
structure RecordFormat (α : Type) where
  /-- The fields in the order in which they are written back. -/
  fields : List String
  read : RowReader → RowReader.Reads α
  fieldValue : α → String → Cell
  /-- Completes a record by what only its place among the other records says. -/
  complete : SessionSequence → α → α × SessionSequence

/-- An optional text as a cell. -/
def Cell.ofText? : Option String → Cell
  | some value => .text value
  | none => .null

/-- An optional integer as a cell. -/
def Cell.ofInteger? : Option Int64 → Cell
  | some value => .integer value
  | none => .null

/-- An optional time zone as a cell. -/
def Cell.ofZone? : Option Time.Zone → Cell
  | some value => .zone value
  | none => .null

end EventSieve
