import EventSieve.Cell.Basic

/-!
# Raw rows

A row is a list of cells in the order of the columns. A row whose width differs
from the number of columns is refused, and the error says which row it was,
counted from zero.
-/

namespace EventSieve

/-- The cells of one row. -/
abbrev Row := List Cell

/-- A row with more or fewer cells than there are columns. -/
structure RowLengthError where
  table : String
  row : Nat
  expected : Nat
  actual : Nat
deriving DecidableEq, Repr

/-- The message of a row with a wrong width. -/
def RowLengthError.message (error : RowLengthError) : String :=
  "Row " ++ Number.integerText error.row ++ " has " ++ Number.integerText error.actual ++
    " cells, table '" ++ error.table ++ "' declares " ++ Number.integerText error.expected

end EventSieve
