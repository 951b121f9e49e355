import EventSieve.Clause.Condition
import EventSieve.Frame.Basic

/-!
# Masks

A mask tests the cells of one column, and a row is kept when all masks of a
clause hold. The mask of a filter reads each cell into the domain of the filter
and then asks the filter itself, so both bounds of a range are included and
versions are ordered as versions whatever the column. A cell without a reading
never passes.
-/

namespace EventSieve

open EventSieve.Filter (Domain Field)

/-- A test of the cells of one column. -/
structure Mask where
  column : String
  accepts : Cell → Bool

/-- Masks that all have to hold. -/
abbrev MaskClause := List Mask

namespace Mask

variable {domain : Domain}

/-- A mask that no cell passes. -/
def never (column : String) : Mask := ⟨column, fun _ => false⟩

/-- The mask of a filter: the cell has a reading, and the filter accepts it. -/
def ofReading (column : String) (filter : Filter domain) : Mask where
  column := column
  accepts cell :=
    match domain.ofCell? cell with
    | some value => filter.accepts value
    | none => false

/-- The mask of a set filter on the column of a field. -/
def ofSetFilter (bindings : Bindings) (field : Field) (filter : SetFilter domain) :
    Except FilterError Mask := do
  Condition.requireShape field .set
  let binding ← bindings.resolve field
  if filter.elements.isEmpty && filter.mode = .include then return never binding.column
  return ofReading binding.column (.set filter)

/-- The mask of a range filter on the column of a field. -/
def ofRangeFilter (bindings : Bindings) (field : Field) (filter : RangeFilter domain) :
    Except FilterError Mask := do
  Condition.requireShape field .range
  let binding ← bindings.resolve field
  FilterCollection.checkBounds binding.column filter
  return ofReading binding.column (.range filter)

/-- The mask of a filter; a filter that restricts nothing has none. -/
def ofFilter (bindings : Bindings) (field : Field) (filter : Filter domain) :
    Except FilterError (Option Mask) :=
  if filter.isTrivial then .ok none
  else match filter with
    | .unrestricted => .ok none
    | .set filter => do return some (← ofSetFilter bindings field filter)
    | .range filter => do return some (← ofRangeFilter bindings field filter)

end Mask

namespace MaskClause

/-- The masks of a valid collection in the order of the fields. -/
def ofCollection (bindings : Bindings) (collection : FilterCollection) :
    Except FilterError MaskClause := do
  collection.validate
  let masks ← Field.all.mapM fun field => Mask.ofFilter bindings field (collection.filter field)
  return masks.filterMap id

/-- The masks with the positions of their columns in a frame; the first mask
whose column is missing is reported. -/
def locate (clause : MaskClause) (frame : Frame) : Except FilterError (List (Nat × Mask)) :=
  clause.mapM fun mask =>
    match frame.columnIndex? mask.column with
    | some index => .ok (index, mask)
    | none => .error (.missingFrameColumn mask.column)

/-- Whether a row passes every mask. -/
def holds (located : List (Nat × Mask)) (row : Row) : Bool :=
  located.all fun (index, mask) =>
    match row[index]? with
    | some cell => mask.accepts cell
    | none => false

/-- One verdict for every row of a frame. -/
def evaluate (clause : MaskClause) (frame : Frame) : Except FilterError (List Bool) := do
  return frame.rows.map (holds (← clause.locate frame))

end MaskClause

/-- The rows of a frame that a clause keeps. -/
def Frame.filter (frame : Frame) (clause : MaskClause) : Except FilterError Frame := do
  return frame.keep (MaskClause.holds (← clause.locate frame))

end EventSieve
