import EventSieve.Clause.Binding
import EventSieve.Filter.Collection

/-!
# Conditions on columns

A filter that restricts something becomes a condition on its column, the same
for every dialect. The values of the filter are converted to the type of the
column first; a value that does not convert, or that stands for no value there,
is an error. A range of versions is refused on a column that compares texts.

A condition on both bounds includes them. A condition on one bound is strict: it
asks for values beyond the bound, or before it when the filter removes what
matches.
-/

namespace EventSieve

open EventSieve.Filter (Domain Field Mode Shape)

/-- What a condition asks of the cells of its column. -/
inductive Comparison where
  /-- No cell will do. -/
  | never
  /-- The cell is among the values, or is not. -/
  | membership (mode : Mode) (values : List Cell)
  /-- The cell lies between the bounds, or does not. -/
  | between (mode : Mode) (minimum maximum : Cell)
  /-- The cell lies beyond a minimum, or before it. -/
  | minimum (mode : Mode) (bound : Cell)
  /-- The cell lies before a maximum, or beyond it. -/
  | maximum (mode : Mode) (bound : Cell)
deriving Repr

/-- The values that a comparison binds, in their order. -/
def Comparison.values : Comparison → List Cell
  | .never => []
  | .membership _ values => values
  | .between _ lower upper => [lower, upper]
  | .minimum _ bound => [bound]
  | .maximum _ bound => [bound]

/-- A comparison with the column that it is about. -/
structure Condition where
  binding : Binding
  comparison : Comparison
deriving Repr

namespace Condition

variable {domain : Domain}

/-- The cell that a value of a filter is bound as. -/
def bindValue (binding : Binding) (value : domain.Carrier) : Except FilterError Cell :=
  let raw := domain.toCell value
  match raw.convert binding.type with
  | .error source => .error (.elementType binding.column raw.display source)
  | .ok converted =>
    if converted.isNull then .error (.nullElement binding.column raw.display) else .ok converted

/-- Whether a column compares its cells as texts. -/
def comparesText : ColumnType → Bool
  | .str => true
  | .enum _ => true
  | _ => false

/-- The condition of a set filter; a set that restricts nothing has none. -/
def ofSet (binding : Binding) (filter : SetFilter domain) : Except FilterError (Option Condition) :=
  if filter.elements.isEmpty then
    match filter.mode with
    | .include => .ok (some ⟨binding, .never⟩)
    | .exclude => .ok none
  else do
    let values ← filter.elements.toList.mapM (bindValue binding)
    return some ⟨binding, .membership filter.mode values⟩

/-- The comparison of a range filter with its bounds converted, the minimum first. -/
def rangeComparison (binding : Binding) (filter : RangeFilter domain) :
    Except FilterError (Option Comparison) :=
  match filter.minimum, filter.maximum with
  | none, none => .ok none
  | some minimum, some maximum => do
    let minimum ← bindValue binding minimum
    let maximum ← bindValue binding maximum
    return some (.between filter.mode minimum maximum)
  | some minimum, none => do
    return some (.minimum filter.mode (← bindValue binding minimum))
  | none, some maximum => do
    return some (.maximum filter.mode (← bindValue binding maximum))

/-- The condition of a range filter; a range without bounds has none. -/
def ofRange (binding : Binding) (filter : RangeFilter domain) :
    Except FilterError (Option Condition) := do
  FilterCollection.checkBounds binding.column filter
  if domain.ownOrder && comparesText binding.type then
    throw (.textOrderedRange binding.column)
  let comparison ← rangeComparison binding filter
  return comparison.map fun comparison => ⟨binding, comparison⟩

/-- The condition of a filter on a column. -/
def ofFilter (binding : Binding) (filter : Filter domain) : Except FilterError (Option Condition) :=
  match filter with
  | .unrestricted => .ok none
  | .set filter => ofSet binding filter
  | .range filter => ofRange binding filter

/-- The condition of the filter of one field; a filter that restricts nothing
does not need a column. -/
def ofField (bindings : Bindings) (field : Field) (filter : Filter field.domain) :
    Except FilterError (Option Condition) :=
  if filter.isTrivial then .ok none
  else do
    let binding ← bindings.resolve field
    ofFilter binding filter

/-- The conditions of a valid collection in the order of the fields. -/
def ofCollection (bindings : Bindings) (collection : FilterCollection) :
    Except FilterError (List Condition) := do
  collection.validate
  let conditions ← Field.all.mapM fun field => ofField bindings field (collection.filter field)
  return conditions.filterMap id

/-- Refuses a shape that a field does not admit. -/
def requireShape (field : Field) (shape : Shape) : Except FilterError Unit :=
  if field.allows shape then .ok () else .error (.shapeNotAllowed field shape)

end Condition

end EventSieve
