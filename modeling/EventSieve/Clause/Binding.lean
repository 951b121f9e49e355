import EventSieve.Filter.Error
import EventSieve.Table.Basic

/-!
# Columns behind filter fields

A filter field is bound to one column with its declared type, is composed from
several columns, or has no column at all. Only the first kind can be filtered. A
table gives every field the column of its logical field.
-/

namespace EventSieve

open EventSieve.Filter (Field)

/-- The column that a filter field is compared with. -/
structure Binding where
  column : String
  type : ColumnType
deriving DecidableEq, Repr

/-- What stands behind a filter field. -/
inductive Target where
  | column (binding : Binding)
  | composite
  | missing
deriving DecidableEq, Repr

/-- What stands behind every filter field. -/
structure Bindings where
  target : Field → Target

namespace Bindings

/-- No field has a column. -/
def empty : Bindings := ⟨fun _ => .missing⟩

/-- Binds one field to a column. -/
def bind (bindings : Bindings) (field : Field) (binding : Binding) : Bindings where
  target other := if other = field then .column binding else bindings.target other

/-- What a locator of a table puts behind a field. -/
def targetOf (table : Table) : Locator → Target
  | .absent => .missing
  | .single index =>
    match table.columns[index]? with
    | some column => .column ⟨column.name, column.type⟩
    | none => .missing
  | .list _ => .composite
  | .dict _ => .composite

/-- The bindings that a table gives. -/
def ofTable (table : Table) : Bindings where
  target field := targetOf table (table.locate field.logicalField)

/-- The column behind a field. -/
def resolve (bindings : Bindings) (field : Field) : Except FilterError Binding :=
  match bindings.target field with
  | .column binding => .ok binding
  | .composite => .error (.compositeBinding field)
  | .missing => .error (.unbound field)

/-- The bound column is found. -/
theorem resolve_bind_same (bindings : Bindings) (field : Field) (binding : Binding) :
    (bindings.bind field binding).resolve field = .ok binding := by
  simp [resolve, bind]

end Bindings

end EventSieve
