import EventSieve.Filter.Error

/-!
# Collections of filters

A collection has one filter for every field, over the domain of that field. All
of them have to accept a record. A collection is valid when every filter has a
shape that its field admits and no range is inverted; the first offending field
in the order of the fields is reported.
-/

namespace EventSieve

open EventSieve.Filter (Field Domain Shape)

/-- One filter for every field. -/
structure FilterCollection where
  filter : (field : Field) → Filter field.domain

namespace FilterCollection

/-- The collection that restricts nothing. -/
def empty : FilterCollection := ⟨fun _ => .unrestricted⟩

/-- The collection with the filter of one field replaced. -/
def set (collection : FilterCollection) (field : Field) (filter : Filter field.domain) :
    FilterCollection where
  filter other := if same : field = other then same ▸ filter else collection.filter other

/-- The fields whose filters restrict something. -/
def activeFields (collection : FilterCollection) : List Field :=
  Field.all.filter fun field => !(collection.filter field).isTrivial

/-- Whether no filter restricts anything. -/
def isEmpty (collection : FilterCollection) : Bool :=
  collection.activeFields.isEmpty

/-- The set elements of all filters together. -/
def elementCount (collection : FilterCollection) : Nat :=
  Field.all.foldr (fun field count => (collection.filter field).elementCount + count) 0

/-- Whether the filter of one field has a shape that the field admits. -/
def checkShape (field : Field) (filter : Filter field.domain) : Except FilterError Unit :=
  match filter.shape? with
  | some shape => if field.allows shape then .ok () else .error (.shapeNotAllowed field shape)
  | none => .ok ()

/-- An inverted range as an error about a column. -/
def checkBounds {domain : Domain} (column : String) (filter : RangeFilter domain) :
    Except FilterError Unit :=
  match filter.minimum, filter.maximum with
  | some minimum, some maximum =>
    if filter.isInverted then
      .error (.invertedRange column (domain.display minimum) (domain.display maximum))
    else .ok ()
  | _, _ => .ok ()

/-- Whether the filter of one field is free of contradictions. -/
def checkField (field : Field) (filter : Filter field.domain) : Except FilterError Unit := do
  checkShape field filter
  match filter with
  | .range range => checkBounds field.name range
  | _ => .ok ()

/-- Whether all filters are free of contradictions. -/
def validate (collection : FilterCollection) : Except FilterError Unit :=
  Field.all.forM fun field => checkField field (collection.filter field)

/-- The filter that was set is found. -/
theorem filter_set_same (collection : FilterCollection) (field : Field)
    (filter : Filter field.domain) : (collection.set field filter).filter field = filter := by
  simp [set]

/-- Setting the filter of one field leaves the others alone. -/
theorem filter_set_other (collection : FilterCollection) {field other : Field}
    (filter : Filter field.domain) (different : field ≠ other) :
    (collection.set field filter).filter other = collection.filter other := by
  simp [set, different]

/-- The empty collection restricts nothing. -/
theorem isEmpty_empty : empty.isEmpty = true := by decide

end FilterCollection

end EventSieve
