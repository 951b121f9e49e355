import EventSieve.Filter.ElementSet

/-!
# Filters

A filter over a domain restricts nothing, asks for membership in a set, or asks
for a place in a range. Its mode says whether the values that match are kept or
removed. The bounds of a range belong to it, and a removing range keeps exactly
what the keeping range removes. A range without bounds restricts nothing in
either mode; an empty set removes everything in one mode and nothing in the
other.
-/

namespace EventSieve.Filter

/-- Whether the values that match are kept or removed. -/
inductive Mode where
  | include
  | exclude
deriving DecidableEq, Repr

/-- The word for a mode. -/
def Mode.text : Mode → String
  | .include => "include"
  | .exclude => "exclude"

/-- Turns a verdict around when the mode removes what matches. -/
def Mode.apply (mode : Mode) (verdict : Bool) : Bool :=
  match mode with
  | .include => verdict
  | .exclude => !verdict

/-- The form of a filter that restricts something. -/
inductive Shape where
  | set
  | range
deriving DecidableEq, Repr

/-- The word for a shape. -/
def Shape.text : Shape → String
  | .set => "set"
  | .range => "range"

end Filter

open EventSieve.Filter (Domain ElementSet Mode Shape)

/-- A filter that asks for membership. -/
structure SetFilter (domain : Domain) where
  mode : Mode
  elements : ElementSet domain

/-- A filter that asks for a place between bounds. -/
structure RangeFilter (domain : Domain) where
  mode : Mode
  minimum : Option domain.Carrier
  maximum : Option domain.Carrier

/-- A restriction of the values of a domain. -/
inductive Filter (domain : Domain) where
  | unrestricted
  | set (filter : SetFilter domain)
  | range (filter : RangeFilter domain)

/-- Whether a value passes. -/
def SetFilter.accepts {domain : Domain} (filter : SetFilter domain) (value : domain.Carrier) : Bool :=
  filter.mode.apply (filter.elements.contains value)

namespace RangeFilter

variable {domain : Domain}

/-- Whether neither bound is there. -/
def isUnbounded (filter : RangeFilter domain) : Bool :=
  filter.minimum.isNone && filter.maximum.isNone

/-- Whether both bounds are there and the minimum comes after the maximum. -/
def isInverted (filter : RangeFilter domain) : Bool :=
  match filter.minimum, filter.maximum with
  | some minimum, some maximum => domain.order minimum maximum == .gt
  | _, _ => false

/-- Whether a value passes. -/
def accepts (filter : RangeFilter domain) (value : domain.Carrier) : Bool :=
  match filter.minimum, filter.maximum with
  | none, none => true
  | some minimum, none => filter.mode.apply (domain.upTo minimum value)
  | none, some maximum => filter.mode.apply (domain.upTo value maximum)
  | some minimum, some maximum =>
    filter.mode.apply (domain.upTo minimum value && domain.upTo value maximum)

end RangeFilter

namespace Filter

variable {domain : Domain}

/-- A range filter, unless neither bound is given: then nothing is restricted. -/
def ofRange (mode : Mode) (minimum maximum : Option domain.Carrier) : Filter domain :=
  if minimum.isNone && maximum.isNone then .unrestricted else .range ⟨mode, minimum, maximum⟩

/-- Whether a value passes. -/
def accepts (filter : Filter domain) (value : domain.Carrier) : Bool :=
  match filter with
  | .unrestricted => true
  | .set filter => filter.accepts value
  | .range filter => filter.accepts value

/-- Whether nothing is restricted. -/
def isTrivial : Filter domain → Bool
  | .unrestricted => true
  | .set filter => filter.mode = .exclude && filter.elements.isEmpty
  | .range filter => filter.isUnbounded

/-- The shape of a filter; a range without bounds has none. -/
def shape? : Filter domain → Option Shape
  | .unrestricted => none
  | .set _ => some .set
  | .range filter => if filter.isUnbounded then none else some .range

/-- The mode of a filter; no filter counts as keeping. -/
def mode : Filter domain → Mode
  | .unrestricted => .include
  | .set filter => filter.mode
  | .range filter => filter.mode

/-- The number of set elements. -/
def elementCount : Filter domain → Nat
  | .set filter => filter.elements.size
  | _ => 0

/-- Whether the filter is a range whose minimum comes after its maximum. -/
def isInverted : Filter domain → Bool
  | .range filter => filter.isInverted
  | _ => false

/-- A filter that restricts nothing accepts every value. -/
theorem accepts_of_isTrivial (filter : Filter domain) (trivial : filter.isTrivial = true)
    (value : domain.Carrier) : filter.accepts value = true := by
  cases filter with
  | unrestricted => rfl
  | set filter =>
    simp only [isTrivial, Bool.and_eq_true, decide_eq_true_eq, ElementSet.isEmpty,
      List.isEmpty_iff] at trivial
    simp [accepts, SetFilter.accepts, ElementSet.contains, trivial, Mode.apply]
  | range filter =>
    simp only [isTrivial, RangeFilter.isUnbounded, Bool.and_eq_true, Option.isNone_iff_eq_none] at trivial
    simp [accepts, RangeFilter.accepts, trivial]

end Filter

end EventSieve
