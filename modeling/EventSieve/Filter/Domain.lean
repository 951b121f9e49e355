import EventSieve.Cell.Reading
import EventSieve.Version.Basic

/-!
# Domains of filter values

A filter speaks about texts, integers, versions or instants. Each domain has its
own values and their order, the cell that a value is bound as, and a reading of
the cells of a frame back into the domain; null and cells of an unsuitable kind
have no reading.

Versions are the only domain whose order is known to differ from the order of
the texts that are bound.
-/

namespace EventSieve.Filter

/-- What the values of a filter are. -/
inductive Domain where
  | text
  | integer
  | version
  | instant
deriving DecidableEq, Repr

namespace Domain

/-- The values of a domain. -/
@[reducible] def Carrier : Domain → Type
  | .text => String
  | .integer => Int64
  | .version => Version
  | .instant => Time.Instant

/-- The order of the values of a domain. -/
def order : (domain : Domain) → domain.Carrier → domain.Carrier → Ordering
  | .text => fun left right => compare left right
  | .integer => fun left right => compare left right
  | .version => Version.order
  | .instant => Time.Instant.order

/-- Whether a value comes before another. -/
def precedes (domain : Domain) (left right : domain.Carrier) : Bool :=
  domain.order left right == .lt

/-- Whether a value does not come after another. -/
def upTo (domain : Domain) (left right : domain.Carrier) : Bool :=
  domain.order left right != .gt

/-- Whether two values hold the same place in the order. -/
def same (domain : Domain) (left right : domain.Carrier) : Bool :=
  domain.order left right == .eq

/-- Whether the values have an order of their own, which comparing their texts
does not give. -/
def ownOrder : Domain → Bool
  | .version => true
  | _ => false

/-- The cell that a value is bound as. -/
def toCell : (domain : Domain) → domain.Carrier → Cell
  | .text => .text
  | .integer => .integer
  | .version => fun value => .text value.text
  | .instant => .instant

/-- The text that a cell holds; every cell but null has one. -/
def textOfCell? : Cell → Option String
  | .null => none
  | .text value => some value
  | other => some other.display

/-- The version that a cell holds: a text or a number. -/
def versionOfCell? : Cell → Option Version
  | .text value => some (.ofText value)
  | .integer value => some (.ofText (Cell.integer value).display)
  | .float value => some (.ofText (Cell.float value).display)
  | _ => none

/-- The value of a domain that a cell holds. -/
def ofCell? : (domain : Domain) → Cell → Option domain.Carrier
  | .text => textOfCell?
  | .integer => Cell.integer?
  | .version => versionOfCell?
  | .instant => Cell.instant?

/-- The text of a value. -/
def display (domain : Domain) (value : domain.Carrier) : String :=
  (domain.toCell value).display

/-- No value is bound as null. -/
theorem toCell_isNull (domain : Domain) (value : domain.Carrier) :
    (domain.toCell value).isNull = false := by
  cases domain <;> rfl

/-- Null has no reading in any domain. -/
theorem ofCell?_null (domain : Domain) : domain.ofCell? .null = none := by
  cases domain <;> rfl

end Domain

end EventSieve.Filter
