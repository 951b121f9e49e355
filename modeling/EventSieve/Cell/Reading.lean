import EventSieve.Cell.Convert

/-!
# Cells read as plain values

Readers that expect one kind of value take a cell of that kind and read a text
by the rules of the kind. An integer is also read from a whole floating-point
value, and one beyond the range of 64 bits becomes the end of the range that is
nearer; a text has to be an integer as it stands.
-/

namespace EventSieve.Cell

/-- The integer that a whole floating-point value is equal to, or the end of the
range of 64 bits that lies nearest to it. -/
def clampedWhole? (value : Number.Binary64) : Option Int64 :=
  value.integer?.map fun whole =>
    Int64.ofInt (max (-Number.int64Bound) (min whole (Number.int64Bound - 1)))

/-- The integer that a cell holds. -/
def integer? : Cell → Option Int64
  | .integer value => some value
  | .float value => clampedWhole? value
  | .text value => (Number.int64? (Text.trimChars value.toList)).map Int64.ofInt
  | _ => none

/-- The instant that a cell holds, natively or as text. -/
def instant? : Cell → Option Time.Instant
  | .instant value => some value
  | .text value => Time.instant? value
  | _ => none

/-- The time zone that a cell holds, natively or as text. -/
def zone? : Cell → Option Time.Zone
  | .zone value => some value
  | .text value => Time.Zone.ofText? value
  | _ => none

end EventSieve.Cell
