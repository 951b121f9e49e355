import EventSieve.Number.Binary64

/-!
# JSON values

A number is an integer or a floating-point value; integers range from the least
integer of 64 bits with sign to the greatest without. The members of an object
have an order.
-/

namespace EventSieve

/-- A number in a JSON value. Floating-point numbers are always finite there. -/
inductive Json.Number where
  | integer (value : Int)
  | float (value : EventSieve.Number.Binary64)
deriving DecidableEq, Repr

/-- JSON values with ordered objects. -/
inductive Json where
  | null
  | boolean (value : Bool)
  | number (value : Json.Number)
  | text (value : String)
  | list (items : List Json)
  | object (members : List (String × Json))
deriving Repr

namespace Json

/-- The members of an object in their order. -/
abbrev Members := List (String × Json)

/-- An integer as a JSON value. -/
def ofInt (value : Int) : Json :=
  .number (.integer value)

/-- A text, or null when there is none. -/
def ofText? : Option String → Json
  | some value => .text value
  | none => .null

end Json

end EventSieve
