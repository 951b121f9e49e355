import EventSieve.Cell.Basic
import EventSieve.Json.Members

/-!
# Equal values

Two cells are equal as values when they are of one kind and hold the same, up to what
a kind does not tell apart: both zeros are one number, and the members of an object
have no order. What is not a number is not even equal to itself.
-/

namespace EventSieve

/-- Whether two floating-point values are the same number. -/
def Number.Binary64.equals (left right : Binary64) : Bool :=
  !left.isNaN && (left = right || left.isZero && right.isZero)

/-- Whether two JSON numbers are equal; an integer is never equal to a floating-point
number. -/
def Json.Number.equals : Json.Number → Json.Number → Bool
  | .integer left, .integer right => left = right
  | .float left, .float right => left.equals right
  | _, _ => false

namespace Json

mutual

/-- Whether two JSON values are equal, the members of objects in any order. -/
def equals : Json → Json → Bool
  | .null, .null => true
  | .boolean left, .boolean right => left = right
  | .number left, .number right => left.equals right
  | .text left, .text right => left = right
  | .list items, .list others => equalItems items others
  | .object members, .object others => members.length = others.length && equalMembers members others
  | _, _ => false

/-- Whether lists have equal items, one for one. -/
def equalItems : List Json → List Json → Bool
  | [], [] => true
  | item :: rest, other :: others => item.equals other && equalItems rest others
  | _, _ => false

/-- Whether every member has an equal value under its key among other members. -/
def equalMembers : List (String × Json) → Members → Bool
  | [], _ => true
  | (key, value) :: rest, others =>
    (match Json.lookup key others with
      | some other => value.equals other
      | none => false) && equalMembers rest others

end

end Json

/-- Whether two cells are equal as values. -/
def Cell.equals : Cell → Cell → Bool
  | .null, .null => true
  | .boolean left, .boolean right => left = right
  | .integer left, .integer right => left = right
  | .float left, .float right => left.equals right
  | .text left, .text right => left = right
  | .instant left, .instant right => left = right
  | .span left, .span right => left = right
  | .zone left, .zone right => left = right
  | .json left, .json right => left.equals right
  | _, _ => false

end EventSieve
