import EventSieve.Text.Ascii
import EventSieve.Text.Blank
import EventSieve.Text.Cut
import EventSieve.Time.ZoneNames

/-!
# Time zones

A zone is a fixed offset from universal time of less than 24 hours or a named
zone. A fixed offset is written as `UTC` with sign, hours and minutes, and with
seconds when there are any; a named zone is written as its name.

Only names of the time-zone database name a zone; that is part of the type.

A text is read as the letter Z, as a bare offset, as an offset behind `UTC` or
`GMT`, or as a name. A bare offset is a sign with one, two, four or six digits,
between which colons may stand anywhere.
-/

namespace EventSieve.Time

/-- A fixed offset in seconds east of universal time, or a named zone. -/
inductive Zone where
  | fixed (east : Int) (below : east.natAbs < 86400)
  | named (name : String) (known : zoneNames.contains name = true)
deriving DecidableEq, Repr

namespace Zone

/-- The zone of a fixed offset, when it is below 24 hours. -/
def fixed? (east : Int) : Option Zone :=
  if below : east.natAbs < 86400 then some (.fixed east below) else none

/-- The text of a fixed offset. -/
def offsetChars (east : Int) : List Char :=
  let size := east.natAbs
  let seconds := size % 60
  (if east < 0 then '-' else '+') :: (Text.paddedChars 2 (size / 3600) ++
    ':' :: Text.paddedChars 2 (size / 60 % 60) ++
    (if seconds = 0 then [] else ':' :: Text.paddedChars 2 seconds))

/-- The text of a zone. -/
def text : Zone → String
  | .fixed east _ => String.ofList ("UTC".toList ++ offsetChars east)
  | .named name _ => name

/-- The seconds that the digits of an offset denote: hours alone, hours and
minutes, or all three. -/
def offsetSeconds? (digits : List Char) : Option Nat :=
  let part (first : Nat) := Text.numeralValue ((digits.drop first).take 2)
  if digits.length = 1 ∨ digits.length = 2 then some (part 0 * 3600)
  else if digits.length = 4 then
    if part 2 < 60 then some (part 0 * 3600 + part 2 * 60) else none
  else if digits.length = 6 then
    if part 2 < 60 ∧ part 4 < 60 then some (part 0 * 3600 + part 2 * 60 + part 4) else none
  else none

/-- Reads the body of an offset: colons are dropped wherever they stand. -/
def offsetBody? (body : List Char) : Option Nat :=
  let digits := body.filter (· ≠ ':')
  if Text.isNumeral digits then offsetSeconds? digits else none

/-- Reads a bare offset with its sign. -/
def offset? : List Char → Option Zone
  | '+' :: body => (offsetBody? body).bind fun seconds => fixed? seconds
  | '-' :: body => (offsetBody? body).bind fun seconds => fixed? (-(seconds : Int))
  | _ => none

/-- Reads an offset behind one of the names of universal time. -/
def prefixedOffset? (body : List Char) : Option Zone :=
  ((Text.dropFront? "UTC".toList body).bind offset?).or
    ((Text.dropFront? "GMT".toList body).bind offset?)

/-- Reads the name of a zone; letters have to agree in case. -/
def name? (body : List Char) : Option Zone :=
  let name := String.ofList body
  if known : zoneNames.contains name = true then some (.named name known) else none

/-- The zone that a text denotes. -/
def ofText? (text : String) : Option Zone :=
  let body := Text.trimChars text.toList
  if body = ['Z'] then fixed? 0
  else (offset? body).or ((prefixedOffset? body).or (name? body))

example : (ofText? " UTC-07:30 ").map text = some "UTC-07:30" := by decide +kernel

example : (ofText? "+051020").map text = some "UTC+05:10:20" := by decide +kernel

example : ofText? "+24" = none := by decide +kernel

example : zoneNames.length = 597 := by decide +kernel

end Zone

end EventSieve.Time
