import EventSieve.Number.Reading
import EventSieve.Text.Ascii
import EventSieve.Text.Blank
import EventSieve.Text.Cut
import EventSieve.Time.Instant

/-!
# Layouts of dates and times

A layout is a row of items: numbers, fixed characters, blanks, a fraction, an
offset from universal time. Reading a text by a layout takes the items in order
and has to use up the whole text. A lenient number may stand after blanks and
need not be padded; a strict number has an exact count of digits. A lenient year
with a sign may have any number of digits.

What was read is an instant when the date exists, the time is a time of day and
the offset is below 24 hours. Second 60 is a leap second. Parts that a layout
does not name are those of midnight in universal time.
-/

namespace EventSieve.Time

/-- The numbers of a date and a time of day. -/
inductive Part where
  | year
  | month
  | day
  | hour
  | minute
  | second
deriving DecidableEq, Repr

/-- How the offset from universal time may be written. -/
structure OffsetStyle where
  /-- Whether the letter Z stands for no offset. -/
  zulu : Bool
  /-- Whether the word UTC stands for no offset. -/
  word : Bool
  /-- Whether exactly one colon has to stand between hours and minutes, in place
  of any row of colons and blanks. -/
  strict : Bool
deriving DecidableEq, Repr

/-- The items of a layout. -/
inductive Item where
  /-- A number of an exact count of digits. -/
  | digits (part : Part) (count : Nat)
  /-- A number of up to so many digits after any blanks. -/
  | number (part : Part) (width : Nat)
  /-- One of the given characters. -/
  | oneOf (characters : List Char)
  /-- Any row of blanks, also none. -/
  | blanks
  /-- A point and digits of the second, or nothing. -/
  | fraction
  /-- An offset from universal time. -/
  | offset (style : OffsetStyle)
deriving DecidableEq, Repr

/-- A way of writing dates and times. -/
abbrev Layout := List Item

/-- The numbers found in a text so far. -/
structure Reading where
  year : Int
  month : Nat
  day : Nat
  hour : Nat
  minute : Nat
  second : Nat
  nanos : Nat
  /-- Seconds east of universal time. -/
  offset : Int
deriving DecidableEq, Repr

namespace Reading

/-- Midnight, before any date is known. -/
def blank : Reading := ⟨0, 1, 1, 0, 0, 0, 0, 0⟩

/-- Records the number of a part; only a year can be negative. -/
def record (reading : Reading) (part : Part) (value : Int) : Reading :=
  match part with
  | .year => { reading with year := value }
  | .month => { reading with month := value.toNat }
  | .day => { reading with day := value.toNat }
  | .hour => { reading with hour := value.toNat }
  | .minute => { reading with minute := value.toNat }
  | .second => { reading with second := value.toNat }

/-- The instant that a reading denotes. -/
def instant? (reading : Reading) : Option Instant :=
  let date : Date := ⟨reading.year, reading.month, reading.day⟩
  if date.exists? && reading.hour < 24 && reading.minute < 60 && reading.second ≤ 60 &&
      reading.offset.natAbs < 86400 then
    let leap := reading.second = 60
    let second := if leap then 59 else reading.second
    let secondOfDay := reading.hour * 3600 + reading.minute * 60 + second
    Instant.make? (date.dayNumber * secondsPerDay + secondOfDay - reading.offset)
      (if leap then reading.nanos + nanosPerSecond else reading.nanos)
  else none

end Reading

/-- The leading digits of a text, at most so many, and the rest. -/
def leadingDigits (most : Nat) (text : List Char) : List Char × List Char :=
  let digits := (text.take most).takeWhile Char.isDigit
  (digits, text.drop digits.length)

/-- Reads a number of at least one and at most so many digits, when it fits 64
bits with sign. No part of a date is greater. -/
def number? (most : Nat) (text : List Char) : Option (Nat × List Char) :=
  let (digits, rest) := leadingDigits most text
  (Text.naturalBelow? Number.int64Bound digits).map fun value => (value, rest)

/-- Reads a number of an exact count of digits. -/
def exactNumber? (count : Nat) (text : List Char) : Option (Nat × List Char) :=
  let (digits, rest) := leadingDigits count text
  if digits.length = count then (Text.natural? digits).map fun value => (value, rest) else none

/-- Reads a number after blanks. A year may carry a sign, and then its digits are
not counted. -/
def lenientNumber? (part : Part) (width : Nat) (text : List Char) : Option (Int × List Char) :=
  let body := Text.trimFront text
  let unsigned := (number? width body).map fun (value, rest) => ((value : Int), rest)
  match part, body with
  | .year, '-' :: rest => (number? rest.length rest).map fun (value, rest) => (-(value : Int), rest)
  | .year, '+' :: rest => (number? rest.length rest).map fun (value, rest) => ((value : Int), rest)
  | _, _ => unsigned

/-- Reads the fraction of a second as nanoseconds; digits after the ninth do not count. -/
def fraction? (text : List Char) : Option (Nat × List Char) :=
  match text with
  | '.' :: rest =>
    let digits := rest.takeWhile Char.isDigit
    if digits.isEmpty then none
    else
      let shown := digits.take 9
      some (Text.numeralValue shown * Nat.pow 10 (9 - shown.length), rest.drop digits.length)
  | _ => some (0, text)

/-- The minus signs that an offset may start with: the hyphen and the mathematical sign. -/
def isMinus (character : Char) : Bool :=
  character = '-' || character = '\u2212'

/-- Passes over what separates the hours of an offset from its minutes. -/
def skipSeparator? (strict : Bool) (text : List Char) : Option (List Char) :=
  if strict then Text.dropFront? [':'] text
  else some (text.dropWhile fun character => character = ':' || Text.isBlank character)

/-- Reads hours and minutes of two digits each as seconds. -/
def offsetBody? (strict : Bool) (text : List Char) : Option (Nat × List Char) := do
  let (hours, rest) ← exactNumber? 2 text
  let rest ← skipSeparator? strict rest
  let (minutes, rest) ← exactNumber? 2 rest
  if minutes < 60 then some (hours * 3600 + minutes * 60, rest) else none

/-- Reads an offset as seconds east of universal time. -/
def offset? (style : OffsetStyle) (text : List Char) : Option (Int × List Char) :=
  let body := if style.strict then text else Text.trimFront text
  if style.word && Text.lowerChars (body.take 3) == ['u', 't', 'c'] then some (0, body.drop 3)
  else match body with
    | mark :: rest =>
      if style.zulu && (mark = 'Z' || mark = 'z') then some (0, rest)
      else if mark = '+' then
        (offsetBody? style.strict rest).map fun (seconds, rest) => ((seconds : Int), rest)
      else if isMinus mark then
        (offsetBody? style.strict rest).map fun (seconds, rest) => (-(seconds : Int), rest)
      else none
    | [] => none

/-- Reads one item at the front of a text. -/
def Item.read? (item : Item) (reading : Reading) (text : List Char) : Option (Reading × List Char) :=
  match item with
  | .digits part count =>
    (exactNumber? count text).map fun (value, rest) => (reading.record part value, rest)
  | .number part width =>
    (lenientNumber? part width text).map fun (value, rest) => (reading.record part value, rest)
  | .oneOf characters =>
    match text with
    | character :: rest => if characters.contains character then some (reading, rest) else none
    | [] => none
  | .blanks => some (reading, Text.trimFront text)
  | .fraction => (fraction? text).map fun (nanos, rest) => ({ reading with nanos := nanos }, rest)
  | .offset style =>
    (offset? style text).map fun (east, rest) => ({ reading with offset := east }, rest)

namespace Layout

/-- Reads a whole text by the items of a layout. -/
def readFrom? : Layout → Reading → List Char → Option Reading
  | [], reading, [] => some reading
  | [], _, _ :: _ => none
  | item :: rest, reading, text =>
    match item.read? reading text with
    | some (reading, text) => readFrom? rest reading text
    | none => none

/-- The instant that a whole text denotes in a layout. -/
def instant? (layout : Layout) (text : List Char) : Option Instant :=
  (readFrom? layout .blank text).bind Reading.instant?

/-- One fixed character. -/
def mark (character : Char) : Item := .oneOf [character]

/-- The padded form of interchange: `2024-01-15T10:30:00.5+05:00`. -/
def interchange : Layout :=
  [.digits .year 4, mark '-', .digits .month 2, mark '-', .digits .day 2, .oneOf ['T', 't', ' '],
    .digits .hour 2, mark ':', .digits .minute 2, mark ':', .digits .second 2, .fraction,
    .offset ⟨true, false, true⟩]

/-- The relaxed form of interchange: numbers need no padding and blanks may stand
before every number, every separator and the offset, and at the end. -/
def relaxed : Layout :=
  [.number .year 4, .blanks, mark '-', .number .month 2, .blanks, mark '-', .number .day 2,
    .oneOf ['T', 't', ' '],
    .number .hour 2, .blanks, mark ':', .number .minute 2, .blanks, mark ':', .number .second 2,
    .fraction, .offset ⟨true, true, false⟩, .blanks]

/-- Year, month and day around a separator. -/
def yearFirst (separator : Char) : Layout :=
  [.number .year 4, mark separator, .number .month 2, mark separator, .number .day 2]

/-- Month, day and year around slashes. -/
def monthFirst : Layout :=
  [.number .month 2, mark '/', .number .day 2, mark '/', .number .year 4]

/-- Hours and minutes. -/
def shortClock : Layout :=
  [.number .hour 2, mark ':', .number .minute 2]

/-- Hours, minutes and seconds with an optional fraction. -/
def clock : Layout :=
  shortClock ++ [mark ':', .number .second 2, .fraction]

/-- Layouts that carry an offset and allow blanks where a date meets a time. -/
def withOffset : List Layout :=
  [yearFirst '-' ++ .blanks :: clock ++ [.offset ⟨false, false, false⟩]]

/-- Layouts without an offset, taken to be in universal time. -/
def withoutOffset : List Layout :=
  [yearFirst '-' ++ mark 'T' :: clock,
    yearFirst '-' ++ .blanks :: clock,
    yearFirst '-' ++ .blanks :: shortClock,
    yearFirst '/' ++ .blanks :: clock,
    monthFirst ++ .blanks :: clock]

/-- Layouts of dates alone, which mean midnight in universal time. -/
def dateOnly : List Layout :=
  [yearFirst '-', yearFirst '/', monthFirst]

/-- The layouts of a text column, in the order in which they are tried. -/
def accepted : List Layout :=
  interchange :: withOffset ++ withoutOffset ++ dateOnly

end Layout

/-- The instant that a text denotes: the first layout that reads it decides. -/
def instant? (text : String) : Option Instant :=
  let body := Text.trimChars text.toList
  Layout.accepted.findSome? fun layout => layout.instant? body

/-- The instant that a text denotes in the relaxed form of interchange. -/
def relaxedInstant? (text : String) : Option Instant :=
  Layout.relaxed.instant? text.toList

example : (instant? " 01/15/2024 8:00:00 ").map Instant.text = some "2024-01-15T08:00:00Z" := by
  decide +kernel

example : (instant? "2024-01-15 10:30:00.25-0730").map Instant.text =
    some "2024-01-15T18:00:00.250Z" := by
  decide +kernel

example : instant? "2023-02-29" = none := by decide +kernel

example : (relaxedInstant? "2024 -1- 5t7 :8:9.5 utc ").map Instant.text =
    some "2024-01-05T07:08:09.500Z" := by
  decide +kernel

end EventSieve.Time
