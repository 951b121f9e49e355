import EventSieve.Number.Reading
import EventSieve.Text.Ascii
import EventSieve.Text.Cut
import EventSieve.Version.Segment

/-!
# Semantic versions

A semantic version has three numbers, a pre-release and build metadata. The last
two are rows of segments; a segment is made of ASCII letters, digits and hyphens
and is never empty. The numbers fit a word of 64 bits. In the strict spelling
neither a number nor a numeric segment of a pre-release has a leading zero.

Versions are ordered by their numbers, then by pre-release, then by build
metadata. Segments are compared one by one. A row that ends first comes first, but
a version without a pre-release comes after all its pre-releases.
-/

namespace EventSieve.Version

/-- Three numbers with the segments of a pre-release and of build metadata. -/
structure Semantic where
  major : Nat
  minor : Nat
  patch : Nat
  pre : List Segment
  build : List Segment
deriving DecidableEq, Repr

namespace Semantic

/-- The characters of segments. -/
def isSegmentChar (character : Char) : Bool :=
  character.isDigit || ('a' ≤ character && character ≤ 'z') ||
    ('A' ≤ character && character ≤ 'Z') || character = '-'

/-- Whether a numeric text starts with a zero that it does not need. -/
def hasLeadingZero (digits : List Char) : Bool :=
  digits.head? == some '0' && 1 < digits.length

/-- Reads a number without leading zeros that fits a word of 64 bits. -/
def number? (body : List Char) : Option Nat :=
  if hasLeadingZero body then none else Number.word64? body

/-- The row of segments at the front of a text, and the text after it. No
segment may be empty. -/
def segments? (body : List Char) : Option (List (List Char) × List Char) :=
  let row := body.takeWhile fun character => isSegmentChar character || character = '.'
  let parts := Text.pieces '.' row
  if parts.any List.isEmpty then none else some (parts, body.drop row.length)

/-- Reads the pre-release that may stand at the front of a text. -/
def preRelease? : List Char → Option (List Segment × List Char)
  | '-' :: rest =>
    match segments? rest with
    | some (parts, after) =>
      if parts.any fun part => part.all Char.isDigit && hasLeadingZero part then none
      else some (parts.map Segment.ofChars, after)
    | none => none
  | body => some ([], body)

/-- Reads the build metadata that may fill the rest of a text. -/
def buildMetadata? : List Char → Option (List Segment)
  | [] => some []
  | '+' :: rest =>
    match segments? rest with
    | some (parts, []) => some (parts.map Segment.ofChars)
    | _ => none
  | _ => none

/-- Reads a pre-release and build metadata that fill the rest of a text. -/
def suffix? (body : List Char) : Option (List Segment × List Segment) :=
  match preRelease? body with
  | some (pre, rest) => (buildMetadata? rest).map fun build => (pre, build)
  | none => none

/-- The part of a text in front of its first hyphen or plus sign, and the rest. -/
def splitCore (body : List Char) : List Char × List Char :=
  let inCore (character : Char) : Bool := character ≠ '-' && character ≠ '+'
  (body.takeWhile inCore, body.dropWhile inCore)

/-- Reads the strict spelling. -/
def ofStrict? (body : List Char) : Option Semantic :=
  let (core, rest) := splitCore body
  match (Text.pieces '.' core).mapM number?, suffix? rest with
  | some [major, minor, patch], some (pre, build) => some ⟨major, minor, patch, pre, build⟩
  | _, _ => none

/-- The text of a row of segments. -/
def segmentText (segments : List Segment) : String :=
  String.intercalate "." (segments.map Segment.text)

/-- The order of two pre-releases; none at all comes last. -/
def preOrder (left right : List Segment) : Ordering :=
  match left, right with
  | [], [] => .eq
  | [], _ :: _ => .gt
  | _ :: _, [] => .lt
  | _, _ => left.compareLex Segment.order right

/-- The order of two semantic versions. -/
def order (left right : Semantic) : Ordering :=
  (compare left.major right.major).then <|
    (compare left.minor right.minor).then <|
      (compare left.patch right.patch).then <|
        (preOrder left.pre right.pre).then (left.build.compareLex Segment.order right.build)

/-- The text of a semantic version. -/
def text (version : Semantic) : String :=
  let number (value : Nat) : String := String.ofList (Text.decimalChars value)
  number version.major ++ "." ++ number version.minor ++ "." ++ number version.patch ++
    (if version.pre.isEmpty then "" else "-" ++ segmentText version.pre) ++
    (if version.build.isEmpty then "" else "+" ++ segmentText version.build)

example : ofStrict? "1.2.3-rc.1+build.007".toList =
    some ⟨1, 2, 3, [.word "rc", .numeral 0 "1"], [.word "build", .numeral 2 "7"]⟩ := by decide +kernel

example : ofStrict? "1.02.3".toList = none := by decide +kernel

example : preOrder [.word "rc", .numeral 0 "2"] [.word "rc", .numeral 0 "10"] = .lt := by decide +kernel

end Semantic

end EventSieve.Version
