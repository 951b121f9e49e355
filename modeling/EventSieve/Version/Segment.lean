/-!
# Segments of versions

A pre-release and build metadata are rows of segments. A segment made of digits
only is a numeral and comes before every other segment. Numerals are ordered by
value, equal values by their zeros in front; other segments are ordered as texts.

A numeral is kept as its zeros in front and the digits behind them. Then the one
with more digits is the greater number, and numerals with equally many digits are
ordered as texts, so nothing has to be read again to compare two segments.
-/

namespace EventSieve.Version

/-- A segment of a pre-release or of build metadata. -/
inductive Segment where
  /-- A numeral by its zeros in front and the digits behind them. -/
  | numeral (zeros : Nat) (digits : String)
  | word (text : String)
deriving DecidableEq, Repr

namespace Segment

/-- The segment that characters spell. -/
def ofChars (characters : List Char) : Segment :=
  if characters.all Char.isDigit then
    .numeral (characters.takeWhile (· = '0')).length
      (String.ofList (characters.dropWhile (· = '0')))
  else .word (String.ofList characters)

/-- The text of a segment. -/
def text : Segment → String
  | .numeral zeros digits => String.ofList (List.replicate zeros '0') ++ digits
  | .word text => text

/-- The order of two segments. A digit is one byte, so the sizes of two rows of
digits compare their lengths. -/
def order : Segment → Segment → Ordering
  | .numeral leftZeros left, .numeral rightZeros right =>
    (compare left.utf8ByteSize right.utf8ByteSize).then <|
      (compare left right).then (compare leftZeros rightZeros)
  | .numeral _ _, .word _ => .lt
  | .word _, .numeral _ _ => .gt
  | .word left, .word right => compare left right

/-- The zeros in front of a text are equal characters, so their count is enough to
write them again. -/
theorem replicate_append_dropWhile (characters : List Char) :
    List.replicate (characters.takeWhile (· = '0')).length '0' ++ characters.dropWhile (· = '0') =
      characters := by
  induction characters with
  | nil => rfl
  | cons first rest inductionHypothesis =>
    by_cases zero : first = '0'
    · simpa [zero, List.replicate_succ] using inductionHypothesis
    · simp [zero]

/-- A segment is written as it is spelled. -/
theorem text_ofChars (characters : List Char) : (ofChars characters).text = String.ofList characters := by
  simp only [ofChars]
  split
  · rw [text, ← String.ofList_append, replicate_append_dropWhile]
  · rfl

example : (ofChars "09".toList).order (ofChars "10".toList) = .lt := by decide +kernel

example : (ofChars "7".toList).order (ofChars "007".toList) = .lt := by decide +kernel

example : (ofChars "rc1".toList).order (ofChars "2".toList) = .gt := by decide +kernel

end Segment

end EventSieve.Version
