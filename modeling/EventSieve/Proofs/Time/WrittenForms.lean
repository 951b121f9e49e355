import EventSieve.Proofs.Time.Timestamp

/-!
# Timestamps written in a layout

A layout is written item by item: numbers are padded with zeros, a character item is any
of its characters, blanks are any row of blanks, the fraction stands as it is, and an
offset has a colon between hours and minutes, which a style that is not strict may leave
out. Parts that the layout does not name are not written; the layout shows the
timestamp as if they were those of midnight in universal time.

What is written for a date or for a time of day is read by the items for it, and leaves
what stands behind. Items that were not meant refuse it: a character that is not among
the expected ones, a number where no digit stands, an offset at the end of the text.
-/

namespace EventSieve.Time

namespace Timestamp

/-- The number of a part. -/
def part (timestamp : Timestamp) : Part → Nat
  | .year => timestamp.year
  | .month => timestamp.month
  | .day => timestamp.day
  | .hour => timestamp.hour
  | .minute => timestamp.minute
  | .second => timestamp.second

/-- A point and the digits of the fraction, or nothing without digits. -/
def fractionChars (timestamp : Timestamp) : List Char :=
  if timestamp.fraction = [] then [] else '.' :: timestamp.fraction

end Timestamp

/-- Whether a text spells an item for a timestamp. -/
def Item.Spells (timestamp : Timestamp) : Item → List Char → Prop
  | .digits part count, text => text = Text.paddedChars count (timestamp.part part)
  | .number part width, text => text = Text.paddedChars width (timestamp.part part)
  | .oneOf characters, text => ∃ character ∈ characters, text = [character]
  | .blanks, text => ∀ character ∈ text, Text.isBlank character = true
  | .fraction, text => text = timestamp.fractionChars
  | .offset style, text => timestamp.offset.Spells style text

namespace Layout

/-- Whether a text spells the items of a layout for a timestamp, one behind the other. -/
def Spells (timestamp : Timestamp) : Layout → List Char → Prop
  | [], text => text = []
  | item :: rest, text =>
    ∃ front back, item.Spells timestamp front ∧ Spells timestamp rest back ∧ text = front ++ back

/-- Whether a layout has a number for a part. -/
def names (layout : Layout) (part : Part) : Bool :=
  layout.any fun item =>
    match item with
    | .digits own _ => own = part
    | .number own _ => own = part
    | _ => false

/-- Whether a layout has an offset. -/
def hasOffset (layout : Layout) : Bool :=
  layout.any fun item =>
    match item with
    | .offset _ => true
    | _ => false

/-- The timestamp that a layout shows of another one: the date, and midnight in
universal time wherever the layout does not name a part of the time. -/
def shown (layout : Layout) (timestamp : Timestamp) : Timestamp where
  year := timestamp.year
  month := timestamp.month
  day := timestamp.day
  mark := timestamp.mark
  hour := if layout.names .hour then timestamp.hour else 0
  minute := if layout.names .minute then timestamp.minute else 0
  second := if layout.names .second then timestamp.second else 0
  fraction := if layout.contains .fraction then timestamp.fraction else []
  offset := if layout.hasOffset then timestamp.offset else .universal
  fourDigits := timestamp.fourDigits
  onCalendar := timestamp.onCalendar
  marked := timestamp.marked
  ofDay := by
    obtain ⟨hour, minute, second⟩ := timestamp.ofDay
    refine ⟨?_, ?_, ?_⟩ <;> split <;> omega
  digits := by
    intro digit member
    split at member
    · exact timestamp.digits digit member
    · cases member

/-- The items of a padded date. -/
def strictDate : Layout :=
  [.digits .year 4, mark '-', .digits .month 2, mark '-', .digits .day 2]

/-- The items of a padded time of day. -/
def strictClock : Layout :=
  [.digits .hour 2, mark ':', .digits .minute 2, mark ':', .digits .second 2, .fraction]

/-- The padded form of interchange is a date, a mark, a time of day and an offset. -/
theorem interchange_eq : interchange =
    strictDate ++ .oneOf ['T', 't', ' '] :: (strictClock ++ [.offset ⟨true, false, true⟩]) :=
  rfl

end Layout

namespace Timestamp

/-- The date with its year first. -/
def dateChars (timestamp : Timestamp) (separator : Char) : List Char :=
  Text.paddedChars 4 timestamp.year ++ separator :: (Text.paddedChars 2 timestamp.month ++
    separator :: Text.paddedChars 2 timestamp.day)

/-- The date with its month first. -/
def monthFirstChars (timestamp : Timestamp) : List Char :=
  Text.paddedChars 2 timestamp.month ++ '/' :: (Text.paddedChars 2 timestamp.day ++
    '/' :: Text.paddedChars 4 timestamp.year)

/-- The hours and minutes of the time of day. -/
def shortClockChars (timestamp : Timestamp) : List Char :=
  Text.paddedChars 2 timestamp.hour ++ ':' :: Text.paddedChars 2 timestamp.minute

/-- The time of day. -/
def clockChars (timestamp : Timestamp) : List Char :=
  timestamp.shortClockChars ++ ':' :: (Text.paddedChars 2 timestamp.second ++ timestamp.fractionChars)

end Timestamp

namespace Layout

variable {timestamp : Timestamp}

/-- What spells two layouts behind one another is what spells the first with what spells the
second behind it. The induction is on the items of the first. -/
theorem spells_append {front back : Layout} {text : List Char} :
    (front ++ back).Spells timestamp text ↔
      ∃ before behind, front.Spells timestamp before ∧ back.Spells timestamp behind ∧
        text = before ++ behind := by
  induction front generalizing text with
  | nil =>
    constructor
    · intro spelled
      exact ⟨[], text, rfl, spelled, rfl⟩
    · rintro ⟨_, behind, rfl, spelled, rfl⟩
      exact spelled
  | cons item rest inductionHypothesis =>
    constructor
    · rintro ⟨first, others, own, more, rfl⟩
      obtain ⟨before, behind, inFront, inBack, rfl⟩ := inductionHypothesis.mp more
      exact ⟨first ++ before, behind, ⟨first, before, own, inFront, rfl⟩, inBack,
        (List.append_assoc _ _ _).symm⟩
    · rintro ⟨_, behind, ⟨first, before, own, inFront, rfl⟩, inBack, rfl⟩
      exact ⟨first, before ++ behind, own, inductionHypothesis.mpr ⟨before, behind, inFront, inBack, rfl⟩,
        List.append_assoc _ _ _⟩

/-- A date with its year first is spelled in one way. -/
theorem spells_yearFirst {separator : Char} {text : List Char} :
    (yearFirst separator).Spells timestamp text ↔ text = timestamp.dateChars separator := by
  simp [yearFirst, mark, Spells, Item.Spells, Timestamp.part, Timestamp.dateChars]

/-- A date with its month first is spelled in one way. -/
theorem spells_monthFirst {text : List Char} :
    monthFirst.Spells timestamp text ↔ text = timestamp.monthFirstChars := by
  simp [monthFirst, mark, Spells, Item.Spells, Timestamp.part, Timestamp.monthFirstChars]

/-- A padded date is spelled like a date around hyphens. -/
theorem spells_strictDate {text : List Char} :
    strictDate.Spells timestamp text ↔ text = timestamp.dateChars '-' := by
  simp [strictDate, mark, Spells, Item.Spells, Timestamp.part, Timestamp.dateChars]

/-- Hours and minutes are spelled in one way. -/
theorem spells_shortClock {text : List Char} :
    shortClock.Spells timestamp text ↔ text = timestamp.shortClockChars := by
  simp [shortClock, mark, Spells, Item.Spells, Timestamp.part, Timestamp.shortClockChars]

/-- A time of day is spelled in one way. -/
theorem spells_clock {text : List Char} :
    clock.Spells timestamp text ↔ text = timestamp.clockChars := by
  simp [clock, shortClock, mark, Spells, Item.Spells, Timestamp.part, Timestamp.clockChars,
    Timestamp.shortClockChars]

/-- A padded time of day is spelled like any other. -/
theorem spells_strictClock {text : List Char} :
    strictClock.Spells timestamp text ↔ text = timestamp.clockChars := by
  simp [strictClock, mark, Spells, Item.Spells, Timestamp.part, Timestamp.clockChars,
    Timestamp.shortClockChars]

/-- One item is spelled as it is. -/
theorem spells_singleton {item : Item} {text : List Char} :
    Spells timestamp [item] text ↔ item.Spells timestamp text := by
  simp [Spells]

end Layout

end EventSieve.Time
