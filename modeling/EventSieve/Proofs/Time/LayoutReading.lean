import EventSieve.Proofs.Time.WrittenForms

/-!
# Reading dates and times of day

What is written for a date or for a time of day is read by the items for it, and leaves
what stands behind. Items that were not meant refuse it: a character that is not among
the expected ones, a number where no digit stands, a separator in place of a digit.

One misreading gets further. A date with its month first can be taken for a short year, a
month and a day, and then half of its year is left over.
-/

namespace EventSieve.Time

namespace Layout

/-- An item that refuses the front of a text refuses the text. -/
theorem readFrom?_refused {item : Item} {layout : Layout} {reading : Reading} {text : List Char}
    (refused : item.read? reading text = none) : readFrom? (item :: layout) reading text = none := by
  simp only [readFrom?, refused]

end Layout

namespace Item

variable {reading : Reading} {rest : List Char}

/-- An item for an exact count of digits reads a padded number. -/
theorem read?_digits (part : Part) {width value : Nat} (positive : 0 < width)
    (fits : value < 10 ^ width) :
    (Item.digits part width).read? reading (Text.paddedChars width value ++ rest) =
      some (reading.record part value, rest) := by
  simp only [read?, exactNumber?_padded positive fits, Option.map_some]

/-- A character item refuses a text that starts with another character, or with none. -/
theorem read?_oneOf_other {characters text : List Char}
    (other : ∀ character ∈ text.head?, character ∉ characters) :
    (Item.oneOf characters).read? reading text = none := by
  cases text with
  | nil => rfl
  | cons character rest =>
    have absent : character ∉ characters := other character rfl
    simp [read?, absent]

/-- A number of an exact count of digits does not start with another character. -/
theorem read?_digits_other (part : Part) {count : Nat} (positive : 0 < count) {text : List Char}
    (other : ∀ character ∈ text.head?, character.isDigit = false) :
    (Item.digits part count).read? reading text = none := by
  have none : leadingDigits count text = ([], text) := by
    cases text with
    | nil => simp [leadingDigits]
    | cons character rest =>
      obtain ⟨more, rfl⟩ := Nat.exists_eq_add_of_lt positive
      simp [leadingDigits, List.take_succ_cons, other character rfl]
  simp only [read?, exactNumber?, none, List.length_nil]
  rw [if_neg (Nat.ne_of_lt positive)]
  rfl

/-- A number of a part other than the year starts with a digit behind blanks. Only a year
may have a sign in front. -/
theorem read?_number_other {part : Part} (unsigned : part ≠ .year) (width : Nat) {text : List Char}
    (other : ∀ character ∈ text.head?, character.isDigit = false ∧ Text.isBlank character = false) :
    (Item.number part width).read? reading text = none := by
  have solid : Text.trimFront text = text := by
    cases text with
    | nil => rfl
    | cons character rest =>
      exact List.dropWhile_cons_of_neg (by simp [(other character rfl).2])
  have none : number? width text = none := by
    cases text with
    | nil => simp [number?, leadingDigits, Text.naturalBelow?, Text.isNumeral]
    | cons character rest =>
      cases width with
      | zero => simp [number?, leadingDigits, Text.naturalBelow?, Text.isNumeral]
      | succ width =>
        simp [number?, leadingDigits, Text.naturalBelow?, Text.isNumeral, (other character rfl).1]
  cases part with
  | year => exact absurd rfl unsigned
  | month | day | hour | minute | second =>
    simp only [read?, lenientNumber?, solid, none, Option.map_none]

/-- Blanks in front of a number are read with it or before it. -/
theorem read?_blanks_padded {row : List Char} (blank : ∀ character ∈ row, Text.isBlank character = true)
    {width value : Nat} (positive : 0 < width) (fits : value < 10 ^ width) :
    Item.blanks.read? reading (row ++ (Text.paddedChars width value ++ rest)) =
      some (reading, Text.paddedChars width value ++ rest) := by
  obtain ⟨digit, more, spelled, isDigit⟩ := exists_padded_cons positive fits
  rw [read?, Text.trimFront, List.dropWhile_append_of_pos blank, spelled, List.cons_append,
    List.dropWhile_cons_of_neg (by simp [Text.isBlank_of_isDigit isDigit])]

end Item

namespace Timestamp

/-- What is read of the date alone. -/
def dateReading (timestamp : Timestamp) : Reading :=
  ⟨timestamp.year, timestamp.month, timestamp.day, 0, 0, 0, 0, 0⟩

/-- What is read of the date, the hour and the minute. -/
def minuteReading (timestamp : Timestamp) : Reading :=
  { timestamp.dateReading with hour := timestamp.hour, minute := timestamp.minute }

/-- What is read of the date and the time of day. -/
def clockReading (timestamp : Timestamp) : Reading :=
  { timestamp.reading with offset := 0 }

/-- The numbers of a timestamp have so many digits as they are padded to. -/
theorem small (timestamp : Timestamp) : timestamp.month < 10 ^ 2 ∧ timestamp.day < 10 ^ 2 ∧
    timestamp.hour < 10 ^ 2 ∧ timestamp.minute < 10 ^ 2 ∧ timestamp.second < 10 ^ 2 := by
  obtain ⟨month, day⟩ := Date.small_of_exists? timestamp.onCalendar
  obtain ⟨hour, minute, second⟩ := timestamp.ofDay
  exact ⟨month, day, by omega, by omega, by omega⟩

end Timestamp

namespace Layout

variable {timestamp : Timestamp} {reading : Reading} {layout : Layout}

/-- A number of two digits is read where one is expected. -/
theorem readFrom?_two (part : Part) {value : Nat} (fits : value < 10 ^ 2) (rest : List Char) :
    readFrom? (.number part 2 :: layout) reading (Text.paddedChars 2 value ++ rest) =
      readFrom? layout (reading.record part value) rest := by
  have wide : 10 ^ 2 < Number.int64Bound := by decide
  exact readFrom?_cons (Item.read?_number part (by decide) fits (Nat.lt_trans fits wide))

/-- A separator is read where it is expected. -/
theorem readFrom?_mark (separator : Char) (rest : List Char) :
    readFrom? (mark separator :: layout) reading (separator :: rest) = readFrom? layout reading rest :=
  readFrom?_cons (Item.read?_oneOf List.mem_cons_self)

/-- The year is read at the front of a text. -/
theorem readFrom?_year (timestamp : Timestamp) (rest : List Char) :
    readFrom? (.number .year 4 :: layout) reading (Text.paddedChars 4 timestamp.year ++ rest) =
      readFrom? layout (reading.record .year timestamp.year) rest := by
  have wide : 10 ^ 4 < Number.int64Bound := by decide
  exact readFrom?_cons (Item.read?_number .year (by decide) timestamp.fourDigits
    (Nat.lt_trans timestamp.fourDigits wide))

/-- A date with its year first is read by the items for it. -/
theorem readFrom?_yearFirst (separator : Char) (rest : List Char) :
    readFrom? (yearFirst separator ++ layout) .blank (timestamp.dateChars separator ++ rest) =
      readFrom? layout timestamp.dateReading rest := by
  obtain ⟨month, day, _⟩ := timestamp.small
  simp only [yearFirst, Timestamp.dateChars, List.cons_append, List.nil_append, List.append_assoc]
  rw [readFrom?_year, readFrom?_mark, readFrom?_two _ month, readFrom?_mark, readFrom?_two _ day]
  rfl

/-- A date with its month first is read by the items for it. -/
theorem readFrom?_monthFirst (rest : List Char) :
    readFrom? (monthFirst ++ layout) .blank (timestamp.monthFirstChars ++ rest) =
      readFrom? layout timestamp.dateReading rest := by
  obtain ⟨month, day, _⟩ := timestamp.small
  simp only [monthFirst, Timestamp.monthFirstChars, List.cons_append, List.nil_append,
    List.append_assoc]
  rw [readFrom?_two _ month, readFrom?_mark, readFrom?_two _ day, readFrom?_mark, readFrom?_year]
  rfl

/-- A padded date is read by the items for exact counts of digits. -/
theorem readFrom?_strictDate (rest : List Char) :
    readFrom? (strictDate ++ layout) .blank (timestamp.dateChars '-' ++ rest) =
      readFrom? layout timestamp.dateReading rest := by
  obtain ⟨month, day, _⟩ := timestamp.small
  simp only [strictDate, Timestamp.dateChars, List.cons_append, List.nil_append, List.append_assoc]
  rw [readFrom?_cons (Item.read?_digits .year (by decide) timestamp.fourDigits), readFrom?_mark,
    readFrom?_cons (Item.read?_digits .month (by decide) month), readFrom?_mark,
    readFrom?_cons (Item.read?_digits .day (by decide) day)]
  rfl

/-- Hours and minutes are read by the items for them. -/
theorem readFrom?_shortClock (rest : List Char) :
    readFrom? (shortClock ++ layout) timestamp.dateReading (timestamp.shortClockChars ++ rest) =
      readFrom? layout timestamp.minuteReading rest := by
  obtain ⟨_, _, hour, minute, _⟩ := timestamp.small
  simp only [shortClock, Timestamp.shortClockChars, List.cons_append, List.nil_append,
    List.append_assoc]
  rw [readFrom?_two _ hour, readFrom?_mark, readFrom?_two _ minute]
  rfl

/-- A time of day is read by the items for it, up to what its fraction cannot go on with. -/
theorem readFrom?_clock {rest : List Char}
    (ended : ∀ character ∈ rest.head?, character.isDigit = false ∧ character ≠ '.') :
    readFrom? (clock ++ layout) timestamp.dateReading (timestamp.clockChars ++ rest) =
      readFrom? layout timestamp.clockReading rest := by
  obtain ⟨_, _, _, _, second⟩ := timestamp.small
  rw [clock, Timestamp.clockChars, List.append_assoc, List.append_assoc, readFrom?_shortClock]
  simp only [List.cons_append, List.nil_append, List.append_assoc, Timestamp.fractionChars]
  rw [readFrom?_mark, readFrom?_two _ second,
    readFrom?_cons (Item.read?_fraction timestamp.digits ended)]
  rfl

/-- A padded hour and minute are read by the items for exact counts of digits. -/
theorem readFrom?_strictShortClock (rest : List Char) :
    readFrom? (strictClock ++ layout) timestamp.dateReading (timestamp.shortClockChars ++ rest) =
      readFrom? (mark ':' :: .digits .second 2 :: .fraction :: layout) timestamp.minuteReading rest := by
  obtain ⟨_, _, hour, minute, _⟩ := timestamp.small
  simp only [strictClock, Timestamp.shortClockChars, List.cons_append, List.nil_append,
    List.append_assoc]
  rw [readFrom?_cons (Item.read?_digits .hour (by decide) hour), readFrom?_mark,
    readFrom?_cons (Item.read?_digits .minute (by decide) minute)]
  rfl

/-- A padded time of day is read by the items for exact counts of digits. -/
theorem readFrom?_strictClock {rest : List Char}
    (ended : ∀ character ∈ rest.head?, character.isDigit = false ∧ character ≠ '.') :
    readFrom? (strictClock ++ layout) timestamp.dateReading (timestamp.clockChars ++ rest) =
      readFrom? layout timestamp.clockReading rest := by
  obtain ⟨_, _, _, _, second⟩ := timestamp.small
  rw [Timestamp.clockChars, List.append_assoc, readFrom?_strictShortClock]
  simp only [List.cons_append, List.append_assoc, Timestamp.fractionChars]
  rw [readFrom?_mark, readFrom?_cons (Item.read?_digits .second (by decide) second),
    readFrom?_cons (Item.read?_fraction timestamp.digits ended)]
  rfl

/-- A layout that goes on with a separator does not read a text that goes on otherwise. -/
theorem readFrom?_mark_other {separator : Char} {text : List Char}
    (other : ∀ character ∈ text.head?, character ≠ separator) :
    readFrom? (mark separator :: layout) reading text = none :=
  readFrom?_refused (Item.read?_oneOf_other fun character first member =>
    other character first (List.mem_singleton.mp member))

/-- What is left of a text is not read where the layout ends. -/
theorem readFrom?_nil {text : List Char} (present : text ≠ []) : readFrom? [] reading text = none := by
  obtain ⟨character, rest, rfl⟩ := List.exists_cons_of_ne_nil present
  rfl

end Layout

/-- Four digits are two digits and two more. Both sides are four digits of one number, and
rows of digits of one length are told apart by their numbers. -/
theorem paddedChars_four {value : Nat} (fits : value < 10 ^ 4) : Text.paddedChars 4 value =
    Text.paddedChars 2 (value / 100) ++ Text.paddedChars 2 (value % 100) := by
  have front : value / 100 < 10 ^ 2 := by omega
  have back : value % 100 < 10 ^ 2 := by omega
  have backLength := length_padded (by decide : 0 < 2) back
  have width : (Text.paddedChars 4 value).length =
      (Text.paddedChars 2 (value / 100) ++ Text.paddedChars 2 (value % 100)).length := by
    rw [List.length_append, length_padded (by decide) fits, length_padded (by decide) front,
      backLength]
  have digits : ∀ digit ∈ Text.paddedChars 2 (value / 100) ++ Text.paddedChars 2 (value % 100),
      digit.isDigit = true := by
    intro digit member
    rcases List.mem_append.mp member with inFront | inBack
    · exact Text.isDigit_of_mem_paddedChars inFront
    · exact Text.isDigit_of_mem_paddedChars inBack
  apply Std.LawfulEqOrd.eq_of_compare
  rw [Text.compare_numeralValue width (fun _ => Text.isDigit_of_mem_paddedChars) digits,
    Text.numeralValue_append, backLength, Text.numeralValue_paddedChars,
    Text.numeralValue_paddedChars, Text.numeralValue_paddedChars, Nat.compare_eq_eq]
  omega

namespace Layout

variable {timestamp : Timestamp} {reading : Reading} {layout : Layout}

/-- A date with its year first is not read around another separator. -/
theorem readFrom?_yearFirst_other {separator other : Char} (apart : other ≠ separator)
    (rest : List Char) :
    readFrom? (yearFirst separator ++ layout) .blank (timestamp.dateChars other ++ rest) = none := by
  simp only [yearFirst, Timestamp.dateChars, List.cons_append, List.nil_append, List.append_assoc]
  rw [readFrom?_year]
  apply readFrom?_mark_other
  rintro _ ⟨⟩
  exact apart

/-- A date around slashes is not read as the padded one. -/
theorem readFrom?_strictDate_slashes (rest : List Char) :
    readFrom? (strictDate ++ layout) .blank (timestamp.dateChars '/' ++ rest) = none := by
  simp only [strictDate, Timestamp.dateChars, List.cons_append, List.nil_append, List.append_assoc]
  rw [readFrom?_cons (Item.read?_digits .year (by decide) timestamp.fourDigits)]
  apply readFrom?_mark_other
  rintro _ ⟨⟩
  decide

/-- A date with its year first is not read with its month first: behind the first two
digits of the year stands a digit. -/
theorem readFrom?_monthFirst_other (separator : Char) (rest : List Char) :
    readFrom? (monthFirst ++ layout) .blank (timestamp.dateChars separator ++ rest) = none := by
  have fits := timestamp.fourDigits
  have back : timestamp.year % 100 < 10 ^ 2 := by omega
  obtain ⟨digit, more, spelled, isDigit⟩ := exists_padded_cons (by decide) back
  simp only [monthFirst, Timestamp.dateChars, List.cons_append, List.nil_append, List.append_assoc]
  rw [paddedChars_four fits, List.append_assoc, readFrom?_two _ (by omega), spelled]
  apply readFrom?_mark_other
  rintro _ ⟨⟩
  exact Text.ne_of_isDigit isDigit rfl

/-- Two digits and a separator behind them are no four digits. -/
theorem leadingDigits_two {value : Nat} (fits : value < 10 ^ 2) {separator : Char}
    (other : separator.isDigit = false) (rest : List Char) :
    leadingDigits 4 (Text.paddedChars 2 value ++ separator :: rest) =
      (Text.paddedChars 2 value, separator :: rest) := by
  have length := length_padded (by decide : 0 < 2) fits
  have taken : ((Text.paddedChars 2 value ++ separator :: rest).take 4).takeWhile Char.isDigit =
      Text.paddedChars 2 value := by
    rw [List.take_append, length, List.take_of_length_le (by omega), List.take_succ_cons,
      List.takeWhile_append_of_pos fun _ => Text.isDigit_of_mem_paddedChars,
      List.takeWhile_cons_of_neg (by simp [other]), List.append_nil]
  simp only [leadingDigits, taken, List.drop_left]

/-- A date with its month first is not read as the padded one. -/
theorem readFrom?_strictDate_monthFirst (rest : List Char) :
    readFrom? (strictDate ++ layout) .blank (timestamp.monthFirstChars ++ rest) = none := by
  obtain ⟨month, _⟩ := timestamp.small
  simp only [strictDate, Timestamp.monthFirstChars, List.cons_append, List.nil_append,
    List.append_assoc]
  apply readFrom?_refused
  rw [Item.read?, exactNumber?, leadingDigits_two month (by decide)]
  simp only [length_padded (by decide) month]
  rfl

/-- The month of a date in front of slashes is read as a year where that comes first. -/
theorem readFrom?_year_month (rest : List Char) :
    readFrom? (.number .year 4 :: layout) reading
        (Text.paddedChars 2 timestamp.month ++ '/' :: rest) =
      readFrom? layout (reading.record .year timestamp.month) ('/' :: rest) := by
  obtain ⟨month, _⟩ := timestamp.small
  have wide : 10 ^ 2 < Number.int64Bound := by decide
  have read := lenientNumber?_numeral .year (isNumeral_padded (by decide) month)
    (by rw [Text.numeralValue_paddedChars]; exact Nat.lt_trans month wide)
    (congrArg Prod.fst (leadingDigits_two month (by decide : '/'.isDigit = false) rest))
  rw [Text.numeralValue_paddedChars] at read
  apply readFrom?_cons
  rw [Item.read?, read, Option.map_some]

/-- A date with its month first is not read around hyphens. -/
theorem readFrom?_hyphens_monthFirst (rest : List Char) :
    readFrom? (yearFirst '-' ++ layout) .blank (timestamp.monthFirstChars ++ rest) = none := by
  simp only [yearFirst, Timestamp.monthFirstChars, List.cons_append, List.nil_append,
    List.append_assoc]
  rw [readFrom?_year_month]
  apply readFrom?_mark_other
  rintro _ ⟨⟩
  decide

/-- A date with its month first is read around slashes as a short year, a month and the
first half of the year in place of the day: the other half is left. -/
theorem readFrom?_slashes_monthFirst (rest : List Char) :
    ∃ misread, readFrom? (yearFirst '/' ++ layout) .blank (timestamp.monthFirstChars ++ rest) =
      readFrom? layout misread (Text.paddedChars 2 (timestamp.year % 100) ++ rest) := by
  obtain ⟨_, day, _⟩ := timestamp.small
  have fits := timestamp.fourDigits
  simp only [yearFirst, Timestamp.monthFirstChars, List.cons_append, List.nil_append,
    List.append_assoc]
  rw [readFrom?_year_month, readFrom?_mark, readFrom?_two _ day, readFrom?_mark,
    paddedChars_four fits, List.append_assoc, readFrom?_two _ (by omega)]
  exact ⟨_, rfl⟩

end Layout

end EventSieve.Time
