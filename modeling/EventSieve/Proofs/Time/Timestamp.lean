import EventSieve.Proofs.Number.Numerals
import EventSieve.Time.Layout

/-!
# Timestamps of interchange

A timestamp has a date of four, two and two digits, a mark, a time of two digits each,
an optional fraction of any number of digits, and the letter Z or an offset of hours
and minutes. It denotes an instant: the day of its date, the time of its day less the
offset, and the nanoseconds that its fraction has whole. Second 60 continues the second
before it.

The relaxed reading takes every such text as the instant that it denotes. Each item of
the layout uses up exactly the characters that were written for it, so the parts are
met in the order in which they stand.
-/

namespace EventSieve.Time

/-- How a timestamp says how far it is from universal time. -/
inductive Timestamp.Offset where
  | zulu (letter : Char) (known : letter = 'Z' ∨ letter = 'z')
  | east (hours minutes : Nat) (bounded : hours < 24 ∧ minutes < 60)
  | west (hours minutes : Nat) (bounded : hours < 24 ∧ minutes < 60)

namespace Timestamp.Offset

/-- The offset of universal time. -/
def universal : Offset :=
  .zulu 'Z' (.inl rfl)

/-- The hours and minutes of an offset. -/
def clockChars (hours minutes : Nat) : List Char :=
  Text.paddedChars 2 hours ++ ':' :: Text.paddedChars 2 minutes

/-- The characters of an offset. -/
def chars : Offset → List Char
  | .zulu letter _ => [letter]
  | .east hours minutes _ => '+' :: clockChars hours minutes
  | .west hours minutes _ => '-' :: clockChars hours minutes

/-- The seconds that an offset lies east of universal time. -/
def seconds : Offset → Int
  | .zulu _ _ => 0
  | .east hours minutes _ => hours * 3600 + minutes * 60
  | .west hours minutes _ => -(hours * 3600 + minutes * 60)

/-- Whether characters are the hours and minutes of an offset. The colon between them
may be missing where the style is not strict. -/
def IsBody (strict : Bool) (hours minutes : Nat) (body : List Char) : Prop :=
  body = clockChars hours minutes ∨
    strict = false ∧ body = Text.paddedChars 2 hours ++ Text.paddedChars 2 minutes

/-- Whether a text spells an offset in a style. -/
def Spells (style : OffsetStyle) : Offset → List Char → Prop
  | .zulu letter _, text => style.zulu = true ∧ text = [letter]
  | .east hours minutes _, text =>
    ∃ body, IsBody style.strict hours minutes body ∧ text = '+' :: body
  | .west hours minutes _, text =>
    ∃ body, IsBody style.strict hours minutes body ∧ text = '-' :: body

/-- An offset is spelled with a colon in every style that has the letter Z. -/
theorem spells_chars {style : OffsetStyle} (zulu : style.zulu = true) (offset : Offset) :
    offset.Spells style offset.chars := by
  cases offset with
  | zulu letter known => exact ⟨zulu, rfl⟩
  | east hours minutes bounded => exact ⟨_, .inl rfl, rfl⟩
  | west hours minutes bounded => exact ⟨_, .inl rfl, rfl⟩

end Timestamp.Offset

/-- A timestamp by its parts. Without digits it has no fraction. -/
structure Timestamp where
  year : Nat
  month : Nat
  day : Nat
  mark : Char
  hour : Nat
  minute : Nat
  second : Nat
  fraction : List Char
  offset : Timestamp.Offset
  fourDigits : year < 10000
  onCalendar : (⟨year, month, day⟩ : Date).exists? = true
  marked : mark ∈ ['T', 't', ' ']
  ofDay : hour < 24 ∧ minute < 60 ∧ second ≤ 60
  digits : ∀ digit ∈ fraction, digit.isDigit = true

namespace Timestamp

/-- The characters of a timestamp. -/
def chars (timestamp : Timestamp) : List Char :=
  Text.paddedChars 4 timestamp.year ++ '-' :: Text.paddedChars 2 timestamp.month ++
    '-' :: Text.paddedChars 2 timestamp.day ++ timestamp.mark :: Text.paddedChars 2 timestamp.hour ++
    ':' :: Text.paddedChars 2 timestamp.minute ++ ':' :: Text.paddedChars 2 timestamp.second ++
    (if timestamp.fraction = [] then [] else '.' :: timestamp.fraction) ++ timestamp.offset.chars

/-- The seconds from the start of 1970 to a timestamp, without a leap second. -/
def seconds (timestamp : Timestamp) : Int :=
  (⟨timestamp.year, timestamp.month, timestamp.day⟩ : Date).dayNumber * secondsPerDay +
    (timestamp.hour * 3600 + timestamp.minute * 60 + min timestamp.second 59 : Nat) -
    timestamp.offset.seconds

/-- The whole nanoseconds of the fraction of a timestamp, and a leap second. -/
def nanos (timestamp : Timestamp) : Nat :=
  Text.numeralValue timestamp.fraction * nanosPerSecond / 10 ^ timestamp.fraction.length +
    if timestamp.second = 60 then nanosPerSecond else 0

/-- The parts of a timestamp as they are read. -/
def reading (timestamp : Timestamp) : Reading :=
  ⟨timestamp.year, timestamp.month, timestamp.day, timestamp.hour, timestamp.minute,
    timestamp.second,
    Text.numeralValue timestamp.fraction * nanosPerSecond / 10 ^ timestamp.fraction.length,
    timestamp.offset.seconds⟩

/-- Whether a timestamp denotes an instant. -/
structure Denotes (timestamp : Timestamp) (instant : Instant) : Prop where
  seconds : instant.seconds = timestamp.seconds
  nanos : instant.nanos = timestamp.nanos

end Timestamp

/-- A number that is written with so many digits takes up exactly these. -/
theorem length_padded {width value : Nat} (positive : 0 < width) (fits : value < 10 ^ width) :
    (Text.paddedChars width value).length = width := by
  rw [Text.length_paddedChars]
  exact Nat.le_antisymm ((Text.digitCount_le_iff positive (Nat.le_refl width)).mpr fits)
    (Nat.le_max_left _ _)

/-- The digits of a padded number are read, whatever stands behind them. -/
theorem leadingDigits_padded {width value : Nat} (positive : 0 < width) (fits : value < 10 ^ width)
    (rest : List Char) :
    leadingDigits width (Text.paddedChars width value ++ rest) =
      (Text.paddedChars width value, rest) := by
  have length := length_padded positive fits
  have digits : ∀ digit ∈ Text.paddedChars width value, digit.isDigit = true :=
    fun digit => Text.isDigit_of_mem_paddedChars
  have taken : (Text.paddedChars width value ++ rest).take width = Text.paddedChars width value :=
    List.take_left' length
  have all : (Text.paddedChars width value).takeWhile Char.isDigit = Text.paddedChars width value :=
    List.takeWhile_eq_self_iff.mpr digits
  simp only [leadingDigits, taken, all, List.drop_left]

/-- A padded number starts with a digit. -/
theorem exists_padded_cons {width value : Nat} (positive : 0 < width) (fits : value < 10 ^ width) :
    ∃ digit more, Text.paddedChars width value = digit :: more ∧ digit.isDigit = true := by
  cases spelled : Text.paddedChars width value with
  | nil =>
    have length := length_padded positive fits
    rw [spelled] at length
    exact absurd length.symm (Nat.ne_of_gt positive)
  | cons digit more =>
    have member : digit ∈ Text.paddedChars width value := by
      rw [spelled]
      exact List.mem_cons_self
    exact ⟨digit, more, rfl, Text.isDigit_of_mem_paddedChars member⟩

/-- A padded number is made of digits, and of at least one. -/
theorem isNumeral_padded {width value : Nat} (positive : 0 < width) (fits : value < 10 ^ width) :
    Text.isNumeral (Text.paddedChars width value) = true := by
  obtain ⟨digit, more, spelled, -⟩ := exists_padded_cons positive fits
  rw [Text.isNumeral, Bool.and_eq_true, List.all_eq_true]
  exact ⟨by rw [spelled]; rfl, fun digit => Text.isDigit_of_mem_paddedChars⟩

/-- A padded number is read by its digits, whatever stands behind them. -/
theorem exactNumber?_padded {width value : Nat} (positive : 0 < width) (fits : value < 10 ^ width)
    (rest : List Char) :
    exactNumber? width (Text.paddedChars width value ++ rest) = some (value, rest) := by
  simp only [exactNumber?, leadingDigits_padded positive fits, length_padded positive fits,
    if_true, Text.natural?, isNumeral_padded positive fits, Text.numeralValue_paddedChars,
    Option.map_some]

/-- A numeral is read where blanks may stand in front, when it has as many digits as are
taken or no further digit stands behind it. It begins with a digit, so neither blanks nor a
sign are taken off in front. -/
theorem lenientNumber?_numeral (part : Part) {width : Nat} {digits rest : List Char}
    (numeral : Text.isNumeral digits = true) (small : Text.numeralValue digits < Number.int64Bound)
    (taken : ((digits ++ rest).take width).takeWhile Char.isDigit = digits) :
    lenientNumber? part width (digits ++ rest) = some ((Text.numeralValue digits : Int), rest) := by
  have read : number? width (digits ++ rest) = some (Text.numeralValue digits, rest) := by
    simp only [number?, leadingDigits, taken, List.drop_left]
    rw [Text.naturalBelow?_eq (by decide)]
    simp [Text.natural?, numeral, Option.filter, small]
  obtain ⟨present, all⟩ := Text.isNumeral_iff.mp numeral
  obtain ⟨first, more, spelled⟩ := List.exists_cons_of_ne_nil present
  have digit : first.isDigit = true := all first (by rw [spelled]; exact List.mem_cons_self)
  have solid : Text.trimFront (digits ++ rest) = digits ++ rest := by
    rw [spelled, Text.trimFront, List.cons_append,
      List.dropWhile_cons_of_neg (by simp [Text.isBlank_of_isDigit digit])]
  have unsigned {sign : Char} {others : List Char} (other : sign.isDigit = false) :
      digits ++ rest ≠ sign :: others := by
    intro same
    rw [spelled] at same
    obtain ⟨rfl, -⟩ := List.cons.inj same
    cases digit.symm.trans other
  simp only [lenientNumber?, solid, read, Option.map_some]
  split
  · rename_i same
    exact absurd same (unsigned (by decide))
  · rename_i same
    exact absurd same (unsigned (by decide))
  · rfl

/-- A padded number is read where blanks may stand in front and fewer digits would do. -/
theorem lenientNumber?_padded (part : Part) {width value : Nat} (positive : 0 < width)
    (fits : value < 10 ^ width) (small : value < Number.int64Bound) (rest : List Char) :
    lenientNumber? part width (Text.paddedChars width value ++ rest) = some ((value : Int), rest) := by
  have numeral := isNumeral_padded positive fits
  have taken := congrArg Prod.fst (leadingDigits_padded positive fits rest)
  have read := lenientNumber?_numeral part numeral
    ((Text.numeralValue_paddedChars width value).trans_lt small) taken
  rw [Text.numeralValue_paddedChars] at read
  exact read

/-- Nine digits of a fraction, or all with zeros behind them, are its whole nanoseconds.
With nine digits or fewer, zeros fill the place of the missing ones; with more, those behind
the ninth make less than one nanosecond. -/
theorem nanos_eq {digits : List Char} (all : ∀ digit ∈ digits, digit.isDigit = true) :
    Text.numeralValue (digits.take 9) * Nat.pow 10 (9 - (digits.take 9).length) =
      Text.numeralValue digits * nanosPerSecond / 10 ^ digits.length := by
  have whole : nanosPerSecond = 10 ^ 9 := rfl
  have positive (count : Nat) : 0 < 10 ^ count := Nat.pow_pos (by decide)
  rw [whole]
  by_cases short : digits.length ≤ 9
  · have power : 10 ^ 9 = Nat.pow 10 (9 - digits.length) * 10 ^ digits.length := by
      rw [Nat.pow_eq, ← Nat.pow_add, Nat.sub_add_cancel short]
    rw [List.take_of_length_le short, power, ← Nat.mul_assoc,
      Nat.mul_div_cancel _ (positive digits.length)]
  · have taken : (digits.take 9).length = 9 := by
      rw [List.length_take]
      omega
    have left : (digits.drop 9).length = digits.length - 9 := List.length_drop
    have power : 10 ^ digits.length = 10 ^ (digits.drop 9).length * 10 ^ 9 := by
      rw [left, ← Nat.pow_add]
      congr 1
      omega
    have below : Text.numeralValue (digits.drop 9) < 10 ^ (digits.drop 9).length :=
      Text.numeralValue_lt fun digit member => all digit (List.mem_of_mem_drop member)
    have split : Text.numeralValue digits =
        Text.numeralValue (digits.take 9) * 10 ^ (digits.drop 9).length +
          Text.numeralValue (digits.drop 9) := by
      rw [← Text.numeralValue_append, List.take_append_drop]
    rw [taken, power, Nat.mul_div_mul_right _ _ (positive 9), split, Nat.mul_comm _ (10 ^ _),
      Nat.mul_add_div (positive _), Nat.div_eq_of_lt below]
    exact Nat.mul_one _

/-- Hours and minutes are read as seconds. The strict style takes the colon alone, and the
other one takes nothing as well. -/
theorem offsetBody?_of_isBody {strict : Bool} {hours minutes : Nat}
    (bounded : hours < 24 ∧ minutes < 60) {body : List Char}
    (spelled : Timestamp.Offset.IsBody strict hours minutes body) :
    offsetBody? strict body = some (hours * 3600 + minutes * 60, []) := by
  obtain ⟨hourBound, minuteBound⟩ := bounded
  obtain ⟨digit, more, first, isDigit⟩ :=
    exists_padded_cons (by decide : 0 < 2) (by omega : minutes < 10 ^ 2)
  have solid : digit ≠ ':' := Text.ne_of_isDigit isDigit rfl
  have separated : skipSeparator? strict (':' :: Text.paddedChars 2 minutes) =
      some (Text.paddedChars 2 minutes) := by
    cases strict with
    | true => rfl
    | false => simp [skipSeparator?, first, solid, Text.isBlank_of_isDigit isDigit]
  have joined : skipSeparator? false (Text.paddedChars 2 minutes) =
      some (Text.paddedChars 2 minutes) := by
    simp [skipSeparator?, first, solid, Text.isBlank_of_isDigit isDigit]
  have last := exactNumber?_padded (by decide : 0 < 2) (by omega : minutes < 10 ^ 2) []
  rw [List.append_nil] at last
  rcases spelled with rfl | ⟨rfl, rfl⟩
  · rw [offsetBody?, Timestamp.Offset.clockChars,
      exactNumber?_padded (by decide) (by omega : hours < 10 ^ 2)]
    simp [separated, last, minuteBound]
  · rw [offsetBody?, exactNumber?_padded (by decide) (by omega : hours < 10 ^ 2)]
    simp [joined, last, minuteBound]

/-- An offset with a plus sign is east of universal time. -/
theorem offset?_plus (style : OffsetStyle) (body : List Char) :
    offset? style ('+' :: body) =
      (offsetBody? style.strict body).map fun read => ((read.1 : Int), read.2) := by
  obtain ⟨zulu, word, strict⟩ := style
  cases zulu <;> cases word <;> cases strict <;> rfl

/-- An offset with a minus sign is west of universal time. -/
theorem offset?_minus (style : OffsetStyle) (body : List Char) :
    offset? style ('-' :: body) =
      (offsetBody? style.strict body).map fun read => (-(read.1 : Int), read.2) := by
  obtain ⟨zulu, word, strict⟩ := style
  cases zulu <;> cases word <;> cases strict <;> rfl

/-- The letter Z is an offset in the styles that have it. -/
theorem offset?_zulu (style : OffsetStyle) {letter : Char} (known : letter = 'Z' ∨ letter = 'z') :
    offset? style [letter] = if style.zulu then some (0, []) else none := by
  obtain ⟨zulu, word, strict⟩ := style
  rcases known with rfl | rfl <;> cases zulu <;> cases word <;> cases strict <;> rfl

namespace Item

variable {reading : Reading} {rest : List Char}

/-- A number item reads a padded number. -/
theorem read?_number (part : Part) {width value : Nat} (positive : 0 < width)
    (fits : value < 10 ^ width) (small : value < Number.int64Bound) :
    (Item.number part width).read? reading (Text.paddedChars width value ++ rest) =
      some (reading.record part value, rest) := by
  simp only [read?, lenientNumber?_padded part positive fits small, Option.map_some]

/-- A character item reads one of its characters. -/
theorem read?_oneOf {characters : List Char} {character : Char} (known : character ∈ characters) :
    (Item.oneOf characters).read? reading (character :: rest) = some (reading, rest) := by
  simp [read?, known]

/-- An item for blanks reads nothing where no blank stands. -/
theorem read?_blanks {character : Char} (solid : Text.isBlank character = false) :
    Item.blanks.read? reading (character :: rest) = some (reading, character :: rest) := by
  simp [read?, Text.trimFront, solid]

/-- The fraction item reads a fraction of any number of digits: the nanoseconds that it has
whole. Without digits there is no point, and what follows is none. -/
theorem read?_fraction {digits : List Char} (all : ∀ digit ∈ digits, digit.isDigit = true)
    (ended : ∀ character ∈ rest.head?, character.isDigit = false ∧ character ≠ '.') :
    Item.fraction.read? reading ((if digits = [] then [] else '.' :: digits) ++ rest) =
      some ({ reading with nanos := Text.numeralValue digits * nanosPerSecond / 10 ^ digits.length },
        rest) := by
  have stopped : rest.takeWhile Char.isDigit = [] := by
    cases rest with
    | nil => rfl
    | cons character more =>
      exact List.takeWhile_cons_of_neg (by simp [(ended character rfl).1])
  by_cases none : digits = []
  · subst none
    cases rest with
    | nil => rfl
    | cons character more =>
      simp [read?, fraction?, (ended character rfl).2, Text.numeralValue, Text.extend]
  · have taken : (digits ++ rest).takeWhile Char.isDigit = digits := by
      rw [List.takeWhile_append_of_pos all, stopped, List.append_nil]
    have present : digits.isEmpty = false := List.isEmpty_eq_false_iff.mpr none
    simp only [if_neg none, List.cons_append, read?, fraction?, taken, present, Bool.false_eq_true,
      if_false, nanos_eq all, List.drop_left, Option.map_some]

/-- The offset item reads what spells an offset in its style. The cases are those of an
offset: the letter, and the two signs. -/
theorem read?_offset {style : OffsetStyle} {offset : Timestamp.Offset} {text : List Char}
    (spelled : offset.Spells style text) :
    (Item.offset style).read? reading text =
      some ({ reading with offset := offset.seconds }, []) := by
  cases offset with
  | zulu letter known =>
    obtain ⟨allowed, rfl⟩ := spelled
    simp only [read?, offset?_zulu style known, allowed, if_true, Option.map_some,
      Timestamp.Offset.seconds]
  | east hours minutes bounded =>
    obtain ⟨body, spelled, rfl⟩ := spelled
    simp only [read?, offset?_plus, offsetBody?_of_isBody bounded spelled, Option.map_some,
      Timestamp.Offset.seconds]
    push_cast
    rfl
  | west hours minutes bounded =>
    obtain ⟨body, spelled, rfl⟩ := spelled
    simp only [read?, offset?_minus, offsetBody?_of_isBody bounded spelled, Option.map_some,
      Timestamp.Offset.seconds]
    push_cast
    rfl

end Item

/-- An item that reads the front of a text leaves the rest to the others. -/
theorem Layout.readFrom?_cons {item : Item} {layout : Layout} {reading next : Reading}
    {text rest : List Char} (read : item.read? reading text = some (next, rest)) :
    readFrom? (item :: layout) reading text = readFrom? layout next rest := by
  simp only [readFrom?, read]

/-- A date that exists has a month and a day of at most two digits. -/
theorem Date.small_of_exists? {date : Date} (onCalendar : date.exists? = true) :
    date.month < 100 ∧ date.day < 100 := by
  simp only [exists?, Bool.and_eq_true, decide_eq_true_eq] at onCalendar
  obtain ⟨⟨-, first⟩, last⟩ := onCalendar
  simp only [monthLength] at last
  split at last
  · omega
  · cases length : (monthLengths (isLeapYear date.year))[date.month - 1]? with
    | none =>
      rw [length, Option.getD_none] at last
      omega
    | some days =>
      have short : ∀ leap, ∀ days ∈ monthLengths leap, days ≤ 31 := by decide
      have twelve : ∀ leap, (monthLengths leap).length = 12 := by decide
      have bounded := short _ _ (List.mem_of_getElem? length)
      obtain ⟨inside, -⟩ := List.getElem?_eq_some_iff.mp length
      rw [twelve] at inside
      rw [length, Option.getD_some] at last
      omega

/-- An offset starts with a character that no fraction has. -/
theorem Timestamp.Offset.Spells.ended {style : OffsetStyle} {offset : Offset} {text : List Char}
    (spelled : offset.Spells style text) :
    ∀ character ∈ text.head?, character.isDigit = false ∧ character ≠ '.' := by
  cases offset with
  | zulu letter known =>
    obtain ⟨-, rfl⟩ := spelled
    rintro _ ⟨⟩
    rcases known with rfl | rfl
    · decide
    · decide
  | east hours minutes bounded =>
    obtain ⟨body, -, rfl⟩ := spelled
    rintro _ ⟨⟩
    decide
  | west hours minutes bounded =>
    obtain ⟨body, -, rfl⟩ := spelled
    rintro _ ⟨⟩
    decide

/-- The relaxed form reads the parts of a timestamp. Each item reads its own part, and
behind it stands what the next one starts with. -/
theorem Timestamp.readFrom?_chars (timestamp : Timestamp) :
    Layout.readFrom? Layout.relaxed .blank timestamp.chars = some timestamp.reading := by
  obtain ⟨year, month, day, mark, hour, minute, second, fraction, offset, fourDigits, onCalendar,
    marked, ⟨hourBound, minuteBound, secondBound⟩, digits⟩ := timestamp
  obtain ⟨monthBound, dayBound⟩ := Date.small_of_exists? onCalendar
  have spelled := offset.spells_chars (rfl : (⟨true, true, false⟩ : OffsetStyle).zulu = true)
  have wide : 10000 < Number.int64Bound := by decide
  have two (part : Part) {value : Nat} (small : value < 100) (reading : Reading) (rest : List Char) :
      (Item.number part 2).read? reading (Text.paddedChars 2 value ++ rest) =
        some (reading.record part value, rest) :=
    Item.read?_number part (by decide) small (by omega)
  simp only [chars, List.append_assoc, List.cons_append, Layout.relaxed, Layout.mark]
  rw [Layout.readFrom?_cons (Item.read?_number .year (by decide) fourDigits (by omega)),
    Layout.readFrom?_cons (Item.read?_blanks (by decide)),
    Layout.readFrom?_cons (Item.read?_oneOf (by decide)),
    Layout.readFrom?_cons (two .month monthBound _ _),
    Layout.readFrom?_cons (Item.read?_blanks (by decide)),
    Layout.readFrom?_cons (Item.read?_oneOf (by decide)),
    Layout.readFrom?_cons (two .day dayBound _ _),
    Layout.readFrom?_cons (Item.read?_oneOf marked),
    Layout.readFrom?_cons (two .hour (by omega) _ _),
    Layout.readFrom?_cons (Item.read?_blanks (by decide)),
    Layout.readFrom?_cons (Item.read?_oneOf (by decide)),
    Layout.readFrom?_cons (two .minute (by omega) _ _),
    Layout.readFrom?_cons (Item.read?_blanks (by decide)),
    Layout.readFrom?_cons (Item.read?_oneOf (by decide)),
    Layout.readFrom?_cons (two .second (by omega) _ _),
    Layout.readFrom?_cons (Item.read?_fraction digits spelled.ended),
    Layout.readFrom?_cons (Item.read?_offset spelled)]
  rfl

/-- An offset is shorter than a day. -/
theorem Timestamp.Offset.natAbs_seconds_lt (offset : Offset) : offset.seconds.natAbs < 86400 := by
  cases offset <;> simp only [seconds] <;> omega

/-- The months before another one take up no more than a year. -/
theorem Date.daysBeforeMonth_le (leap : Bool) (month : Nat) : daysBeforeMonth leap month ≤ 366 := by
  have year : (monthLengths leap).sum ≤ 366 := by cases leap <;> decide
  have parts := List.sum_take_add_sum_drop (monthLengths leap) (month - 1)
  have same : daysBeforeMonth leap month = ((monthLengths leap).take (month - 1)).sum := rfl
  omega

/-- The days of years with four digits are few. -/
theorem Timestamp.dayNumber_bounds (timestamp : Timestamp) :
    -720000 ≤ (⟨timestamp.year, timestamp.month, timestamp.day⟩ : Date).dayNumber ∧
      (⟨timestamp.year, timestamp.month, timestamp.day⟩ : Date).dayNumber ≤ 3000000 := by
  have year := timestamp.fourDigits
  have month := Date.daysBeforeMonth_le (isLeapYear timestamp.year) timestamp.month
  have day : timestamp.day < 100 := (Date.small_of_exists? timestamp.onCalendar).2
  simp only [Date.dayNumber, daysBeforeYear, epochOffset]
  omega

/-- Every timestamp denotes an instant: its year has four digits, and only its last second
of a minute is followed by a leap second. Offsets are whole minutes, so they keep the place
of a second in its minute. -/
theorem Timestamp.exists_denotes (timestamp : Timestamp) :
    ∃ instant, timestamp.Denotes instant := by
  obtain ⟨hour, minute, second⟩ := timestamp.ofDay
  have days := timestamp.dayNumber_bounds
  have whole : ∃ minutes : Int, timestamp.offset.seconds = 60 * minutes ∧ minutes.natAbs < 1440 := by
    cases timestamp.offset with
    | zulu letter known => exact ⟨0, rfl, by decide⟩
    | east hours minutes bounded =>
      exact ⟨hours * 60 + minutes, by rw [Offset.seconds]; omega, by omega⟩
    | west hours minutes bounded =>
      exact ⟨-(hours * 60 + minutes), by rw [Offset.seconds]; omega, by omega⟩
  have fraction : Text.numeralValue timestamp.fraction * nanosPerSecond /
      10 ^ timestamp.fraction.length < nanosPerSecond := by
    apply Nat.div_lt_of_lt_mul
    exact Nat.mul_lt_mul_of_pos_right (Text.numeralValue_lt timestamp.digits) (by decide)
  have valid : ValidInstant timestamp.seconds timestamp.nanos := by
    obtain ⟨minutes, east, small⟩ := whole
    simp only [ValidInstant, seconds, nanos, secondsPerDay, east, nanosPerSecond] at *
    generalize (⟨timestamp.year, timestamp.month, timestamp.day⟩ : Date).dayNumber = day at *
    split <;> omega
  exact ⟨⟨timestamp.seconds, timestamp.nanos, valid⟩, rfl, rfl⟩

/-- The parts of a timestamp make the instant that it denotes. All checks on the parts hold
for a timestamp, and what is left is the arithmetic of both definitions. -/
theorem Timestamp.instant?_reading {timestamp : Timestamp} {instant : Instant}
    (denotes : timestamp.Denotes instant) : timestamp.reading.instant? = some instant := by
  obtain ⟨ownSeconds, ownNanos⟩ := denotes
  obtain ⟨seconds, nanos, valid⟩ := instant
  have offsetBound := timestamp.offset.natAbs_seconds_lt
  obtain ⟨year, month, day, mark, hour, minute, second, fraction, offset, fourDigits, onCalendar,
    marked, ⟨hourBound, minuteBound, secondBound⟩, digits⟩ := timestamp
  have accepted : ((⟨(year : Int), month, day⟩ : Date).exists? && hour < 24 && minute < 60 &&
      second ≤ 60 && offset.seconds.natAbs < 86400) = true := by
    simp [onCalendar, hourBound, minuteBound, secondBound, offsetBound]
  rw [reading]
  simp only [Reading.instant?, accepted, if_true]
  simp only [Timestamp.seconds] at ownSeconds
  simp only [Timestamp.nanos] at ownNanos
  have sameSeconds : (⟨(year : Int), month, day⟩ : Date).dayNumber * secondsPerDay +
      ((hour * 3600 + minute * 60 + if second = 60 then 59 else second : Nat) : Int) -
        offset.seconds = seconds := by
    rw [ownSeconds]
    split <;> omega
  have sameNanos : (if second = 60 then
      Text.numeralValue fraction * nanosPerSecond / 10 ^ fraction.length + nanosPerSecond
      else Text.numeralValue fraction * nanosPerSecond / 10 ^ fraction.length) = nanos := by
    rw [ownNanos]
    split <;> rfl
  simp only [sameSeconds, sameNanos]
  exact dif_pos valid

/-- A timestamp is read as the instant that it denotes. -/
theorem relaxedInstant?_of_denotes {timestamp : Timestamp} {instant : Instant}
    (denotes : timestamp.Denotes instant) :
    relaxedInstant? (String.ofList timestamp.chars) = some instant := by
  rw [relaxedInstant?, Layout.instant?, String.toList_ofList, timestamp.readFrom?_chars,
    Option.bind_some]
  exact Timestamp.instant?_reading denotes

end EventSieve.Time
