import EventSieve.Proofs.Number.Numerals
import EventSieve.Proofs.Text.Pieces
import EventSieve.Proofs.Time.Timestamp
import EventSieve.Time.Span

/-!
# Spans are read back from their texts

A span of whole microseconds that fit 64 bits is written as a number of days, rounded
down, with a clock behind it that counts forward. Each reader takes its part exactly as
it was written: the clock gives the microseconds behind the last full day, with a
fraction or without one, and the days are told from their word by the blank in front of
it. The sum of both is the span, also below zero and at both ends of the range.

So spans of this kind are told apart by their texts.
-/

namespace EventSieve.Time.Span

/-- Whether a span is a whole number of microseconds that fits 64 bits. -/
def IsWhole (span : Span) : Prop :=
  ∃ micros : Int64, span.nanos = micros.toInt * 1000

/-- A span is made of every length within the limit. -/
theorem make?_nanos (span : Span) : make? span.nanos = some span :=
  dif_pos span.bounded

/-- A whole number of microseconds is written without rounding. -/
theorem micros_of_whole {span : Span} {micros : Int64} (whole : span.nanos = micros.toInt * 1000) :
    span.micros = micros.toInt := by
  have exact : span.nanos.tdiv 1000 = micros.toInt := by
    rw [whole]
    exact Int.mul_tdiv_cancel _ (by decide)
  have fits : Number.isInt64 micros.toInt = true := by
    rw [Number.isInt64, Bool.and_eq_true]
    exact ⟨decide_eq_true micros.le_toInt, decide_eq_true micros.toInt_lt⟩
  simp only [Span.micros, exact, fits, if_true]

/-- The seconds of a clock: two digits, and six behind a point for a fraction. -/
def secondChars (seconds fraction : Nat) : List Char :=
  Text.paddedChars 2 seconds ++ (if fraction = 0 then [] else '.' :: Text.paddedChars 6 fraction)

/-- The characters of a clock by its parts. -/
def partChars (hours minutes seconds fraction : Nat) : List Char :=
  Text.decimalChars hours ++ ':' :: (Text.paddedChars 2 minutes ++ ':' :: secondChars seconds fraction)

/-- A clock is written by its hours, minutes, seconds and their fraction. -/
theorem clockChars_eq (micros : Nat) :
    clockChars micros = partChars (micros / 1000000 / 3600) (micros / 1000000 / 60 % 60)
      (micros / 1000000 % 60) (micros % 1000000) := by
  simp only [clockChars, partChars, secondChars, List.append_assoc, List.cons_append]

/-- No other character than a digit stands in a padded number. -/
theorem not_mem_padded {width value : Nat} {character : Char} (other : character.isDigit = false) :
    character ∉ Text.paddedChars width value := by
  intro member
  exact Text.ne_of_isDigit (Text.isDigit_of_mem_paddedChars member) other rfl

/-- A padded number has no blanks to trim. -/
theorem trimChars_padded (width value : Nat) :
    Text.trimChars (Text.paddedChars width value) = Text.paddedChars width value :=
  Text.trimChars_of_solid fun _ member =>
    Text.isBlank_of_isDigit (Text.isDigit_of_mem_paddedChars member)

/-- A padded number is read as an integer. -/
theorem int64?_padded {width value : Nat} (positive : 0 < width) (fits : value < 10 ^ width)
    (small : value < Number.int64Bound) :
    Number.int64? (Text.paddedChars width value) = some (value : Int) := by
  have read := Number.int64?_numeral (isNumeral_padded positive fits)
    (by rw [Text.numeralValue_paddedChars]; exact small)
  rwa [Text.numeralValue_paddedChars] at read

/-- The characters of seconds are digits and points. -/
theorem secondChars_solid {seconds fraction : Nat} {character : Char}
    (member : character ∈ secondChars seconds fraction) :
    character.isDigit = true ∨ character = '.' := by
  rcases List.mem_append.mp member with digit | rest
  · exact .inl (Text.isDigit_of_mem_paddedChars digit)
  · split at rest
    · cases rest
    · rcases List.mem_cons.mp rest with point | digit
      · exact .inr point
      · exact .inl (Text.isDigit_of_mem_paddedChars digit)

/-- The seconds of a clock are read as microseconds. A fraction is written with six digits,
or not at all when it is nothing. -/
theorem secondMicros?_secondChars {seconds fraction : Nat} (minute : seconds < 60)
    (second : fraction < 1000000) :
    secondMicros? (secondChars seconds fraction) = some (seconds * 1000000 + fraction : Int) := by
  have whole : Number.int64? (Text.paddedChars 2 seconds) = some (seconds : Int) :=
    int64?_padded (by decide) (by omega) (by simp only [Number.int64Bound]; omega)
  have pointless : '.' ∉ Text.paddedChars 2 seconds := not_mem_padded rfl
  have inside : (0 : Int) ≤ seconds ∧ (seconds : Int) < 60 := by omega
  by_cases none : fraction = 0
  · subst none
    simp only [secondMicros?, secondChars, if_true, List.append_nil,
      Text.cutAt?_of_not_mem pointless, Option.getD_none, whole, Option.bind_eq_bind,
      Option.bind_some, List.length_nil, List.all_nil, inside, and_self, Nat.zero_le]
    rfl
  · have width : (Text.paddedChars 6 fraction).length = 6 := length_padded (by decide) (by omega)
    have digits : (Text.paddedChars 6 fraction).all Char.isDigit = true :=
      List.all_eq_true.mpr fun _ => Text.isDigit_of_mem_paddedChars
    simp only [secondMicros?, secondChars, if_neg none, Text.cutAt?_append pointless,
      Option.getD_some, whole, Option.bind_eq_bind, Option.bind_some, width, digits, inside,
      Nat.le_refl, and_self, if_true, Nat.sub_self, List.replicate_zero, List.append_nil,
      Text.numeralValue_paddedChars]

/-- The parts of a clock are read one by one. Numerals have neither colons nor blanks, so
the text is cut where the colons were put. -/
theorem clock?_partChars {hours minutes seconds fraction : Nat} (small : hours < Number.int64Bound)
    (hour : minutes < 60) (minute : seconds < 60) (second : fraction < 1000000) :
    clock? (partChars hours minutes seconds fraction) =
      ofMicros? ((hours * 3600 + minutes * 60) * 1000000 + (seconds * 1000000 + fraction)) := by
  have hoursColon : ':' ∉ Text.decimalChars hours := fun member =>
    Text.ne_of_isDigit (Text.isDigit_of_mem_decimalChars member) rfl rfl
  have minutesColon : ':' ∉ Text.paddedChars 2 minutes := not_mem_padded rfl
  have hoursSolid : Text.trimChars (Text.decimalChars hours) = Text.decimalChars hours :=
    Text.trimChars_of_solid fun _ member =>
      Text.isBlank_of_isDigit (Text.isDigit_of_mem_decimalChars member)
  have secondsSolid : Text.trimChars (secondChars seconds fraction) = secondChars seconds fraction := by
    apply Text.trimChars_of_solid
    intro character member
    rcases secondChars_solid member with digit | rfl
    · exact Text.isBlank_of_isDigit digit
    · rfl
  have hoursRead : Number.int64? (Text.decimalChars hours) = some (hours : Int) := by
    have read := Number.int64?_numeral (Number.isNumeral_decimalChars hours)
      (by rw [Text.numeralValue_decimalChars]; exact small)
    rwa [Text.numeralValue_decimalChars] at read
  have minutesRead : Number.int64? (Text.paddedChars 2 minutes) = some (minutes : Int) :=
    int64?_padded (by decide) (by omega) (by simp only [Number.int64Bound]; omega)
  have inside : (0 : Int) ≤ hours ∧ (0 : Int) ≤ minutes ∧ (minutes : Int) < 60 := by omega
  rw [clock?, partChars]
  simp only [Text.cutAt?_append hoursColon, Text.cutAt?_append minutesColon, Option.bind_eq_bind,
    Option.bind_some, hoursSolid, trimChars_padded, secondsSolid, hoursRead, minutesRead,
    secondMicros?_secondChars minute second, if_pos inside]

/-- A clock is read as the microseconds that it was written for. -/
theorem clock?_clockChars {micros : Nat} (small : micros < Number.int64Bound) :
    clock? (clockChars micros) = ofMicros? micros := by
  have hours : micros / 1000000 / 3600 < Number.int64Bound :=
    Nat.lt_of_le_of_lt (Nat.le_trans (Nat.div_le_self _ _) (Nat.div_le_self _ _)) small
  rw [clockChars_eq, clock?_partChars hours (by omega) (by omega) (by omega)]
  congr 1
  omega

/-- A clock has digits, colons and points only. -/
theorem clockChars_solid {micros : Nat} {character : Char} (member : character ∈ clockChars micros) :
    character.isDigit = true ∨ character = ':' ∨ character = '.' := by
  rw [clockChars_eq, partChars] at member
  rcases List.mem_append.mp member with digit | rest
  · exact .inl (Text.isDigit_of_mem_decimalChars digit)
  · rcases List.mem_cons.mp rest with colon | rest
    · exact .inr (.inl colon)
    · rcases List.mem_append.mp rest with digit | rest
      · exact .inl (Text.isDigit_of_mem_paddedChars digit)
      · rcases List.mem_cons.mp rest with colon | rest
        · exact .inr (.inl colon)
        · exact (secondChars_solid rest).imp_right .inr

/-- A clock has no blanks. -/
theorem isBlank_of_mem_clockChars {micros : Nat} {character : Char}
    (member : character ∈ clockChars micros) : Text.isBlank character = false := by
  rcases clockChars_solid member with digit | rfl | rfl
  · exact Text.isBlank_of_isDigit digit
  · rfl
  · rfl

/-- A clock starts with a digit. -/
theorem exists_clockChars_cons (micros : Nat) :
    ∃ digit more, clockChars micros = digit :: more ∧ digit.isDigit = true := by
  obtain ⟨digit, more, spelled⟩ := List.exists_cons_of_ne_nil
    (Text.isNumeral_iff.mp (Number.isNumeral_decimalChars (micros / 1000000 / 3600))).1
  have inside : digit.isDigit = true :=
    Text.isDigit_of_mem_decimalChars (spelled ▸ List.mem_cons_self)
  exact ⟨digit, _, by rw [clockChars_eq, partChars, spelled]; rfl, inside⟩

/-- The word behind a number of days. -/
def dayWord (days : Int) : String :=
  if days.natAbs = 1 then "day" else "days"

/-- The text of an integer has digits and a sign only. -/
theorem integerText_solid {value : Int} {character : Char}
    (member : character ∈ (Number.integerText value).toList) :
    character.isDigit = true ∨ character = '-' := by
  simp only [Number.integerText, String.toList_ofList] at member
  split at member
  · rcases List.mem_cons.mp member with sign | digit
    · exact .inr sign
    · exact .inl (Text.isDigit_of_mem_decimalChars digit)
  · exact .inl (Text.isDigit_of_mem_decimalChars member)

/-- The text of an integer has no blanks. -/
theorem isBlank_of_mem_integerText {value : Int} {character : Char}
    (member : character ∈ (Number.integerText value).toList) : Text.isBlank character = false := by
  rcases integerText_solid member with digit | rfl
  · exact Text.isBlank_of_isDigit digit
  · rfl

/-- The text of an integer is not empty. -/
theorem integerText_ne_nil (value : Int) : (Number.integerText value).toList ≠ [] := by
  have present := (Text.isNumeral_iff.mp (Number.isNumeral_decimalChars value.natAbs)).1
  simp only [Number.integerText, String.toList_ofList]
  split
  · exact List.cons_ne_nil _ _
  · exact present

/-- A text that starts with an integer and ends with no blank has nothing to trim. -/
theorem trimChars_integerText (value : Int) {rest : List Char} {last : Char}
    (ends : rest.getLast? = some last) (solid : Text.isBlank last = false) :
    Text.trimChars ((Number.integerText value).toList ++ rest) =
      (Number.integerText value).toList ++ rest := by
  apply Text.trimChars_of_ends
  · obtain ⟨first, more, spelled⟩ := List.exists_cons_of_ne_nil (integerText_ne_nil value)
    have member : first ∈ (Number.integerText value).toList := spelled ▸ List.mem_cons_self
    have own := isBlank_of_mem_integerText member
    rw [spelled]
    rintro _ ⟨⟩
    exact own
  · rw [List.getLast?_append, ends]
    rintro _ ⟨⟩
    exact solid

/-- A number of days with its word is read as so many days. The word is the singular for one
day in either direction, and both words are looked for. -/
theorem days?_dayWord {days : Int} (fits : Number.isInt64 days = true) :
    days? ((Number.integerText days).toList ++ ' ' :: (dayWord days).toList) =
      ofSeconds? (days * 86400) := by
  have number := Number.int64?_integerText fits
  have counted : Text.trimChars ((Number.integerText days).toList ++ [' ']) =
      (Number.integerText days).toList :=
    @Text.trimChars_surrounded [] _ [' '] (by simp) (List.forall_mem_singleton.mpr rfl)
      (Text.trimChars_of_solid fun _ => isBlank_of_mem_integerText)
  have whole : Text.trimChars ((Number.integerText days).toList ++ ' ' :: (dayWord days).toList) =
      (Number.integerText days).toList ++ ' ' :: (dayWord days).toList := by
    rw [dayWord]
    split
    · exact @trimChars_integerText days _ 'y' rfl rfl
    · exact @trimChars_integerText days _ 's' rfl rfl
  have named : (Text.dropBack? "days".toList
        ((Number.integerText days).toList ++ ' ' :: (dayWord days).toList)).or
      (Text.dropBack? "day".toList
        ((Number.integerText days).toList ++ ' ' :: (dayWord days).toList)) =
      some ((Number.integerText days).toList ++ [' ']) := by
    rw [List.append_cons, dayWord]
    split
    · rw [Text.dropBack?_append]
      simp [Text.dropBack?, Text.dropFront?]
    · rw [Text.dropBack?_append]
      rfl
  simp only [days?, whole, named, Option.bind_eq_bind, Option.bind_some, counted, number]

/-- Days are written in front of a clock by their number and their word. -/
theorem dayChars_append {days : Int} (present : days ≠ 0) (clock : List Char) :
    dayChars days ++ clock =
      ((Number.integerText days).toList ++ ' ' :: (dayWord days).toList) ++ ',' :: ' ' :: clock := by
  rw [dayChars, if_neg present, dayWord]
  split
  · simp
  · simp

/-- A clock has nothing to trim. -/
theorem trimChars_clockChars (micros : Nat) :
    Text.trimChars (clockChars micros) = clockChars micros :=
  Text.trimChars_of_solid fun _ => isBlank_of_mem_clockChars

/-- A clock without days in front of it is read as a clock. A clock has no comma, so nothing
is cut off in front of it. -/
theorem ofText?_clock (micros : Nat) :
    ofText? (String.ofList (clockChars micros)) = clock? (clockChars micros) := by
  obtain ⟨digit, more, spelled, inside⟩ := exists_clockChars_cons micros
  have comma : ',' ∉ clockChars micros := by
    intro member
    rcases clockChars_solid member with digit | colon | point
    · cases digit
    · cases colon
    · cases point
  have colon : (clockChars micros).contains ':' = true := by
    rw [List.contains_iff_mem, clockChars_eq, partChars]
    exact List.mem_append_right _ List.mem_cons_self
  simp only [ofText?, String.toList_ofList, trimChars_clockChars, Text.cutAt?_of_not_mem comma, colon,
    if_true]
  -- The digit at the front is no sign, so the clock is not turned around.
  split
  · rename_i rest same
    rw [spelled] at same
    cases (List.cons.inj same).1
    cases inside
  · rfl

/-- Days in front of a clock are read apart from it. The only comma stands behind the word,
and neither the number nor the clock has blanks at its ends. -/
theorem ofText?_days {days : Int} (present : days ≠ 0) (fits : Number.isInt64 days = true)
    (micros : Nat) :
    ofText? (String.ofList (dayChars days ++ clockChars micros)) =
      (clock? (clockChars micros)).bind fun clock =>
        (ofSeconds? (days * 86400)).bind fun whole => whole.add? clock := by
  obtain ⟨digit, more, spelled, _⟩ := exists_clockChars_cons micros
  have filled : clockChars micros ≠ [] := by
    rw [spelled]
    exact List.cons_ne_nil _ _
  have ends : Text.trimChars (dayChars days ++ clockChars micros) =
      dayChars days ++ clockChars micros := by
    rw [dayChars, if_neg present, List.append_assoc]
    apply @trimChars_integerText days _ ((clockChars micros).getLast filled)
    · rw [List.getLast?_append, List.getLast?_eq_some_getLast filled]
      rfl
    · exact isBlank_of_mem_clockChars (List.getLast_mem filled)
  have comma : ',' ∉ (Number.integerText days).toList ++ ' ' :: (dayWord days).toList := by
    intro member
    rcases List.mem_append.mp member with number | word
    · rcases integerText_solid number with digit | sign
      · cases digit
      · cases sign
    · revert word
      rw [dayWord]
      split <;> decide
  have apart : Text.trimChars (' ' :: clockChars micros) = clockChars micros := by
    have surrounded := @Text.trimChars_surrounded [' '] (clockChars micros) []
      (List.forall_mem_singleton.mpr rfl) (by simp) (trimChars_clockChars micros)
    rwa [List.append_nil] at surrounded
  rw [ofText?, String.toList_ofList, ends, dayChars_append present, Text.cutAt?_append comma]
  simp only [apart, days?_dayWord fits]
  rfl

/-- The characters of a span are read as its days and its clock together. -/
theorem ofText?_chars {days : Int} {micros : Nat} {clock span : Span}
    (fits : Number.isInt64 days = true) (small : micros < Number.int64Bound)
    (behind : ofMicros? micros = some clock)
    (sum : (ofSeconds? (days * 86400)).bind (fun whole => whole.add? clock) = some span) :
    ofText? (String.ofList (dayChars days ++ clockChars micros)) = some span := by
  have read : clock? (clockChars micros) = some clock := (clock?_clockChars small).trans behind
  by_cases present : days = 0
  · subst present
    have zero : ofSeconds? (0 * 86400) = some ⟨0, by decide⟩ := rfl
    rw [zero, Option.bind_some, add?, Int.zero_add, make?_nanos] at sum
    have whole : dayChars 0 ++ clockChars micros = clockChars micros := rfl
    rw [whole, ofText?_clock, read, sum]
  · rw [ofText?_days present fits, read, Option.bind_some, sum]

/-- A span of whole microseconds is made of its full days and the microseconds behind
them. -/
theorem parts_of_micros {span : Span} {micros : Int64} (whole : span.nanos = micros.toInt * 1000) :
    ∃ clock, ofMicros? (micros.toInt % microsPerDay).toNat = some clock ∧
      (ofSeconds? (micros.toInt / microsPerDay * 86400)).bind (fun days => days.add? clock) =
        some span := by
  have limit : spanLimit = 9223372036854775807000000 := rfl
  have low := micros.le_toInt
  have high := micros.toInt_lt
  simp only [microsPerDay]
  have clockBound : (((micros.toInt % 86400000000).toNat : Int) * 1000).natAbs ≤ spanLimit := by omega
  have daysBound : (micros.toInt / 86400000000 * 86400 * 1000000000).natAbs ≤ spanLimit := by omega
  have sum : micros.toInt / 86400000000 * 86400 * 1000000000 +
      ((micros.toInt % 86400000000).toNat : Int) * 1000 = span.nanos := by omega
  refine ⟨⟨_, clockBound⟩, dif_pos clockBound, ?_⟩
  rw [ofSeconds?, make?, dif_pos daysBound, Option.bind_some, add?]
  simp only [sum]
  exact make?_nanos span

/-- A span of whole microseconds that fit 64 bits is read back from its text, so no other
span of this kind has that text.

Proof: the length is divided into days, downwards, and a clock that goes forward and is
shorter than a day. Both are written in a form that is read as they are, and added up they
are the length again. Two spans of one text are therefore one. -/
theorem text_reads_back {span : Span} (whole : span.IsWhole) :
    ofText? span.text = some span ∧
      ∀ other : Span, other.IsWhole → other.text = span.text → other = span := by
  have reads (value : Span) (own : value.IsWhole) : ofText? value.text = some value := by
    obtain ⟨micros, length⟩ := own
    obtain ⟨clock, behind, sum⟩ := parts_of_micros length
    have low := micros.le_toInt
    have high := micros.toInt_lt
    rw [text, micros_of_whole length]
    apply ofText?_chars ?_ ?_ behind sum
    · rw [Number.isInt64, Bool.and_eq_true, decide_eq_true_eq, decide_eq_true_eq]
      simp only [microsPerDay, Number.int64Bound]
      omega
    · simp only [microsPerDay, Number.int64Bound]
      omega
  refine ⟨reads span whole, ?_⟩
  intro other own same
  have first := reads other own
  rw [same, reads span whole] at first
  exact (Option.some.inj first).symm

/-- The longest span of this kind that points backward. -/
def farthestBack : Span :=
  ⟨Int64.minValue.toInt * 1000, by decide⟩

/-- The longest span backward is read back from its text. -/
theorem text_reads_back_farthest :
    farthestBack.IsWhole ∧ farthestBack.text = "-106751992 days, 19:59:05.224192" ∧
      ofText? farthestBack.text = some farthestBack ∧
      ∀ other : Span, other.IsWhole → other.text = farthestBack.text → other = farthestBack :=
  ⟨⟨Int64.minValue, rfl⟩, by decide +kernel, text_reads_back ⟨Int64.minValue, rfl⟩⟩

end EventSieve.Time.Span
