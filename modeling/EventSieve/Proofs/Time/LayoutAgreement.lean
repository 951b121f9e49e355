import EventSieve.Proofs.Time.LayoutReading

/-!
# Accepted layouts agree

A text column accepts ten layouts, which are tried one after the other. Their number items
take fewer digits than a number is padded to, and blanks may be missing, so a layout might
read a text that was written in another one. It never does with another result: whatever
accepted layout reads a text that spells a timestamp in an accepted layout reads the same
parts. So the order in which the layouts are tried does not matter for such a text.

The date decides first. Around hyphens with the year first, only layouts with such a date
go on; around slashes the one that puts the month first is told apart by where the four
digits stand. Behind the date a layout goes on with a mark, with blanks or not at all, and
then reads a time of day up to its end.
-/

namespace EventSieve.Time

/-- Whether nothing is read but a given reading. -/
def Agrees (found : Option Reading) (reading : Reading) : Prop :=
  found = none ∨ found = some reading

namespace Layout

/-- The accepted layouts, each as a date with what stands behind it. -/
theorem accepted_eq : accepted =
    [strictDate ++ .oneOf ['T', 't', ' '] :: (strictClock ++ [.offset ⟨true, false, true⟩]),
      yearFirst '-' ++ .blanks :: (clock ++ [.offset ⟨false, false, false⟩]),
      yearFirst '-' ++ mark 'T' :: (clock ++ []),
      yearFirst '-' ++ .blanks :: (clock ++ []),
      yearFirst '-' ++ .blanks :: (shortClock ++ []),
      yearFirst '/' ++ .blanks :: (clock ++ []),
      monthFirst ++ .blanks :: (clock ++ []),
      yearFirst '-' ++ [], yearFirst '/' ++ [], monthFirst ++ []] :=
  rfl

/-- What may stand between a date and a time of day. -/
def IsJoint (joint : List Char) : Prop :=
  (∃ character ∈ ['T', 't', ' '], joint = [character]) ∨
    ∀ character ∈ joint, Text.isBlank character = true

section

variable {timestamp : Timestamp} {reading target : Reading} {layout : Layout}

/-- Blanks are no digits. -/
theorem isDigit_of_isBlank {character : Char} (blank : Text.isBlank character = true) :
    character.isDigit = false := by
  by_contra digit
  rw [Bool.not_eq_false] at digit
  exact Bool.false_ne_true ((Text.isBlank_of_isDigit digit).symm.trans blank)

/-- A time of day starts with a digit. -/
theorem head_shortClockChars (rest : List Char) {character : Char}
    (first : character ∈ (timestamp.shortClockChars ++ rest).head?) : character.isDigit = true := by
  obtain ⟨_, _, hour, _⟩ := timestamp.small
  obtain ⟨digit, more, spelled, isDigit⟩ := exists_padded_cons (by decide) hour
  rw [Timestamp.shortClockChars, spelled] at first
  cases first
  exact isDigit

/-- A layout with a mark of interchange reads behind a joint what it reads behind its mark,
or nothing. The joint is one of the marks, or blanks, of which one may be the mark; any
further blank is no digit of an hour. -/
theorem agrees_oneOf {joint : List Char} (stands : IsJoint joint) {rest : List Char}
    (behind : Agrees (readFrom? (strictClock ++ layout) reading (timestamp.shortClockChars ++ rest))
      target) :
    Agrees (readFrom? (.oneOf ['T', 't', ' '] :: (strictClock ++ layout)) reading
      (joint ++ (timestamp.shortClockChars ++ rest))) target := by
  rcases stands with ⟨character, known, rfl⟩ | blank
  · rw [List.singleton_append, readFrom?_cons (Item.read?_oneOf known)]
    exact behind
  cases joint with
  | nil =>
    left
    apply readFrom?_refused
    apply Item.read?_oneOf_other
    intro character first member
    have digit := head_shortClockChars rest first
    rcases List.mem_cons.mp member with rfl | member
    · cases digit
    · rcases List.mem_cons.mp member with rfl | member
      · cases digit
      · cases List.mem_singleton.mp member
        cases digit
  | cons character row =>
    by_cases known : character ∈ ['T', 't', ' ']
    · rw [List.cons_append, readFrom?_cons (Item.read?_oneOf known)]
      cases row with
      | nil => exact behind
      | cons other more =>
        left
        apply readFrom?_refused
        apply Item.read?_digits_other .hour (by decide)
        rintro _ ⟨⟩
        exact isDigit_of_isBlank (blank other (by simp))
    · left
      apply readFrom?_refused
      apply Item.read?_oneOf_other
      rintro _ ⟨⟩
      exact known

/-- Blanks in front of a time of day are passed over. -/
theorem readFrom?_blanks {row : List Char}
    (blank : ∀ character ∈ row, Text.isBlank character = true) (rest : List Char) :
    readFrom? (.blanks :: layout) reading (row ++ (timestamp.shortClockChars ++ rest)) =
      readFrom? layout reading (timestamp.shortClockChars ++ rest) := by
  obtain ⟨_, _, hour, _⟩ := timestamp.small
  rw [Timestamp.shortClockChars, List.append_assoc]
  exact readFrom?_cons (Item.read?_blanks_padded blank (by decide) hour)

/-- A layout with blanks reads behind a joint what it reads behind its blanks, or nothing.
The joint is a letter, which is neither a blank nor a digit, or it is blanks. -/
theorem agrees_blanks {joint : List Char} (stands : IsJoint joint) {rest : List Char}
    (behind : Agrees (readFrom? (shortClock ++ layout) reading (timestamp.shortClockChars ++ rest))
      target) :
    Agrees (readFrom? (.blanks :: (shortClock ++ layout)) reading
      (joint ++ (timestamp.shortClockChars ++ rest))) target := by
  have refused {letter : Char} (solid : Text.isBlank letter = false) (other : letter.isDigit = false) :
      readFrom? (.blanks :: (shortClock ++ layout)) reading
        (letter :: (timestamp.shortClockChars ++ rest)) = none := by
    rw [readFrom?_cons (Item.read?_blanks solid)]
    apply readFrom?_refused
    apply Item.read?_number_other (by decide)
    rintro _ ⟨⟩
    exact ⟨other, solid⟩
  rcases stands with ⟨character, known, rfl⟩ | blank
  · rcases List.mem_cons.mp known with rfl | known
    · exact .inl (refused (by decide) (by decide))
    · rcases List.mem_cons.mp known with rfl | known
      · exact .inl (refused (by decide) (by decide))
      · rw [List.mem_singleton.mp known, readFrom?_blanks (List.forall_mem_singleton.mpr (by decide))]
        exact behind
  · rw [readFrom?_blanks blank]
    exact behind

/-- A layout with the letter T reads behind a joint what it reads behind this letter, or
nothing. Anything else in front is another letter, a blank or the digit of an hour. -/
theorem agrees_mark {joint : List Char} (stands : IsJoint joint) {rest : List Char}
    (behind : Agrees (readFrom? layout reading (timestamp.shortClockChars ++ rest)) target) :
    Agrees (readFrom? (mark 'T' :: layout) reading
      (joint ++ (timestamp.shortClockChars ++ rest))) target := by
  rcases stands with ⟨character, known, rfl⟩ | blank
  · by_cases same : character = 'T'
    · rw [same, List.singleton_append, readFrom?_mark]
      exact behind
    · left
      apply readFrom?_mark_other
      rintro _ ⟨⟩
      exact same
  · left
    apply readFrom?_mark_other
    intro character first same
    cases joint with
    | nil =>
      have digit := head_shortClockChars rest first
      rw [same] at digit
      cases digit
    | cons other row =>
      cases first
      have space := blank character List.mem_cons_self
      rw [same] at space
      cases space

/-- Behind a date around hyphens, layouts agree on a joint and a time of day as far as
they agree on the time of day with what stands behind it. -/
theorem agrees_hyphens {joint : List Char} (stands : IsJoint joint) {rest : List Char}
    (padded : Agrees (readFrom? (strictClock ++ [.offset ⟨true, false, true⟩]) timestamp.dateReading
      (timestamp.shortClockChars ++ rest)) target)
    (east : Agrees (readFrom? (clock ++ [.offset ⟨false, false, false⟩]) timestamp.dateReading
      (timestamp.shortClockChars ++ rest)) target)
    (full : Agrees (readFrom? (clock ++ []) timestamp.dateReading
      (timestamp.shortClockChars ++ rest)) target)
    (short : Agrees (readFrom? (shortClock ++ []) timestamp.dateReading
      (timestamp.shortClockChars ++ rest)) target) :
    ∀ other ∈ accepted, Agrees (readFrom? other .blank
      (timestamp.dateChars '-' ++ (joint ++ (timestamp.shortClockChars ++ rest)))) target := by
  have some : joint ++ (timestamp.shortClockChars ++ rest) ≠ [] := by
    simp [Timestamp.shortClockChars]
  have apart : '-' ≠ '/' := by decide
  simp only [accepted_eq, List.forall_mem_cons, readFrom?_strictDate, readFrom?_yearFirst,
    readFrom?_yearFirst_other apart, readFrom?_monthFirst_other, readFrom?_nil some]
  refine ⟨agrees_oneOf stands padded, agrees_blanks stands east, agrees_mark stands full,
    agrees_blanks stands full, agrees_blanks stands short, .inl rfl, .inl rfl, .inl rfl, .inl rfl,
    .inl rfl, by simp⟩

/-- Layouts agree on a date around hyphens alone. -/
theorem agrees_hyphens_alone (timestamp : Timestamp) : ∀ other ∈ accepted,
    Agrees (readFrom? other .blank (timestamp.dateChars '-')) timestamp.dateReading := by
  have apart : '-' ≠ '/' := by decide
  rw [← List.append_nil (timestamp.dateChars '-')]
  simp only [accepted_eq, List.forall_mem_cons, readFrom?_strictDate, readFrom?_yearFirst,
    readFrom?_yearFirst_other apart, readFrom?_monthFirst_other]
  refine ⟨.inl rfl, .inl rfl, .inl rfl, .inl rfl, .inl rfl, .inl rfl, .inl rfl, .inr rfl, .inl rfl,
    .inl rfl, by simp⟩

/-- Layouts agree on a date around slashes with its year first. -/
theorem agrees_slashes {rest : List Char} {target : Reading}
    (full : Agrees (readFrom? (.blanks :: (clock ++ [])) timestamp.dateReading rest) target)
    (alone : Agrees (readFrom? [] timestamp.dateReading rest) target) :
    ∀ other ∈ accepted, Agrees (readFrom? other .blank (timestamp.dateChars '/' ++ rest)) target := by
  have apart : '/' ≠ '-' := by decide
  simp only [accepted_eq, List.forall_mem_cons, readFrom?_strictDate_slashes, readFrom?_yearFirst,
    readFrom?_yearFirst_other apart, readFrom?_monthFirst_other]
  exact ⟨.inl rfl, .inl rfl, .inl rfl, .inl rfl, .inl rfl, full, .inl rfl, .inl rfl, alone,
    .inl rfl, by simp⟩

/-- Layouts agree on a date with its month first: what takes it for one with a year first is
left with half of the year, and no colon stands behind that. All other layouts stop at the
first slash or miss a digit of the year. -/
theorem agrees_monthFirst {rest : List Char} {target : Reading}
    (pointless : ∀ character ∈ rest.head?, character ≠ ':')
    (full : Agrees (readFrom? (.blanks :: (clock ++ [])) timestamp.dateReading rest) target)
    (alone : Agrees (readFrom? [] timestamp.dateReading rest) target) :
    ∀ other ∈ accepted, Agrees (readFrom? other .blank (timestamp.monthFirstChars ++ rest)) target := by
  have half : timestamp.year % 100 < 10 ^ 2 := by omega
  have misread : readFrom? (yearFirst '/' ++ .blanks :: (clock ++ [])) .blank
      (timestamp.monthFirstChars ++ rest) = none := by
    obtain ⟨misread, same⟩ := @readFrom?_slashes_monthFirst timestamp
      (.blanks :: (clock ++ [])) rest
    rw [same, ← List.nil_append (Text.paddedChars 2 _ ++ rest),
      readFrom?_cons (Item.read?_blanks_padded (by simp) (by decide) half)]
    simp only [clock, shortClock, List.cons_append, List.nil_append]
    rw [readFrom?_two _ half]
    exact readFrom?_mark_other pointless
  have left : readFrom? (yearFirst '/' ++ []) .blank (timestamp.monthFirstChars ++ rest) = none := by
    obtain ⟨misread, same⟩ := @readFrom?_slashes_monthFirst timestamp [] rest
    obtain ⟨digit, more, spelled, _⟩ := exists_padded_cons (by decide) half
    rw [same, spelled]
    rfl
  simp only [accepted_eq, List.forall_mem_cons, readFrom?_strictDate_monthFirst, readFrom?_monthFirst,
    readFrom?_hyphens_monthFirst, misread, left]
  exact ⟨.inl rfl, .inl rfl, .inl rfl, .inl rfl, .inl rfl, .inl rfl, full, .inl rfl, .inl rfl, alone,
    by simp⟩

/-- Without the colon, hours and minutes are refused where it has to stand. -/
theorem offsetBody?_dense {hours minutes : Nat} (bounded : hours < 24 ∧ minutes < 60) :
    offsetBody? true (Text.paddedChars 2 hours ++ Text.paddedChars 2 minutes) = none := by
  obtain ⟨digit, more, spelled, isDigit⟩ :=
    exists_padded_cons (by decide : 0 < 2) (by omega : minutes < 10 ^ 2)
  have apart : ':' ≠ digit := (Text.ne_of_isDigit isDigit rfl).symm
  rw [offsetBody?, exactNumber?_padded (by decide) (by omega : hours < 10 ^ 2), spelled]
  simp [skipSeparator?, Text.dropFront?, apart]

/-- What spells hours and minutes of an offset in one style is read in another one as the
same, or not at all. -/
theorem offsetBody?_agrees {strict : Bool} (other : Bool) {hours minutes : Nat}
    (bounded : hours < 24 ∧ minutes < 60) {body : List Char}
    (spelled : Timestamp.Offset.IsBody strict hours minutes body) :
    offsetBody? other body = none ∨
      offsetBody? other body = some (hours * 3600 + minutes * 60, []) := by
  rcases spelled with colon | ⟨-, dense⟩
  · exact .inr (offsetBody?_of_isBody bounded (.inl colon))
  · cases other with
    | true => rw [dense]; exact .inl (offsetBody?_dense bounded)
    | false => exact .inr (offsetBody?_of_isBody bounded (.inr ⟨rfl, dense⟩))

/-- What spells an offset in one style is read in another one as the same offset, or not at
all. The styles differ in whether they take a letter and whether the colon has to stand, so
one can refuse what the other takes, and no more. -/
theorem offset?_agrees {style : OffsetStyle} (other : OffsetStyle) {offset : Timestamp.Offset}
    {text : List Char} (spelled : offset.Spells style text) :
    offset? other text = none ∨ offset? other text = some (offset.seconds, []) := by
  cases offset with
  | zulu letter known =>
    obtain ⟨-, rfl⟩ := spelled
    rw [offset?_zulu other known]
    split
    · exact .inr rfl
    · exact .inl rfl
  | east hours minutes bounded =>
    obtain ⟨body, spelled, rfl⟩ := spelled
    rw [offset?_plus]
    rcases offsetBody?_agrees other.strict bounded spelled with none | same
    · exact .inl (by rw [none, Option.map_none])
    · right
      rw [same, Option.map_some, Timestamp.Offset.seconds]
      push_cast
      rfl
  | west hours minutes bounded =>
    obtain ⟨body, spelled, rfl⟩ := spelled
    rw [offset?_minus]
    rcases offsetBody?_agrees other.strict bounded spelled with none | same
    · exact .inl (by rw [none, Option.map_none])
    · right
      rw [same, Option.map_some, Timestamp.Offset.seconds]
      push_cast
      rfl

/-- An offset at the end of a text is read as the same in every style that reads it. -/
theorem agrees_offset {style : OffsetStyle} (other : OffsetStyle) {text : List Char}
    (spelled : timestamp.offset.Spells style text) :
    Agrees (readFrom? [.offset other] timestamp.clockReading text) timestamp.reading := by
  rcases offset?_agrees other spelled with none | same
  · left
    simp only [readFrom?, Item.read?, none, Option.map_none]
  · right
    simp only [readFrom?, Item.read?, same, Option.map_some]
    rfl

/-- What spells an offset is never empty. -/
theorem ne_nil_of_spells {style : OffsetStyle} {offset : Timestamp.Offset} {text : List Char}
    (spelled : offset.Spells style text) : text ≠ [] := by
  cases offset with
  | zulu letter known =>
    rw [spelled.2]
    exact List.cons_ne_nil _ _
  | east hours minutes bounded | west hours minutes bounded =>
    obtain ⟨body, -, rfl⟩ := spelled
    exact List.cons_ne_nil _ _

/-- What stands behind the hours and minutes of a time of day. -/
theorem clockChars_append (timestamp : Timestamp) (rest : List Char) :
    timestamp.clockChars ++ rest = timestamp.shortClockChars ++
      (':' :: (Text.paddedChars 2 timestamp.second ++ timestamp.fractionChars) ++ rest) := by
  rw [Timestamp.clockChars, List.append_assoc]

/-- A layout that ends behind hours and minutes does not read a time of day. -/
theorem readFrom?_shortClock_clock (rest : List Char) :
    readFrom? (shortClock ++ []) timestamp.dateReading (timestamp.clockChars ++ rest) = none := by
  rw [clockChars_append, readFrom?_shortClock]
  rfl

/-- Layouts agree on a date around hyphens, a time of day and an offset. -/
theorem agrees_zoned {joint : List Char} (stands : IsJoint joint) {style : OffsetStyle}
    {text : List Char} (spelled : timestamp.offset.Spells style text) :
    ∀ other ∈ accepted, Agrees (readFrom? other .blank
      (timestamp.dateChars '-' ++ (joint ++ (timestamp.clockChars ++ text)))) timestamp.reading := by
  have padded := agrees_offset ⟨true, false, true⟩ spelled
  have east := agrees_offset ⟨false, false, false⟩ spelled
  rw [← readFrom?_strictClock spelled.ended] at padded
  rw [← readFrom?_clock spelled.ended] at east
  have full : readFrom? (clock ++ []) timestamp.dateReading (timestamp.clockChars ++ text) = none := by
    rw [readFrom?_clock spelled.ended, readFrom?_nil (ne_nil_of_spells spelled)]
  have short : readFrom? (shortClock ++ []) timestamp.dateReading (timestamp.clockChars ++ text) =
      none := readFrom?_shortClock_clock text
  rw [clockChars_append] at *
  exact agrees_hyphens stands padded east (.inl full) (.inl short)

/-- Layouts agree on a date around hyphens and a time of day. -/
theorem agrees_timed {joint : List Char} (stands : IsJoint joint) : ∀ other ∈ accepted,
    Agrees (readFrom? other .blank (timestamp.dateChars '-' ++ (joint ++ timestamp.clockChars)))
      timestamp.clockReading := by
  have ended : ∀ character ∈ ([] : List Char).head?, character.isDigit = false ∧ character ≠ '.' := by
    rintro _ ⟨⟩
  have unsaid (style : OffsetStyle) :
      readFrom? [.offset style] timestamp.clockReading [] = none := by
    obtain ⟨zulu, word, strict⟩ := style
    cases word <;> cases strict <;> rfl
  have padded := @readFrom?_strictClock timestamp [.offset ⟨true, false, true⟩] [] ended
  have east := @readFrom?_clock timestamp [.offset ⟨false, false, false⟩] [] ended
  have full := @readFrom?_clock timestamp [] [] ended
  have short := @readFrom?_shortClock_clock timestamp []
  rw [unsaid] at padded east
  rw [← List.append_nil timestamp.clockChars, clockChars_append]
  rw [clockChars_append] at padded east full short
  exact agrees_hyphens stands (.inl padded) (.inl east) (.inr full) (.inl short)

/-- Layouts agree on a date around hyphens, an hour and a minute. -/
theorem agrees_short {joint : List Char} (stands : IsJoint joint) : ∀ other ∈ accepted,
    Agrees (readFrom? other .blank (timestamp.dateChars '-' ++ (joint ++ timestamp.shortClockChars)))
      timestamp.minuteReading := by
  have ended {layout : Layout} : readFrom? (mark ':' :: layout) timestamp.minuteReading [] = none :=
    readFrom?_mark_other (by rintro _ ⟨⟩)
  have padded := @readFrom?_strictShortClock timestamp [.offset ⟨true, false, true⟩] []
  have longer (layout : Layout) : readFrom? (clock ++ layout) timestamp.dateReading
      (timestamp.shortClockChars ++ []) = none := by
    rw [clock, List.append_assoc, readFrom?_shortClock]
    exact ended
  have short := @readFrom?_shortClock timestamp [] []
  rw [ended] at padded
  rw [← List.append_nil timestamp.shortClockChars]
  exact agrees_hyphens stands (.inl padded) (.inl (longer _)) (.inl (longer _)) (.inr short)

end

end Layout

end EventSieve.Time
