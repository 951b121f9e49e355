import EventSieve.Proofs.Text.Pieces
import EventSieve.Proofs.Time.LayoutAgreement

/-!
# Texts of timestamps are read

A text that spells a timestamp in an accepted layout is read as the instant that the
timestamp has there, with any blanks around it. The layout itself reads the text, and since
accepted layouts agree on it, no layout that is tried earlier gives another instant.

Such a text starts with a digit and ends with a digit or a letter, so trimming takes off the
blanks around it and nothing else.
-/

namespace EventSieve.Time

/-- A text that starts with no blank and ends with characters that are none has nothing to
trim. -/
theorem trimChars_append_solid {front back : List Char}
    (first : ∀ character ∈ (front ++ back).head?, Text.isBlank character = false)
    (present : back ≠ []) (solid : ∀ character ∈ back, Text.isBlank character = false) :
    Text.trimChars (front ++ back) = front ++ back := by
  apply Text.trimChars_of_ends first
  intro character last
  rw [List.getLast?_append_of_ne_nil _ present] at last
  exact solid character (List.mem_of_getLast? last)

namespace Timestamp

/-- Whether a text has no blanks, and is not empty. -/
def IsSolid (text : List Char) : Prop :=
  text ≠ [] ∧ ∀ character ∈ text, Text.isBlank character = false

/-- A padded number has no blanks. -/
theorem isSolid_padded {width value : Nat} (positive : 0 < width) (fits : value < 10 ^ width) :
    IsSolid (Text.paddedChars width value) := by
  obtain ⟨present, digits⟩ := Text.isNumeral_iff.mp (isNumeral_padded positive fits)
  exact ⟨present, fun character member => Text.isBlank_of_isDigit (digits character member)⟩

/-- Texts without blanks around a character that is none make such a text. -/
theorem IsSolid.around {front back : List Char} (before : IsSolid front) (behind : IsSolid back)
    {character : Char} (solid : Text.isBlank character = false) :
    IsSolid (front ++ character :: back) := by
  refine ⟨by simp, ?_⟩
  intro other member
  rcases List.mem_append.mp member with inFront | inBack
  · exact before.2 other inFront
  · rcases List.mem_cons.mp inBack with rfl | inBack
    · exact solid
    · exact behind.2 other inBack

/-- A text without blanks stays one with such characters behind it. -/
theorem IsSolid.append {front back : List Char} (before : IsSolid front)
    (behind : ∀ character ∈ back, Text.isBlank character = false) : IsSolid (front ++ back) := by
  refine ⟨by simp [before.1], ?_⟩
  intro other member
  rcases List.mem_append.mp member with inFront | inBack
  · exact before.2 other inFront
  · exact behind other inBack

variable (timestamp : Timestamp)

/-- A date with its year first has no blanks around a separator that is none. -/
theorem isSolid_dateChars {separator : Char} (solid : Text.isBlank separator = false) :
    IsSolid (timestamp.dateChars separator) := by
  obtain ⟨month, day, _⟩ := timestamp.small
  exact (isSolid_padded (by decide) timestamp.fourDigits).around
    ((isSolid_padded (by decide) month).around (isSolid_padded (by decide) day) solid) solid

/-- A date with its month first has no blanks. -/
theorem isSolid_monthFirstChars : IsSolid timestamp.monthFirstChars := by
  obtain ⟨month, day, _⟩ := timestamp.small
  exact (isSolid_padded (by decide) month).around ((isSolid_padded (by decide) day).around
    (isSolid_padded (by decide) timestamp.fourDigits) (by decide)) (by decide)

/-- Hours and minutes have no blanks. -/
theorem isSolid_shortClockChars : IsSolid timestamp.shortClockChars := by
  obtain ⟨_, _, hour, minute, _⟩ := timestamp.small
  exact (isSolid_padded (by decide) hour).around (isSolid_padded (by decide) minute) (by decide)

/-- A time of day has no blanks. -/
theorem isSolid_clockChars : IsSolid timestamp.clockChars := by
  obtain ⟨_, _, _, _, second⟩ := timestamp.small
  apply timestamp.isSolid_shortClockChars.around _ (by decide)
  apply (isSolid_padded (by decide) second).append
  intro character member
  rw [fractionChars] at member
  split at member
  · cases member
  · rcases List.mem_cons.mp member with rfl | digit
    · decide
    · exact Text.isBlank_of_isDigit (timestamp.digits character digit)

variable {timestamp}

/-- What spells an offset has no blanks. It is a sign and two numerals, with a colon or
nothing between, or a letter. -/
theorem Offset.Spells.isSolid {style : OffsetStyle} {offset : Offset} {text : List Char}
    (spelled : offset.Spells style text) : IsSolid text := by
  have body {strict : Bool} {hours minutes : Nat} (bounded : hours < 24 ∧ minutes < 60)
      {text : List Char} (spelled : IsBody strict hours minutes text) : IsSolid text := by
    have front : IsSolid (Text.paddedChars 2 hours) := isSolid_padded (by decide) (by omega)
    have back : IsSolid (Text.paddedChars 2 minutes) := isSolid_padded (by decide) (by omega)
    rcases spelled with rfl | ⟨-, rfl⟩
    · exact front.around back (by decide)
    · exact front.append back.2
  cases offset with
  | zulu letter known =>
    obtain ⟨-, rfl⟩ := spelled
    refine ⟨List.cons_ne_nil _ _, List.forall_mem_singleton.mpr ?_⟩
    rcases known with rfl | rfl
    · decide
    · decide
  | east hours minutes bounded =>
    obtain ⟨text, spelled, rfl⟩ := spelled
    exact ⟨List.cons_ne_nil _ _, List.forall_mem_cons.mpr ⟨by decide, (body bounded spelled).2⟩⟩
  | west hours minutes bounded =>
    obtain ⟨text, spelled, rfl⟩ := spelled
    exact ⟨List.cons_ne_nil _ _, List.forall_mem_cons.mpr ⟨by decide, (body bounded spelled).2⟩⟩

/-- A text without blanks in front of anything starts with none. -/
theorem IsSolid.head {front : List Char} (before : IsSolid front) (rest : List Char) :
    ∀ character ∈ (front ++ rest).head?, Text.isBlank character = false := by
  obtain ⟨first, more, rfl⟩ := List.exists_cons_of_ne_nil before.1
  rintro _ ⟨⟩
  exact before.2 first List.mem_cons_self

/-- A text without blanks has nothing to trim, and neither has anything between two such
texts. -/
theorem IsSolid.trimmed {front back : List Char} (before : IsSolid front) (behind : IsSolid back)
    (middle : List Char) : Text.trimChars (front ++ (middle ++ back)) = front ++ (middle ++ back) := by
  have first := before.head (middle ++ back)
  rw [← List.append_assoc] at first ⊢
  exact trimChars_append_solid first behind.1 behind.2

end Timestamp

namespace Layout

/-- Whether a text without blanks at its ends is read by a layout as the timestamp that
this shows, and by no accepted layout as anything else. -/
structure ReadsAs (layout : Layout) (timestamp : Timestamp) (text : List Char) : Prop where
  own : readFrom? layout .blank text = some (layout.shown timestamp).reading
  agree : ∀ other ∈ accepted,
    Agrees (readFrom? other .blank text) (layout.shown timestamp).reading
  trimmed : Text.trimChars text = text

section

variable {layout : Layout} {timestamp : Timestamp} {text : List Char}

/-- A text in the padded form of interchange is read as what it shows. -/
theorem readsAs_interchange (spelled : interchange.Spells timestamp text) :
    interchange.ReadsAs timestamp text := by
  rw [interchange_eq, spells_append] at spelled
  obtain ⟨_, _, date, ⟨_, _, ⟨character, known, rfl⟩, behind, rfl⟩, rfl⟩ := spelled
  obtain ⟨_, offset, time, last, rfl⟩ := spells_append.mp behind
  rw [spells_strictDate.mp date, spells_strictClock.mp time]
  have east : timestamp.offset.Spells _ offset := spells_singleton.mp last
  have hyphens := timestamp.isSolid_dateChars (by decide : Text.isBlank '-' = false)
  have trimmed := hyphens.trimmed (timestamp.isSolid_clockChars.append east.isSolid.2) [character]
  refine ⟨?_, agrees_zoned (.inl ⟨character, known, rfl⟩) east, trimmed⟩
  rw [interchange_eq, readFrom?_strictDate, List.singleton_append,
    readFrom?_cons (Item.read?_oneOf known), readFrom?_strictClock east.ended,
    readFrom?_cons (Item.read?_offset east)]
  rfl

/-- A text with a loose offset is read as what it shows. -/
theorem readsAs_withOffset (member : layout ∈ withOffset) (spelled : layout.Spells timestamp text) :
    layout.ReadsAs timestamp text := by
  obtain rfl := List.mem_singleton.mp member
  rw [List.append_assoc, List.cons_append] at spelled
  obtain ⟨_, _, date, ⟨row, _, blank, behind, rfl⟩, rfl⟩ := spells_append.mp spelled
  obtain ⟨_, offset, time, last, rfl⟩ := spells_append.mp behind
  rw [spells_yearFirst.mp date, spells_clock.mp time]
  have east : timestamp.offset.Spells _ offset := spells_singleton.mp last
  have hyphens := timestamp.isSolid_dateChars (by decide : Text.isBlank '-' = false)
  have trimmed := hyphens.trimmed (timestamp.isSolid_clockChars.append east.isSolid.2) row
  refine ⟨?_, agrees_zoned (.inr blank) east, trimmed⟩
  rw [List.append_assoc, List.cons_append, readFrom?_yearFirst, clockChars_append,
    readFrom?_blanks blank, ← clockChars_append, readFrom?_clock east.ended,
    readFrom?_cons (Item.read?_offset east)]
  rfl

/-- A time of day at the end of a text is read as it is. -/
theorem readFrom?_last_clock :
    readFrom? clock timestamp.dateReading timestamp.clockChars = some timestamp.clockReading := by
  have ended : ∀ character ∈ ([] : List Char).head?, character.isDigit = false ∧ character ≠ '.' := by
    rintro _ ⟨⟩
  have read := @readFrom?_clock timestamp [] [] ended
  rw [List.append_nil, List.append_nil] at read
  exact read

/-- So it is behind blanks. -/
theorem readFrom?_blanks_clock {row : List Char}
    (blank : ∀ character ∈ row, Text.isBlank character = true) :
    readFrom? (.blanks :: clock) timestamp.dateReading (row ++ timestamp.clockChars) =
      some timestamp.clockReading := by
  rw [← List.append_nil timestamp.clockChars, clockChars_append, readFrom?_blanks blank,
    ← clockChars_append, List.append_nil, readFrom?_last_clock]

/-- A layout that shows no fraction shows no nanoseconds. -/
theorem reading_eq_of_fraction {shown : Timestamp} {reading : Reading}
    (fraction : shown.fraction = []) (same : { shown.reading with nanos := 0 } = reading) :
    shown.reading = reading := by
  rw [← same, Timestamp.reading, fraction]
  simp [Text.numeralValue, Text.extend]

/-- A text with a date and a time of day is read as what it shows.

Proof: there is one case for each layout, and in each of them the text is a date, a mark or
blanks, and a time of day. Reading goes on from part to part. That the other layouts agree
was shown for each kind of text once; and the text begins and ends without a blank. -/
theorem readsAs_withoutOffset (member : layout ∈ withoutOffset)
    (spelled : layout.Spells timestamp text) : layout.ReadsAs timestamp text := by
  have hyphens := timestamp.isSolid_dateChars (by decide : Text.isBlank '-' = false)
  have slashes := timestamp.isSolid_dateChars (by decide : Text.isBlank '/' = false)
  have time := timestamp.isSolid_clockChars
  simp only [withoutOffset, List.mem_cons, List.not_mem_nil, or_false] at member
  rcases member with rfl | rfl | rfl | rfl | rfl
  · obtain ⟨_, _, date, ⟨_, _, ⟨letter, known, rfl⟩, clock, rfl⟩, rfl⟩ := spells_append.mp spelled
    obtain rfl := List.mem_singleton.mp known
    rw [spells_yearFirst.mp date, spells_clock.mp clock]
    refine ⟨?_, agrees_timed (.inl ⟨'T', by decide, rfl⟩), hyphens.trimmed time ['T']⟩
    rw [readFrom?_yearFirst, List.singleton_append, readFrom?_mark, readFrom?_last_clock]
    rfl
  · obtain ⟨_, _, date, ⟨row, _, blank, clock, rfl⟩, rfl⟩ := spells_append.mp spelled
    rw [spells_yearFirst.mp date, spells_clock.mp clock]
    refine ⟨?_, agrees_timed (.inr blank), hyphens.trimmed time row⟩
    rw [readFrom?_yearFirst, readFrom?_blanks_clock blank]
    rfl
  · obtain ⟨_, _, date, ⟨row, _, blank, clock, rfl⟩, rfl⟩ := spells_append.mp spelled
    rw [spells_yearFirst.mp date, spells_shortClock.mp clock]
    have shown : ((yearFirst '-' ++ Item.blanks :: shortClock).shown timestamp).reading =
        timestamp.minuteReading := reading_eq_of_fraction rfl rfl
    have trimmed := hyphens.trimmed timestamp.isSolid_shortClockChars row
    refine ⟨?_, shown ▸ agrees_short (.inr blank), trimmed⟩
    have last := @readFrom?_shortClock timestamp [] []
    rw [List.append_nil] at last
    rw [readFrom?_yearFirst, ← List.append_nil timestamp.shortClockChars, readFrom?_blanks blank,
      last, shown]
    rfl
  · obtain ⟨_, _, date, ⟨row, _, blank, clock, rfl⟩, rfl⟩ := spells_append.mp spelled
    rw [spells_yearFirst.mp date, spells_clock.mp clock]
    have read := @readFrom?_blanks_clock timestamp row blank
    have left : row ++ timestamp.clockChars ≠ [] := by simp [time.1]
    refine ⟨?_, agrees_slashes (.inr read) (.inl (readFrom?_nil left)), slashes.trimmed time row⟩
    rw [readFrom?_yearFirst, read]
    rfl
  · obtain ⟨_, _, date, ⟨row, _, blank, clock, rfl⟩, rfl⟩ := spells_append.mp spelled
    rw [spells_monthFirst.mp date, spells_clock.mp clock]
    have read := @readFrom?_blanks_clock timestamp row blank
    have left : row ++ timestamp.clockChars ≠ [] := by simp [time.1]
    have pointless : ∀ character ∈ (row ++ timestamp.clockChars).head?, character ≠ ':' := by
      cases row with
      | nil =>
        intro character first
        rw [Timestamp.clockChars] at first
        exact Text.ne_of_isDigit (head_shortClockChars _ first) rfl
      | cons other more =>
        rintro _ ⟨⟩ rfl
        cases blank ':' List.mem_cons_self
    refine ⟨?_, agrees_monthFirst pointless (.inr read) (.inl (readFrom?_nil left)),
      timestamp.isSolid_monthFirstChars.trimmed time row⟩
    rw [readFrom?_monthFirst, read]
    rfl

/-- A date with its year first shows its midnight. -/
theorem reading_yearFirst {separator : Char} :
    ((yearFirst separator).shown timestamp).reading = timestamp.dateReading :=
  reading_eq_of_fraction rfl rfl

/-- A date with its year first is read as its midnight. -/
theorem readFrom?_date_alone {separator : Char} :
    readFrom? (yearFirst separator) .blank (timestamp.dateChars separator) =
      some ((yearFirst separator).shown timestamp).reading := by
  have read := @readFrom?_yearFirst timestamp [] separator []
  rw [List.append_nil, List.append_nil] at read
  rw [read, reading_yearFirst]
  rfl

/-- A text with a date alone is read as its midnight. Behind the date the text is at its
end, so a layout with a time of day does not read it. -/
theorem readsAs_dateOnly (member : layout ∈ dateOnly) (spelled : layout.Spells timestamp text) :
    layout.ReadsAs timestamp text := by
  have unread : readFrom? (.blanks :: (clock ++ [])) timestamp.dateReading [] = none := rfl
  simp only [dateOnly, List.mem_cons, List.not_mem_nil, or_false] at member
  rcases member with rfl | rfl | rfl
  · rw [spells_yearFirst.mp spelled]
    have solid := timestamp.isSolid_dateChars (rfl : Text.isBlank '-' = false)
    exact ⟨readFrom?_date_alone, reading_yearFirst ▸ agrees_hyphens_alone timestamp,
      Text.trimChars_of_solid solid.2⟩
  · rw [spells_yearFirst.mp spelled]
    have solid := timestamp.isSolid_dateChars (rfl : Text.isBlank '/' = false)
    have agree := agrees_slashes (.inl unread) (.inr rfl)
    rw [List.append_nil] at agree
    exact ⟨readFrom?_date_alone, reading_yearFirst ▸ agree, Text.trimChars_of_solid solid.2⟩
  · rw [spells_monthFirst.mp spelled]
    have solid := timestamp.isSolid_monthFirstChars
    have shown : (monthFirst.shown timestamp).reading = timestamp.dateReading :=
      reading_eq_of_fraction rfl rfl
    have read := @readFrom?_monthFirst timestamp [] []
    have agree := agrees_monthFirst (by rintro _ ⟨⟩) (.inl unread) (.inr rfl)
    rw [List.append_nil] at agree
    rw [List.append_nil, List.append_nil] at read
    exact ⟨shown ▸ read, shown ▸ agree, Text.trimChars_of_solid solid.2⟩

/-- What spells a timestamp in an accepted layout is read as what it shows. -/
theorem readsAs_of_spells (member : layout ∈ accepted) (spelled : layout.Spells timestamp text) :
    layout.ReadsAs timestamp text := by
  simp only [accepted, List.mem_cons, List.mem_append] at member
  rcases member with ((rfl | east) | plain) | date
  · exact readsAs_interchange spelled
  · exact readsAs_withOffset east spelled
  · exact readsAs_withoutOffset plain spelled
  · exact readsAs_dateOnly date spelled

end

end Layout

/-- A text that is read as a timestamp, with any blanks around it, denotes the instant of
the timestamp, and no accepted layout reads another instant. Blanks around the text are
trimmed, and the first layout that reads the rest need not be this one, but it agrees with
it. -/
theorem instant?_of_readsAs {layout : Layout} (member : layout ∈ Layout.accepted)
    {timestamp : Timestamp} {text : List Char} (reads : layout.ReadsAs timestamp text)
    {front back : List Char} (blankFront : ∀ character ∈ front, Text.isBlank character = true)
    (blankBack : ∀ character ∈ back, Text.isBlank character = true) {instant : Instant}
    (denotes : (layout.shown timestamp).Denotes instant) :
    instant? (String.ofList (front ++ text ++ back)) = some instant ∧
      ∀ other ∈ Layout.accepted, ∀ found, other.instant? text = some found → found = instant := by
  obtain ⟨own, agree, trimmed⟩ := reads
  have read := Timestamp.instant?_reading denotes
  have same : ∀ other ∈ Layout.accepted, ∀ found, other.instant? text = some found →
      found = instant := by
    intro other known found inOther
    rw [Layout.instant?] at inOther
    rcases agree other known with none | some
    · rw [none] at inOther
      cases inOther
    · rw [some, Option.bind_some, read] at inOther
      exact (Option.some.inj inOther).symm
  refine ⟨?_, same⟩
  rw [instant?, String.toList_ofList, Text.trimChars_surrounded blankFront blankBack trimmed]
  -- Some layout reads the text, and the first one that does agrees with it.
  have present : (Layout.accepted.findSome? fun layout => layout.instant? text).isSome = true := by
    rw [List.findSome?_isSome_iff]
    refine ⟨layout, member, ?_⟩
    rw [Layout.instant?, own, Option.bind_some, read]
    rfl
  obtain ⟨found, chosen⟩ := Option.isSome_iff_exists.mp present
  obtain ⟨other, known, inOther⟩ := List.exists_of_findSome?_eq_some chosen
  rw [chosen, same other known found inOther]

/-- A text that spells a timestamp in an accepted layout, with any blanks around it, is read
as the instant of what the layout shows, and no accepted layout reads it as another instant,
wherever in the order it stands.

Proof: what a layout shows of a timestamp denotes an instant. A text that spells it is read
as what it shows by its own layout, and every other accepted layout reads either nothing or
the same; so it does not matter which layout comes first. -/
theorem instant?_of_spells {layout : Layout} (member : layout ∈ Layout.accepted)
    {timestamp : Timestamp} {text : List Char} (spelled : layout.Spells timestamp text)
    {front back : List Char} (blankFront : ∀ character ∈ front, Text.isBlank character = true)
    (blankBack : ∀ character ∈ back, Text.isBlank character = true) :
    ∃ instant, (layout.shown timestamp).Denotes instant ∧
      instant? (String.ofList (front ++ text ++ back)) = some instant ∧
        ∀ other ∈ Layout.accepted, ∀ found, other.instant? text = some found → found = instant := by
  obtain ⟨instant, denotes⟩ := (layout.shown timestamp).exists_denotes
  have reads := Layout.readsAs_of_spells member spelled
  exact ⟨instant, denotes, instant?_of_readsAs member reads blankFront blankBack denotes⟩

/-- The second of January 2012, at eight o'clock and three quarters of a second. -/
def Timestamp.secondOfJanuary : Timestamp :=
  ⟨2012, 1, 2, ' ', 8, 0, 0, ['7', '5'], .east 5 30 (by decide), by decide, by decide +kernel,
    by decide, by decide, List.all_eq_true.mp (by decide)⟩

/-- With the month first, this could be taken for the twentieth of February of year one. A
text with the date alone has a layout of its own, and it is the midnight before. -/
theorem instant?_of_spells_monthFirst :
    ((Layout.monthFirst ++ .blanks :: Layout.clock) ∈ Layout.accepted ∧
      ∃ instant, instant? "\t01/02/2012 08:00:00.75 " = some instant ∧
        instant.seconds = 1325491200 ∧ instant.nanos = 750000000) ∧
    Layout.monthFirst ∈ Layout.dateOnly ∧
      ∃ midnight, instant? "\t01/02/2012 " = some midnight ∧
        midnight.seconds = 1325462400 ∧ midnight.nanos = 0 := by
  have tab : ∀ character ∈ ['\t'], Text.isBlank character = true :=
    List.forall_mem_singleton.mpr (by decide)
  have space : ∀ character ∈ [' '], Text.isBlank character = true :=
    List.forall_mem_singleton.mpr (by decide)
  constructor
  · have member : (Layout.monthFirst ++ .blanks :: Layout.clock) ∈ Layout.accepted := by
      simp [Layout.accepted, Layout.withoutOffset]
    have spelled : Layout.Spells Timestamp.secondOfJanuary
        (Layout.monthFirst ++ .blanks :: Layout.clock) "01/02/2012 08:00:00.75".toList :=
      Layout.spells_append.mpr ⟨_, _, Layout.spells_monthFirst.mpr rfl,
        ⟨[' '], _, List.forall_mem_singleton.mpr (by decide), Layout.spells_clock.mpr rfl, rfl⟩,
        by decide +kernel⟩
    obtain ⟨instant, ⟨seconds, nanos⟩, read, _⟩ := instant?_of_spells member spelled tab space
    refine ⟨member, instant, ?_, ?_, ?_⟩
    · rw [← read]
      rfl
    · rw [seconds]
      decide +kernel
    · rw [nanos]
      decide +kernel
  · have dated : Layout.monthFirst ∈ Layout.dateOnly := by simp [Layout.dateOnly]
    have member : Layout.monthFirst ∈ Layout.accepted := List.mem_append_right _ dated
    have spelled : Layout.Spells Timestamp.secondOfJanuary Layout.monthFirst "01/02/2012".toList :=
      Layout.spells_monthFirst.mpr (by decide +kernel)
    obtain ⟨midnight, ⟨seconds, nanos⟩, read, _⟩ := instant?_of_spells member spelled tab space
    refine ⟨dated, midnight, ?_, ?_, ?_⟩
    · rw [← read]
      rfl
    · rw [seconds]
      decide +kernel
    · rw [nanos]
      decide +kernel

end EventSieve.Time
