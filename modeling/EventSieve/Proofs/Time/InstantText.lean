import EventSieve.Proofs.Time.AcceptedTexts
import EventSieve.Proofs.Time.DayNumbers
import EventSieve.Proofs.Time.InstantOrder

/-!
# The text of an instant is read back

An instant of a year from 0 to 9999 is written as a timestamp of interchange in universal
time. The date of its day has the number of the day, the parts of its time of day add up to
the second of the day, and the fraction shows all of the nanoseconds, so this timestamp
denotes the instant that was written. A leap second is written as second 60 and read as
the second before it with more than a thousand million nanoseconds.
-/

namespace EventSieve.Time.Instant

open Text (paddedChars)

/-- The digits that a fraction is written with. -/
def fractionDigits (nanos : Nat) : List Char :=
  if precision nanos = 0 then []
  else paddedChars (precision nanos) (nanos / 10 ^ (9 - precision nanos))

/-- The digits of a fraction are digits. -/
theorem isDigit_of_mem_fractionDigits {nanos : Nat} {digit : Char}
    (member : digit ∈ fractionDigits nanos) : digit.isDigit = true := by
  rw [fractionDigits] at member
  split at member
  · cases member
  · exact Text.isDigit_of_mem_paddedChars member

/-- Only a fraction with digits has a point. -/
theorem fractionChars_eq_digits (nanos : Nat) :
    fractionChars nanos =
      if fractionDigits nanos = [] then [] else '.' :: fractionDigits nanos := by
  rw [fractionChars_eq, fractionDigits]
  split
  · rfl
  · have present : paddedChars (precision nanos) (nanos / 10 ^ (9 - precision nanos)) ≠ [] := by
      rw [← List.length_pos_iff, Text.length_paddedChars]
      exact Nat.lt_of_lt_of_le (by omega) (Nat.le_max_left _ _)
    rw [if_neg present]

/-- The digits of a fraction show all of its nanoseconds. -/
theorem nanos_of_fractionDigits {nanos : Nat} (small : nanos < nanosPerSecond) :
    Text.numeralValue (fractionDigits nanos) * nanosPerSecond /
      10 ^ (fractionDigits nanos).length = nanos := by
  have most : precision nanos ≤ 9 := by
    simp only [precision]
    split_ifs <;> omega
  rw [fractionDigits]
  split
  · have none : nanos = 0 := by
      rw [← precision_dvd nanos, ‹precision nanos = 0›]
      simp only [nanosPerSecond] at small
      omega
    rw [none]
    rfl
  · have second : nanosPerSecond = 10 ^ (9 - precision nanos) * 10 ^ precision nanos :=
      (Nat.pow_sub_mul_pow 10 most).symm
    rw [Text.numeralValue_paddedChars, Text.length_paddedChars,
      digitCount_precision small ‹precision nanos ≠ 0›, second, ← Nat.mul_assoc,
      Nat.mul_div_cancel _ (Nat.pow_pos (by decide)), precision_dvd]

/-- The second that is written is one of a minute or the leap second behind it. -/
theorem shownSecond_le (instant : Instant) : instant.shownSecond ≤ 60 := by
  rw [shownSecond]
  split <;> omega

/-- What is written of a second and its nanoseconds gives both back. -/
theorem shown_spec (instant : Instant) :
    min instant.shownSecond 59 = instant.secondOfDay % 60 ∧
      instant.shownNanos + (if instant.shownSecond = 60 then nanosPerSecond else 0) =
        instant.nanos := by
  have leap := instant.shownSecond_eq_sixty_iff
  rw [shownNanos]
  by_cases late : nanosPerSecond ≤ instant.nanos
  · rw [if_pos late, if_pos (leap.mpr late), Nat.sub_add_cancel late]
    have written := leap.mpr late
    rw [shownSecond, if_pos late] at written
    rw [leap.mpr late]
    exact ⟨by omega, rfl⟩
  · rw [if_neg late, if_neg (mt leap.mp late), shownSecond, if_neg late]
    exact ⟨by omega, rfl⟩

section

variable (instant : Instant) (first : 0 ≤ instant.year) (last : instant.year ≤ 9999)

/-- An instant of a year of four digits as a timestamp in universal time. -/
def timestamp : Timestamp where
  year := instant.year.toNat
  month := (Date.ofDayNumber instant.dayNumber).month
  day := (Date.ofDayNumber instant.dayNumber).day
  mark := 'T'
  hour := instant.secondOfDay / 3600
  minute := instant.secondOfDay / 60 % 60
  second := instant.shownSecond
  fraction := fractionDigits instant.shownNanos
  offset := .universal
  fourDigits := by omega
  onCalendar := by
    have inRange : Date.yearInRange instant.year = true := by
      simp only [Date.yearInRange, Bool.and_eq_true, decide_eq_true_eq]
      omega
    rw [Int.toNat_of_nonneg first]
    exact Date.exists?_ofDayNumber inRange
  marked := List.mem_cons_self
  ofDay := by
    have inside := instant.secondOfDay_lt
    exact ⟨by omega, by omega, instant.shownSecond_le⟩
  digits := fun _ member => isDigit_of_mem_fractionDigits member

/-- The text of an instant spells its timestamp. -/
theorem spells_chars : Layout.interchange.Spells (instant.timestamp first last) instant.chars := by
  have date := Layout.spells_strictDate.mpr (Eq.refl ((instant.timestamp first last).dateChars '-'))
  have time := Layout.spells_strictClock.mpr (Eq.refl (instant.timestamp first last).clockChars)
  have zulu : Layout.Spells (instant.timestamp first last) [.offset ⟨true, false, true⟩] ['Z'] :=
    Layout.spells_singleton.mpr ⟨rfl, rfl⟩
  rw [Layout.interchange_eq, Layout.spells_append]
  refine ⟨_, _, date, ⟨['T'], _, ⟨'T', List.mem_cons_self, rfl⟩,
    Layout.spells_append.mpr ⟨_, _, time, zulu, rfl⟩, rfl⟩, ?_⟩
  have year : instant.year.toNat = instant.year.natAbs := by omega
  rw [chars_eq, yearChars_of_nonneg first last, fractionChars_eq_digits]
  simp [fieldChars, fields, timestamp, Timestamp.dateChars, Timestamp.clockChars,
    Timestamp.shortClockChars, Timestamp.fractionChars, year]

/-- The timestamp of an instant denotes it. -/
theorem denotes_timestamp : (instant.timestamp first last).Denotes instant := by
  obtain ⟨second, nanos⟩ := instant.shown_spec
  constructor
  · have day : (⟨(instant.year.toNat : Nat), (Date.ofDayNumber instant.dayNumber).month,
        (Date.ofDayNumber instant.dayNumber).day⟩ : Date).dayNumber = instant.dayNumber := by
      rw [Int.toNat_of_nonneg first]
      exact Date.dayNumber_ofDayNumber instant.dayNumber
    simp only [Timestamp.seconds, timestamp, day, second, Timestamp.Offset.seconds,
      Timestamp.Offset.universal]
    simp only [dayNumber, secondOfDay, secondsPerDay]
    omega
  · rw [Timestamp.nanos, ← nanos]
    exact congrArg (· + _) (nanos_of_fractionDigits instant.shownNanos_lt).symm

end

/-- The text of an instant of a year from 0 to 9999 is read as this instant, a leap second
too.

Proof: the text spells a timestamp in the layout of interchange, and this timestamp denotes
the instant. The year has four digits in these years, and a leap second is written as the
sixtieth. What spells a timestamp in an accepted layout is read as the instant that it
denotes. -/
theorem instant?_text {instant : Instant} (first : 0 ≤ instant.year)
    (last : instant.year ≤ 9999) : Time.instant? instant.text = some instant := by
  have spelled := instant.spells_chars first last
  have none : ∀ character ∈ ([] : List Char), Text.isBlank character = true := by
    rintro _ ⟨⟩
  obtain ⟨read, _⟩ := instant?_of_readsAs List.mem_cons_self (Layout.readsAs_interchange spelled)
    none none (instant.denotes_timestamp first last)
  rw [List.append_nil, List.nil_append] at read
  exact read

/-- The leap second at the end of June 2012, with a fraction of six digits. -/
theorem instant?_text_leapSecond :
    ∃ instant : Instant, instant.text = "2012-06-30T23:59:60.000250Z" ∧
      0 ≤ instant.year ∧ instant.year ≤ 9999 ∧
        Time.instant? "2012-06-30T23:59:60.000250Z" = some instant := by
  have text : Instant.text ⟨1341100799, 1000250000, by decide⟩ = "2012-06-30T23:59:60.000250Z" := by
    decide +kernel
  have first : 0 ≤ Instant.year ⟨1341100799, 1000250000, by decide⟩ := by decide +kernel
  have last : Instant.year ⟨1341100799, 1000250000, by decide⟩ ≤ 9999 := by decide +kernel
  exact ⟨_, text, first, last, text ▸ instant?_text first last⟩

end EventSieve.Time.Instant
