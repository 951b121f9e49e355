import EventSieve.Proofs.Number.IntegerOrder
import EventSieve.Proofs.Time.CalendarOrder
import EventSieve.Proofs.Time.FractionOrder

/-!
# The order of instants as texts

An instant is written field by field, the greatest first, and all fields between
the year and the fraction have two digits. So instants of one year compare as
their texts up to the fraction of the second.

Years from 0 to 9999 have four digits and compare as texts. All others carry a
sign, which comes before the digits: a year after 9999 comes before every year
that is not, and the texts of two negative years grow as the years fall.
-/

namespace EventSieve.Time.Instant

open Text (paddedChars digitCount)

/-- The year of an instant. -/
def year (instant : Instant) : Int :=
  (Date.ofDayNumber instant.dayNumber).year

/-- The second of the minute as it is written. -/
def shownSecond (instant : Instant) : Nat :=
  if nanosPerSecond ≤ instant.nanos then instant.secondOfDay % 60 + 1 else instant.secondOfDay % 60

/-- The nanoseconds as they are written. -/
def shownNanos (instant : Instant) : Nat :=
  if nanosPerSecond ≤ instant.nanos then instant.nanos - nanosPerSecond else instant.nanos

/-- The fields between the year and the fraction with the signs in front of them. -/
def fields (instant : Instant) : List (Char × Nat) :=
  let date := Date.ofDayNumber instant.dayNumber
  [('-', date.month), ('-', date.day), ('T', instant.secondOfDay / 3600),
    (':', instant.secondOfDay / 60 % 60), (':', instant.shownSecond)]

/-- The text of fields, each with two digits behind its sign. -/
def fieldChars (fields : List (Char × Nat)) : List Char :=
  fields.flatMap fun field => field.1 :: paddedChars 2 field.2

/-- The text of an instant is its year, its fields and its fraction. -/
theorem chars_eq (instant : Instant) :
    instant.chars = yearChars instant.year ++
      (fieldChars instant.fields ++ (fractionChars instant.shownNanos ++ ['Z'])) := by
  simp [chars, year, fieldChars, fields, shownSecond, shownNanos]

/-- The order of fields, the greatest first. -/
def fieldOrder : List (Char × Nat) → List (Char × Nat) → Ordering
  | (_, left) :: front, (_, right) :: back => (compare left right).then (fieldOrder front back)
  | _, _ => .eq

/-- Fields of two digits behind the same signs compare as their texts. The induction goes
along both rows of fields, and each field is as wide as its counterpart. -/
theorem compare_fieldChars {left right : List (Char × Nat)}
    (signs : left.map Prod.fst = right.map Prod.fst)
    (leftSmall : ∀ field ∈ left, field.2 < 100) (rightSmall : ∀ field ∈ right, field.2 < 100)
    (front back : List Char) :
    compare (fieldChars left ++ front) (fieldChars right ++ back) =
      (fieldOrder left right).then (compare front back) := by
  induction left generalizing right with
  | nil =>
    cases right with
    | nil => rfl
    | cons field rest => cases signs
  | cons field rest inductionHypothesis =>
    cases right with
    | nil => cases signs
    | cons other more =>
      obtain ⟨sign, value⟩ := field
      obtain ⟨otherSign, otherValue⟩ := other
      obtain ⟨own, leftLater⟩ := List.forall_mem_cons.mp leftSmall
      obtain ⟨theirs, rightLater⟩ := List.forall_mem_cons.mp rightSmall
      obtain ⟨same, later⟩ := List.cons.inj signs
      cases same
      have two (number : Nat) (small : number < 100) : digitCount 2 number = 2 :=
        Nat.le_antisymm ((Text.digitCount_le_iff (by decide) (Nat.le_refl 2)).mpr small)
          (Nat.le_max_left 2 _)
      have counts : digitCount 2 value = digitCount 2 otherValue := by
        rw [two value own, two otherValue theirs]
      have text (fields : List (Char × Nat)) (number : Nat) (behind : List Char) :
          fieldChars ((sign, number) :: fields) ++ behind =
            sign :: (paddedChars 2 number ++ (fieldChars fields ++ behind)) := by
        simp [fieldChars]
      rw [text, text, Text.compare_cons_self, Text.compare_paddedChars_same counts,
        inductionHypothesis later leftLater rightLater, fieldOrder, Ordering.then_assoc]

/-- The second of the day lies in it. -/
theorem secondOfDay_lt (instant : Instant) : instant.secondOfDay < 86400 := by
  simp only [secondOfDay, secondsPerDay]
  omega

/-- The fields of an instant have two digits. -/
theorem fields_small (instant : Instant) : ∀ field ∈ instant.fields, field.2 < 100 := by
  obtain ⟨month, day⟩ := Date.ofDayNumber_bounds instant.dayNumber
  have inside := instant.secondOfDay_lt
  have second : instant.shownSecond < 100 := by
    simp only [shownSecond]
    split <;> omega
  simp only [fields, List.forall_mem_cons]
  refine ⟨month, day, ?_, ?_, second, by simp⟩
  · omega
  · omega

/-- Written seconds and nanoseconds are ordered as the counted ones: only the last second of
a minute is followed by a leap second. A leap second is counted as a second of nanoseconds
more on the last second of the minute, and it is written as one second more. -/
theorem compare_shown (left right : Instant) :
    (compare (left.secondOfDay % 60) (right.secondOfDay % 60)).then (compare left.nanos right.nanos) =
      (compare left.shownSecond right.shownSecond).then (compare left.shownNanos right.shownNanos) := by
  have valid (instant : Instant) : instant.secondOfDay % 60 < 60 ∧ instant.nanos < 2000000000 ∧
      (1000000000 ≤ instant.nanos → instant.secondOfDay % 60 = 59) := by
    obtain ⟨_, _, nanos⟩ := instant.valid
    simp only [secondOfDay, secondsPerDay]
    omega
  obtain ⟨leftSecond, leftNanos, leftLeap⟩ := valid left
  obtain ⟨rightSecond, rightNanos, rightLeap⟩ := valid right
  simp only [shownSecond, shownNanos, nanosPerSecond]
  generalize left.secondOfDay % 60 = leftShown at *
  generalize right.secondOfDay % 60 = rightShown at *
  apply ordering_ext
  · simp only [Ordering.then_eq_lt, Nat.compare_eq_lt, Nat.compare_eq_eq]
    by_cases first : 1000000000 ≤ left.nanos <;> by_cases second : 1000000000 ≤ right.nanos <;>
      simp only [first, second, if_true, if_false] <;> omega
  · simp only [Ordering.then_eq_eq, Nat.compare_eq_eq]
    by_cases first : 1000000000 ≤ left.nanos <;> by_cases second : 1000000000 ≤ right.nanos <;>
      simp only [first, second, if_true, if_false] <;> omega

/-- Instants are ordered by year, then by their fields, then by the nanoseconds as they are
written. Seconds are counted from days, hours and minutes by division with remainder, and
such divisions are ordered by quotient and then remainder. -/
theorem order_eq (left right : Instant) :
    left.order right = (compare left.year right.year).then
      ((fieldOrder left.fields right.fields).then (compare left.shownNanos right.shownNanos)) := by
  have seconds : compare left.seconds right.seconds =
      (compare left.dayNumber right.dayNumber).then (compare left.secondOfDay right.secondOfDay) := by
    have sign (instant : Instant) : 0 ≤ instant.seconds % secondsPerDay :=
      Int.emod_nonneg _ (by decide)
    rw [compare_int_div_mod (by decide : 0 < secondsPerDay), dayNumber, dayNumber, ← compare_natCast,
      secondOfDay, secondOfDay, Int.toNat_of_nonneg (sign left), Int.toNat_of_nonneg (sign right)]
  have clock : compare left.secondOfDay right.secondOfDay =
      (compare (left.secondOfDay / 3600) (right.secondOfDay / 3600)).then
        ((compare (left.secondOfDay / 60 % 60) (right.secondOfDay / 60 % 60)).then
          (compare (left.secondOfDay % 60) (right.secondOfDay % 60))) := by
    rw [compare_nat_div_mod (by decide : 0 < 3600),
      compare_nat_div_mod (by decide : 0 < 60) (left.secondOfDay % 3600)]
    have minute (second : Nat) : second % 3600 / 60 = second / 60 % 60 := by omega
    have rest (second : Nat) : second % 3600 % 60 = second % 60 := by omega
    rw [minute, minute, rest, rest]
  rw [order, seconds, clock, Date.compare_ofDayNumber]
  simp only [Ordering.then_assoc, compare_shown, fieldOrder, fields, year, Ordering.then_eq]

/-- Whether the texts of two years are in another order than the years: one of them
alone is after 9999, or both are and their numerals are misplaced, or both are
negative and their numerals are not. -/
def YearsMisplaced (left right : Int) : Prop :=
  (left ≤ 9999 ∧ 9999 < right) ∨ (right ≤ 9999 ∧ 9999 < left) ∨
    (9999 < left ∧ 9999 < right ∧ Text.Misplaced 4 left.natAbs right.natAbs) ∨
    (left < 0 ∧ right < 0 ∧ left ≠ right ∧ ¬ Text.Misplaced 4 left.natAbs right.natAbs)

instance (left right : Int) : Decidable (YearsMisplaced left right) :=
  inferInstanceAs (Decidable (_ ∨ _ ∨ _ ∨ _))

/-- Years are misplaced in either order. -/
theorem YearsMisplaced.symm {left right : Int} (misplaced : YearsMisplaced left right) :
    YearsMisplaced right left := by
  rcases misplaced with ends | begins | ⟨first, second, numerals⟩ | ⟨first, second, apart, numerals⟩
  · exact .inr (.inl ends)
  · exact .inl begins
  · exact .inr (.inr (.inl ⟨second, first, (Text.misplaced_comm 4 _ _).mp numerals⟩))
  · exact .inr (.inr (.inr ⟨second, first, Ne.symm apart, mt (Text.misplaced_comm 4 _ _).mp numerals⟩))

/-- Negative years are misplaced when their numerals are not. -/
theorem yearsMisplaced_of_neg {left right : Int} (first : left < 0) (second : right < 0)
    (different : left ≠ right) :
    YearsMisplaced left right ↔ ¬ Text.Misplaced 4 left.natAbs right.natAbs := by
  constructor
  · rintro (⟨_, late⟩ | ⟨_, late⟩ | ⟨late, _⟩ | ⟨_, _, _, numerals⟩)
    · omega
    · omega
    · omega
    · exact numerals
  · intro numerals
    exact .inr (.inr (.inr ⟨first, second, different, numerals⟩))

/-- Years after 9999 are misplaced when their numerals are. -/
theorem yearsMisplaced_of_late {left right : Int} (first : 9999 < left) (second : 9999 < right) :
    YearsMisplaced left right ↔ Text.Misplaced 4 left.natAbs right.natAbs := by
  constructor
  · rintro (⟨early, _⟩ | ⟨early, _⟩ | ⟨_, _, numerals⟩ | ⟨early, _⟩)
    · omega
    · omega
    · exact numerals
    · omega
  · intro numerals
    exact .inr (.inr (.inl ⟨first, second, numerals⟩))

/-- Years up to 9999 are not misplaced unless both are negative. -/
theorem not_yearsMisplaced {left right : Int} (first : left ≤ 9999) (second : right ≤ 9999)
    (sign : 0 ≤ right) : ¬ YearsMisplaced left right := by
  rintro (⟨_, late⟩ | ⟨_, late⟩ | ⟨late, _⟩ | ⟨_, early, _⟩)
  · omega
  · omega
  · omega
  · omega

/-- A year without a sign. -/
theorem yearChars_of_nonneg {year : Int} (sign : 0 ≤ year) (small : year ≤ 9999) :
    yearChars year = paddedChars 4 year.natAbs :=
  if_pos ⟨sign, small⟩

/-- A year with a minus sign. -/
theorem yearChars_of_neg {year : Int} (early : year < 0) :
    yearChars year = '-' :: paddedChars 4 year.natAbs := by
  rw [yearChars, if_neg (by omega), if_pos early]

/-- A year with a plus sign. -/
theorem yearChars_of_late {year : Int} (late : 9999 < year) :
    yearChars year = '+' :: paddedChars 4 year.natAbs := by
  rw [yearChars, if_neg (by omega), if_neg (by omega)]

/-- A sign in front of a year comes before all digits. -/
theorem compare_sign_paddedChars {sign : Char} (low : sign < '0') (rest : List Char) (number : Nat)
    (behind : List Char) : compare (sign :: rest) (paddedChars 4 number ++ behind) = .lt := by
  refine Text.compare_ended ?_ ?_ fun _ member => Text.isDigit_of_mem_paddedChars member
  · rintro character ⟨⟩
    exact low
  · rw [← List.length_pos_iff, Text.length_paddedChars, digitCount]
    omega

/-- The text of an earlier year comes later exactly when the years are misplaced.

Proof: the cases follow the signs that years are written with: a plus sign beyond year 9999,
a minus sign before year 0, and four digits between. Behind equal signs numerals are
compared, and those of negative years count backwards. Behind different ones the signs
decide, of which plus comes first, then minus, then a digit. -/
theorem compare_yearChars_of_lt {left right : Int} (before : left < right) {front back : List Char}
    (frontEnds : Text.EndsNumeral front) (backEnds : Text.EndsNumeral back) :
    compare (yearChars left ++ front) (yearChars right ++ back) =
      if YearsMisplaced left right then .gt else .lt := by
  rcases Int.lt_or_le 9999 right with rightLate | rightEnd
  · rw [yearChars_of_late rightLate]
    rcases Int.lt_or_le 9999 left with leftLate | leftEnd
    · rw [yearChars_of_late leftLate, List.cons_append, List.cons_append, Text.compare_cons_self,
        Text.compare_paddedChars 4 (by omega) frontEnds backEnds, Nat.compare_eq_gt.mpr (by omega),
        Nat.compare_eq_lt.mpr (by omega)]
      simp only [yearsMisplaced_of_late leftLate rightLate]
    · rw [if_pos (.inl ⟨leftEnd, rightLate⟩)]
      rcases Int.lt_or_le left 0 with early | sign
      · rw [yearChars_of_neg early]
        rfl
      · rw [yearChars_of_nonneg sign leftEnd, List.cons_append, Std.OrientedOrd.eq_swap,
          compare_sign_paddedChars (by decide)]
        rfl
  · rcases Int.lt_or_le right 0 with rightEarly | rightSign
    · have leftEarly : left < 0 := Int.lt_trans before rightEarly
      rw [yearChars_of_neg leftEarly, yearChars_of_neg rightEarly, List.cons_append,
        List.cons_append, Text.compare_cons_self,
        Text.compare_paddedChars 4 (by omega) frontEnds backEnds, Nat.compare_eq_lt.mpr (by omega),
        Nat.compare_eq_gt.mpr (by omega)]
      simp only [yearsMisplaced_of_neg leftEarly rightEarly (Int.ne_of_lt before), ite_not]
    · rw [if_neg (not_yearsMisplaced (by omega) rightEnd rightSign),
        yearChars_of_nonneg rightSign rightEnd]
      rcases Int.lt_or_le left 0 with leftEarly | leftSign
      · rw [yearChars_of_neg leftEarly, List.cons_append, compare_sign_paddedChars (by decide)]
      · have four (number : Nat) (small : number < 10000) : digitCount 4 number = 4 :=
          Nat.le_antisymm ((Text.digitCount_le_iff (by decide) (Nat.le_refl 4)).mpr small)
            (Nat.le_max_left 4 _)
        have counts : digitCount 4 left.natAbs = digitCount 4 right.natAbs := by
          rw [four _ (by omega), four _ (by omega)]
        rw [yearChars_of_nonneg leftSign (by omega), Text.compare_paddedChars_same counts,
          Nat.compare_eq_lt.mpr (by omega)]
        rfl

/-- The texts of different years compare as the years do unless these are misplaced;
then they compare the other way. -/
theorem compare_yearChars {left right : Int} (different : left ≠ right) {front back : List Char}
    (frontEnds : Text.EndsNumeral front) (backEnds : Text.EndsNumeral back) :
    compare (yearChars left ++ front) (yearChars right ++ back) =
      if YearsMisplaced left right then compare right left else compare left right := by
  rcases Int.lt_or_gt_of_ne different with before | after
  · rw [compare_yearChars_of_lt before frontEnds backEnds, Int.compare_eq_lt.mpr before,
      Int.compare_eq_gt.mpr before]
  · have misplaced : YearsMisplaced left right ↔ YearsMisplaced right left :=
      ⟨YearsMisplaced.symm, YearsMisplaced.symm⟩
    rw [Std.OrientedOrd.eq_swap, compare_yearChars_of_lt after backEnds frontEnds,
      Int.compare_eq_lt.mpr after, Int.compare_eq_gt.mpr after, apply_ite Ordering.swap]
    simp only [misplaced]
    rfl

/-- Fields behind the same signs are ordered the same only when they are the same. -/
theorem fieldOrder_eq_iff {left right : List (Char × Nat)}
    (signs : left.map Prod.fst = right.map Prod.fst) :
    fieldOrder left right = .eq ↔ left = right := by
  induction left generalizing right with
  | nil =>
    cases right with
    | nil => exact iff_of_true rfl rfl
    | cons field rest => cases signs
  | cons field rest inductionHypothesis =>
    cases right with
    | nil => cases signs
    | cons other more =>
      obtain ⟨sign, value⟩ := field
      obtain ⟨otherSign, otherValue⟩ := other
      obtain ⟨same, later⟩ := List.cons.inj signs
      cases same
      rw [fieldOrder, Ordering.then_eq_eq, inductionHypothesis later, Nat.compare_eq_eq]
      simp

/-- Only a leap second is written as the sixtieth second of its minute. -/
theorem shownSecond_eq_sixty_iff (instant : Instant) :
    instant.shownSecond = 60 ↔ nanosPerSecond ≤ instant.nanos := by
  obtain ⟨_, _, nanos⟩ := instant.valid
  have size : nanosPerSecond = 1000000000 := rfl
  simp only [shownSecond, secondOfDay, secondsPerDay]
  split
  · omega
  · omega

/-- Instants are written with the same year and fields exactly when they lie in the same
second, and either both or neither in the leap second behind it. The fields give the day and
the time of day, and sixty seconds are written for a leap second only. -/
theorem sameSecond_iff (left right : Instant) :
    (left.year = right.year ∧ left.fields = right.fields) ↔
      left.seconds = right.seconds ∧
        (nanosPerSecond ≤ left.nanos ↔ nanosPerSecond ≤ right.nanos) := by
  constructor
  · rintro ⟨years, fields⟩
    simp only [Instant.fields, List.cons.injEq, Prod.mk.injEq, true_and, and_true] at fields
    obtain ⟨month, day, hour, minute, second⟩ := fields
    have leap : nanosPerSecond ≤ left.nanos ↔ nanosPerSecond ≤ right.nanos := by
      rw [← shownSecond_eq_sixty_iff, ← shownSecond_eq_sixty_iff, second]
    have days : compare left.dayNumber right.dayNumber = .eq := by
      rw [year, year] at years
      rw [Date.compare_ofDayNumber, month, day, years]
      simp
    have sameDay := Int.compare_eq_eq.mp days
    have clock : left.secondOfDay % 60 = right.secondOfDay % 60 := by
      simp only [shownSecond, leap] at second
      split at second
      · exact Nat.succ.inj second
      · exact second
    refine ⟨?_, leap⟩
    simp only [dayNumber, secondOfDay, secondsPerDay] at *
    omega
  · rintro ⟨seconds, leap⟩
    have sameDay : left.dayNumber = right.dayNumber := by rw [dayNumber, dayNumber, seconds]
    have clock : left.secondOfDay = right.secondOfDay := by rw [secondOfDay, secondOfDay, seconds]
    have second : left.shownSecond = right.shownSecond := by
      simp only [shownSecond, leap, clock]
    constructor
    · rw [year, year, sameDay]
    · rw [fields, fields, sameDay, clock, second]

/-- Whether the texts of two instants are in another order than the instants: their
years are misplaced, or they lie in the same second and the fraction of one is the
fraction of the other cut. -/
def Misplaced (left right : Instant) : Prop :=
  YearsMisplaced left.year right.year ∨
    ((left.seconds = right.seconds ∧ (nanosPerSecond ≤ left.nanos ↔ nanosPerSecond ≤ right.nanos)) ∧
      (IsCutOf left.shownNanos right.shownNanos ∨ IsCutOf right.shownNanos left.shownNanos))

instance (left right : Instant) : Decidable (Misplaced left right) :=
  inferInstanceAs (Decidable (_ ∨ (_ ∧ (_ ↔ _)) ∧ (_ ∨ _)))

/-- Years are not misplaced against themselves. -/
theorem not_yearsMisplaced_self (year : Int) : ¬ YearsMisplaced year year := by
  rintro (⟨_, _⟩ | ⟨_, _⟩ | ⟨_, _, ⟨_, _⟩ | ⟨_, _⟩⟩ | ⟨_, _, different, _⟩)
  · omega
  · omega
  · omega
  · omega
  · exact different rfl

/-- The nanoseconds that are written are less than a second. -/
theorem shownNanos_lt (instant : Instant) : instant.shownNanos < 1000000000 := by
  obtain ⟨_, _, nanos⟩ := instant.valid
  have size : nanosPerSecond = 1000000000 := rfl
  rw [shownNanos]
  split
  · omega
  · omega

/-- What follows the year in the text of an instant starts with a minus sign. -/
theorem endsNumeral_fields (instant : Instant) (rest : List Char) :
    Text.EndsNumeral (fieldChars instant.fields ++ rest) := by
  rintro character ⟨⟩
  exact (by decide : '-' < '0')

/-- The texts of instants compare as the instants do unless these are misplaced; then they
compare the other way.

Proof: if the years differ they decide, and the texts are turned around just when the years
are misplaced. In one year the fields are as wide as each other, so they decide both orders
alike when they differ. What is left are the fractions, of which one may be the other one
cut. -/
theorem compare_text (left right : Instant) :
    compare left.text right.text =
      if Misplaced left right then right.order left else left.order right := by
  rw [text, text, Text.compare_ofList, chars_eq, chars_eq]
  by_cases years : left.year = right.year
  · have signs : left.fields.map Prod.fst = right.fields.map Prod.fst := rfl
    rw [years, Text.compare_append rfl, Std.ReflOrd.compare_self, Ordering.eq_then,
      compare_fieldChars signs left.fields_small right.fields_small,
      compare_fractionChars left.shownNanos_lt right.shownNanos_lt]
    have whole (first second : Instant) (same : first.year = second.year) :
        first.order second = (fieldOrder first.fields second.fields).then
          (compare first.shownNanos second.shownNanos) := by
      rw [order_eq, Int.compare_eq_eq.mpr same, Ordering.eq_then]
    rw [whole left right years, whole right left years.symm]
    by_cases fields : left.fields = right.fields
    · have misplaced : Misplaced left right ↔ IsCutOf left.shownNanos right.shownNanos ∨
          IsCutOf right.shownNanos left.shownNanos := by
        rw [Misplaced, ← sameSecond_iff, years, or_iff_right (not_yearsMisplaced_self _)]
        exact and_iff_right ⟨rfl, fields⟩
      rw [(fieldOrder_eq_iff signs).mpr fields, (fieldOrder_eq_iff signs.symm).mpr fields.symm]
      simp only [misplaced, Ordering.eq_then]
    · have apart : ¬ Misplaced left right := by
        rw [Misplaced, ← sameSecond_iff, years, or_iff_right (not_yearsMisplaced_self _)]
        rintro ⟨⟨_, same⟩, _⟩
        exact fields same
      have decided : fieldOrder left.fields right.fields ≠ .eq :=
        mt (fieldOrder_eq_iff signs).mp fields
      rw [if_neg apart]
      cases found : fieldOrder left.fields right.fields with
      | lt => rfl
      | eq => exact absurd found decided
      | gt => rfl
  · have misplaced : Misplaced left right ↔ YearsMisplaced left.year right.year := by
      rw [Misplaced, ← sameSecond_iff]
      exact or_iff_left fun same => years same.1.1
    have whole (first second : Instant) (different : first.year ≠ second.year) :
        first.order second = compare first.year second.year := by
      rw [order_eq]
      cases found : compare first.year second.year with
      | lt => rfl
      | eq => exact absurd (Int.compare_eq_eq.mp found) different
      | gt => rfl
    rw [compare_yearChars years (endsNumeral_fields left _) (endsNumeral_fields right _),
      whole left right years, whole right left (Ne.symm years)]
    simp only [misplaced]

end EventSieve.Time.Instant
