import EventSieve.Proofs.Time.CalendarOrder

/-!
# Days and their numbers

Every day has a date, and the number of this date is the number of the day. The days of
a year are taken up by its months from the first on, so a day of the year lies in one
month: the months before it and the day of the month together give it back.
-/

namespace EventSieve.Time.Date

/-- A day that lies in the months belongs to one of them: it is a day of this month, and
stands behind all months before it. -/
theorem monthAndDay_spec {lengths : List Nat} {month days : Nat} (inside : days < lengths.sum) :
    ∃ before length, (monthAndDay lengths month days).1 = month + before ∧
      lengths[before]? = some length ∧ 1 ≤ (monthAndDay lengths month days).2 ∧
        (monthAndDay lengths month days).2 ≤ length ∧
          (lengths.take before).sum + (monthAndDay lengths month days).2 = days + 1 := by
  induction lengths generalizing month days with
  | nil => cases inside
  | cons length rest inductionHypothesis =>
    rw [List.sum_cons] at inside
    rw [monthAndDay]
    split
    · exact ⟨0, length, rfl, rfl, by omega, by omega, Nat.zero_add _⟩
    · obtain ⟨before, own, place, known, first, last, total⟩ :=
        @inductionHypothesis (month + 1) (days - length) (by omega)
      refine ⟨before + 1, own, by omega, known, first, last, ?_⟩
      rw [List.take_succ_cons, List.sum_cons]
      omega

/-- The month of a day has a length that the day does not exceed, and the days of the year
up to the day are those of the months before and those of its month. The day of the year is
inside the year, and walking along its months stops in one that it does not exceed. -/
theorem ofDayNumber_spec (number : Int) :
    1 ≤ (ofDayNumber number).day ∧
      (ofDayNumber number).day ≤ monthLength (ofDayNumber number).year (ofDayNumber number).month ∧
        daysBeforeYear (ofDayNumber number).year +
            daysBeforeMonth (isLeapYear (ofDayNumber number).year) (ofDayNumber number).month +
              (ofDayNumber number).day = number + epochOffset + 1 := by
  obtain ⟨sign, inside⟩ := dayOfYear_bounds (number + epochOffset)
  obtain ⟨before, length, place, known, first, last, total⟩ := @monthAndDay_spec _ 1 _ inside
  simp only [ofDayNumber]
  generalize daysBeforeYear (yearOf (number + epochOffset)) = start at *
  refine ⟨first, ?_, ?_⟩
  · rw [monthLength, if_neg (by omega), place, Nat.add_sub_cancel_left, known]
    exact last
  · have sum : daysBeforeMonth (isLeapYear (yearOf (number + epochOffset)))
        (monthAndDay (monthLengths (isLeapYear (yearOf (number + epochOffset)))) 1
          (number + epochOffset - start).toNat).1 =
          ((monthLengths (isLeapYear (yearOf (number + epochOffset)))).take before).sum := by
      rw [place, daysBeforeMonth, Nat.add_sub_cancel_left]
      rfl
    rw [sum]
    omega

/-- The number of the date of a day is the number of the day. -/
theorem dayNumber_ofDayNumber (number : Int) : (ofDayNumber number).dayNumber = number := by
  obtain ⟨_, _, total⟩ := ofDayNumber_spec number
  rw [dayNumber, total]
  omega

/-- The date of a day exists when its year is one that dates are kept to. -/
theorem exists?_ofDayNumber {number : Int}
    (inRange : yearInRange (ofDayNumber number).year = true) :
    (ofDayNumber number).exists? = true := by
  obtain ⟨first, last, _⟩ := ofDayNumber_spec number
  simp [exists?, inRange, first, last]

end EventSieve.Time.Date
