import EventSieve.Proofs.Ordering
import EventSieve.Time.Calendar

/-!
# Dates are ordered as their days

Years begin one after the other, so an earlier day never has a later year. Within
a year the months take up its days one after the other, so days of one year are
ordered by month and then by day of the month. Months and days of the month have
at most two digits.
-/

namespace EventSieve.Time

/-- A later year begins later. -/
theorem daysBeforeYear_lt {left right : Int} (before : left < right) :
    daysBeforeYear left < daysBeforeYear right := by
  simp only [daysBeforeYear]
  omega

namespace Date

/-- An earlier day has no later year. -/
theorem yearOf_le {left right : Int} (before : left ≤ right) : yearOf left ≤ yearOf right := by
  obtain ⟨begun, _⟩ := yearOf_bounds left
  obtain ⟨_, ended⟩ := yearOf_bounds right
  by_cases later : yearOf right + 1 ≤ yearOf left
  · rcases Int.lt_or_eq_of_le later with strict | same
    · have order := daysBeforeYear_lt strict
      omega
    · rw [same] at ended
      omega
  · omega

/-- The month of a day is not before the one that the count starts with. -/
theorem le_monthAndDay (lengths : List Nat) (month days : Nat) :
    month ≤ (monthAndDay lengths month days).1 := by
  induction lengths generalizing month days with
  | nil => exact Nat.le_refl month
  | cons length rest inductionHypothesis =>
    rw [monthAndDay]
    split
    · exact Nat.le_refl month
    · exact Nat.le_of_succ_le (inductionHypothesis (month + 1) (days - length))

/-- Days of one year are ordered by month and then by day of the month. The induction goes
along the months: either both days are in the first of them, or one is, or its length is
taken off both. -/
theorem compare_monthAndDay (lengths : List Nat) (month left right : Nat) :
    compare left right =
      (compare (monthAndDay lengths month left).1 (monthAndDay lengths month right).1).then
        (compare (monthAndDay lengths month left).2 (monthAndDay lengths month right).2) := by
  have shifted (first second : Nat) : compare (first + 1) (second + 1) = compare first second := by
    apply ordering_ext
    · rw [Nat.compare_eq_lt, Nat.compare_eq_lt, Nat.add_lt_add_iff_right]
    · rw [Nat.compare_eq_eq, Nat.compare_eq_eq, Nat.add_right_cancel_iff]
  have same (first second : Nat) :
      compare first second = (compare month month).then (compare (first + 1) (second + 1)) := by
    rw [Nat.compare_eq_eq.mpr rfl, Ordering.eq_then, shifted]
  induction lengths generalizing month left right with
  | nil => exact same left right
  | cons length rest inductionHypothesis =>
    rw [monthAndDay, monthAndDay]
    by_cases first : left < length
    · by_cases second : right < length
      · rw [if_pos first, if_pos second]
        exact same left right
      · have later := le_monthAndDay rest (month + 1) (right - length)
        rw [if_pos first, if_neg second, Nat.compare_eq_lt.mpr (by omega : left < right),
          Nat.compare_eq_lt.mpr (by omega)]
        rfl
    · by_cases second : right < length
      · have later := le_monthAndDay rest (month + 1) (left - length)
        rw [if_neg first, if_pos second, Nat.compare_eq_gt.mpr (by omega : right < left),
          Nat.compare_eq_gt.mpr (by omega)]
        rfl
      · have behind : compare left right = compare (left - length) (right - length) := by
          apply ordering_ext
          · rw [Nat.compare_eq_lt, Nat.compare_eq_lt]
            omega
          · rw [Nat.compare_eq_eq, Nat.compare_eq_eq]
            omega
        rw [if_neg first, if_neg second, behind]
        apply inductionHypothesis (month + 1) (left - length) (right - length)
        intro first second
        rw [Nat.compare_eq_eq.mpr rfl, Ordering.eq_then, shifted]

/-- A day that lies in the months has one of them and a day of it. -/
theorem monthAndDay_bounds {lengths : List Nat} {month days longest : Nat}
    (inside : days < lengths.sum) (all : ∀ length ∈ lengths, length ≤ longest) :
    (monthAndDay lengths month days).1 < month + lengths.length ∧
      (monthAndDay lengths month days).2 ≤ longest := by
  induction lengths generalizing month days with
  | nil => cases inside
  | cons length rest inductionHypothesis =>
    obtain ⟨own, others⟩ := List.forall_mem_cons.mp all
    rw [List.sum_cons] at inside
    rw [monthAndDay, List.length_cons]
    split
    · constructor
      · omega
      · omega
    · obtain ⟨monthBound, dayBound⟩ :=
        @inductionHypothesis (month + 1) (days - length) (by omega) others
      exact ⟨by omega, dayBound⟩

/-- The months of a year have its days. -/
theorem sum_monthLengths (leap : Bool) : (monthLengths leap).sum = if leap then 366 else 365 := by
  cases leap <;> rfl

/-- The day of the year of a day. -/
theorem dayOfYear_bounds (days : Int) :
    0 ≤ days - daysBeforeYear (yearOf days) ∧
      (days - daysBeforeYear (yearOf days)).toNat <
        (monthLengths (isLeapYear (yearOf days))).sum := by
  obtain ⟨begun, ended⟩ := yearOf_bounds days
  rw [daysBeforeYear_succ] at ended
  rw [sum_monthLengths]
  generalize isLeapYear (yearOf days) = leap at ended ⊢
  cases leap with
  | true =>
    simp only [if_true] at ended ⊢
    constructor
    · omega
    · omega
  | false =>
    simp only [Bool.false_eq_true, if_false] at ended ⊢
    constructor
    · omega
    · omega

/-- The month and the day of the month of a date have at most two digits. -/
theorem ofDayNumber_bounds (number : Int) :
    (ofDayNumber number).month < 100 ∧ (ofDayNumber number).day < 100 := by
  obtain ⟨_, inside⟩ := dayOfYear_bounds (number + epochOffset)
  have short (leap : Bool) : ∀ length ∈ monthLengths leap, length ≤ 31 := by
    cases leap <;> decide
  obtain ⟨month, day⟩ := @monthAndDay_bounds _ 1 _ _ inside (short _)
  have twelve (leap : Bool) : (monthLengths leap).length = 12 := by cases leap <;> rfl
  rw [twelve] at month
  simp only [ofDayNumber]
  constructor <;> omega

/-- Days are ordered by year, then by month, then by day of the month. A later year begins
behind every day of an earlier one; within a year the days are compared by months. -/
theorem compare_ofDayNumber (left right : Int) :
    compare left right =
      (compare (ofDayNumber left).year (ofDayNumber right).year).then
        ((compare (ofDayNumber left).month (ofDayNumber right).month).then
          (compare (ofDayNumber left).day (ofDayNumber right).day)) := by
  obtain ⟨firstSign, _⟩ := dayOfYear_bounds (left + epochOffset)
  obtain ⟨secondSign, _⟩ := dayOfYear_bounds (right + epochOffset)
  simp only [ofDayNumber]
  rcases Int.lt_trichotomy (yearOf (left + epochOffset)) (yearOf (right + epochOffset)) with
    before | same | after
  · have order := mt yearOf_le (Int.not_le_of_gt before)
    rw [Int.compare_eq_lt.mpr before, Int.compare_eq_lt.mpr (by omega : left < right)]
    rfl
  · rw [same] at firstSign ⊢
    rw [← compare_monthAndDay, Int.compare_eq_eq.mpr rfl, Ordering.eq_then]
    apply ordering_ext
    · rw [Int.compare_eq_lt, Nat.compare_eq_lt]
      omega
    · rw [Int.compare_eq_eq, Nat.compare_eq_eq]
      omega
  · have order := mt yearOf_le (Int.not_le_of_gt after)
    rw [Int.compare_eq_gt.mpr after, Int.compare_eq_gt.mpr (by omega : right < left)]
    rfl

end Date

end EventSieve.Time
