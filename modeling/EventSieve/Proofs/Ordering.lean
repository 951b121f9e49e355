import Mathlib

/-!
# Orders of composed values

A number is ordered by its quotient and then by its remainder, so values that are
written field by field compare field by field.
-/

namespace EventSieve

/-- Orders are equal when they say "before" and "same" alike. -/
theorem ordering_ext {left right : Ordering} (before : left = .lt ↔ right = .lt)
    (same : left = .eq ↔ right = .eq) : left = right := by
  cases left <;> cases right <;> simp_all

/-- Integers are ordered by their quotients and then by their remainders. Between different
quotients lies at least one divisor, which no remainder makes up for. -/
theorem compare_int_div_mod {divisor : Int} (positive : 0 < divisor) (left right : Int) :
    compare left right = (compare (left / divisor) (right / divisor)).then
      (compare (left % divisor) (right % divisor)) := by
  have first := Int.mul_ediv_add_emod left divisor
  have second := Int.mul_ediv_add_emod right divisor
  have firstBound := Int.emod_lt_of_pos left positive
  have secondBound := Int.emod_lt_of_pos right positive
  have firstSign := Int.emod_nonneg left (Int.ne_of_gt positive)
  have secondSign := Int.emod_nonneg right (Int.ne_of_gt positive)
  have apart (low high : Int) (before : low < high) :
      divisor * low + divisor ≤ divisor * high := by
    have scaled := Int.mul_le_mul_of_nonneg_left (Int.add_one_le_of_lt before) (Int.le_of_lt positive)
    rwa [Int.mul_add, Int.mul_one] at scaled
  generalize left % divisor = leftRest at *
  generalize right % divisor = rightRest at *
  rcases Int.lt_trichotomy (left / divisor) (right / divisor) with before | same | after
  · have scaled := apart _ _ before
    rw [Int.compare_eq_lt.mpr before, Int.compare_eq_lt.mpr (by omega : left < right)]
    rfl
  · rw [same] at first
    rw [Int.compare_eq_eq.mpr same, Ordering.eq_then]
    apply ordering_ext
    · rw [Int.compare_eq_lt, Int.compare_eq_lt]
      omega
    · rw [Int.compare_eq_eq, Int.compare_eq_eq]
      omega
  · have scaled := apart _ _ after
    rw [Int.compare_eq_gt.mpr after, Int.compare_eq_gt.mpr (by omega : right < left)]
    rfl

/-- Natural numbers are ordered as integers. -/
theorem compare_natCast (left right : Nat) : compare (left : Int) (right : Int) = compare left right := by
  apply ordering_ext
  · rw [Int.compare_eq_lt, Nat.compare_eq_lt, Int.ofNat_lt]
  · rw [Int.compare_eq_eq, Nat.compare_eq_eq, Int.ofNat_inj]

/-- Natural numbers are ordered by their quotients and then by their remainders. -/
theorem compare_nat_div_mod {divisor : Nat} (positive : 0 < divisor) (left right : Nat) :
    compare left right = (compare (left / divisor) (right / divisor)).then
      (compare (left % divisor) (right % divisor)) := by
  have whole := compare_int_div_mod (Int.natCast_pos.mpr positive) left right
  simp only [← Int.natCast_ediv, ← Int.natCast_emod, compare_natCast] at whole
  exact whole

/-- Numbers are ordered as their multiples. -/
theorem compare_nat_mul_right {factor : Nat} (positive : 0 < factor) (left right : Nat) :
    compare (left * factor) (right * factor) = compare left right := by
  apply ordering_ext
  · rw [Nat.compare_eq_lt, Nat.compare_eq_lt, Nat.mul_lt_mul_right positive]
  · rw [Nat.compare_eq_eq, Nat.compare_eq_eq, Nat.mul_right_cancel_iff positive]

end EventSieve
