import EventSieve.Number.Notation
import EventSieve.Proofs.Text.Numeral

/-!
# The order of integers as texts

A negative integer comes before every other one, as a text as well: the minus sign
stands before the digits. Integers without a sign are numerals. With a sign in
front, numerals are compared that grow as the integers fall, so there the texts
are in order exactly when the numerals are not.
-/

namespace EventSieve.Number

/-- Whether the texts of two integers are in another order than the integers. -/
def IntegersMisplaced (left right : Int) : Prop :=
  (0 ≤ left ∧ 0 ≤ right ∧ Text.Misplaced 0 left.natAbs right.natAbs) ∨
    (left < 0 ∧ right < 0 ∧ left ≠ right ∧ ¬ Text.Misplaced 0 left.natAbs right.natAbs)

instance (left right : Int) : Decidable (IntegersMisplaced left right) :=
  inferInstanceAs (Decidable (_ ∨ _))

/-- The sizes of integers that are not negative compare as the integers do. -/
theorem compare_natAbs_of_nonneg {left right : Int} (first : 0 ≤ left) (second : 0 ≤ right) :
    compare left.natAbs right.natAbs = compare left right := by
  apply ordering_ext
  · rw [Nat.compare_eq_lt, Int.compare_eq_lt]
    omega
  · rw [Nat.compare_eq_eq, Int.compare_eq_eq]
    omega

/-- The sizes of negative integers compare the other way. -/
theorem compare_natAbs_of_neg {left right : Int} (first : left < 0) (second : right < 0) :
    compare left.natAbs right.natAbs = compare right left := by
  apply ordering_ext
  · rw [Nat.compare_eq_lt, Int.compare_eq_lt]
    omega
  · rw [Nat.compare_eq_eq, Int.compare_eq_eq]
    omega

/-- A sign in front of a numeral comes before all digits. -/
theorem compare_sign_decimalChars {sign : Char} (low : sign < '0') (digits : List Char) (value : Nat) :
    compare (sign :: digits) (Text.decimalChars value) = .lt := by
  have ended : Text.EndsNumeral (sign :: digits) := by
    rintro character ⟨⟩
    exact low
  have order : compare (sign :: digits) (Text.decimalChars value ++ []) = .lt :=
    Text.compare_ended ended (Nat.toDigits_ne_nil (n := value) (b := 10))
      fun _ member => Text.isDigit_of_mem_decimalChars member
  rwa [List.append_nil] at order

/-- Numerals of different numbers without zeros in front compare as the numbers do
unless these are misplaced. -/
theorem compare_decimalChars {left right : Nat} (different : left ≠ right) :
    compare (Text.decimalChars left) (Text.decimalChars right) =
      if Text.Misplaced 0 left right then compare right left else compare left right := by
  have unpadded (value : Nat) : Text.paddedChars 0 value ++ [] = Text.decimalChars value := by
    simp [Text.paddedChars]
  have ended : Text.EndsNumeral [] := by
    rintro character ⟨⟩
  have order := Text.compare_paddedChars 0 different ended ended
  rwa [unpadded, unpadded] at order

/-- The texts of integers compare as the integers do unless these are misplaced; then they
compare the other way.

Proof: by the signs. With different signs the minus sign decides, which comes before all
digits, and the order is right. With the same sign the digits decide, and of two negative
integers the one with the greater size is the smaller, so that there the order of the digits
is right exactly when it is wrong among positive ones. -/
theorem compare_integerText (left right : Int) :
    compare (integerText left) (integerText right) =
      if IntegersMisplaced left right then compare right left else compare left right := by
  by_cases same : left = right
  · subst same
    rw [Std.ReflOrd.compare_self, Int.compare_eq_eq.mpr rfl, ite_self]
  rw [integerText, integerText, Text.compare_ofList]
  rcases Int.lt_or_le left 0 with first | first <;> rcases Int.lt_or_le right 0 with second | second
  · have apart : left.natAbs ≠ right.natAbs := by omega
    have placed : IntegersMisplaced left right ↔ ¬ Text.Misplaced 0 left.natAbs right.natAbs := by
      constructor
      · rintro (⟨impossible, _⟩ | ⟨_, _, _, turned⟩)
        · omega
        · exact turned
      · intro turned
        exact .inr ⟨first, second, same, turned⟩
    rw [if_pos first, if_pos second, Text.compare_cons_self, compare_decimalChars apart,
      compare_natAbs_of_neg first second, compare_natAbs_of_neg second first]
    simp only [placed, ite_not]
  · have placed : ¬ IntegersMisplaced left right := by
      rintro (⟨impossible, _⟩ | ⟨_, impossible, _⟩)
      · omega
      · omega
    rw [if_pos first, if_neg (Int.not_lt.mpr second), if_neg placed,
      compare_sign_decimalChars (by decide), Int.compare_eq_lt.mpr (by omega)]
  · have placed : ¬ IntegersMisplaced left right := by
      rintro (⟨_, impossible, _⟩ | ⟨impossible, _⟩)
      · omega
      · omega
    rw [if_neg (Int.not_lt.mpr first), if_pos second, if_neg placed, Std.OrientedOrd.eq_swap,
      compare_sign_decimalChars (by decide), Int.compare_eq_gt.mpr (by omega)]
    rfl
  · have apart : left.natAbs ≠ right.natAbs := by omega
    have placed : IntegersMisplaced left right ↔ Text.Misplaced 0 left.natAbs right.natAbs := by
      constructor
      · rintro (⟨_, _, turned⟩ | ⟨impossible, _⟩)
        · exact turned
        · omega
      · intro turned
        exact .inl ⟨first, second, turned⟩
    rw [if_neg (Int.not_lt.mpr first), if_neg (Int.not_lt.mpr second), compare_decimalChars apart,
      compare_natAbs_of_nonneg first second, compare_natAbs_of_nonneg second first]
    simp only [placed]

end EventSieve.Number
