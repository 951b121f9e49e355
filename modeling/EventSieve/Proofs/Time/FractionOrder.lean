import EventSieve.Proofs.Text.Numeral
import EventSieve.Time.Instant

/-!
# The order of fractions as texts

A fraction of a second is written with no digits, with three, six or nine, and the
letter that closes the text stands behind it. The letter comes after all digits
and after the point. So a fraction that is another one cut to fewer digits is
smaller and yet its text comes later; all other fractions compare as their texts.
-/

namespace EventSieve.Time.Instant

open Text (paddedChars digitCount)

/-- The digits that a fraction is written with. -/
def precision (nanos : Nat) : Nat :=
  if nanos = 0 then 0 else if nanos % 1000000 = 0 then 3 else if nanos % 1000 = 0 then 6 else 9

/-- Whether a fraction is another one cut to the fewer digits that it is written
with. -/
def IsCutOf (nanos other : Nat) : Prop :=
  precision nanos < precision other ∧
    nanos / 10 ^ (9 - precision nanos) = other / 10 ^ (9 - precision nanos)

instance (nanos other : Nat) : Decidable (IsCutOf nanos other) :=
  inferInstanceAs (Decidable (_ ∧ _))

/-- A fraction is a whole number of units of its last digit. -/
theorem precision_dvd (nanos : Nat) :
    nanos / 10 ^ (9 - precision nanos) * 10 ^ (9 - precision nanos) = nanos := by
  simp only [precision]
  split
  · omega
  · split
    · omega
    · split
      · omega
      · omega

/-- A fraction of a second is written with the digits of its precision. -/
theorem fractionChars_eq (nanos : Nat) :
    fractionChars nanos = if precision nanos = 0 then []
      else '.' :: paddedChars (precision nanos) (nanos / 10 ^ (9 - precision nanos)) := by
  simp only [fractionChars, precision]
  split
  · rfl
  · split
    · rfl
    · split
      · rfl
      · simp

/-- A fraction fits the digits that it is written with. -/
theorem digitCount_precision {nanos : Nat} (small : nanos < 1000000000)
    (shown : precision nanos ≠ 0) :
    digitCount (precision nanos) (nanos / 10 ^ (9 - precision nanos)) = precision nanos := by
  have fits : nanos / 10 ^ (9 - precision nanos) < 10 ^ precision nanos := by
    simp only [precision]
    split
    · omega
    · split
      · omega
      · split
        · omega
        · omega
  refine Nat.le_antisymm ?_ (Nat.le_max_left _ _)
  exact (Text.digitCount_le_iff (Nat.pos_of_ne_zero shown) (Nat.le_refl _)).mpr fits

/-- The closing letter comes after all digits. -/
theorem compare_closing {digits back : List Char} (present : digits ≠ [])
    (all : ∀ digit ∈ digits, digit.isDigit = true) : compare ['Z'] (digits ++ back) = .gt := by
  obtain ⟨digit, more, rfl⟩ := List.exists_cons_of_ne_nil present
  have inside := all digit List.mem_cons_self
  simp only [Char.isDigit, Bool.and_eq_true, decide_eq_true_eq] at inside
  have before : digit < 'Z' := Nat.lt_of_le_of_lt inside.2 (by decide : '9' < 'Z')
  rw [List.cons_append, Text.compare_cons, Std.OrientedOrd.eq_swap,
    (Text.compare_char_eq_lt digit 'Z').mpr before]
  rfl

/-- A row of digits that is closed comes after a longer one exactly when its number is not
below the front of that.

Proof: the longer row is cut where the shorter one ends. If the fronts differ they decide.
If they are equal the closing letter is compared with a digit, and digits come before
letters. The number of the front is the longer number without its last digits. -/
theorem compare_closed {width longer short long : Nat} (fewer : width < longer)
    (shortFits : digitCount width short = width) (longFits : digitCount longer long = longer) :
    compare (paddedChars width short ++ ['Z']) (paddedChars longer long ++ ['Z']) =
      if long / 10 ^ (longer - width) ≤ short then .gt else .lt := by
  have digits : ∀ digit ∈ paddedChars longer long, digit.isDigit = true := by
    intro digit member
    exact Text.isDigit_of_mem_paddedChars member
  have parts := List.take_append_drop width (paddedChars longer long)
  have count := Text.length_paddedChars longer long
  have value := Text.numeralValue_paddedChars longer long
  rw [longFits] at count
  generalize paddedChars longer long = row at *
  have frontDigits : ∀ digit ∈ row.take width, digit.isDigit = true := by
    intro digit member
    exact digits digit (List.mem_of_mem_take member)
  have moreDigits : ∀ digit ∈ row.drop width, digit.isDigit = true := by
    intro digit member
    exact digits digit (List.mem_of_mem_drop member)
  have droppedWidth : (row.drop width).length = longer - width := by
    rw [List.length_drop, count]
  have widths : (paddedChars width short).length = (row.take width).length := by
    rw [Text.length_paddedChars, shortFits, List.length_take, count]
    omega
  have goesOn : row.drop width ≠ [] := by
    rw [← List.length_pos_iff, droppedWidth]
    omega
  have whole : Text.extend (Text.numeralValue (row.take width)) (row.drop width) = long := by
    rw [← value]
    conv => rhs; rw [← parts]
    exact List.foldl_append.symm
  obtain ⟨lower, upper⟩ := Text.extend_bounds moreDigits (Text.numeralValue (row.take width))
  rw [whole, droppedWidth] at lower upper
  have front : Text.numeralValue (row.take width) = long / 10 ^ (longer - width) :=
    (Nat.div_eq_of_lt_le lower upper).symm
  have text : row ++ ['Z'] = row.take width ++ (row.drop width ++ ['Z']) := by
    rw [← List.append_assoc, parts]
  rw [text, Text.compare_append widths, compare_closing goesOn moreDigits,
    Text.compare_numeralValue widths (fun _ member => Text.isDigit_of_mem_paddedChars member)
      frontDigits,
    Text.numeralValue_paddedChars, front]
  split
  · rename_i reached
    cases compared : compare short (long / 10 ^ (longer - width)) with
    | lt => exact absurd (Nat.compare_eq_lt.mp compared) (Nat.not_lt_of_le reached)
    | eq => rfl
    | gt => rfl
  · rename_i below
    rw [Nat.compare_eq_lt.mpr (Nat.lt_of_not_le below)]
    rfl

/-- A fraction with fewer digits comes after another exactly when it is not below what the
other is when it is cut to these digits. Without digits the fraction is nothing but the
closing letter, which comes after a point. -/
theorem compare_fractionChars_of_lt {left right : Nat} (small : right < 1000000000)
    (shorter : left < 1000000000) (fewer : precision left < precision right) :
    compare (fractionChars left ++ ['Z']) (fractionChars right ++ ['Z']) =
      if right / 10 ^ (9 - precision left) ≤ left / 10 ^ (9 - precision left) then .gt else .lt := by
  have rightShown : precision right ≠ 0 := by omega
  rw [fractionChars_eq, fractionChars_eq, if_neg rightShown]
  by_cases leftShown : precision left = 0
  · have nothing : right / 10 ^ (9 - 0) = 0 := Nat.div_eq_of_lt small
    rw [if_pos leftShown, leftShown, nothing, if_pos (Nat.zero_le _)]
    rfl
  · rw [if_neg leftShown, List.cons_append, List.cons_append, Text.compare_cons_self,
      compare_closed fewer (digitCount_precision shorter leftShown)
        (digitCount_precision small rightShown),
      Nat.div_div_eq_div_mul, ← Nat.pow_add]
    have most : precision right ≤ 9 := by
      simp only [precision]
      split
      · omega
      · split
        · omega
        · split <;> omega
    have power : 9 - precision right + (precision right - precision left) = 9 - precision left := by
      omega
    rw [power]

/-- Fractions with equally many digits compare as their texts. The digits are those of the
fractions divided by one power of ten, and the division leaves no rest. -/
theorem compare_fractionChars_same {left right : Nat} (first : left < 1000000000)
    (second : right < 1000000000) (same : precision left = precision right) :
    compare (fractionChars left ++ ['Z']) (fractionChars right ++ ['Z']) = compare left right := by
  have leftWhole := precision_dvd left
  have rightWhole := precision_dvd right
  rw [← same] at rightWhole
  rw [fractionChars_eq, fractionChars_eq, ← same]
  by_cases shown : precision left = 0
  · rw [shown] at leftWhole rightWhole
    rw [if_pos shown, if_pos shown, Nat.compare_eq_eq.mpr (by omega)]
    rfl
  · have counts : digitCount (precision left) (left / 10 ^ (9 - precision left)) =
        digitCount (precision left) (right / 10 ^ (9 - precision left)) := by
      have rightCount := digitCount_precision second (same ▸ shown)
      rw [← same] at rightCount
      rw [digitCount_precision first shown, rightCount]
    rw [if_neg shown, if_neg shown, List.cons_append, List.cons_append, Text.compare_cons_self,
      Text.compare_paddedChars_same counts, Std.ReflOrd.compare_self, Ordering.then_eq]
    have scaled := compare_nat_mul_right (Nat.pow_pos (by decide) : 0 < 10 ^ (9 - precision left))
      (left / 10 ^ (9 - precision left)) (right / 10 ^ (9 - precision left))
    rw [leftWhole, rightWhole] at scaled
    exact scaled.symm

/-- The texts of fractions compare as the fractions do unless one of them is the other one
cut; then they compare the other way.

Proof: with fewer digits on the left the texts turn around only when the longer fraction is
cut to the shorter one, for otherwise the leading digits differ and decide both orders. More
digits on the left are the same case turned around, and as many digits are compared as
numbers. -/
theorem compare_fractionChars {left right : Nat} (first : left < 1000000000)
    (second : right < 1000000000) :
    compare (fractionChars left ++ ['Z']) (fractionChars right ++ ['Z']) =
      if IsCutOf left right ∨ IsCutOf right left then compare right left else compare left right := by
  have fewer (short long : Nat) (small : long < 1000000000) (shorter : short < 1000000000)
      (less : precision short < precision long) :
      compare (fractionChars short ++ ['Z']) (fractionChars long ++ ['Z']) =
        if IsCutOf short long ∨ IsCutOf long short then compare long short
        else compare short long := by
    have whole := precision_dvd short
    have different : short ≠ long := by
      rintro rfl
      exact Nat.lt_irrefl _ less
    have cut : IsCutOf short long ∨ IsCutOf long short ↔
        short / 10 ^ (9 - precision short) = long / 10 ^ (9 - precision short) := by
      constructor
      · rintro (⟨_, same⟩ | ⟨more, _⟩)
        · exact same
        · omega
      · intro same
        exact .inl ⟨less, same⟩
    rw [compare_fractionChars_of_lt small shorter less]
    simp only [cut]
    have positive : 0 < 10 ^ (9 - precision short) := Nat.pow_pos (by decide)
    have below := Nat.div_mul_le_self long (10 ^ (9 - precision short))
    rcases Nat.lt_trichotomy (short / 10 ^ (9 - precision short)) (long / 10 ^ (9 - precision short)) with
      before | same | after
    · have scaled := Nat.mul_le_mul_right (10 ^ (9 - precision short)) before
      rw [Nat.succ_mul, whole] at scaled
      rw [if_neg (by omega), if_neg (by omega), Nat.compare_eq_lt.mpr (by omega)]
    · rw [← same, whole] at below
      rw [if_pos (by omega), if_pos same, Nat.compare_eq_gt.mpr (by omega)]
    · have smaller : long < short := by
        rw [← whole]
        exact (Nat.div_lt_iff_lt_mul positive).mp after
      rw [if_pos (by omega), if_neg (by omega), Nat.compare_eq_gt.mpr smaller]
  rcases Nat.lt_trichotomy (precision left) (precision right) with less | same | more
  · exact fewer left right second first less
  · have uncut : ¬ (IsCutOf left right ∨ IsCutOf right left) := by
      rintro (⟨less, _⟩ | ⟨less, _⟩)
      · omega
      · omega
    rw [if_neg uncut, compare_fractionChars_same first second same]
  · have turned := congrArg Ordering.swap (fewer right left first second more)
    rw [← Std.OrientedOrd.eq_swap, apply_ite Ordering.swap, ← Std.OrientedOrd.eq_swap,
      ← Std.OrientedOrd.eq_swap] at turned
    simp only [or_comm] at turned ⊢
    exact turned

end EventSieve.Time.Instant
