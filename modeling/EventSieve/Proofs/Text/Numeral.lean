import EventSieve.Proofs.Ordering
import EventSieve.Text.Ascii

/-!
# The order of numerals as texts

Texts are compared character by character. Rows of equally many digits compare as
their numbers do, whatever stands behind them. Of two rows of different lengths
the shorter one is compared with the front of the longer one, so the smaller
number only comes first when it is not above that front; otherwise it overtakes
the greater number.

A row of digits ends at the end of the text or at a character below all digits.
That is where an ended row comes before one that goes on.
-/

namespace EventSieve.Text

/-- A character comes before another exactly when its code is smaller. -/
theorem compare_char_eq_lt (left right : Char) : compare left right = .lt ↔ left < right :=
  compareOfLessAndEq_eq_lt

/-- Texts compare as their characters do. Characters decide from the front, and an end comes
before any character; strings are ordered by their characters in the same way. -/
theorem compare_ofList (left right : List Char) :
    compare (String.ofList left) (String.ofList right) = compare left right := by
  have less (first second : List Char) : compare first second = .lt ↔ first < second := by
    induction first generalizing second with
    | nil =>
      cases second with
      | nil => simp
      | cons other more => exact iff_of_true rfl (List.nil_lt_cons other more)
    | cons character rest inductionHypothesis =>
      cases second with
      | nil => exact iff_of_false (fun same => nomatch same) (List.not_lt_nil _)
      | cons other more =>
        rw [List.compare_eq_compareLex, List.compareLex_cons_cons, Ordering.then_eq_lt,
          List.cons_lt_cons_iff, ← inductionHypothesis more, compare_char_eq_lt]
        exact or_congr Iff.rfl (and_congr Std.LawfulEqCmp.compare_eq_iff_eq Iff.rfl)
  apply ordering_ext
  · rw [less]
    refine (compareOfLessAndEq_eq_lt (α := String)).trans ?_
    rw [String.lt_iff, String.toList_ofList, String.toList_ofList]
  · rw [Std.LawfulEqOrd.compare_eq_iff_eq, Std.LawfulEqOrd.compare_eq_iff_eq, String.ofList_inj]

/-- Texts that start with a character each compare by it first. -/
theorem compare_cons (left right : Char) (front back : List Char) :
    compare (left :: front) (right :: back) = (compare left right).then (compare front back) :=
  List.compareLex_cons_cons

/-- Texts that start with the same character compare as what follows it. -/
theorem compare_cons_self (character : Char) (front back : List Char) :
    compare (character :: front) (character :: back) = compare front back := by
  rw [compare_cons, Std.ReflOrd.compare_self, Ordering.eq_then]

/-- Texts with fronts of one length compare by them first. -/
theorem compare_append {left right : List Char} (width : left.length = right.length)
    (front back : List Char) :
    compare (left ++ front) (right ++ back) = (compare left right).then (compare front back) := by
  induction left generalizing right with
  | nil =>
    cases right with
    | nil => rfl
    | cons other more => cases width
  | cons character rest inductionHypothesis =>
    cases right with
    | nil => cases width
    | cons other more =>
      rw [List.cons_append, List.cons_append, compare_cons, compare_cons,
        inductionHypothesis (Nat.succ.inj width), Ordering.then_assoc]

/-- Digits compare as their values do. -/
theorem compare_digits {left right : Char} (leftDigit : left.isDigit = true)
    (rightDigit : right.isDigit = true) :
    compare left right = compare (digitValue left) (digitValue right) := by
  have zero : '0'.toNat = 48 := rfl
  have low := (toNat_of_isDigit leftDigit).1
  have high := (toNat_of_isDigit rightDigit).1
  apply ordering_ext
  · rw [compare_char_eq_lt, Nat.compare_eq_lt, Char.lt_def, UInt32.lt_iff_toNat_lt]
    simp only [digitValue, Char.toNat] at *
    omega
  · rw [Std.LawfulEqOrd.compare_eq_iff_eq, Nat.compare_eq_eq, ← Char.toNat_inj]
    simp only [digitValue] at *
    omega

/-- The value of a digit is below ten. -/
theorem digitValue_lt {digit : Char} (inside : digit.isDigit = true) : digitValue digit < 10 := by
  have bounds := toNat_of_isDigit inside
  have zero : '0'.toNat = 48 := rfl
  rw [digitValue, zero]
  omega

/-- Numbers with equally long rows of digits behind them compare by themselves first and
then as the rows. The induction goes along both rows at once: one more digit is a number
with ten times the weight before it. -/
theorem compare_extend {left right : List Char} (width : left.length = right.length)
    (leftDigits : ∀ digit ∈ left, digit.isDigit = true)
    (rightDigits : ∀ digit ∈ right, digit.isDigit = true) (first second : Nat) :
    compare (extend first left) (extend second right) =
      (compare first second).then (compare left right) := by
  induction left generalizing right first second with
  | nil =>
    cases right with
    | nil => simp [extend]
    | cons other more => cases width
  | cons digit rest inductionHypothesis =>
    cases right with
    | nil => cases width
    | cons other more =>
      obtain ⟨own, later⟩ := List.forall_mem_cons.mp leftDigits
      obtain ⟨theirs, others⟩ := List.forall_mem_cons.mp rightDigits
      have ownBound := digitValue_lt own
      have otherBound := digitValue_lt theirs
      have step : compare (10 * first + digitValue digit) (10 * second + digitValue other) =
          (compare first second).then (compare (digitValue digit) (digitValue other)) := by
        apply ordering_ext
        · rw [Ordering.then_eq_lt, Nat.compare_eq_lt, Nat.compare_eq_lt, Nat.compare_eq_eq,
            Nat.compare_eq_lt]
          omega
        · rw [Ordering.then_eq_eq, Nat.compare_eq_eq, Nat.compare_eq_eq, Nat.compare_eq_eq]
          omega
      rw [extend_cons, extend_cons, inductionHypothesis (Nat.succ.inj width) later others, step,
        compare_cons, compare_digits own theirs, Ordering.then_assoc]

/-- Equally long rows of digits compare as their numbers do. -/
theorem compare_numeralValue {left right : List Char} (width : left.length = right.length)
    (leftDigits : ∀ digit ∈ left, digit.isDigit = true)
    (rightDigits : ∀ digit ∈ right, digit.isDigit = true) :
    compare left right = compare (numeralValue left) (numeralValue right) := by
  rw [numeralValue, numeralValue, compare_extend width leftDigits rightDigits, Nat.compare_eq_eq.mpr rfl,
    Ordering.eq_then]

/-- Reading a numeral in decimal gives its number. -/
theorem numeralValue_decimalChars (value : Nat) : numeralValue (decimalChars value) = value := by
  have folded := Nat.ofDigitChars_ten_toDigits (n := value)
  rw [Nat.ofDigitChars_eq_foldl] at folded
  exact folded

/-- A numeral in decimal has digits only. -/
theorem isDigit_of_mem_decimalChars {value : Nat} {digit : Char}
    (member : digit ∈ decimalChars value) : digit.isDigit = true :=
  Nat.isDigit_of_mem_toDigits (by decide) (by decide) member

/-- A padded numeral has digits only. -/
theorem isDigit_of_mem_paddedChars {width value : Nat} {digit : Char}
    (member : digit ∈ paddedChars width value) : digit.isDigit = true := by
  rcases List.mem_append.mp member with zero | digits
  · rw [List.eq_of_mem_replicate zero]
    rfl
  · exact isDigit_of_mem_decimalChars digits

/-- Reading a padded numeral gives its number. -/
theorem numeralValue_paddedChars (width value : Nat) :
    numeralValue (paddedChars width value) = value := by
  have zeros (count : Nat) : extend 0 (List.replicate count '0') = 0 := by
    induction count with
    | zero => rfl
    | succ count inductionHypothesis => rw [List.replicate_succ, extend_cons]; exact inductionHypothesis
  have split (front back : List Char) :
      numeralValue (front ++ back) = extend (numeralValue front) back := List.foldl_append
  rw [paddedChars, split, numeralValue, zeros]
  exact numeralValue_decimalChars value

/-- The digits of a numeral that is padded up to a width. -/
def digitCount (width value : Nat) : Nat :=
  max width (decimalChars value).length

/-- A padded numeral is as long as its digits are many. -/
theorem length_paddedChars (width value : Nat) :
    (paddedChars width value).length = digitCount width value := by
  simp only [paddedChars, List.length_append, List.length_replicate, digitCount]
  omega

/-- A number has no more digits than a count exactly when it is below that power of
ten. -/
theorem digitCount_le_iff {width value count : Nat} (positive : 0 < count) (above : width ≤ count) :
    digitCount width value ≤ count ↔ value < 10 ^ count := by
  rw [digitCount, Nat.max_le, and_iff_right above]
  exact Nat.length_toDigits_le_iff (by decide) positive

/-- Whether a smaller number overtakes a greater one when they are written with at
least so many digits: its digits come after the front of the longer numeral. -/
def Overtakes (width smaller greater : Nat) : Prop :=
  smaller < greater ∧ greater < smaller * 10 ^ (digitCount width greater - digitCount width smaller)

instance (width smaller greater : Nat) : Decidable (Overtakes width smaller greater) :=
  inferInstanceAs (Decidable (_ ∧ _))

/-- Whether the numerals of two numbers are in another order than the numbers. -/
def Misplaced (width left right : Nat) : Prop :=
  Overtakes width left right ∨ Overtakes width right left

instance (width left right : Nat) : Decidable (Misplaced width left right) :=
  inferInstanceAs (Decidable (_ ∨ _))

/-- Numbers are misplaced in either order. -/
theorem misplaced_comm (width left right : Nat) :
    Misplaced width left right ↔ Misplaced width right left :=
  or_comm

/-- Whether a text ends or goes on with a character below all digits. -/
def EndsNumeral (rest : List Char) : Prop :=
  ∀ character ∈ rest.head?, character < '0'

/-- Digits behind a number count after its multiple of their power of ten. -/
theorem extend_eq (value : Nat) (digits : List Char) :
    extend value digits = value * 10 ^ digits.length + numeralValue digits := by
  rw [numeralValue]
  induction digits generalizing value with
  | nil => simp [extend]
  | cons digit rest inductionHypothesis =>
    rw [extend_cons, extend_cons, inductionHypothesis (10 * value + digitValue digit),
      inductionHypothesis (10 * 0 + digitValue digit), List.length_cons, Nat.pow_succ]
    ring

/-- Rows of digits one behind the other denote the number of the first with the digits
of the second behind it. -/
theorem numeralValue_append (front back : List Char) :
    numeralValue (front ++ back) = numeralValue front * 10 ^ back.length + numeralValue back := by
  rw [← extend_eq, numeralValue, numeralValue, extend, extend, extend, List.foldl_append]

/-- A row of digits starts with the digit of the highest place. -/
theorem numeralValue_cons (digit : Char) (rest : List Char) :
    numeralValue (digit :: rest) = digitValue digit * 10 ^ rest.length + numeralValue rest := by
  rw [numeralValue, extend_cons, extend_eq, Nat.mul_zero, Nat.zero_add]

/-- A row of digits denotes less than the power of ten of its length. -/
theorem numeralValue_lt {digits : List Char} (all : ∀ digit ∈ digits, digit.isDigit = true) :
    numeralValue digits < 10 ^ digits.length := by
  induction digits with
  | nil => exact Nat.one_pos
  | cons digit rest inductionHypothesis =>
    obtain ⟨own, later⟩ := List.forall_mem_cons.mp all
    have below := inductionHypothesis later
    have scaled := Nat.mul_le_mul_right (10 ^ rest.length) (Nat.le_of_lt_succ (digitValue_lt own))
    rw [numeralValue_cons, List.length_cons, Nat.pow_succ]
    omega

/-- A number with digits behind it lies between its own multiple of their power of
ten and the next one. -/
theorem extend_bounds {digits : List Char} (all : ∀ digit ∈ digits, digit.isDigit = true)
    (value : Nat) :
    value * 10 ^ digits.length ≤ extend value digits ∧
      extend value digits < (value + 1) * 10 ^ digits.length := by
  have below := numeralValue_lt all
  rw [extend_eq, Nat.succ_mul]
  constructor
  · exact Nat.le_add_right _ _
  · exact Nat.add_lt_add_left below _

/-- Zeros in front do not count. -/
theorem numeralValue_dropWhile_zero (digits : List Char) :
    numeralValue (digits.dropWhile (· = '0')) = numeralValue digits := by
  induction digits with
  | nil => rfl
  | cons digit rest inductionHypothesis =>
    by_cases zero : digit = '0'
    · have first : digitValue '0' = 0 := rfl
      rw [List.dropWhile_cons_of_pos (by simpa using zero), inductionHypothesis, numeralValue_cons,
        zero, first, Nat.zero_mul, Nat.zero_add]
    · rw [List.dropWhile_cons_of_neg (by simpa using zero)]

/-- Only zero is a digit without a value. -/
theorem digitValue_eq_zero_iff {digit : Char} (inside : digit.isDigit = true) :
    digitValue digit = 0 ↔ digit = '0' := by
  constructor
  · intro zero
    have bounds := toNat_of_isDigit inside
    have start : '0'.toNat = 48 := rfl
    rw [digitValue, start] at zero
    have same : digit.toNat = '0'.toNat := by omega
    exact Char.toNat_inj.mp same
  · rintro rfl
    rfl

/-- A row of digits that does not start with a zero denotes at least the power of ten of
its first place. -/
theorem pow_le_numeralValue {digit : Char} {rest : List Char} (inside : digit.isDigit = true)
    (other : digit ≠ '0') : 10 ^ rest.length ≤ numeralValue (digit :: rest) := by
  have positive : 0 < digitValue digit :=
    Nat.pos_of_ne_zero (mt (digitValue_eq_zero_iff inside).mp other)
  rw [numeralValue_cons]
  exact Nat.le_trans (Nat.le_mul_of_pos_left _ positive) (Nat.le_add_right _ _)

/-- A row of digits denotes zero exactly when all of them are zeros. -/
theorem numeralValue_eq_zero_iff {digits : List Char}
    (all : ∀ digit ∈ digits, digit.isDigit = true) :
    numeralValue digits = 0 ↔ digits.all (· = '0') = true := by
  induction digits with
  | nil => exact iff_of_true rfl rfl
  | cons digit rest inductionHypothesis =>
    obtain ⟨own, later⟩ := List.forall_mem_cons.mp all
    rw [numeralValue_cons, Nat.add_eq_zero_iff, inductionHypothesis later, Nat.mul_eq_zero,
      digitValue_eq_zero_iff own, List.all_cons, Bool.and_eq_true, decide_eq_true_eq,
      or_iff_left (pow_ne_zero _ (by decide))]

/-- A numeral that has ended comes before one that goes on. -/
theorem compare_ended {front digits back : List Char} (ended : EndsNumeral front)
    (present : digits ≠ []) (all : ∀ digit ∈ digits, digit.isDigit = true) :
    compare front (digits ++ back) = .lt := by
  obtain ⟨digit, more, rfl⟩ := List.exists_cons_of_ne_nil present
  cases front with
  | nil => rfl
  | cons character rest =>
    have low : character < '0' := ended character rfl
    have high : '0' ≤ digit := by
      have inside := all digit List.mem_cons_self
      simp only [Char.isDigit, Bool.and_eq_true, decide_eq_true_eq] at inside
      exact inside.1
    have before : character < digit := Nat.lt_of_lt_of_le low high
    rw [List.cons_append, compare_cons, (compare_char_eq_lt character digit).mpr before]
    rfl

/-- A row of digits comes behind a longer one exactly when its number is above the front of
that. Behind a front that is equal the longer row goes on with a digit, where the short one
has ended, so the short one comes first. Otherwise the fronts decide, and what stands behind
the longer one is less than one unit of them. -/
theorem compare_shorter {short front more rest : List Char} (width : short.length = front.length)
    (shortDigits : ∀ digit ∈ short, digit.isDigit = true)
    (frontDigits : ∀ digit ∈ front, digit.isDigit = true)
    (moreDigits : ∀ digit ∈ more, digit.isDigit = true) (present : more ≠ [])
    (ended : EndsNumeral rest) (back : List Char) :
    compare (short ++ rest) (front ++ (more ++ back)) =
      if numeralValue (front ++ more) < numeralValue short * 10 ^ more.length then .gt else .lt := by
  have whole : numeralValue (front ++ more) = extend (numeralValue front) more := List.foldl_append
  obtain ⟨lower, upper⟩ := extend_bounds moreDigits (numeralValue front)
  rw [compare_append width, compare_ended ended present moreDigits,
    compare_numeralValue width shortDigits frontDigits, whole]
  have turns : extend (numeralValue front) more < numeralValue short * 10 ^ more.length ↔
      numeralValue front < numeralValue short := by
    constructor
    · intro small
      exact Nat.lt_of_mul_lt_mul_right (Nat.lt_of_le_of_lt lower small)
    · intro small
      exact Nat.lt_of_lt_of_le upper (Nat.mul_le_mul_right _ small)
  split
  · rename_i overtakes
    rw [Nat.compare_eq_gt.mpr (turns.mp overtakes)]
    rfl
  · rename_i stays
    have order := mt turns.mpr stays
    cases compared : compare (numeralValue short) (numeralValue front) with
    | lt => rfl
    | eq => rfl
    | gt => exact absurd (Nat.compare_eq_gt.mp compared) order

/-- A number with fewer digits than another is smaller. -/
theorem lt_of_digitCount_lt {width left right : Nat}
    (fewer : digitCount width left < digitCount width right) : left < right := by
  have positive : 0 < digitCount width left := by
    have present : 0 < (decimalChars left).length := Nat.length_toDigits_pos
    rw [digitCount]
    omega
  have above : width ≤ digitCount width left := Nat.le_max_left _ _
  have below := (digitCount_le_iff positive above).mp (Nat.le_refl _)
  have reaches : digitCount width right ≤ digitCount width left ↔
      right < 10 ^ digitCount width left := digitCount_le_iff positive above
  have beyond := mt reaches.mpr (Nat.not_le_of_lt fewer)
  omega

/-- The numeral of a number with fewer digits comes behind another exactly when the numbers
are misplaced.

Proof: the longer row is cut into a front as long as the shorter one and the digits behind
it. Comparing these is comparing the shorter number, with zeros in place of those digits,
with the longer one. The numbers themselves compare by their counts of digits. -/
theorem compare_paddedChars_of_lt {width left right : Nat}
    (fewer : digitCount width left < digitCount width right) {front : List Char}
    (ended : EndsNumeral front) (back : List Char) :
    compare (paddedChars width left ++ front) (paddedChars width right ++ back) =
      if Misplaced width left right then compare right left else compare left right := by
  have smaller := lt_of_digitCount_lt fewer
  have misplaced : Misplaced width left right ↔
      right < left * 10 ^ (digitCount width right - digitCount width left) := by
    constructor
    · rintro (⟨_, overtakes⟩ | ⟨greater, _⟩)
      · exact overtakes
      · omega
    · intro overtakes
      exact .inl ⟨smaller, overtakes⟩
  have digits : ∀ digit ∈ paddedChars width right, digit.isDigit = true := by
    intro digit member
    exact isDigit_of_mem_paddedChars member
  have parts := List.take_append_drop (digitCount width left) (paddedChars width right)
  have count := length_paddedChars width right
  have value := numeralValue_paddedChars width right
  generalize paddedChars width right = row at *
  have droppedWidth : (row.drop (digitCount width left)).length =
      digitCount width right - digitCount width left := by
    rw [List.length_drop, count]
  have takenWidth : (paddedChars width left).length = (row.take (digitCount width left)).length := by
    rw [List.length_take, length_paddedChars]
    omega
  have goesOn : row.drop (digitCount width left) ≠ [] := by
    rw [← List.length_pos_iff, droppedWidth]
    omega
  have split := compare_shorter takenWidth (fun _ member => isDigit_of_mem_paddedChars member)
    (fun digit member => digits digit (List.mem_of_mem_take member))
    (fun digit member => digits digit (List.mem_of_mem_drop member)) goesOn ended back
  rw [← List.append_assoc, parts, value, numeralValue_paddedChars, droppedWidth] at split
  rw [split, Nat.compare_eq_lt.mpr smaller, Nat.compare_eq_gt.mpr smaller]
  simp only [misplaced]

/-- Numerals of equally many digits compare as the numbers do, and then as what
follows. -/
theorem compare_paddedChars_same {width left right : Nat}
    (same : digitCount width left = digitCount width right) (front back : List Char) :
    compare (paddedChars width left ++ front) (paddedChars width right ++ back) =
      (compare left right).then (compare front back) := by
  have lengths : (paddedChars width left).length = (paddedChars width right).length := by
    rw [length_paddedChars, length_paddedChars, same]
  rw [compare_append lengths, compare_numeralValue lengths
      (fun _ member => isDigit_of_mem_paddedChars member)
      (fun _ member => isDigit_of_mem_paddedChars member),
    numeralValue_paddedChars, numeralValue_paddedChars]

/-- Numerals of different numbers compare as the numbers do unless these are misplaced; then
they compare the other way. Rows of one length compare as their numbers, and a longer row on
the left is the case of a longer one on the right, turned around. -/
theorem compare_paddedChars (width : Nat) {left right : Nat} (different : left ≠ right)
    {front back : List Char} (frontEnds : EndsNumeral front) (backEnds : EndsNumeral back) :
    compare (paddedChars width left ++ front) (paddedChars width right ++ back) =
      if Misplaced width left right then compare right left else compare left right := by
  rcases Nat.lt_trichotomy (digitCount width left) (digitCount width right) with
    fewer | same | more
  · exact compare_paddedChars_of_lt fewer frontEnds back
  · have placed : ¬ Misplaced width left right := by
      rintro (⟨_, overtakes⟩ | ⟨_, overtakes⟩)
      · rw [same, Nat.sub_self, Nat.pow_zero, Nat.mul_one] at overtakes
        omega
      · rw [same, Nat.sub_self, Nat.pow_zero, Nat.mul_one] at overtakes
        omega
    rw [if_neg placed, compare_paddedChars_same same]
    cases compared : compare left right with
    | lt => rfl
    | eq => exact absurd (Nat.compare_eq_eq.mp compared) different
    | gt => rfl
  · have turned := compare_paddedChars_of_lt more backEnds front
    have order := congrArg Ordering.swap turned
    rw [← Std.OrientedOrd.eq_swap, apply_ite Ordering.swap, ← Std.OrientedOrd.eq_swap,
      ← Std.OrientedOrd.eq_swap] at order
    simp only [Misplaced, or_comm] at order ⊢
    exact order

end EventSieve.Text
