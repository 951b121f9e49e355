import EventSieve.Proofs.Clause.SetAgreement
import EventSieve.Proofs.Version.NumberOrder

/-!
# Version ranges on columns of numbers

A range of versions is refused on a column of texts, because versions are not ordered
as their texts. It is accepted on a column of numbers, and versions are not ordered as
the numbers that their texts spell either: `1.2` comes before `1.10`. A range between
these binds a minimum above its maximum.

Versions with a semantic form are bound in their order as long as they keep their
places: none overtakes the other, and in a column of integers rounding does not set
them apart. Then the bound values are in order, and the comparison with them gives the
verdict of the range about a version, but for one outside of the bounds that is bound
as the same number as one of them.
-/

namespace EventSieve

open EventSieve.Filter (Domain Field Mode)

/-- Whether the type of a column is one of numbers. -/
def ColumnType.IsNumeric (type : ColumnType) : Prop :=
  type = .int ∨ type = .float

namespace Cell

/-- Whether a number is not above another one of its kind. -/
def upTo : Cell → Cell → Bool
  | .integer left, .integer right => left ≤ right
  | .float left, .float right => left.upTo right
  | _, _ => false

/-- Whether two cells hold numbers that are not above each other. -/
def sameNumber (left right : Cell) : Bool :=
  left.upTo right && right.upTo left

/-- Whether a cell of a column of numbers has a number of units. -/
def HasUnits (cell : Cell) (type : ColumnType) (count : Nat) : Prop :=
  match type with
  | .int => ∃ value, cell = .integer value ∧ value.toInt * 2 ^ 1074 = count
  | .float => ∃ value, cell = .float value ∧ value.HasUnits false count
  | _ => False

/-- A cell with no more units than another one is not above it. -/
theorem HasUnits.upTo {type : ColumnType} {cell other : Cell} {count otherCount : Nat}
    (own : cell.HasUnits type count) (others : other.HasUnits type otherCount)
    (le : count ≤ otherCount) : cell.upTo other = true := by
  cases type with
  | int =>
    obtain ⟨value, rfl, units⟩ := own
    obtain ⟨otherValue, rfl, otherUnits⟩ := others
    have cast := Int.ofNat_le.mpr le
    rw [← units, ← otherUnits] at cast
    apply decide_eq_true
    rw [Int64.le_iff_toInt_le]
    exact Int.le_of_mul_le_mul_right cast (pow_pos (by decide) _)
  | float =>
    obtain ⟨value, rfl, units⟩ := own
    obtain ⟨otherValue, rfl, otherUnits⟩ := others
    exact units.upTo otherUnits le
  | _ => exact own.elim

end Cell

namespace Version

variable {binding : Binding} {version other : Version} {cell otherCell : Cell}

/-- A version with a semantic form that is bound in a column of numbers is a number, and it
is bound as a value with the units of that. Its text has been read as an integer or as a
floating-point value, and a text with a semantic form that is read as either has at most two
numbers in it. -/
theorem exists_units (numeric : binding.type.IsNumeric) (known : version.semantic.isSome = true)
    (bound : @Condition.bindValue .version binding version = .ok cell) :
    ∃ whole fraction, version.IsNumber whole fraction ∧
      cell.HasUnits binding.type (boundUnits binding.type whole fraction) := by
  obtain ⟨form, known⟩ := Option.isSome_iff_exists.mp known
  obtain ⟨converted, present⟩ := Condition.bindValue_eq_ok_iff.mp bound
  have found : (Cell.text version.text).toType? binding.type = some cell := by
    rcases Cell.convert_eq_ok converted with ⟨other, _⟩ | null | ⟨_, found⟩
    · rcases numeric with same | same
      · cases same.symm.trans other
      · cases same.symm.trans other
    · exact absurd null present
    · exact found
  rcases numeric with integers | floats
  · rw [integers] at found ⊢
    obtain ⟨value, read, rfl⟩ := Option.map_eq_some_iff.mp found
    obtain ⟨whole, fraction, number, ⟨rfl, exact⟩ | ⟨pointed, rounded⟩⟩ :=
      isNumber_of_wholeText? known read
    · refine ⟨whole, [], number, value, rfl, ?_⟩
      rw [boundUnits, if_pos ⟨rfl, rfl⟩, exact]
      rw [Nat.cast_mul, Nat.cast_pow, Nat.cast_ofNat]
    · refine ⟨whole, fraction, number, value, rfl, ?_⟩
      rw [boundUnits, if_neg fun both => pointed both.2]
      exact rounded
  · rw [floats] at found ⊢
    obtain ⟨value, read, rfl⟩ := Option.map_eq_some_iff.mp found
    rw [version.trimmed] at read
    obtain ⟨whole, fraction, number, rfl⟩ := isNumber_of_float? known read
    refine ⟨whole, fraction, number, _, rfl, ?_⟩
    rw [boundUnits_of_ne_int (by decide)]
    exact (Version.number whole fraction).hasUnits_toBinary64

/-- Versions that keep their places are bound in their order. -/
theorem upTo_of_keepsPlace (numeric : binding.type.IsNumeric)
    (known : version.semantic.isSome = true) (otherKnown : other.semantic.isSome = true)
    (bound : @Condition.bindValue .version binding version = .ok cell)
    (otherBound : @Condition.bindValue .version binding other = .ok otherCell)
    (ordered : version.order other ≠ .gt) (placed : version.KeepsPlace binding.type other) :
    cell.upTo otherCell = true := by
  obtain ⟨whole, fraction, number, units⟩ := exists_units numeric known bound
  obtain ⟨otherWhole, otherFraction, otherNumber, otherUnits⟩ :=
    exists_units numeric otherKnown otherBound
  exact units.upTo otherUnits (number.boundUnits_mono otherNumber ordered placed)

/-- A version that overtakes another one is not bound as a smaller floating-point value
than that. -/
theorem upTo_of_overtakes (floats : binding.type = .float)
    (known : version.semantic.isSome = true) (otherKnown : other.semantic.isSome = true)
    (bound : @Condition.bindValue .version binding version = .ok cell)
    (otherBound : @Condition.bindValue .version binding other = .ok otherCell)
    (overtakes : version.Overtakes other) : otherCell.upTo cell = true := by
  obtain ⟨whole, fraction, number, units⟩ := exists_units (.inr floats) known bound
  obtain ⟨otherWhole, otherFraction, otherNumber, otherUnits⟩ :=
    exists_units (.inr floats) otherKnown otherBound
  apply otherUnits.upTo units
  rw [floats, boundUnits_of_ne_int (by decide), boundUnits_of_ne_int (by decide)]
  exact Number.DecimalSpelling.units_mono otherNumber.isDecimal number.isDecimal
    (number.exactValue_le_of_overtakes otherNumber overtakes)

end Version

/-- Whether the comparison with two bound values gives the verdict of a range of versions
about a version, or the version is outside and bound as the same number as a bound. -/
def RangeFilter.AgreesAt (filter : RangeFilter .version) (lower upper : Version)
    (first second : Cell) (version : Version) (cell : Cell) : Prop :=
  filter.accepts version = filter.mode.apply (first.upTo cell && cell.upTo second) ∨
    ¬ (Domain.version.upTo lower version && Domain.version.upTo version upper) = true ∧
      (cell.sameNumber first = true ∨ cell.sameNumber second = true)

namespace Clause

variable {dialect : Dialect} {bindings : Bindings} {field : Field} {binding : Binding}
variable {filter : RangeFilter .version} {lower upper : Version} {clause : Clause}

/-- A range filter with both bounds that is accepted on a column compares it with what
its bounds are bound as, and these are versions in order. -/
theorem ofRangeFilter_of_bounds (target : bindings.target field = .column binding)
    (minimum : filter.minimum = some lower) (maximum : filter.maximum = some upper)
    (compiled : ofRangeFilter dialect bindings field filter = .ok clause) :
    lower.order upper ≠ .gt ∧ ∃ first second,
      @Condition.bindValue .version binding lower = .ok first ∧
      @Condition.bindValue .version binding upper = .ok second ∧
      clause = conjunction dialect [⟨binding, .between filter.mode first second⟩] := by
  obtain ⟨mode, _, _⟩ := filter
  cases minimum
  cases maximum
  obtain ⟨ordered, _, comparison, found, _, rfl⟩ := ofRangeFilter_eq_ok rfl target compiled
  obtain ⟨first, firstBound, later⟩ := bind_eq_ok_iff.mp found
  obtain ⟨second, secondBound, same⟩ := bind_eq_ok_iff.mp later
  cases same
  have inOrder : Domain.version.order lower upper ≠ .gt := by
    simpa [RangeFilter.isInverted] using ordered
  exact ⟨inOrder, first, second, firstBound, secondBound, rfl⟩

/-- Where a version keeps its place against both bounds, the comparison with what they are
bound as agrees with the range about the version.

Proof: beyond a bound the version is rejected, and its value is not on the near side of the
value of that bound, or it is equal to it, where the comparison may answer otherwise.
Between the bounds both comparisons of values hold, for the version keeps its place against
each. -/
theorem agreesAt_of_keepsPlace {first second : Cell} (numeric : binding.type.IsNumeric)
    (minimum : filter.minimum = some lower) (maximum : filter.maximum = some upper)
    (lowerKnown : lower.semantic.isSome = true) (upperKnown : upper.semantic.isSome = true)
    (lowerBound : @Condition.bindValue .version binding lower = .ok first)
    (upperBound : @Condition.bindValue .version binding upper = .ok second)
    {version : Version} {cell : Cell} (known : version.semantic.isSome = true)
    (bound : @Condition.bindValue .version binding version = .ok cell)
    (beside : lower.KeepsPlace binding.type version)
    (otherBeside : version.KeepsPlace binding.type upper) :
    filter.AgreesAt lower upper first second version cell := by
  have verdict : filter.accepts version = filter.mode.apply
      (Domain.version.upTo lower version && Domain.version.upTo version upper) := by
    rw [RangeFilter.accepts, minimum, maximum]
  by_cases above : lower.order version = .gt
  · -- The version comes before the minimum, and its number is not above that.
    have outside : Domain.version.upTo lower version = false := by
      simp [Domain.upTo, Domain.order, above]
    have below : version.order lower ≠ .gt := by
      rw [Version.order_swap lower version, above]
      decide
    have reached := Version.upTo_of_keepsPlace numeric known lowerKnown bound lowerBound below beside.symm
    rw [RangeFilter.AgreesAt, verdict, outside, Bool.false_and]
    cases same : first.upTo cell with
    | false => exact .inl rfl
    | true => exact .inr ⟨Bool.false_ne_true, .inl (by rw [Cell.sameNumber, reached, same]; rfl)⟩
  · have left := Version.upTo_of_keepsPlace numeric lowerKnown known lowerBound bound above beside
    by_cases beyond : version.order upper = .gt
    · have outside : Domain.version.upTo version upper = false := by
        simp [Domain.upTo, Domain.order, beyond]
      have after : upper.order version ≠ .gt := by
        rw [Version.order_swap version upper, beyond]
        decide
      have reached :=
        Version.upTo_of_keepsPlace numeric upperKnown known upperBound bound after otherBeside.symm
      rw [RangeFilter.AgreesAt, verdict, outside, Bool.and_false, left, Bool.true_and]
      cases same : cell.upTo second with
      | false => exact .inl rfl
      | true => exact .inr ⟨Bool.false_ne_true, .inr (by rw [Cell.sameNumber, reached, same]; rfl)⟩
    · have right :=
        Version.upTo_of_keepsPlace numeric known upperKnown bound upperBound beyond otherBeside
      have fromLower : Domain.version.upTo lower version = true := bne_iff_ne.mpr above
      have toUpper : Domain.version.upTo version upper = true := bne_iff_ne.mpr beyond
      exact .inl (by rw [verdict, fromLower, toUpper, left, right])

/-- Between versions that are single numbers nothing is misplaced: a range of them that is
accepted on a column of numbers binds its minimum not above its maximum, and it agrees with
the filter about every other version that is a single number, however large these are.

Proof: without a point there is no minor number to be read as a fraction and nothing is
rounded apart, so all of them keep their places. -/
theorem ofRangeFilter_of_pointless (numeric : binding.type.IsNumeric)
    (target : bindings.target field = .column binding)
    (minimum : filter.minimum = some lower) (maximum : filter.maximum = some upper)
    (lowerKnown : lower.semantic.isSome = true) (upperKnown : upper.semantic.isSome = true)
    (pointless : lower.minorDigits = []) (otherPointless : upper.minorDigits = [])
    (compiled : ofRangeFilter dialect bindings field filter = .ok clause) :
    ∃ first second, clause = conjunction dialect [⟨binding, .between filter.mode first second⟩] ∧
      first.upTo second = true ∧
      ∀ (version : Version) (cell : Cell), version.semantic.isSome = true →
        version.minorDigits = [] → @Condition.bindValue .version binding version = .ok cell →
        filter.AgreesAt lower upper first second version cell := by
  obtain ⟨ordered, first, second, lowerBound, upperBound, same⟩ :=
    ofRangeFilter_of_bounds target minimum maximum compiled
  refine ⟨first, second, same, ?_, ?_⟩
  · exact Version.upTo_of_keepsPlace numeric lowerKnown upperKnown lowerBound upperBound ordered
      (Version.keepsPlace_of_pointless _ pointless otherPointless)
  · intro version cell known single bound
    exact agreesAt_of_keepsPlace numeric minimum maximum lowerKnown upperKnown lowerBound upperBound
      known bound (Version.keepsPlace_of_pointless _ pointless single)
      (Version.keepsPlace_of_pointless _ single otherPointless)

end Clause

/-- Versions with semantic forms that keep their places are bound in their order in a column
of numbers, and in a column of floating-point values those that do not are bound in the
contrary order, or as equal values. Accordingly, a range of versions that is accepted on a
column of numbers has bounds in the order of versions and is the comparison with what they
are bound as. That has its minimum not above its maximum when the bounds keep their places,
and it agrees with the range about every version that keeps its place against both bounds.

Proof: a version that is bound in such a column is a number, and its value is made from the
units of that number. Rounding to units is monotone, so values come in the order of numbers,
and versions do so too where they keep their places. A range that is accepted compares a
value with those of its bounds. -/
theorem version_ranges_follow_numbers (binding : Binding) (numeric : binding.type.IsNumeric) :
    (∀ (left right : Version) (first second : Cell),
      left.semantic.isSome = true → right.semantic.isSome = true →
      @Condition.bindValue .version binding left = .ok first →
      @Condition.bindValue .version binding right = .ok second →
      (left.order right ≠ .gt → left.KeepsPlace binding.type right → first.upTo second = true) ∧
      (binding.type = .float → left.Overtakes right → second.upTo first = true)) ∧
    ∀ (dialect : Dialect) (bindings : Bindings) (field : Field) (filter : RangeFilter .version)
      (lower upper : Version) (clause : Clause),
      bindings.target field = .column binding →
      filter.minimum = some lower → filter.maximum = some upper →
      lower.semantic.isSome = true → upper.semantic.isSome = true →
      Clause.ofRangeFilter dialect bindings field filter = .ok clause →
      lower.order upper ≠ .gt ∧ ∃ first second,
        @Condition.bindValue .version binding lower = .ok first ∧
        @Condition.bindValue .version binding upper = .ok second ∧
        clause = Clause.conjunction dialect [⟨binding, .between filter.mode first second⟩] ∧
        (lower.KeepsPlace binding.type upper → first.upTo second = true) ∧
        ∀ (version : Version) (cell : Cell), version.semantic.isSome = true →
          @Condition.bindValue .version binding version = .ok cell →
          lower.KeepsPlace binding.type version → version.KeepsPlace binding.type upper →
          filter.AgreesAt lower upper first second version cell := by
  constructor
  · intro left right first second known otherKnown bound otherBound
    constructor
    · intro ordered placed
      exact Version.upTo_of_keepsPlace numeric known otherKnown bound otherBound ordered placed
    · intro floats overtakes
      exact Version.upTo_of_overtakes floats known otherKnown bound otherBound overtakes
  · intro dialect bindings field filter lower upper clause target minimum maximum lowerKnown
      upperKnown compiled
    obtain ⟨ordered, first, second, lowerBound, upperBound, same⟩ :=
      Clause.ofRangeFilter_of_bounds target minimum maximum compiled
    refine ⟨ordered, first, second, lowerBound, upperBound, same, ?_, ?_⟩
    · intro placed
      exact Version.upTo_of_keepsPlace numeric lowerKnown upperKnown lowerBound upperBound ordered placed
    · intro version cell known bound beside otherBeside
      exact Clause.agreesAt_of_keepsPlace numeric minimum maximum lowerKnown upperKnown lowerBound
        upperBound known bound beside otherBeside

/-- Versions of an app that are stored as numbers. -/
def numberedReleases (type : ColumnType) : Bindings :=
  Bindings.empty.bind .appVersion ⟨"release", type⟩

/-- The versions between two texts. -/
def releasesBetween (first last : String) : RangeFilter .version :=
  ⟨.include, some (.ofText first), some (.ofText last)⟩

/-- A release between two others that are ordered as their numbers, and one that
overtakes another. -/
theorem version_ranges_follow_numbers_release :
    (∃ first second,
      @Condition.bindValue .version ⟨"release", .float⟩ (.ofText "1.2") = .ok first ∧
      @Condition.bindValue .version ⟨"release", .float⟩ (.ofText "1.10") = .ok second ∧
      second.upTo first = true) ∧
    ∃ clause cell, Clause.ofRangeFilter .postgres (numberedReleases .float) .appVersion
        (releasesBetween "1.2" "2.0") = .ok clause ∧
      @Condition.bindValue .version ⟨"release", .float⟩ (.ofText "1.5") = .ok cell ∧
      ∃ first second, first.upTo second = true ∧
        (releasesBetween "1.2" "2.0").AgreesAt (.ofText "1.2") (.ofText "2.0") first second
          (.ofText "1.5") cell := by
  constructor
  · refine ⟨_, _, rfl, rfl, ?_⟩
    exact ((version_ranges_follow_numbers ⟨"release", .float⟩ (.inr rfl)).1 (.ofText "1.2")
      (.ofText "1.10") _ _ (by decide +kernel) (by decide +kernel) rfl rfl).2 rfl (by decide +kernel)
  · obtain ⟨cell, bound⟩ : ∃ cell, @Condition.bindValue .version ⟨"release", .float⟩
        (.ofText "1.5") = .ok cell := ⟨_, rfl⟩
    obtain ⟨clause, compiled⟩ : ∃ clause, Clause.ofRangeFilter .postgres (numberedReleases .float)
        .appVersion (releasesBetween "1.2" "2.0") = .ok clause := ⟨_, rfl⟩
    obtain ⟨_, first, second, _, _, _, ordered, agrees⟩ :=
      (version_ranges_follow_numbers ⟨"release", .float⟩ (.inr rfl)).2 .postgres
        (numberedReleases .float) .appVersion (releasesBetween "1.2" "2.0") (.ofText "1.2")
        (.ofText "2.0") clause rfl rfl rfl (by decide +kernel) (by decide +kernel) compiled
    exact ⟨clause, cell, compiled, bound, first, second, ordered (by decide +kernel),
      agrees _ cell (by decide +kernel) bound (by decide +kernel) (by decide +kernel)⟩

/-- Versions that are in order can be bound in the contrary order. The numbers with a
point are read as fractions; a large number is rounded when it has a point, and kept as
an integer otherwise; and a text that is a number with an exponent comes after all
versions with a semantic form. The range between the bounds is accepted all the same. -/
theorem version_range_binds_minimum_above_maximum :
    (∃ clause first second, (Version.ofText "1.2").order (.ofText "1.10") = .lt ∧
      Clause.ofRangeFilter .postgres (numberedReleases .float) .appVersion
        (releasesBetween "1.2" "1.10") = .ok clause ∧
      clause.values = [first, second] ∧ first.upTo second = false ∧ second.upTo first = true) ∧
    (∃ clause first second,
      (Version.ofText "9007199254740993").order (.ofText "9007199254740993.0") = .lt ∧
      Clause.ofRangeFilter .postgres (numberedReleases .int) .appVersion
        (releasesBetween "9007199254740993" "9007199254740993.0") = .ok clause ∧
      clause.values = [first, second] ∧ first.upTo second = false ∧ second.upTo first = true) ∧
    ∃ clause first second, (Version.ofText "99").order (.ofText "1e1") = .lt ∧
      Clause.ofRangeFilter .postgres (numberedReleases .int) .appVersion
        (releasesBetween "99" "1e1") = .ok clause ∧
      clause.values = [first, second] ∧ first.upTo second = false ∧ second.upTo first = true :=
  ⟨⟨_, _, _, by decide +kernel, rfl, rfl, by decide +kernel, by decide +kernel⟩,
    ⟨_, _, _, by decide +kernel, rfl, rfl, by decide +kernel, by decide +kernel⟩,
    _, _, _, by decide +kernel, rfl, rfl, by decide +kernel, by decide +kernel⟩

end EventSieve
