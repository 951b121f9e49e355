import EventSieve.Proofs.Clause.Faults
import EventSieve.Proofs.Clause.SetAgreement
import EventSieve.Proofs.Json.NullText
import EventSieve.Proofs.Number.NotFinite

/-!
# Parameters that are null in JSON

A value that becomes null in its column is refused, so no parameter holds null. A parameter
is handed over as JSON, though, and there two more cells are null: a floating-point value
that is not finite, and a JSON cell that holds null. A text becomes the first when it spells
infinity, not-a-number, or a decimal that is too large, and the second when it is the word
for null with blanks around it.

So a clause has a null among its values in JSON exactly when one of its filters has such a
text for a floating-point or a JSON column.
-/

namespace EventSieve

open EventSieve.Filter (Domain ElementSet Field)

namespace Cell

/-- Whether a cell is null in JSON once it is converted to a type, without becoming null
there: a text that spells no finite number, or JSON null. -/
inductive LowersToNull : ColumnType → Cell → Prop where
  | float (text : String) (spelled : let body := Text.trimChars text.toList
      Number.SpellsNaN body ∨ Number.SpellsInfinity body ∨ Number.SpellsOverflow body) :
      LowersToNull .float (.text text)
  | json (text : String) (spelled : Json.SpellsNull text.toList) : LowersToNull .json (.text text)

/-- A floating-point value is null in JSON when it is not finite. -/
theorem toJson_float_eq_null_iff {value : Number.Binary64} :
    (Cell.float value).toJson = .null ↔ value.isFinite = false := by
  rw [toJson]
  cases value.isFinite <;> simp

/-- A cell of any type but the two is not null in JSON. -/
theorem Holds.toJson_ne_null {cell : Cell} {type : ColumnType} (held : cell.Holds type)
    (other : type ≠ .float ∧ type ≠ .json) : cell.toJson ≠ .null := by
  intro null
  cases type with
  | float => exact other.1 rfl
  | json => exact other.2 rfl
  | str | int | bool | datetime | timedelta | timezone | enum =>
    obtain ⟨value, rfl⟩ := held
    cases null

end Cell

section

variable {domain : Domain} {value : domain.Carrier} {cell : Cell}

/-- A value in a column of floating-point values is null in JSON when it is a text that
spells no finite number. Texts and versions are read as numbers, and JSON has no form for
one that is infinite or none. Integers have a finite value, and instants are not converted
to floating-point values at all. -/
theorem Cell.toJson_eq_null_iff_float (made : (domain.toCell value).toFloat? = some cell) :
    cell.toJson = .null ↔ (domain.toCell value).LowersToNull .float := by
  have texts {text : String} (made : (Cell.text text).toFloat? = some cell) :
      cell.toJson = .null ↔ (Cell.text text).LowersToNull .float := by
    obtain ⟨number, read, rfl⟩ := Option.map_eq_some_iff.mp made
    rw [toJson_float_eq_null_iff]
    constructor
    · intro infinite
      exact .float text (Number.exists_float?_not_finite_iff.mp ⟨number, read, infinite⟩)
    · intro lowers
      cases lowers with
      | float _ spelled =>
        obtain ⟨other, again, infinite⟩ := Number.exists_float?_not_finite_iff.mpr spelled
        cases read.symm.trans again
        exact infinite
  cases domain with
  | text | version => exact texts made
  | integer =>
    -- An integer of 64 bits is far below the numbers that are rounded to infinity.
    have small : (Int64.toInt value).natAbs < Number.overflow := by
      have reach : 2 ^ 63 < Number.overflow := by decide +kernel
      have least : -2 ^ 63 ≤ Int64.toInt value := Int64.le_toInt value
      have most : Int64.toInt value < 2 ^ 63 := Int64.toInt_lt value
      omega
    obtain rfl := Option.some.inj made
    rw [toJson_float_eq_null_iff, Number.Binary64.isFinite_ofInt small]
    exact iff_of_false (by decide) (by rintro ⟨⟩)
  | instant => cases made

/-- A value in a JSON column is null in JSON when it is a text that spells null. A JSON
document that is null is a value of a JSON column and not the absence of one, so it passes
the check for null and is written as null. -/
theorem Cell.toJson_eq_null_iff_json (made : (domain.toCell value).convert .json = .ok cell)
    (present : cell ≠ .null) :
    cell.toJson = .null ↔ (domain.toCell value).LowersToNull .json := by
  rcases convert_eq_ok_iff.mp made with ⟨⟨_, object⟩, rfl⟩ | ⟨_, ⟨_, null⟩ | ⟨_, found⟩⟩
  · -- The texts that become the empty object do not spell null.
    apply iff_of_false
    · rintro ⟨⟩
    · intro lowers
      generalize domain.toCell value = raw at object lowers
      cases lowers with
      | json text spelled =>
        have read := Json.read?_eq_null_iff.mpr spelled
        simp only [isEmptyObject, Bool.or_eq_true, decide_eq_true_eq] at object
        rcases object with rfl | rfl
        · cases read
        · cases read
  · exact absurd null present
  · have texts {text : String} (made : (Cell.text text).toJsonCell? = some cell) :
        cell.toJson = .null ↔ (Cell.text text).LowersToNull .json := by
      obtain ⟨document, read, rfl⟩ := Option.map_eq_some_iff.mp made
      constructor
      · intro null
        cases null
        exact .json text (Json.read?_eq_null_iff.mp read)
      · intro lowers
        cases lowers with
        | json _ spelled =>
          exact Option.some.inj (read.symm.trans (Json.read?_eq_null_iff.mpr spelled))
    cases domain with
    | text | version => exact texts found
    | integer | instant => cases found

/-- A value that is bound is null in JSON when it is a text that lowers to null. The two
types are the only ones with values that JSON writes as null; in every other type a value
that is there is written as something. -/
theorem Condition.toJson_eq_null_iff {binding : Binding}
    (bound : bindValue binding value = .ok cell) :
    cell.toJson = .null ↔ (domain.toCell value).LowersToNull binding.type := by
  obtain ⟨made, present⟩ := bindValue_eq_ok_iff.mp bound
  generalize binding.type = type at made
  by_cases json : type = .json
  · subst json
    exact Cell.toJson_eq_null_iff_json made present
  · rcases Cell.convert_eq_ok made with ⟨same, _⟩ | null | ⟨_, found⟩
    · exact absurd same json
    · exact absurd null present
    · by_cases float : type = .float
      · subst float
        exact Cell.toJson_eq_null_iff_float found
      · apply iff_of_false ((Cell.holds_of_toType? found).toJson_ne_null ⟨float, json⟩)
        generalize domain.toCell value = raw
        intro lowers
        cases lowers with
        | float => exact float rfl
        | json => exact json rfl

/-- A comparison of a range binds its bounds one for one, the minimum before the maximum. A
bound that is not there binds nothing, so the values of the filter and those of the
comparison stay in step in all four cases. -/
theorem Condition.values_rangeComparison {binding : Binding} {filter : RangeFilter domain}
    {made : Option Comparison} (compiled : rangeComparison binding filter = .ok made) :
    List.Forall₂ (fun bound found => bindValue binding bound = .ok found)
      (Filter.range filter).values (made.toList.flatMap Comparison.values) := by
  obtain ⟨mode, minimum, maximum⟩ := filter
  cases minimum with
  | none =>
    cases maximum with
    | none =>
      cases compiled
      exact .nil
    | some upper =>
      obtain ⟨found, own, same⟩ := bind_eq_ok_iff.mp compiled
      cases same
      exact .cons own .nil
  | some lower =>
    cases maximum with
    | none =>
      obtain ⟨found, own, same⟩ := bind_eq_ok_iff.mp compiled
      cases same
      exact .cons own .nil
    | some upper =>
      obtain ⟨found, own, later⟩ := bind_eq_ok_iff.mp compiled
      obtain ⟨other, next, same⟩ := bind_eq_ok_iff.mp later
      cases same
      exact .cons own (.cons next .nil)

/-- A condition binds the values of its filter one for one. -/
theorem Condition.values_ofFilter {binding : Binding} {filter : Filter domain}
    {made : Option Condition} (compiled : ofFilter binding filter = .ok made) :
    List.Forall₂ (fun value found => bindValue binding value = .ok found) filter.values
      (made.toList.flatMap fun condition => condition.comparison.values) := by
  cases filter with
  | unrestricted =>
    cases compiled
    exact .nil
  | set filter => exact values_ofSet compiled
  | range filter =>
    obtain ⟨_, _, comparison, compared, rfl⟩ := ofRange_eq_ok_iff.mp compiled
    have bounds := values_rangeComparison compared
    cases comparison with
    | none => exact bounds
    | some comparison => exact bounds

end

section

variable {dialect : Dialect} {bindings : Bindings} {collection : FilterCollection} {clause : Clause}

/-- Every value of a filter that is compared with a column is bound. -/
theorem Clause.exists_mem_values (compiled : ofCollection dialect bindings collection = .ok clause)
    {field : Field} {binding : Binding} (compares : bindings.Compares collection field binding)
    {value : field.domain.Carrier} (among : value ∈ (collection.filter field).values) :
    ∃ cell ∈ clause.values, Condition.bindValue binding value = .ok cell := by
  obtain ⟨conditions, made, rfl⟩ := ofCollection_eq_ok_iff.mp compiled
  obtain ⟨condition, member, rfl, own⟩ := Condition.exists_of_compares made compares
  obtain ⟨cell, inside, bound⟩ := exists_value_of_mem (Condition.values_ofFilter own) among
  refine ⟨cell, ?_, bound⟩
  rw [values, parameters_whereClause, valuesOf_renderAll, List.mem_flatMap]
  exact ⟨condition, member, by simpa using inside⟩

/-- Every value that a clause binds is that of a filter that is compared with a column. -/
theorem Clause.exists_of_mem_values
    (compiled : ofCollection dialect bindings collection = .ok clause) {cell : Cell}
    (inside : cell ∈ clause.values) :
    ∃ field binding, bindings.Compares collection field binding ∧
      ∃ value ∈ (collection.filter field).values, Condition.bindValue binding value = .ok cell := by
  obtain ⟨conditions, made, rfl⟩ := ofCollection_eq_ok_iff.mp compiled
  rw [values, parameters_whereClause, valuesOf_renderAll, List.mem_flatMap] at inside
  obtain ⟨condition, member, own⟩ := inside
  obtain ⟨field, compares, found⟩ := (Condition.mem_ofCollection_iff made condition).mp member
  obtain ⟨value, among, bound⟩ := exists_source_of_mem (Condition.values_ofFilter found)
    (by simpa using own)
  exact ⟨field, condition.binding, compares, value, among, bound⟩

/-- No value of a parameter is null, and one is null in JSON exactly when a filter has a
text for its column that lowers to null: one that spells no finite number, for a column of
floating-point values, or null, for a JSON column.

Proof: the values of the parameters are those of the compared filters, one for one, each
bound in the type of its column. Binding refuses null itself, which gives the first part.
For the second, a bound value is null in JSON exactly when the text that it was made of
lowers to null; this is shown for the two types in which that can be, and excluded by the
kind of the value in the others. -/
theorem null_parameters_iff
    (compiled : Clause.ofCollection dialect bindings collection = .ok clause) :
    (∀ parameter ∈ clause.parameters, ∀ value ∈ parameter.value.toList, value ≠ .null) ∧
      ((∃ parameter ∈ clause.parameters, ∃ value ∈ parameter.value.toList, value.toJson = .null) ↔
        ∃ field binding, bindings.Compares collection field binding ∧
          ∃ value ∈ (collection.filter field).values,
            (field.domain.toCell value).LowersToNull binding.type) := by
  have members (cell : Cell) : cell ∈ clause.values ↔
      ∃ parameter ∈ clause.parameters, cell ∈ parameter.value.toList := List.mem_flatMap
  constructor
  · intro parameter member cell inside
    obtain ⟨field, binding, _, value, _, bound⟩ :=
      Clause.exists_of_mem_values compiled ((members cell).mpr ⟨parameter, member, inside⟩)
    exact (Condition.bindValue_eq_ok_iff.mp bound).2
  · constructor
    · rintro ⟨parameter, member, cell, inside, null⟩
      obtain ⟨field, binding, compares, value, among, bound⟩ :=
        Clause.exists_of_mem_values compiled ((members cell).mpr ⟨parameter, member, inside⟩)
      exact ⟨field, binding, compares, value, among, (Condition.toJson_eq_null_iff bound).mp null⟩
    · rintro ⟨field, binding, compares, value, among, lowers⟩
      obtain ⟨cell, inside, bound⟩ := Clause.exists_mem_values compiled compares among
      obtain ⟨parameter, member, own⟩ := (members cell).mp inside
      exact ⟨parameter, member, cell, own, (Condition.toJson_eq_null_iff bound).mpr lowers⟩

end

/-- The collection that asks for one player. -/
def onePlayer (player : String) : FilterCollection :=
  FilterCollection.empty.set .player (.set ⟨.include, (⟨[player], trivial⟩ : ElementSet .text)⟩)

/-- A player that is compared with scores and is called after the least of them. -/
theorem null_parameters_iff_player :
    ∃ clause, Clause.ofCollection .postgres (Bindings.empty.bind .player ⟨"score", .float⟩)
        (onePlayer "-Infinity") = .ok clause ∧
      (∀ parameter ∈ clause.parameters, ∀ value ∈ parameter.value.toList, value ≠ .null) ∧
      ∃ parameter ∈ clause.parameters, ∃ value ∈ parameter.value.toList, value.toJson = .null := by
  obtain ⟨clause, compiled⟩ : ∃ clause, Clause.ofCollection .postgres
      (Bindings.empty.bind .player ⟨"score", .float⟩) (onePlayer "-Infinity") = .ok clause :=
    ⟨_, rfl⟩
  obtain ⟨present, null⟩ := null_parameters_iff compiled
  refine ⟨clause, compiled, present, null.mpr ⟨.player, ⟨"score", .float⟩, ⟨rfl, rfl⟩, "-Infinity",
    List.mem_singleton_self _, .float _ ?_⟩⟩
  exact .inr (.inl (.inr (by decide +kernel)))

/-- The word for infinity is bound to a column of floating-point values as a value that is
null in JSON, and the word for null with a blank in front to a JSON column, in every
dialect. -/
theorem null_parameters_bound :
    (∀ dialect, ∃ clause, Clause.ofCollection dialect
        (Bindings.empty.bind .player ⟨"score", .float⟩) (onePlayer "inf") = .ok clause ∧
      clause.values.map Cell.toJson = [.null]) ∧
    ∀ dialect, ∃ clause, Clause.ofCollection dialect
        (Bindings.empty.bind .player ⟨"payload", .json⟩) (onePlayer " null") = .ok clause ∧
      clause.values.map Cell.toJson = [.null] := by
  constructor
  · intro dialect
    cases dialect <;> exact ⟨_, rfl, rfl⟩
  · intro dialect
    cases dialect <;> exact ⟨_, rfl, rfl⟩

end EventSieve
