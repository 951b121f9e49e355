import EventSieve.Clause.Basic
import EventSieve.Proofs.Traversal

/-!
# What success of a compilation says

Filters are checked and bound one after the other, and the first fault ends it. A
collection with conditions is therefore valid, every filter in it that restricts
something has a column, and the conditions are those of these filters, neither
more nor fewer. A set that a condition compares with has values: an empty one
either restricts nothing or becomes the comparison that nothing passes.
-/

namespace EventSieve

open EventSieve.Filter (Domain Field)

/-- Whether a comparison with the values of a set has any. -/
def Comparison.IsFilled : Comparison → Prop
  | .membership _ values => values ≠ []
  | _ => True

/-- Whether a filter of a field restricts something and is compared with a column. -/
def Bindings.Compares (bindings : Bindings) (collection : FilterCollection) (field : Field)
    (binding : Binding) : Prop :=
  (collection.filter field).isTrivial = false ∧ bindings.target field = .column binding

/-- The column behind a field is the one that its target gives. -/
theorem Bindings.resolve_eq_ok_iff {bindings : Bindings} {field : Field} {binding : Binding} :
    bindings.resolve field = .ok binding ↔ bindings.target field = .column binding := by
  simp only [resolve]
  cases bindings.target field <;> simp

/-- Bounds are in order whatever the column is called. -/
theorem FilterCollection.checkBounds_congr {domain : Domain} {column : String} {filter : RangeFilter domain}
    (ordered : checkBounds column filter = .ok ()) (other : String) :
    checkBounds other filter = .ok () := by
  simp only [checkBounds] at ordered ⊢
  split at ordered
  · split at ordered
    · cases ordered
    · rename_i straight
      exact if_neg straight
  · rfl

/-- Bounds that are in order are not inverted. -/
theorem FilterCollection.isInverted_of_checkBounds {domain : Domain} {column : String}
    {filter : RangeFilter domain} (checked : checkBounds column filter = .ok ()) :
    filter.isInverted = false := by
  obtain ⟨mode, minimum, maximum⟩ := filter
  match minimum, maximum with
  | none, none | some _, none | none, some _ => rfl
  | some lower, some upper =>
    simp only [checkBounds] at checked
    split at checked
    · cases checked
    · rename_i inOrder
      exact Bool.eq_false_iff.mpr inOrder

/-- The fields whose filters restrict something are the active ones. -/
theorem FilterCollection.mem_activeFields_iff {collection : FilterCollection} {field : Field} :
    field ∈ collection.activeFields ↔ (collection.filter field).isTrivial = false := by
  simp [activeFields, Field.mem_all]

namespace Condition

variable {domain : Domain}

/-- A range has a condition when its bounds are in order, its column can compare its
values, and both bounds can be bound. -/
theorem ofRange_eq_ok_iff {binding : Binding} {filter : RangeFilter domain}
    {made : Option Condition} :
    ofRange binding filter = .ok made ↔
      FilterCollection.checkBounds binding.column filter = .ok () ∧
        (domain.ownOrder && comparesText binding.type) = false ∧
        ∃ comparison, rangeComparison binding filter = .ok comparison ∧
          made = comparison.map fun comparison => ⟨binding, comparison⟩ := by
  rw [ofRange]
  cases FilterCollection.checkBounds binding.column filter with
  | error error => simp [bind, Except.bind]
  | ok checked =>
    cases domain.ownOrder && comparesText binding.type with
    | true => simp [bind, Except.bind, throw, throwThe, MonadExceptOf.throw]
    | false =>
      cases rangeComparison binding filter with
      | error error => simp [bind, Except.bind]
      | ok comparison => simp [bind, Except.bind, pure, Except.pure, eq_comm]

/-- A range with a bound has a comparison. A comparison is made for each of the three ways
in which bounds can be there, and none of them is a list that could be empty. -/
theorem rangeComparison_eq_ok {binding : Binding} {filter : RangeFilter domain}
    {made : Option Comparison} (bounded : filter.isUnbounded = false)
    (compiled : rangeComparison binding filter = .ok made) :
    ∃ comparison, made = some comparison ∧ comparison.IsFilled := by
  obtain ⟨mode, minimum, maximum⟩ := filter
  match minimum, maximum with
  | none, none => cases bounded
  | some lower, some upper =>
    obtain ⟨first, _, later⟩ := bind_eq_ok_iff.mp compiled
    obtain ⟨second, _, same⟩ := bind_eq_ok_iff.mp later
    cases same
    exact ⟨_, rfl, trivial⟩
  | some lower, none =>
    obtain ⟨first, _, same⟩ := bind_eq_ok_iff.mp compiled
    cases same
    exact ⟨_, rfl, trivial⟩
  | none, some upper =>
    obtain ⟨first, _, same⟩ := bind_eq_ok_iff.mp compiled
    cases same
    exact ⟨_, rfl, trivial⟩

/-- A filter that restricts something has a condition on its column, and a set that it
compares with has values. The filters that would list no values are exactly the sets without
elements: one of them is made a condition that is never true, and the other restricts
nothing and is excluded here. -/
theorem ofFilter_eq_ok {binding : Binding} {filter : Filter domain} {made : Option Condition}
    (active : filter.isTrivial = false) (compiled : ofFilter binding filter = .ok made) :
    ∃ comparison, made = some ⟨binding, comparison⟩ ∧ comparison.IsFilled := by
  cases filter with
  | unrestricted => cases active
  | set filter =>
    obtain ⟨mode, elements⟩ := filter
    simp only [ofFilter, ofSet] at compiled
    split at compiled
    · rename_i empty
      match mode with
      | .include =>
        cases compiled
        exact ⟨_, rfl, trivial⟩
      | .exclude => simp [Filter.isTrivial, empty] at active
    · rename_i present
      obtain ⟨values, bound, same⟩ := bind_eq_ok_iff.mp compiled
      cases same
      refine ⟨_, rfl, ?_⟩
      rintro rfl
      apply present
      rw [Filter.ElementSet.isEmpty, List.isEmpty_iff]
      exact List.forall₂_nil_right_iff.mp (mapM_eq_ok_iff.mp bound)
  | range filter =>
    obtain ⟨_, _, comparison, compared, same⟩ := ofRange_eq_ok_iff.mp compiled
    obtain ⟨known, found, filled⟩ := rangeComparison_eq_ok active compared
    exact ⟨known, by rw [same, found]; rfl, filled⟩

/-- The filter of a field that restricts something has a condition on the column of
the field. -/
theorem ofField_eq_ok {bindings : Bindings} {field : Field} {filter : Filter field.domain}
    {made : Option Condition} (active : filter.isTrivial = false)
    (compiled : ofField bindings field filter = .ok made) :
    ∃ binding comparison, bindings.target field = .column binding ∧
      made = some ⟨binding, comparison⟩ ∧ comparison.IsFilled ∧
        ofFilter binding filter = .ok (some ⟨binding, comparison⟩) := by
  rw [ofField, if_neg (by simp [active])] at compiled
  obtain ⟨binding, resolved, rest⟩ := bind_eq_ok_iff.mp compiled
  obtain ⟨comparison, rfl, filled⟩ := ofFilter_eq_ok active rest
  exact ⟨binding, comparison, Bindings.resolve_eq_ok_iff.mp resolved, rfl, filled, rest⟩

/-- The conditions of a collection are those of the fields whose filters restrict something.
The fields are visited one for one, so every field has been compiled, and what was left out
are the fields without a condition. -/
theorem ofCollection_eq_ok {bindings : Bindings} {collection : FilterCollection}
    {conditions : List Condition} (compiled : ofCollection bindings collection = .ok conditions) :
    collection.validate = .ok () ∧
      (∀ field, ∃ made, ofField bindings field (collection.filter field) = .ok made) ∧
      ∀ condition, condition ∈ conditions ↔
        ∃ field, ofField bindings field (collection.filter field) = .ok (some condition) := by
  obtain ⟨⟨⟩, valid, later⟩ := bind_eq_ok_iff.mp compiled
  obtain ⟨options, made, same⟩ := bind_eq_ok_iff.mp later
  cases same
  have steps := mapM_eq_ok_iff.mp made
  refine ⟨valid, ?_, ?_⟩
  · intro field
    obtain ⟨option, _, own⟩ := exists_value_of_mem steps field.mem_all
    exact ⟨option, own⟩
  · intro condition
    rw [List.mem_filterMap]
    constructor
    · rintro ⟨option, member, rfl⟩
      obtain ⟨field, _, own⟩ := exists_source_of_mem steps member
      exact ⟨field, own⟩
    · rintro ⟨field, own⟩
      obtain ⟨option, member, found⟩ := exists_value_of_mem steps field.mem_all
      exact ⟨option, member, Except.ok.inj (found.symm.trans own)⟩

/-- The conditions of a collection are those of its fields whose filters restrict something,
one for one in their order. -/
theorem forall₂_activeFields {bindings : Bindings} {collection : FilterCollection}
    {conditions : List Condition} (compiled : ofCollection bindings collection = .ok conditions) :
    List.Forall₂ (fun field condition =>
        ofField bindings field (collection.filter field) = .ok (some condition))
      collection.activeFields conditions := by
  obtain ⟨⟨⟩, _, later⟩ := bind_eq_ok_iff.mp compiled
  obtain ⟨options, made, same⟩ := bind_eq_ok_iff.mp later
  cases same
  apply forall₂_filter_filterMap (mapM_eq_ok_iff.mp made)
  intro field _ option own
  cases trivial : (collection.filter field).isTrivial with
  | true =>
    rw [ofField, if_pos trivial] at own
    cases own
    rfl
  | false =>
    obtain ⟨_, _, _, rfl, _⟩ := ofField_eq_ok trivial own
    rfl

end Condition

/-- Every condition of a collection belongs to a filter that is compared with its column,
and every such filter has one. So conditions can be spoken of by fields and filters, without
the order in which they were made. -/
theorem Condition.mem_ofCollection_iff {bindings : Bindings} {collection : FilterCollection}
    {conditions : List Condition} (compiled : ofCollection bindings collection = .ok conditions)
    (condition : Condition) :
    condition ∈ conditions ↔ ∃ field, bindings.Compares collection field condition.binding ∧
      ofFilter condition.binding (collection.filter field) = .ok (some condition) := by
  obtain ⟨_, _, members⟩ := ofCollection_eq_ok compiled
  rw [members]
  constructor
  · rintro ⟨field, own⟩
    cases active : (collection.filter field).isTrivial with
    | true =>
      rw [ofField, if_pos active] at own
      cases own
    | false =>
      obtain ⟨binding, comparison, resolved, same, _, made⟩ := ofField_eq_ok active own
      cases same
      exact ⟨field, ⟨active, resolved⟩, made⟩
  · rintro ⟨field, ⟨active, resolved⟩, made⟩
    refine ⟨field, ?_⟩
    rw [ofField, if_neg (by simp [active]), Bindings.resolve_eq_ok_iff.mpr resolved]
    exact made

/-- Every set that the conditions of a collection compare with has values. -/
theorem Condition.isFilled_of_ofCollection {bindings : Bindings} {collection : FilterCollection}
    {conditions : List Condition} (compiled : ofCollection bindings collection = .ok conditions) :
    ∀ condition ∈ conditions, condition.comparison.IsFilled := by
  intro condition member
  obtain ⟨field, ⟨active, _⟩, made⟩ := (mem_ofCollection_iff compiled condition).mp member
  obtain ⟨comparison, same, filled⟩ := ofFilter_eq_ok active made
  rw [Option.some.inj same]
  exact filled

/-- A filter that is compared with a column has a condition. -/
theorem Condition.exists_of_compares {bindings : Bindings} {collection : FilterCollection}
    {conditions : List Condition} (compiled : ofCollection bindings collection = .ok conditions)
    {field : Field} {binding : Binding} (compares : bindings.Compares collection field binding) :
    ∃ condition ∈ conditions, condition.binding = binding ∧
      ofFilter binding (collection.filter field) = .ok (some condition) := by
  obtain ⟨_, every, _⟩ := ofCollection_eq_ok compiled
  obtain ⟨active, target⟩ := compares
  obtain ⟨made, own⟩ := every field
  obtain ⟨other, comparison, resolved, same, _, condition⟩ := ofField_eq_ok active own
  cases resolved.symm.trans target
  refine ⟨⟨binding, comparison⟩, ?_, rfl, condition⟩
  exact (mem_ofCollection_iff compiled _).mpr ⟨field, ⟨active, target⟩, condition⟩

/-- The clause of a collection is the conjunction of its conditions. -/
theorem Clause.ofCollection_eq_ok_iff {dialect : Dialect} {bindings : Bindings}
    {collection : FilterCollection} {clause : Clause} :
    ofCollection dialect bindings collection = .ok clause ↔
      ∃ conditions, Condition.ofCollection bindings collection = .ok conditions ∧
        clause = whereClause dialect conditions := by
  simp only [ofCollection]
  cases Condition.ofCollection bindings collection with
  | error error => simp [bind, Except.bind]
  | ok conditions =>
    simp only [bind, Except.bind, pure, Except.pure, Except.ok.injEq, exists_eq_left']
    exact eq_comm

/-- A range filter with a bound that is accepted on a column has its bounds in order, the
column can compare its values, and its fragment is its comparison with the column. -/
theorem Clause.ofRangeFilter_eq_ok {domain : Domain} {dialect : Dialect} {bindings : Bindings}
    {field : Field} {filter : RangeFilter domain} {binding : Binding} {clause : Clause}
    (bounded : filter.isUnbounded = false) (target : bindings.target field = .column binding)
    (compiled : ofRangeFilter dialect bindings field filter = .ok clause) :
    filter.isInverted = false ∧ (domain.ownOrder && Condition.comparesText binding.type) = false ∧
      ∃ comparison, Condition.rangeComparison binding filter = .ok (some comparison) ∧
        comparison.IsFilled ∧ clause = conjunction dialect [⟨binding, comparison⟩] := by
  rw [ofRangeFilter, if_neg (by simp [bounded])] at compiled
  obtain ⟨⟨⟩, _, later⟩ := bind_eq_ok_iff.mp compiled
  obtain ⟨other, resolved, rest⟩ := bind_eq_ok_iff.mp later
  cases (Bindings.resolve_eq_ok_iff.mp resolved).symm.trans target
  obtain ⟨condition, made, same⟩ := bind_eq_ok_iff.mp rest
  obtain ⟨checked, compares, compared, found, whole⟩ := Condition.ofRange_eq_ok_iff.mp made
  obtain ⟨comparison, rfl, filled⟩ := Condition.rangeComparison_eq_ok bounded found
  cases same
  cases whole
  exact ⟨FilterCollection.isInverted_of_checkBounds checked, compares, comparison, found, filled, rfl⟩

end EventSieve
