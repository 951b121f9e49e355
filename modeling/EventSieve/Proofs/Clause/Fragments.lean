import EventSieve.Proofs.Clause.Reading

/-!
# One clause in every dialect

A dialect binds a set as one array or value by value, and refers to parameters by
names, positions or markers. None of this shows when a clause is taken apart: its
text, cut where fragments are joined and never inside a quoted name, has one
fragment for each condition, with the column and the operator of the condition, and
the parameters that a fragment refers to hold the values of the condition in their
order, each with the type of its parameter.

So the clauses of one collection in two dialects have the same fragments, and the
same values go to each of them. Between the bounds of a range stands the word AND as
well; it is read with the range and does not cut the text.
-/

namespace EventSieve.Clause

/-- What a fragment asks of its column. -/
inductive Operator where
  /-- The comparison `1=0`, which has no column. -/
  | never
  | among (negated : Bool)
  | between (negated : Bool)
  | less
  | greater
deriving DecidableEq, Repr

/-- A value with the type of its parameter. -/
abbrev TypedValue := Cell × ParameterType

/-- A fragment of a clause: its column, what it asks, and the values that it
consumes. -/
structure Fragment where
  column : Option String
  operator : Operator
  values : List TypedValue
deriving Repr

/-- The values of parameters in their order, an array value by value, each with the
type of its parameter. -/
def typedValues (parameters : List Parameter) : List TypedValue :=
  parameters.flatMap fun parameter => parameter.value.toList.map fun value => (value, parameter.type)

namespace Predicate

/-- The column of a predicate. -/
def column? : Predicate → Option String
  | .equal _ _ => none
  | .among column _ _ => some column
  | .between column _ _ _ => some column
  | .less column _ => some column
  | .greater column _ => some column

/-- What a predicate asks of its column. Numbers are compared only where nothing is to
pass. -/
def operator? : Predicate → Option Operator
  | .equal left right => if left = 1 ∧ right = 0 then some .never else none
  | .among _ negated _ => some (.among negated)
  | .between _ negated _ _ => some (.between negated)
  | .less _ _ => some .less
  | .greater _ _ => some .greater

/-- The fragment of a predicate, once its references find their parameters. -/
def fragment? (find? : Reference → Option Parameter) (predicate : Predicate) : Option Fragment := do
  let operator ← predicate.operator?
  let parameters ← (references predicate.tokens).mapM find?
  return ⟨predicate.column?, operator, typedValues parameters⟩

end Predicate

/-- The fragments of a clause from left to right. -/
def fragments? (dialect : Dialect) (clause : Clause) : Option (List Fragment) := do
  let predicates ← predicates? dialect clause
  predicates.mapM (Predicate.fragment? (lookup? clause.parameters))

namespace Fragment

/-- The operator of a comparison. -/
def operatorOf : Comparison → Operator
  | .never => .never
  | .membership mode _ => .among (mode = .exclude)
  | .between mode _ _ => .between (mode = .exclude)
  | .minimum .include _ | .maximum .exclude _ => .greater
  | .minimum .exclude _ | .maximum .include _ => .less

/-- The column of a comparison; the one that nothing passes has none. -/
def columnOf (column : String) : Comparison → Option String
  | .never => none
  | _ => some column

/-- The fragment that a condition is written as, in every dialect. -/
def ofCondition (condition : Condition) : Fragment where
  column := columnOf condition.binding.column condition.comparison
  operator := operatorOf condition.comparison
  values := condition.comparison.values.map fun value =>
    (value, ParameterType.ofColumn condition.binding.type)

end Fragment

/-- The values of parameters that stand behind others. -/
theorem typedValues_append (front back : List Parameter) :
    typedValues (front ++ back) = typedValues front ++ typedValues back :=
  List.flatMap_append

/-- A fragment binds the values of its condition, with the type of its column. -/
theorem typedValues_render (dialect : Dialect) (before : Nat) (used : List String)
    (condition : Condition) :
    typedValues (render dialect before used condition).parameters =
      (Fragment.ofCondition condition).values := by
  have typed : ∀ parameter ∈ (render dialect before used condition).parameters,
      parameter.type = ParameterType.ofColumn condition.binding.type := by
    obtain ⟨binding, comparison⟩ := condition
    cases comparison with
    | membership mode values => cases dialect <;> simp [render, Dialect.bindsArrays, scalarParameter]
    | never | between mode lower upper | minimum mode bound | maximum mode bound =>
      simp [render, scalarParameter]
  have pairs : ∀ parameter ∈ (render dialect before used condition).parameters,
      (parameter.value.toList.map fun value => (value, parameter.type)) =
        parameter.value.toList.map fun value =>
          (value, ParameterType.ofColumn condition.binding.type) := by
    intro parameter member
    rw [typed parameter member]
  rw [typedValues, List.flatMap_congr pairs, Fragment.ofCondition,
    ← valuesOf_render dialect before used condition, valuesOf, List.map_flatMap]

/-- Fragments bind the values of their conditions one after the other. -/
theorem typedValues_whereClause (dialect : Dialect) (conditions : List Condition) :
    typedValues (whereClause dialect conditions).parameters =
      (conditions.map Fragment.ofCondition).flatMap (·.values) := by
  have behind (before : Nat) (used : List String) :
      typedValues ((renderAll dialect before used conditions).map (·.parameters)).flatten =
        (conditions.map Fragment.ofCondition).flatMap (·.values) := by
    induction conditions generalizing before used with
    | nil => rfl
    | cons condition rest inductionHypothesis =>
      simp only [renderAll, List.map_cons, List.flatten_cons, List.flatMap_cons, typedValues_append,
        typedValues_render, inductionHypothesis]
  rw [parameters_whereClause, behind]

/-- The predicate of a condition has its column and asks what the condition asks. -/
theorem operator?_predicateOf (dialect : Dialect) (before : Nat) (used : List String)
    (condition : Condition) :
    (predicateOf dialect before used condition).operator? =
        some (Fragment.ofCondition condition).operator ∧
      (predicateOf dialect before used condition).column? =
        (Fragment.ofCondition condition).column := by
  obtain ⟨binding, comparison⟩ := condition
  cases comparison with
  | never | membership mode values | between mode lower upper => exact ⟨rfl, rfl⟩
  | minimum mode bound | maximum mode bound => cases mode <;> exact ⟨rfl, rfl⟩

/-- The predicate of a condition gives the fragment of the condition, once its
references find its parameters. -/
theorem fragment?_predicateOf {find? : Reference → Option Parameter} {dialect : Dialect}
    {before : Nat} {used : List String} {condition : Condition}
    (found : (referencesOf dialect before (render dialect before used condition).parameters).map find? =
      (render dialect before used condition).parameters.map some) :
    (predicateOf dialect before used condition).fragment? find? =
      some (Fragment.ofCondition condition) := by
  obtain ⟨operator, column⟩ := operator?_predicateOf dialect before used condition
  have parameters : (references (predicateOf dialect before used condition).tokens).mapM find? =
      some (render dialect before used condition).parameters := by
    rw [← List.forall₂_eq_eq_eq, List.forall₂_map_left_iff, List.forall₂_map_right_iff] at found
    rw [references_predicateOf]
    exact mapM_eq_some_iff.mpr found
  rw [Predicate.fragment?, operator, parameters, column]
  exact congrArg (fun values => some (Fragment.mk _ _ values))
    (typedValues_render dialect before used condition)

/-- A clause of conditions has their fragments. -/
theorem fragments?_whereClause (dialect : Dialect) {conditions : List Condition}
    (filled : ∀ condition ∈ conditions, condition.comparison.IsFilled) :
    fragments? dialect (whereClause dialect conditions) =
      some (conditions.map Fragment.ofCondition) := by
  obtain ⟨spelled, read, found⟩ := predicates?_whereClause dialect filled
  rw [fragments?, read]
  exact mapM_predicatesOf fragment?_predicateOf found

/-- A collection that has a clause in one dialect has one in every other. The clauses hold
the same values with the same types, in the same order; they are read as the same fragments,
those of the conditions of the collection; and the fragments consume these values one after
the other.

Proof: making the conditions never asks for the dialect, so both clauses render the same
ones. Each rendered fragment is read back as the fragment of its condition by the reader of
its own dialect, with its values taken from the parameters in turn; and the values of a
condition with their types do not depend on how names and places are written. -/
theorem dialects_express_one_clause {dialect : Dialect} {bindings : Bindings}
    {collection : FilterCollection} {clause : Clause}
    (compiled : ofCollection dialect bindings collection = .ok clause) (other : Dialect) :
    ∃ counterpart, ofCollection other bindings collection = .ok counterpart ∧
      typedValues clause.parameters = typedValues counterpart.parameters ∧
      ∃ conditions, Condition.ofCollection bindings collection = .ok conditions ∧
        ∃ fragments, fragments = conditions.map Fragment.ofCondition ∧
          fragments? dialect clause = some fragments ∧
          fragments? other counterpart = some fragments ∧
          fragments.flatMap (·.values) = typedValues clause.parameters := by
  obtain ⟨conditions, made, rfl⟩ := ofCollection_eq_ok_iff.mp compiled
  have filled := Condition.isFilled_of_ofCollection made
  refine ⟨whereClause other conditions, ofCollection_eq_ok_iff.mpr ⟨conditions, made, rfl⟩, ?_,
    conditions, made, conditions.map Fragment.ofCondition, rfl, ?_, ?_, ?_⟩
  · rw [typedValues_whereClause, typedValues_whereClause]
  · exact fragments?_whereClause dialect filled
  · exact fragments?_whereClause other filled
  · rw [typedValues_whereClause]

/-- Filters on columns that share a stem have one clause, bound as arrays and value by
value. -/
theorem dialects_express_one_clause_shared :
    ∃ clause, ofCollection .bigquery sharedBindings sharedFilters = .ok clause ∧
      ∃ counterpart, ofCollection .mysql sharedBindings sharedFilters = .ok counterpart ∧
        typedValues clause.parameters = typedValues counterpart.parameters ∧
        ∃ conditions, Condition.ofCollection sharedBindings sharedFilters = .ok conditions ∧
          ∃ fragments, fragments = conditions.map Fragment.ofCondition ∧
            fragments? .bigquery clause = some fragments ∧
            fragments? .mysql counterpart = some fragments ∧
            fragments.flatMap (·.values) = typedValues clause.parameters :=
  ⟨_, rfl, @dialects_express_one_clause .bigquery sharedBindings sharedFilters _ rfl .mysql⟩

end EventSieve.Clause
