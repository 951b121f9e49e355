import EventSieve.Proofs.Clause.Placeholders

/-!
# Clauses keep the values of filters to their parameters

A filter without its values is an outline: its form, its mode, how many elements its
set has, and which bounds its range has. Conditions and parameters without their
values have null in place of each. The conditions of a collection without their
values are made from the outlines of its filters alone, and writing conditions
without values gives the clause without values.

So filters that differ in their values only have clauses of one text, with
parameters of the same names, types and lengths. No value can get into the text,
whether it has quotes, line breaks or what looks like a reference.
-/

namespace EventSieve

open EventSieve.Filter (Domain Field Mode)

/-- What a filter is apart from its values. -/
inductive FilterOutline where
  | unrestricted
  | set (mode : Mode) (size : Nat)
  | range (mode : Mode) (hasMinimum hasMaximum : Bool)
deriving DecidableEq, Repr

/-- The outline of a filter. -/
def Filter.outline {domain : Domain} : Filter domain → FilterOutline
  | .unrestricted => .unrestricted
  | .set filter => .set filter.mode filter.elements.size
  | .range filter => .range filter.mode filter.minimum.isSome filter.maximum.isSome

/-- A comparison with null in place of its values. -/
def Comparison.erased : Comparison → Comparison
  | .never => .never
  | .membership mode values => .membership mode (values.map fun _ => .null)
  | .between mode _ _ => .between mode .null .null
  | .minimum mode _ => .minimum mode .null
  | .maximum mode _ => .maximum mode .null

/-- A condition with null in place of its values. -/
def Condition.erased (condition : Condition) : Condition :=
  ⟨condition.binding, condition.comparison.erased⟩

/-- What a parameter holds, with null in place of each value. -/
def ParameterValue.erased : ParameterValue → ParameterValue
  | .scalar _ => .scalar .null
  | .array values => .array (values.map fun _ => .null)

/-- A parameter with null in place of its values: its name and its type, and whether it
holds one value or an array of so many. -/
def Parameter.erased (parameter : Parameter) : Parameter :=
  ⟨parameter.name, parameter.type, parameter.value.erased⟩

/-- A clause with null in place of the values of its parameters. -/
def Clause.erased (clause : Clause) : Clause :=
  ⟨clause.text, clause.parameters.map Parameter.erased⟩

/-- A rendered condition with null in place of the values of its parameters. -/
def Clause.Rendered.erased (rendered : Rendered) : Rendered :=
  ⟨rendered.text, rendered.parameters.map Parameter.erased, rendered.names⟩

namespace FilterOutline

/-- The comparison without values that filters of an outline become; filters that
restrict nothing have none. -/
def comparison? : FilterOutline → Option Comparison
  | .unrestricted => none
  | .set .include 0 => some .never
  | .set .exclude 0 => none
  | .set mode (more + 1) => some (.membership mode (List.replicate (more + 1) .null))
  | .range _ false false => none
  | .range mode true true => some (.between mode .null .null)
  | .range mode true false => some (.minimum mode .null)
  | .range mode false true => some (.maximum mode .null)

/-- The condition without values of filters of an outline. -/
def condition? (outline : FilterOutline) : Target → Option Condition
  | .column binding => outline.comparison?.map fun comparison => ⟨binding, comparison⟩
  | .composite => none
  | .missing => none

end FilterOutline

section

variable {domain : Domain}

/-- A filter that restricts nothing has no comparison. -/
theorem Filter.comparison?_of_isTrivial {filter : Filter domain}
    (trivial : filter.isTrivial = true) : filter.outline.comparison? = none := by
  cases filter with
  | unrestricted => rfl
  | set filter =>
    obtain ⟨mode, elements⟩ := filter
    simp only [isTrivial, Bool.and_eq_true, decide_eq_true_eq, Filter.ElementSet.isEmpty,
      List.isEmpty_iff] at trivial
    obtain ⟨rfl, empty⟩ := trivial
    simp only [outline, Filter.ElementSet.size, empty, List.length_nil]
    rfl
  | range filter =>
    obtain ⟨mode, minimum, maximum⟩ := filter
    simp only [isTrivial, RangeFilter.isUnbounded, Bool.and_eq_true,
      Option.isNone_iff_eq_none] at trivial
    obtain ⟨rfl, rfl⟩ := trivial
    rfl

namespace Condition

/-- The comparison of a range without its values is that of its outline. Which bounds are
there is part of the outline, and what they are is not. -/
theorem rangeComparison_erased {binding : Binding} {filter : RangeFilter domain}
    {made : Option Comparison} (compiled : rangeComparison binding filter = .ok made) :
    made.map Comparison.erased = (Filter.range filter).outline.comparison? := by
  obtain ⟨mode, minimum, maximum⟩ := filter
  match minimum, maximum with
  | none, none =>
    cases compiled
    rfl
  | some lower, some upper =>
    obtain ⟨first, _, later⟩ := bind_eq_ok_iff.mp compiled
    obtain ⟨second, _, same⟩ := bind_eq_ok_iff.mp later
    cases same
    rfl
  | some lower, none =>
    obtain ⟨first, _, same⟩ := bind_eq_ok_iff.mp compiled
    cases same
    rfl
  | none, some upper =>
    obtain ⟨first, _, same⟩ := bind_eq_ok_iff.mp compiled
    cases same
    rfl

/-- The condition of a set without its values is that of its outline: every element is bound
as one value. So of a set only its mode and the number of its elements is left, and this
number is also that of the values in the condition. -/
theorem ofSet_erased {binding : Binding} {filter : SetFilter domain} {made : Option Condition}
    (compiled : ofSet binding filter = .ok made) :
    made.map erased = (Filter.set filter).outline.condition? (.column binding) := by
  obtain ⟨mode, ⟨elements, ascending⟩⟩ := filter
  cases elements with
  | nil =>
    match mode with
    | .include =>
      cases compiled
      rfl
    | .exclude =>
      cases compiled
      rfl
  | cons element rest =>
    obtain ⟨values, bound, same⟩ := bind_eq_ok_iff.mp compiled
    cases same
    have count : values.length = rest.length + 1 := (mapM_eq_ok_iff.mp bound).length_eq.symm
    have nulls : (values.map fun _ => Cell.null) = List.replicate (rest.length + 1) .null := by
      rw [List.map_const', count]
    simp only [Option.map_some, erased, Comparison.erased, nulls]
    cases mode <;> rfl

/-- The condition of a filter without its values is that of its outline. -/
theorem ofFilter_erased {binding : Binding} {filter : Filter domain} {made : Option Condition}
    (compiled : ofFilter binding filter = .ok made) :
    made.map erased = filter.outline.condition? (.column binding) := by
  cases filter with
  | unrestricted =>
    cases compiled
    rfl
  | set filter => exact ofSet_erased compiled
  | range filter =>
    obtain ⟨_, _, comparison, compared, rfl⟩ := ofRange_eq_ok_iff.mp compiled
    rw [FilterOutline.condition?, ← rangeComparison_erased compared, Option.map_map, Option.map_map]
    rfl

/-- The condition of a field without its values is made from the outline of its filter
and from what stands behind the field. -/
theorem ofField_erased {bindings : Bindings} {field : Field} {filter : Filter field.domain}
    {made : Option Condition} (compiled : ofField bindings field filter = .ok made) :
    made.map erased = filter.outline.condition? (bindings.target field) := by
  cases active : filter.isTrivial with
  | true =>
    rw [ofField, if_pos active] at compiled
    cases compiled
    have absent := Filter.comparison?_of_isTrivial active
    cases bindings.target field with
    | column binding => simp [FilterOutline.condition?, absent]
    | composite => rfl
    | missing => rfl
  | false =>
    rw [ofField, if_neg (by simp [active])] at compiled
    obtain ⟨binding, resolved, rest⟩ := bind_eq_ok_iff.mp compiled
    rw [Bindings.resolve_eq_ok_iff.mp resolved]
    exact ofFilter_erased rest

/-- The conditions of a collection without their values are made from the outlines of its
filters. The traversal keeps the order of the fields and leaves out those without a
condition, and both can be told from the outlines. -/
theorem ofCollection_erased {bindings : Bindings} {collection : FilterCollection}
    {conditions : List Condition} (compiled : ofCollection bindings collection = .ok conditions) :
    conditions.map erased = Field.all.filterMap fun field =>
      (collection.filter field).outline.condition? (bindings.target field) := by
  obtain ⟨_, _, later⟩ := bind_eq_ok_iff.mp compiled
  obtain ⟨options, made, same⟩ := bind_eq_ok_iff.mp later
  cases same
  have steps := (mapM_eq_ok_iff.mp made).imp fun field option own =>
    @ofField_erased bindings field (collection.filter field) option own
  have erasures : options.map (Option.map erased) = Field.all.map fun field =>
      (collection.filter field).outline.condition? (bindings.target field) := by
    symm
    rw [← List.forall₂_eq_eq_eq, List.forall₂_map_left_iff, List.forall₂_map_right_iff]
    exact steps.imp fun _ _ own => own.symm
  calc (options.filterMap id).map erased
      = (options.map (Option.map erased)).filterMap id := by
        rw [List.map_filterMap, List.filterMap_map]
        rfl
    _ = _ := by
        rw [erasures, List.filterMap_map]
        rfl

end Condition

end

namespace Clause

/-- A scalar parameter without its value is that of null. -/
theorem erased_scalarParameter (dialect : Dialect) (name : String) (type : ParameterType)
    (value : Cell) :
    (scalarParameter dialect name type value).erased = scalarParameter dialect name type .null := rfl

/-- A condition without its values is rendered as the condition is, but for the values
of the parameters. -/
theorem render_erased (dialect : Dialect) (before : Nat) (used : List String)
    (condition : Condition) :
    render dialect before used condition.erased = (render dialect before used condition).erased := by
  obtain ⟨binding, comparison⟩ := condition
  cases comparison with
  | never => rfl
  | membership mode values =>
    simp only [Condition.erased, Comparison.erased, render, List.length_map, List.map_map]
    split
    · rfl
    · simp only [Rendered.erased, List.map_map, Function.comp_def, erased_scalarParameter]
  | between mode minimum maximum => rfl
  | minimum mode bound => rfl
  | maximum mode bound => rfl

/-- Conditions without their values are rendered as the conditions are, one after the
other: the names in use and the number of parameters before each are the same. -/
theorem renderAll_erased (dialect : Dialect) (before : Nat) (used : List String)
    (conditions : List Condition) :
    renderAll dialect before used (conditions.map Condition.erased) =
      (renderAll dialect before used conditions).map Rendered.erased := by
  induction conditions generalizing before used with
  | nil => rfl
  | cons condition rest inductionHypothesis =>
    have count : (render dialect before used condition).erased.parameters.length =
        (render dialect before used condition).parameters.length := List.length_map _
    simp only [List.map_cons, renderAll, render_erased, inductionHypothesis, count]
    rfl

/-- The clause of conditions without their values is the clause of the conditions without
its values. Erasing values after rendering and before it is the same, since names, places
and texts of a fragment are made without a look at its values. -/
theorem whereClause_erased (dialect : Dialect) (conditions : List Condition) :
    whereClause dialect (conditions.map Condition.erased) =
      (whereClause dialect conditions).erased := by
  cases conditions with
  | nil => rfl
  | cons condition rest =>
    have all := renderAll_erased dialect 0 [] (condition :: rest)
    rw [List.map_cons] at all
    have texts : ((renderAll dialect 0 [] (condition :: rest)).map Rendered.erased).map (·.text) =
        (renderAll dialect 0 [] (condition :: rest)).map (·.text) := by
      rw [List.map_map]
      rfl
    have parameters :
        ((renderAll dialect 0 [] (condition :: rest)).map Rendered.erased).map (·.parameters) =
          ((renderAll dialect 0 [] (condition :: rest)).map (·.parameters)).map
            (List.map Parameter.erased) := by
      rw [List.map_map, List.map_map]
      rfl
    simp only [whereClause, List.map_cons, List.isEmpty_cons, Bool.false_eq_true, if_false,
      conjunction, all, texts, parameters, erased, List.map_flatten]

/-- Collections whose filters have the same outlines have clauses of one text, and the
parameters of the clauses are the same but for their values. So no value ever reaches the
text, and a text that was prepared once serves for all values of the same outline.

Proof: the values of the conditions are erased on both sides. What is left of them is made
from the outlines, so it is the same, and erasing values commutes with rendering and does
not touch the text. -/
theorem text_independent_of_values {dialect : Dialect} {bindings : Bindings}
    {left right : FilterCollection} {leftClause rightClause : Clause}
    (alike : ∀ field, (left.filter field).outline = (right.filter field).outline)
    (leftCompiled : ofCollection dialect bindings left = .ok leftClause)
    (rightCompiled : ofCollection dialect bindings right = .ok rightClause) :
    leftClause.text = rightClause.text ∧
      leftClause.parameters.map Parameter.erased = rightClause.parameters.map Parameter.erased := by
  obtain ⟨leftConditions, leftMade, rfl⟩ := ofCollection_eq_ok_iff.mp leftCompiled
  obtain ⟨rightConditions, rightMade, rfl⟩ := ofCollection_eq_ok_iff.mp rightCompiled
  have conditions : leftConditions.map Condition.erased = rightConditions.map Condition.erased := by
    rw [Condition.ofCollection_erased leftMade, Condition.ofCollection_erased rightMade]
    simp only [alike]
  have clauses : (whereClause dialect leftConditions).erased =
      (whereClause dialect rightConditions).erased := by
    rw [← whereClause_erased, conditions, whereClause_erased]
  exact ⟨congrArg (·.text) clauses, congrArg (·.parameters) clauses⟩

/-- Filters of the same outlines as those that share a stem, with values that look like
parts of a clause. -/
def disguisedFilters : FilterCollection :=
  let names : Filter.ElementSet .text := ⟨["\" OR 1=1 --", "$1\nAND %s"], by decide, trivial⟩
  ((FilterCollection.empty.set .session (.set ⟨.include, names⟩)).set .player
    (.set ⟨.exclude, names⟩)).set .sessionIndex (.range ⟨.include, some (-7), some 12⟩)

/-- Values that look like parts of a clause leave its text as it is. -/
theorem text_independent_of_values_disguised :
    (∀ field, (sharedFilters.filter field).outline = (disguisedFilters.filter field).outline) ∧
      ∃ plain disguised, ofCollection .postgres sharedBindings sharedFilters = .ok plain ∧
        ofCollection .postgres sharedBindings disguisedFilters = .ok disguised ∧
        plain.text = disguised.text ∧
          plain.parameters.map Parameter.erased = disguised.parameters.map Parameter.erased := by
  have alike : ∀ field,
      (sharedFilters.filter field).outline = (disguisedFilters.filter field).outline := by
    intro field
    cases field <;> rfl
  exact ⟨alike, _, _, rfl, rfl,
    @text_independent_of_values .postgres sharedBindings _ _ _ _ alike rfl rfl⟩

end Clause

end EventSieve
