import Mathlib.Data.List.Nodup
import EventSieve.Proofs.Clause.Compilation
import EventSieve.Proofs.Clause.Rendering

/-!
# References match parameters

Read from left to right, a clause refers to its parameters in their order, each
once. A fragment that stands behind others knows how many parameters they have
and which names they use, and both are carried along: the numbers go on where the
fragments before it stop, and the names stay apart from theirs.

Only a reader that leaves quoted names alone sees this. A column may be named
like a reference, and inside its quotes that is no reference.
-/

namespace EventSieve.Clause

/-- The references that a dialect writes for parameters when so many stand before
them. -/
def referencesOf (dialect : Dialect) : Nat → List Parameter → List Reference
  | _, [] => []
  | before, parameter :: rest =>
    referenceOf dialect (parameter.name.getD "") (before + 1) :: referencesOf dialect (before + 1) rest

/-- References of tokens one after the other. -/
@[simp] theorem references_append (front back : List Token) :
    references (front ++ back) = references front ++ references back :=
  List.filterMap_append

/-- A row of parameters has the references of its parameters. -/
theorem references_row (listed : List Reference) :
    references (Operand.row listed).tokens = listed := by
  have behind (more : List Reference) : references (rowTokens more) = more := by
    induction more with
    | nil => rfl
    | cons reference later inductionHypothesis =>
      exact congrArg (reference :: ·) inductionHypothesis
  cases listed with
  | nil => rfl
  | cons first more => exact congrArg (first :: ·) (behind more)

/-- References of parameters one after the other. -/
theorem referencesOf_append (dialect : Dialect) (before : Nat) (front back : List Parameter) :
    referencesOf dialect before (front ++ back) =
      referencesOf dialect before front ++ referencesOf dialect (before + front.length) back := by
  induction front generalizing before with
  | nil => rfl
  | cons parameter more inductionHypothesis =>
    have shift : before + 1 + more.length = before + (more.length + 1) := by omega
    simp only [List.cons_append, referencesOf, inductionHypothesis, List.length_cons, shift]

/-- Every parameter has one reference. -/
theorem length_referencesOf (dialect : Dialect) (before : Nat) (parameters : List Parameter) :
    (referencesOf dialect before parameters).length = parameters.length := by
  induction parameters generalizing before with
  | nil => rfl
  | cons parameter rest inductionHypothesis =>
    rw [referencesOf, List.length_cons, inductionHypothesis, List.length_cons]

/-- The reference to a scalar parameter is the one to its name and position. -/
theorem referencesOf_scalarParameter (dialect : Dialect) (before : Nat) (name : String)
    (type : ParameterType) (value : Cell) (rest : List Parameter) :
    referencesOf dialect before (scalarParameter dialect name type value :: rest) =
      referenceOf dialect name (before + 1) :: referencesOf dialect (before + 1) rest := by
  cases dialect <;> rfl

/-- A set that is bound value by value refers to as many parameters as it has
values. -/
theorem referencesOf_scalarParameters (dialect : Dialect) (before : Nat) (name : String)
    (type : ParameterType) (values : List Cell) :
    referencesOf dialect before (values.map (scalarParameter dialect name type)) =
      (List.range values.length).map fun index => referenceOf dialect name (before + index + 1) := by
  induction values generalizing before with
  | nil => rfl
  | cons value rest inductionHypothesis =>
    have shift (index : Nat) : before + 1 + index + 1 = before + (index + 1) + 1 := by omega
    rw [List.map_cons, referencesOf_scalarParameter, inductionHypothesis, List.length_cons,
      List.range_succ_eq_map, List.map_cons, List.map_map]
    simp only [shift, Function.comp_def, Nat.add_zero]

/-- The references of a rendered condition are those of its parameters. The tokens around
the operands are words, signs and the name of the column, none of which is a reference; a
row of parameters has one reference for each value of the set. -/
theorem references_predicateOf (dialect : Dialect) (before : Nat) (used : List String)
    (condition : Condition) :
    references (predicateOf dialect before used condition).tokens =
      referencesOf dialect before (render dialect before used condition).parameters := by
  have skipped (negated : Bool) : references (negationTokens negated) = [] := by
    cases negated <;> rfl
  obtain ⟨⟨column, type⟩, comparison⟩ := condition
  cases comparison with
  | never => rfl
  | membership mode values =>
    have among (operand : Operand) :
        references (Predicate.among column (mode = .exclude) operand).tokens =
          references operand.tokens := by
      refine (references_append (negationTokens _) _).trans ?_
      rw [skipped]
      rfl
    simp only [predicateOf, render]
    split
    · rw [among]
      rfl
    · rw [among, references_row, referencesOf_scalarParameters]
  | between mode minimum maximum =>
    simp only [predicateOf, render, referencesOf_scalarParameter]
    refine (references_append (negationTokens _) _).trans ?_
    rw [skipped]
    rfl
  | minimum mode bound =>
    simp only [predicateOf, render, referencesOf_scalarParameter]
    split
    · rfl
    · rfl
  | maximum mode bound =>
    simp only [predicateOf, render, referencesOf_scalarParameter]
    split
    · rfl
    · rfl

/-- The references of fragments are those of all their parameters. -/
theorem references_furtherTokens (dialect : Dialect) (before : Nat) (used : List String)
    (conditions : List Condition) :
    references (furtherTokens (predicatesOf dialect before used conditions)) =
      referencesOf dialect before
        ((renderAll dialect before used conditions).map (·.parameters)).flatten := by
  induction conditions generalizing before used with
  | nil => rfl
  | cons condition rest inductionHypothesis =>
    simp only [renderAll, List.map_cons, List.flatten_cons, predicatesOf, furtherTokens,
      List.flatMap_cons, referencesOf_append, ← references_predicateOf]
    rw [← inductionHypothesis, List.cons_append]
    exact references_append _ _

/-- The references of a clause are those of its parameters. -/
theorem references_whereClause (dialect : Dialect) (conditions : List Condition) :
    references (statementTokens (predicatesOf dialect 0 [] conditions)) =
      referencesOf dialect 0 (whereClause dialect conditions).parameters := by
  cases conditions with
  | nil => rfl
  | cons condition rest => exact references_furtherTokens dialect 0 [] (condition :: rest)

/-- The names that a fragment puts into use are new, differ from each other and can be read.
A condition takes two names at most. The second is searched for with the first in use, which
is what keeps them apart even when the column is named so that their stems meet. -/
theorem render_names (dialect : Dialect) (before : Nat) (used : List String)
    (condition : Condition) :
    (render dialect before used condition).names.Nodup ∧
      ∀ name ∈ (render dialect before used condition).names,
        name ∉ used ∧ IsParameterName name.toList := by
  obtain ⟨⟨column, type⟩, comparison⟩ := condition
  have one (suffix : String) (all : ∀ character ∈ suffix.toList, isNameChar character) :
      ([freshName used (parameterStem column ++ suffix)] : List String).Nodup ∧
        ∀ name ∈ [freshName used (parameterStem column ++ suffix)],
          name ∉ used ∧ IsParameterName name.toList := by
    refine ⟨List.nodup_singleton _, List.forall_mem_singleton.mpr ?_⟩
    exact ⟨freshName_not_mem used _, isParameterName_ofColumn used column _ all⟩
  cases comparison with
  | never => simp [render]
  | membership mode values =>
    simp only [render]
    split
    · exact one "_list" (List.all_eq_true.mp rfl)
    · exact one "_list" (List.all_eq_true.mp rfl)
  | between mode minimum maximum =>
    obtain ⟨distinct, firstNew⟩ := one "_min" (List.all_eq_true.mp rfl)
    simp only [render]
    generalize freshName used (parameterStem column ++ "_min") = first at distinct firstNew
    have secondNew := freshName_not_mem (first :: used) (parameterStem column ++ "_max")
    have secondReadable :=
      isParameterName_ofColumn (first :: used) column "_max" (List.all_eq_true.mp rfl)
    generalize freshName (first :: used) (parameterStem column ++ "_max") = second at *
    obtain ⟨different, apart⟩ := not_or.mp (mt List.mem_cons.mpr secondNew)
    refine ⟨List.nodup_cons.mpr ⟨?_, distinct⟩, List.forall_mem_cons.mpr ⟨?_, firstNew⟩⟩
    · simpa using different
    · exact ⟨apart, secondReadable⟩
  | minimum mode bound => exact one "_min" (List.all_eq_true.mp rfl)
  | maximum mode bound => exact one "_max" (List.all_eq_true.mp rfl)

/-- In a dialect that names parameters, the parameters of a fragment have the names
that it puts into use. -/
theorem render_parameters_bigquery (before : Nat) (used : List String) (condition : Condition) :
    (render .bigquery before used condition).parameters.map (·.name) =
      (render .bigquery before used condition).names.reverse.map some := by
  obtain ⟨⟨column, type⟩, comparison⟩ := condition
  have scalar (name : String) (type : ParameterType) (value : Cell) :
      (scalarParameter .bigquery name type value).name = some name := rfl
  cases comparison with
  | never => simp only [render, List.map_nil, List.reverse_nil]
  | membership mode values =>
    simp only [render, Dialect.bindsArrays, if_true, List.map_cons, List.map_nil,
      List.reverse_singleton]
  | between mode minimum maximum =>
    simp only [render, scalar, List.map_cons, List.map_nil, List.reverse_cons, List.reverse_nil,
      List.nil_append, List.cons_append]
  | minimum mode bound =>
    simp only [render, scalar, List.map_cons, List.map_nil, List.reverse_singleton]
  | maximum mode bound =>
    simp only [render, scalar, List.map_cons, List.map_nil, List.reverse_singleton]

/-- In a dialect that counts, parameters have no names. -/
theorem render_parameters_unnamed {dialect : Dialect} (counts : dialect.namesParameters = false)
    (before : Nat) (used : List String) (condition : Condition) :
    ∀ parameter ∈ (render dialect before used condition).parameters, parameter.name = none := by
  have scalar (name : String) (type : ParameterType) (value : Cell) :
      (scalarParameter dialect name type value).name = none := by
    simp [scalarParameter, counts]
  have single : dialect.bindsArrays = false := by
    revert counts
    cases dialect <;> decide
  obtain ⟨⟨column, type⟩, comparison⟩ := condition
  cases comparison with
  | never => simp [render]
  | membership mode values => simp [render, single, scalar]
  | between mode minimum maximum => simp [render, scalar]
  | minimum mode bound => simp [render, scalar]
  | maximum mode bound => simp [render, scalar]

/-- The names of fragments one after the other: the names before them stay apart from
theirs. The induction carries the names in use along: those of a fragment are in use for all
that follow, so they are not taken again. -/
theorem renderAll_names (before : Nat) (used : List String) (conditions : List Condition) :
    ∃ names : List String,
      ((renderAll .bigquery before used conditions).map (·.parameters)).flatten.map (·.name) =
        names.map some ∧
      names.Nodup ∧ ∀ name ∈ names, name ∉ used ∧ IsParameterName name.toList := by
  induction conditions generalizing before used with
  | nil => exact ⟨[], rfl, List.nodup_nil, by simp⟩
  | cons condition rest inductionHypothesis =>
    obtain ⟨distinct, new⟩ := render_names .bigquery before used condition
    have named := render_parameters_bigquery before used condition
    simp only [renderAll, List.map_cons, List.flatten_cons, List.map_append, named]
    generalize (render .bigquery before used condition).names = own at distinct new
    obtain ⟨later, same, laterDistinct, laterNew⟩ := inductionHypothesis
      (before + (render .bigquery before used condition).parameters.length) (own ++ used)
    refine ⟨own.reverse ++ later, ?_, ?_, ?_⟩
    · rw [same, List.map_append]
    · refine List.nodup_append.mpr ⟨List.nodup_reverse.mpr distinct, laterDistinct, ?_⟩
      intro name inOwn other inLater equal
      have apart := (laterNew other inLater).1
      exact apart (equal ▸ List.mem_append_left used (List.mem_reverse.mp inOwn))
    · intro name member
      rcases List.mem_append.mp member with inOwn | inLater
      · exact new name (List.mem_reverse.mp inOwn)
      · obtain ⟨apart, readable⟩ := laterNew name inLater
        exact ⟨fun old => apart (List.mem_append_right own old), readable⟩

/-- In a dialect that counts, no parameter of any fragment has a name. -/
theorem renderAll_unnamed {dialect : Dialect} (counts : dialect.namesParameters = false)
    (before : Nat) (used : List String) (conditions : List Condition) :
    ∀ parameter ∈ ((renderAll dialect before used conditions).map (·.parameters)).flatten,
      parameter.name = none := by
  induction conditions generalizing before used with
  | nil => simp [renderAll]
  | cons condition rest inductionHypothesis =>
    simp only [renderAll, List.map_cons, List.flatten_cons]
    intro parameter member
    rcases List.mem_append.mp member with own | later
    · exact render_parameters_unnamed counts before used condition parameter own
    · exact inductionHypothesis _ _ parameter later

/-- Counting dialects refer to positions from one on. -/
theorem referencesOf_postgres (before : Nat) (parameters : List Parameter) :
    referencesOf .postgres before parameters =
      (List.range parameters.length).map fun index => .position (before + index + 1) := by
  induction parameters generalizing before with
  | nil => rfl
  | cons parameter rest inductionHypothesis =>
    have shift (index : Nat) : before + 1 + index + 1 = before + (index + 1) + 1 := by omega
    rw [referencesOf, inductionHypothesis, List.length_cons, List.range_succ_eq_map, List.map_cons,
      List.map_map]
    simp only [shift, referenceOf, Function.comp_def, Nat.add_zero]

/-- A dialect with markers has one for each parameter. -/
theorem referencesOf_mysql (before : Nat) (parameters : List Parameter) :
    referencesOf .mysql before parameters = List.replicate parameters.length .marker := by
  induction parameters generalizing before with
  | nil => rfl
  | cons parameter rest inductionHypothesis =>
    rw [referencesOf, inductionHypothesis, List.length_cons, List.replicate_succ]
    rfl

/-- A dialect that names parameters refers to their names. -/
theorem referencesOf_bigquery (before : Nat) {parameters : List Parameter} {names : List String}
    (named : parameters.map (·.name) = names.map some) :
    referencesOf .bigquery before parameters = names.map .named := by
  induction parameters generalizing before names with
  | nil =>
    cases names with
    | nil => rfl
    | cons name rest => cases named
  | cons parameter rest inductionHypothesis =>
    cases names with
    | nil => cases named
    | cons name more =>
      have own : parameter.name = some name := (List.cons.inj named).1
      have later := inductionHypothesis (before + 1) (List.cons.inj named).2
      rw [referencesOf, later, own]
      rfl

/-- Whether references are those that a dialect has for parameters, in their order
and each once: the positions from one on, or as many markers, or the names, which
then differ from each other and can be read. Only in the last case do parameters
have names. -/
def Matches (dialect : Dialect) (references : List Reference) (parameters : List Parameter) : Prop :=
  match dialect with
  | .postgres =>
    references = (List.range parameters.length).map (fun index => .position (index + 1)) ∧
      ∀ parameter ∈ parameters, parameter.name = none
  | .mysql =>
    references = List.replicate parameters.length .marker ∧
      ∀ parameter ∈ parameters, parameter.name = none
  | .bigquery =>
    ∃ names : List String, parameters.map (·.name) = names.map some ∧
      references = names.map .named ∧ names.Nodup ∧ ∀ name ∈ names, IsParameterName name.toList

/-- The values that parameters hold, in their order. -/
def valuesOf (parameters : List Parameter) : List Cell :=
  parameters.flatMap fun parameter => parameter.value.toList

/-- A fragment binds the values of its condition in every dialect. -/
theorem valuesOf_render (dialect : Dialect) (before : Nat) (used : List String)
    (condition : Condition) :
    valuesOf (render dialect before used condition).parameters = condition.comparison.values := by
  obtain ⟨binding, comparison⟩ := condition
  cases comparison with
  | membership mode values =>
    cases dialect with
    | bigquery => simp [render, valuesOf, Comparison.values, Dialect.bindsArrays, ParameterValue.toList]
    | mysql | postgres =>
      simp [render, valuesOf, Comparison.values, Dialect.bindsArrays, ParameterValue.toList,
        List.flatMap_map, scalarParameter]
  | never | between mode lower upper | minimum mode bound | maximum mode bound => rfl

/-- Fragments bind the values of their conditions one after the other. -/
theorem valuesOf_renderAll (dialect : Dialect) (before : Nat) (used : List String)
    (conditions : List Condition) :
    valuesOf ((renderAll dialect before used conditions).map (·.parameters)).flatten =
      conditions.flatMap fun condition => condition.comparison.values := by
  induction conditions generalizing before used with
  | nil => rfl
  | cons condition rest inductionHypothesis =>
    have own := valuesOf_render dialect before used condition
    rw [valuesOf] at own
    simp only [renderAll, List.map_cons, List.flatten_cons, List.flatMap_cons, valuesOf,
      List.flatMap_append, own]
    congr 1
    exact inductionHypothesis _ _

/-- The parameters of a clause are those of its fragments. -/
theorem parameters_whereClause (dialect : Dialect) (conditions : List Condition) :
    (whereClause dialect conditions).parameters =
      ((renderAll dialect 0 [] conditions).map (·.parameters)).flatten := by
  cases conditions <;> rfl

/-- The references of the clause of conditions match its parameters. -/
theorem matches_whereClause (dialect : Dialect) (conditions : List Condition) :
    Matches dialect (referencesOf dialect 0 (whereClause dialect conditions).parameters)
      (whereClause dialect conditions).parameters := by
  rw [parameters_whereClause]
  cases dialect with
  | bigquery =>
    obtain ⟨names, named, distinct, new⟩ := renderAll_names 0 [] conditions
    exact ⟨names, named, referencesOf_bigquery 0 named, distinct,
      fun name member => (new name member).2⟩
  | mysql => exact ⟨referencesOf_mysql 0 _, renderAll_unnamed rfl 0 [] conditions⟩
  | postgres =>
    have positions := referencesOf_postgres 0
      ((renderAll .postgres 0 [] conditions).map (·.parameters)).flatten
    simp only [Nat.zero_add] at positions
    exact ⟨positions, renderAll_unnamed rfl 0 [] conditions⟩

/-- A clause reads as tokens from its start to its end, and the references among them match
its parameters, whatever the columns are named and however many fields share one.

Proof: the tokens of the text are those of the predicates that the conditions are rendered
as, since a quoted name is passed over as one token whatever it holds. Their references are
counted along with the parameters, in the style of the dialect: by names, which are fresh
each time, by positions, which go on from fragment to fragment, or by their order alone. -/
theorem references_match_parameters {dialect : Dialect} {bindings : Bindings}
    {collection : FilterCollection} {clause : Clause}
    (compiled : ofCollection dialect bindings collection = .ok clause) :
    ∃ tokens, tokens? dialect clause.text.toList = some tokens ∧
      Matches dialect (references tokens) clause.parameters := by
  obtain ⟨conditions, _, rfl⟩ := ofCollection_eq_ok_iff.mp compiled
  refine ⟨_, tokens?_whereClause dialect conditions, ?_⟩
  rw [references_whereClause]
  exact matches_whereClause dialect conditions

/-- Two fields on one column whose name has a quote and what look like references,
and a third on a column with the same stem. -/
def sharedBindings : Bindings :=
  ((Bindings.empty.bind .session ⟨"a\"$1 @b", .str⟩).bind .player ⟨"a\"$1 @b", .str⟩).bind
    .sessionIndex ⟨"a__1__b", .int⟩

/-- Filters on the three fields that share a stem. -/
def sharedFilters : FilterCollection :=
  let names : Filter.ElementSet .text := ⟨["a", "b"], by decide, trivial⟩
  ((FilterCollection.empty.set .session (.set ⟨.include, names⟩)).set .player
    (.set ⟨.exclude, names⟩)).set .sessionIndex (.range ⟨.include, some 1, some 9⟩)

/-- Filters on columns with one stem compile, and their references match. -/
theorem references_match_parameters_shared :
    ∃ clause, ofCollection .bigquery sharedBindings sharedFilters = .ok clause ∧
      ∃ tokens, tokens? .bigquery clause.text.toList = some tokens ∧
        Matches .bigquery (references tokens) clause.parameters :=
  ⟨_, rfl, @references_match_parameters .bigquery sharedBindings sharedFilters _ rfl⟩

end EventSieve.Clause
