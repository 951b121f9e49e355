import EventSieve.Proofs.Clause.Placeholders
import EventSieve.Proofs.Clause.Truth
import EventSieve.Proofs.Traversal

/-!
# Clauses are read back

A database takes a clause text apart, gives every marker the next parameter, finds
the parameter behind every reference, and is left with tests of columns. What it
gets from the clause of conditions are the tests that the conditions ask for, in
every dialect: an array and a row of parameters give the same values, and a marker
gives what its position gives.

A test without values cannot be written as a row, so a condition of membership
has to have some; a set filter only becomes one when it has.
-/

namespace EventSieve.Clause

open EventSieve.Filter (Mode)

/-- Gives every marker the next position. -/
def numberMarkers : Nat → List Token → List Token
  | _, [] => []
  | next, .reference .marker :: rest =>
    .reference (.position next) :: numberMarkers (next + 1) rest
  | next, token :: rest => token :: numberMarkers next rest

/-- The parameter that a reference refers to. A marker without a position refers to
none. -/
def lookup? (parameters : List Parameter) : Reference → Option Parameter
  | .position 0 => none
  | .position (index + 1) => parameters[index]?
  | .named name => parameters.find? fun parameter => parameter.name == some name
  | .marker => none

/-- The single value of a parameter. -/
def scalarOf? (parameter : Parameter) : Option Cell :=
  match parameter.value with
  | .scalar value => some value
  | .array _ => none

/-- The values of a parameter that is an array. -/
def arrayOf? (parameter : Parameter) : Option (List Cell) :=
  match parameter.value with
  | .scalar _ => none
  | .array values => some values

/-- The values behind the word IN. -/
def Operand.values? (find? : Reference → Option Parameter) : Operand → Option (List Cell)
  | .array reference => (find? reference).bind arrayOf?
  | .row references => references.mapM fun reference => (find? reference).bind scalarOf?

/-- The test of a predicate, once its parameters are found. -/
def Predicate.test? (find? : Reference → Option Parameter) : Predicate → Option Test
  | .equal left right => some (.constant (left = right))
  | .among column negated operand => (operand.values? find?).map (.among column negated)
  | .between column negated lower upper => do
    let lower ← (find? lower).bind scalarOf?
    let upper ← (find? upper).bind scalarOf?
    return .between column negated lower upper
  | .less column bound => ((find? bound).bind scalarOf?).map (.less column)
  | .greater column bound => ((find? bound).bind scalarOf?).map (.greater column)

/-- The tests that a database reads from a clause. -/
def tests? (dialect : Dialect) (clause : Clause) : Option (List Test) := do
  let tokens ← tokens? dialect clause.text.toList
  let predicates ← statement? (numberMarkers 1 tokens)
  predicates.mapM (Predicate.test? (lookup? clause.parameters))

/-- The predicates of a clause, in which every marker has its position. -/
def predicates? (dialect : Dialect) (clause : Clause) : Option (List Predicate) := do
  let tokens ← tokens? dialect clause.text.toList
  statement? (numberMarkers 1 tokens)

/-- The truth of a clause about a row, which has a cell under each of the columns. -/
def truth? (dialect : Dialect) (clause : Clause) (cellOf? : String → Option Cell) : Option Truth := do
  let tests ← tests? dialect clause
  let truths ← tests.mapM (Test.truth? cellOf?)
  return Truth.all truths

/-- The tests of a clause are those of its predicates. -/
theorem tests?_eq (dialect : Dialect) (clause : Clause) :
    tests? dialect clause = (predicates? dialect clause).bind fun predicates =>
      predicates.mapM (Predicate.test? (lookup? clause.parameters)) :=
  (Option.bind_assoc _ _ _).symm

/-- Tokens without markers have nothing to number. -/
theorem numberMarkers_of_not_mem (next : Nat) {tokens : List Token}
    (absent : .marker ∉ references tokens) : numberMarkers next tokens = tokens := by
  induction tokens with
  | nil => rfl
  | cons token rest inductionHypothesis =>
    have step : .marker ∉ references rest := by
      intro member
      apply absent
      cases token <;> first | exact member | exact List.mem_cons_of_mem _ member
    match token with
    | .reference .marker => exact absurd List.mem_cons_self absent
    | .reference (.position _) | .reference (.named _) | .name _ | .word _ | .number _ | .sign _ =>
      simp only [numberMarkers, inductionHypothesis step]

/-- Numbering goes on behind the markers of what is in front. Only markers count; references
that carry a position or a name are left as they are, and so is every other token. -/
theorem numberMarkers_append (next : Nat) (front back : List Token) :
    numberMarkers next (front ++ back) = numberMarkers next front ++
      numberMarkers (next + (references front).count .marker) back := by
  induction front generalizing next with
  | nil => rfl
  | cons token rest inductionHypothesis =>
    match token with
    | .reference .marker =>
      have shift : next + 1 + (references rest).count .marker =
          next + (references (.reference .marker :: rest)).count .marker := by
        have counted : (references (.reference .marker :: rest)).count .marker =
            (references rest).count .marker + 1 := List.count_cons_self
        omega
      simp only [List.cons_append, numberMarkers, inductionHypothesis, shift]
    | .reference (.position _) | .reference (.named _) =>
      have same (reference : Reference) (other : reference ≠ .marker) :
          (references (.reference reference :: rest)).count .marker =
            (references rest).count .marker := List.count_cons_of_ne other
      simp only [List.cons_append, numberMarkers, inductionHypothesis]
      rw [same _ (by simp)]
    | .name _ | .word _ | .number _ | .sign _ =>
      simp only [List.cons_append, numberMarkers, inductionHypothesis]
      rfl

/-- The markers of a row get positions one after the other. -/
theorem numberMarkers_rowTokens (next count : Nat) :
    numberMarkers next (rowTokens (List.replicate count .marker)) =
      rowTokens ((List.range count).map fun index => .position (next + index)) := by
  induction count generalizing next with
  | zero => rfl
  | succ count inductionHypothesis =>
    have shift (index : Nat) : next + 1 + index = next + (index + 1) := by omega
    rw [List.range_succ_eq_map, List.map_cons, List.map_map]
    simp only [List.replicate_succ, rowTokens, numberMarkers, inductionHypothesis, shift,
      Nat.add_zero, Function.comp_def]

/-- Numbering the markers of a fragment gives the fragment of the dialect with positions.
The two dialects differ in nothing else here, as neither binds arrays, so a reader for
positions serves for markers as well. -/
theorem numberMarkers_predicateOf (before : Nat) (used : List String) (condition : Condition) :
    numberMarkers (before + 1) (predicateOf .mysql before used condition).tokens =
      (predicateOf .postgres before used condition).tokens := by
  have word (negated : Bool) (next : Nat) (rest : List Token) :
      numberMarkers next (negationTokens negated ++ rest) =
        negationTokens negated ++ numberMarkers next rest := by
    cases negated <;> rfl
  obtain ⟨⟨column, type⟩, comparison⟩ := condition
  cases comparison with
  | never => rfl
  | membership mode values =>
    simp only [predicateOf, Dialect.bindsArrays, Bool.false_eq_true, if_false, Predicate.tokens,
      numberMarkers, word]
    cases values with
    | nil => rfl
    | cons value rest =>
      have markers : (List.range rest.length).map (fun _ => Reference.marker) =
          List.replicate rest.length .marker := by
        simp [List.map_const']
      have shift (index : Nat) : before + 1 + 1 + index = before + (index + 1) + 1 := by omega
      simp only [List.length_cons, List.range_succ_eq_map, List.map_cons, List.map_map,
        Function.comp_def, referenceOf, markers, Operand.tokens, numberMarkers,
        numberMarkers_rowTokens, shift, Nat.add_zero]
  | between mode lower upper =>
    simp only [predicateOf, Predicate.tokens, numberMarkers, word]
    rfl
  | minimum mode bound => cases mode <;> rfl
  | maximum mode bound => cases mode <;> rfl

/-- A fragment with markers has one for each of its parameters. -/
theorem count_marker_predicateOf (before : Nat) (used : List String) (condition : Condition) :
    (references (predicateOf .mysql before used condition).tokens).count .marker =
      (render .mysql before used condition).parameters.length := by
  rw [references_predicateOf, referencesOf_mysql, List.count_replicate_self]

/-- The dialects without names render a condition with the same parameters and put
the same names into use. -/
theorem render_mysql_eq_postgres (before : Nat) (used : List String) (condition : Condition) :
    (render .mysql before used condition).parameters =
        (render .postgres before used condition).parameters ∧
      (render .mysql before used condition).names =
        (render .postgres before used condition).names := by
  have scalar : scalarParameter .mysql = scalarParameter .postgres := rfl
  obtain ⟨⟨column, type⟩, comparison⟩ := condition
  cases comparison <;> simp [render, Dialect.bindsArrays, scalar]

/-- The dialects without names render conditions with the same parameters. -/
theorem renderAll_mysql_parameters (before : Nat) (used : List String)
    (conditions : List Condition) :
    (renderAll .mysql before used conditions).map (·.parameters) =
      (renderAll .postgres before used conditions).map (·.parameters) := by
  induction conditions generalizing before used with
  | nil => rfl
  | cons condition rest inductionHypothesis =>
    obtain ⟨parameters, names⟩ := render_mysql_eq_postgres before used condition
    simp only [renderAll, List.map_cons, parameters, names, inductionHypothesis]

/-- Numbering the markers of fragments gives those of the dialect with positions. -/
theorem numberMarkers_furtherTokens (before : Nat) (used : List String)
    (conditions : List Condition) :
    numberMarkers (before + 1) (furtherTokens (predicatesOf .mysql before used conditions)) =
      furtherTokens (predicatesOf .postgres before used conditions) := by
  induction conditions generalizing before used with
  | nil => rfl
  | cons condition rest inductionHypothesis =>
    obtain ⟨parameters, names⟩ := render_mysql_eq_postgres before used condition
    have shift : before + 1 + (render .postgres before used condition).parameters.length =
        before + (render .postgres before used condition).parameters.length + 1 := by omega
    simp only [predicatesOf, furtherTokens, List.flatMap_cons, List.cons_append, numberMarkers]
    rw [numberMarkers_append, numberMarkers_predicateOf, count_marker_predicateOf, parameters, names,
      shift]
    exact congrArg
      (fun more => .word .andWord :: ((predicateOf .postgres before used condition).tokens ++ more))
      (inductionHypothesis _ _)

/-- Numbering the markers of a clause gives the clause of the dialect with
positions. -/
theorem numberMarkers_statementTokens (conditions : List Condition) :
    numberMarkers 1 (statementTokens (predicatesOf .mysql 0 [] conditions)) =
      statementTokens (predicatesOf .postgres 0 [] conditions) := by
  cases conditions with
  | nil => rfl
  | cons condition rest =>
    have all := numberMarkers_furtherTokens 0 [] (condition :: rest)
    exact congrArg (List.cons (.word .whereWord)) (List.cons.inj all).2

/-- Positions from one on find the parameters in their order. -/
theorem lookup?_positions (parameters : List Parameter) :
    (referencesOf .postgres 0 parameters).map (lookup? parameters) = parameters.map some := by
  rw [referencesOf_postgres, List.map_map]
  apply List.ext_getElem (by simp)
  intro index inside within
  simp only [List.length_map] at within
  simp [lookup?, List.getElem?_eq_getElem within]

/-- A parameter is found by its name when names differ from each other. -/
theorem find?_name {parameters : List Parameter} (distinct : (parameters.map (·.name)).Nodup)
    {parameter : Parameter} (member : parameter ∈ parameters) :
    parameters.find? (fun other => other.name == parameter.name) = some parameter := by
  induction parameters with
  | nil => cases member
  | cons first rest inductionHypothesis =>
    obtain ⟨apart, later⟩ := List.nodup_cons.mp distinct
    rcases List.mem_cons.mp member with rfl | inRest
    · simp
    · have different : first.name ≠ parameter.name :=
        fun same => apart (List.mem_map.mpr ⟨parameter, inRest, same.symm⟩)
      rw [List.find?_cons_of_neg (by simpa using different)]
      exact inductionHypothesis later inRest

/-- Names that differ from each other find the parameters in their order. -/
theorem lookup?_names {parameters : List Parameter} {names : List String}
    (named : parameters.map (·.name) = names.map some) (distinct : names.Nodup) :
    (referencesOf .bigquery 0 parameters).map (lookup? parameters) = parameters.map some := by
  have distinctNames : (parameters.map (·.name)).Nodup := by
    rw [named]
    exact distinct.map fun _ _ => Option.some.inj
  have byName : (names.map some).map (fun name =>
      parameters.find? fun parameter => parameter.name == name) = parameters.map some := by
    rw [← named, List.map_map]
    exact List.map_congr_left fun parameter member => find?_name distinctNames member
  rw [referencesOf_bigquery 0 named, List.map_map]
  rw [List.map_map] at byName
  exact byName

/-- Scalar parameters that are found give their values. -/
theorem mapM_scalarOf? {find? : Reference → Option Parameter} {dialect : Dialect} {name : String}
    {type : ParameterType} {references : List Reference} {values : List Cell}
    (found : references.map find? = (values.map (scalarParameter dialect name type)).map some) :
    references.mapM (fun reference => (find? reference).bind scalarOf?) = some values := by
  have steps : (references.map find?).mapM (fun parameter => parameter.bind scalarOf?) =
      some values := by
    rw [found, List.map_map, List.mapM_map]
    refine Eq.trans (b := some (values.map id)) (mapM_eq_some_map fun value _ => rfl) ?_
    rw [List.map_id]
  rwa [List.mapM_map] at steps

/-- The predicate of a condition gives the test of the condition, once its references find
its parameters. The operands of a predicate are looked up in the order in which the
parameters were made, and their values put back into its comparison. -/
theorem test?_predicateOf {find? : Reference → Option Parameter} {dialect : Dialect} {before : Nat}
    {used : List String} {condition : Condition}
    (found : (referencesOf dialect before (render dialect before used condition).parameters).map find? =
      (render dialect before used condition).parameters.map some) :
    (predicateOf dialect before used condition).test? find? =
      some (Test.ofCondition condition) := by
  obtain ⟨⟨column, type⟩, comparison⟩ := condition
  cases comparison with
  | never => rfl
  | membership mode values =>
    simp only [predicateOf, render] at found ⊢
    split at found
    · rename_i arrays
      have single := (List.cons.inj found).1
      simp only [Option.getD_some] at single
      simp only [arrays, if_true, Predicate.test?, Operand.values?, single]
      rfl
    · rename_i rows
      rw [referencesOf_scalarParameters] at found
      simp only [rows, Bool.false_eq_true, if_false, Predicate.test?, Operand.values?,
        mapM_scalarOf? found]
      rfl
  | between mode lower upper =>
    simp only [predicateOf, render, referencesOf_scalarParameter] at found ⊢
    obtain ⟨first, more⟩ := List.cons.inj found
    obtain ⟨second, _⟩ := List.cons.inj more
    simp only [Predicate.test?, first, second]
    rfl
  | minimum mode bound =>
    simp only [predicateOf, render, referencesOf_scalarParameter] at found ⊢
    have single := (List.cons.inj found).1
    cases mode
    · simp only [Predicate.test?, single]
      rfl
    · simp only [Predicate.test?, single]
      rfl
  | maximum mode bound =>
    simp only [predicateOf, render, referencesOf_scalarParameter] at found ⊢
    have single := (List.cons.inj found).1
    cases mode
    · simp only [Predicate.test?, single]
      rfl
    · simp only [Predicate.test?, single]
      rfl

/-- The predicates of conditions are read one by one, once all references find their
parameters. What is read of a predicate is left open, because tests and fragments are both
read in this way. The references of the first fragment are split from the others by the
number of its parameters. -/
theorem mapM_predicatesOf {Item : Type} {find? : Reference → Option Parameter}
    {read? : Predicate → Option Item} {itemOf : Condition → Item} {dialect : Dialect}
    (reads : ∀ {before : Nat} {used : List String} {condition : Condition},
      (referencesOf dialect before (render dialect before used condition).parameters).map find? =
          (render dialect before used condition).parameters.map some →
        read? (predicateOf dialect before used condition) = some (itemOf condition))
    {before : Nat} {used : List String} {conditions : List Condition}
    (found : (referencesOf dialect before
        ((renderAll dialect before used conditions).map (·.parameters)).flatten).map find? =
      ((renderAll dialect before used conditions).map (·.parameters)).flatten.map some) :
    (predicatesOf dialect before used conditions).mapM read? = some (conditions.map itemOf) := by
  induction conditions generalizing before used with
  | nil => rfl
  | cons condition rest inductionHypothesis =>
    simp only [renderAll, List.map_cons, List.flatten_cons, referencesOf_append,
      List.map_append] at found
    have counted : ((referencesOf dialect before
        (render dialect before used condition).parameters).map find?).length =
        ((render dialect before used condition).parameters.map some).length := by
      rw [List.length_map, List.length_map, length_referencesOf]
    obtain ⟨own, later⟩ := List.append_inj found counted
    rw [predicatesOf, List.mapM_cons, reads own, inductionHypothesis later]
    rfl

/-- Every set that conditions compare with has values, so every row of parameters has some.
A row without any parameters could not be told from a syntax error, and it is never written. -/
theorem isFilled_predicatesOf {dialect : Dialect} {before : Nat} {used : List String}
    {conditions : List Condition}
    (filled : ∀ condition ∈ conditions, condition.comparison.IsFilled) :
    ∀ predicate ∈ predicatesOf dialect before used conditions, predicate.IsFilled := by
  induction conditions generalizing before used with
  | nil => simp [predicatesOf]
  | cons condition rest inductionHypothesis =>
    obtain ⟨own, later⟩ := List.forall_mem_cons.mp filled
    refine List.forall_mem_cons.mpr ⟨?_, inductionHypothesis later⟩
    obtain ⟨⟨column, type⟩, comparison⟩ := condition
    cases comparison with
    | never => trivial
    | membership mode values =>
      simp only [predicateOf]
      split
      · trivial
      · obtain ⟨value, more, rfl⟩ := List.exists_cons_of_ne_nil own
        simp [Predicate.IsFilled, Operand.IsFilled, List.range_succ_eq_map]
    | between mode lower upper => trivial
    | minimum mode bound => cases mode <;> trivial
    | maximum mode bound => cases mode <;> trivial

/-- A clause of conditions is read as predicates of the conditions, and their references
find its parameters. Once markers have positions they are those of the dialect with
positions, which has the same parameters. A reader that looks parameters up by position
therefore serves for both, and one that looks them up by name needs that names differ. -/
theorem predicates?_whereClause (dialect : Dialect) {conditions : List Condition}
    (filled : ∀ condition ∈ conditions, condition.comparison.IsFilled) :
    ∃ spelled, predicates? dialect (whereClause dialect conditions) =
        some (predicatesOf spelled 0 [] conditions) ∧
      (referencesOf spelled 0 ((renderAll spelled 0 [] conditions).map (·.parameters)).flatten).map
          (lookup? (whereClause dialect conditions).parameters) =
        ((renderAll spelled 0 [] conditions).map (·.parameters)).flatten.map some := by
  have reads (spelled : Dialect)
      (numbered : numberMarkers 1 (statementTokens (predicatesOf dialect 0 [] conditions)) =
        statementTokens (predicatesOf spelled 0 [] conditions)) :
      predicates? dialect (whereClause dialect conditions) =
        some (predicatesOf spelled 0 [] conditions) := by
    rw [predicates?, tokens?_whereClause]
    exact (congrArg statement? numbered).trans (statement?_tokens (isFilled_predicatesOf filled))
  have unmarked (other : Dialect)
      (absent : .marker ∉ referencesOf other 0 (whereClause other conditions).parameters) :
      numberMarkers 1 (statementTokens (predicatesOf other 0 [] conditions)) =
        statementTokens (predicatesOf other 0 [] conditions) := by
    apply numberMarkers_of_not_mem 1
    rwa [references_whereClause]
  rw [parameters_whereClause]
  cases dialect with
  | bigquery =>
    obtain ⟨names, named, distinct, _⟩ := renderAll_names 0 [] conditions
    refine ⟨.bigquery, reads .bigquery (unmarked .bigquery ?_), lookup?_names named distinct⟩
    rw [parameters_whereClause, referencesOf_bigquery 0 named]
    simp
  | mysql =>
    refine ⟨.postgres, reads .postgres (numberMarkers_statementTokens conditions), ?_⟩
    rw [renderAll_mysql_parameters]
    exact lookup?_positions _
  | postgres =>
    refine ⟨.postgres, reads .postgres (unmarked .postgres ?_), lookup?_positions _⟩
    rw [referencesOf_postgres]
    simp

/-- A clause of conditions is read as the tests that the conditions ask for. -/
theorem tests?_whereClause (dialect : Dialect) {conditions : List Condition}
    (filled : ∀ condition ∈ conditions, condition.comparison.IsFilled) :
    tests? dialect (whereClause dialect conditions) = some (conditions.map Test.ofCondition) := by
  obtain ⟨spelled, read, found⟩ := predicates?_whereClause dialect filled
  rw [tests?_eq, read]
  exact mapM_predicatesOf test?_predicateOf found

/-- The truth of the test of a condition is its truth at the cell of its column. -/
theorem truth?_ofCondition {cellOf? : String → Option Cell} {condition : Condition} {cell : Cell}
    (found : cellOf? condition.binding.column = some cell) :
    (Test.ofCondition condition).truth? cellOf? =
      some ((Test.ofCondition condition).truthAt cell) := by
  obtain ⟨⟨column, type⟩, comparison⟩ := condition
  cases comparison with
  | never => rfl
  | membership mode values => simp only [Test.ofCondition, Test.truth?, Test.column?, found, Option.map_some]
  | between mode lower upper =>
    simp only [Test.ofCondition, Test.truth?, Test.column?, found, Option.map_some]
  | minimum mode bound =>
    cases mode <;> simp only [Test.ofCondition, Test.truth?, Test.column?, found, Option.map_some]
  | maximum mode bound =>
    cases mode <;> simp only [Test.ofCondition, Test.truth?, Test.column?, found, Option.map_some]

/-- A clause of conditions is true of a row exactly when the test of each condition
says yes to the cell of its column. -/
theorem truth?_whereClause (dialect : Dialect) {conditions : List Condition}
    (filled : ∀ condition ∈ conditions, condition.comparison.IsFilled)
    {cellOf? : String → Option Cell} {cellOf : Condition → Cell}
    (found : ∀ condition ∈ conditions, cellOf? condition.binding.column = some (cellOf condition)) :
    ∃ truth, truth? dialect (whereClause dialect conditions) cellOf? = some truth ∧
      (truth = .yes ↔ ∀ condition ∈ conditions,
        (Test.ofCondition condition).truthAt (cellOf condition) = .yes) := by
  have truths : (conditions.map Test.ofCondition).mapM (Test.truth? cellOf?) =
      some (conditions.map fun condition =>
        (Test.ofCondition condition).truthAt (cellOf condition)) := by
    rw [List.mapM_map]
    exact mapM_eq_some_map fun condition member => truth?_ofCondition (found condition member)
  refine ⟨_, ?_, (Truth.all_eq_yes_iff _).trans List.forall_mem_map⟩
  rw [truth?, tests?_whereClause dialect filled]
  simp only [bind, Option.bind, truths]
  rfl

end EventSieve.Clause
