import EventSieve.Proofs.Clause.MaskAgreement
import EventSieve.Proofs.Clause.Placeholders
import EventSieve.Proofs.Clause.Relabelling

/-!
# The clause of a collection joins the clauses of its filters

The clause of a collection is made in one pass, and a filter on its own in another. The
fragments that stand before a filter are only felt through the number of their parameters
and the names that they use, so the fragment of a filter in a collection is its own clause
written behind these parameters: positions go on where they stop, a name that they use
gets a number, in the text and in the parameter, and nothing else changes. The clauses
stand in the order of the fields, one for each filter that restricts something.

A collection therefore has an empty clause exactly when it has no such filter, and then
it has no masks either.
-/

namespace EventSieve

open EventSieve.Filter (Field)

namespace Clause

/-- The names that parameters have. -/
def namesOf (parameters : List Parameter) : List String :=
  parameters.filterMap (·.name)

/-- A reference behind other parameters: a position is counted on from theirs, and a name
that they have gets a number. -/
def Reference.behind (earlier : List Parameter) : Reference → Reference
  | .position number => .position (earlier.length + number)
  | .marker => .marker
  | .named name => .named (freshName (namesOf earlier) name)

end Clause

/-- A parameter behind others: a name that they have gets a number. -/
def Parameter.behind (earlier : List Parameter) (parameter : Parameter) : Parameter :=
  { parameter with name := parameter.name.map (Clause.freshName (Clause.namesOf earlier)) }

namespace Clause

/-- A clause behind the parameters of others. -/
def behind (dialect : Dialect) (earlier : List Parameter) (clause : Clause) : Clause where
  text := String.ofList (relabel dialect (Reference.behind earlier) clause.text.toList)
  parameters := clause.parameters.map (Parameter.behind earlier)

/-- Clauses one after the other, each behind the parameters of those before it. -/
def inSequence (dialect : Dialect) : List Parameter → List Clause → List Clause
  | _, [] => []
  | earlier, clause :: rest =>
    let placed := clause.behind dialect earlier
    placed :: inSequence dialect (earlier ++ placed.parameters) rest

/-- Clauses joined to one clause behind the keyword WHERE; without any nothing is
written. -/
def join (dialect : Dialect) (clauses : List Clause) : Clause :=
  if clauses.isEmpty then empty
  else
    let placed := inSequence dialect [] clauses
    ⟨"WHERE " ++ String.intercalate "\nAND " (placed.map (·.text)), placed.flatMap (·.parameters)⟩

/-- A rendered condition as a clause. -/
def Rendered.clause (rendered : Rendered) : Clause :=
  ⟨rendered.text, rendered.parameters⟩

/-- The clause of one condition. -/
def ofCondition (dialect : Dialect) (condition : Condition) : Clause :=
  (render dialect 0 [] condition).clause

/-- The name for a maximum does not depend on the one for the minimum. -/
theorem freshName_maximum (used : List String) (stem : String) :
    freshName (freshName used (stem ++ "_min") :: used) (stem ++ "_max") =
      freshName used (stem ++ "_max") := by
  obtain ⟨more, first⟩ := exists_toList_freshName used (stem ++ "_min")
  have apart {candidate : String} (later : List Char)
      (spelled : candidate.toList = (stem ++ "_max").toList ++ later) :
      candidate ∈ freshName used (stem ++ "_min") :: used ↔ candidate ∈ used := by
    refine ⟨fun member => ?_, List.mem_cons_of_mem _⟩
    refine (List.mem_cons.mp member).resolve_left ?_
    rintro rfl
    rw [first, String.toList_append, String.toList_append, List.append_assoc, List.append_assoc]
      at spelled
    have letters := List.append_cancel_left spelled
    cases letters
  apply freshName_congr
  · exact apart [] (List.append_nil _).symm
  · intro number
    exact apart _ (toList_numbered _ number)

/-- A condition on its own has its base names. -/
theorem freshName_nil (base : String) : freshName [] base = base :=
  freshName_of_unused rfl

/-- Both bounds of a condition on its own have their base names. -/
theorem freshName_maximum_alone (stem : String) :
    freshName [stem ++ "_min"] (stem ++ "_max") = stem ++ "_max" := by
  have alone := freshName_maximum [] stem
  rwa [freshName_nil, freshName_nil] at alone

section

variable {dialect : Dialect} {used : List String} {earlier : List Parameter}

/-- Whether names in use are those of parameters, in a dialect that names them. -/
def Knows (dialect : Dialect) (used : List String) (earlier : List Parameter) : Prop :=
  dialect.namesParameters = true → ∀ name, name ∈ used ↔ name ∈ namesOf earlier

/-- A fresh name is one that the parameters do not have. -/
theorem Knows.freshName_eq (known : Knows dialect used earlier)
    (named : dialect.namesParameters = true) (base : String) :
    freshName used base = freshName (namesOf earlier) base :=
  freshName_congr (known named base) fun number => known named (numbered base number)

/-- A reference to a fresh name behind other parameters. -/
theorem referenceOf_behind (known : Knows dialect used earlier) (base : String) (position : Nat) :
    referenceOf dialect (freshName used base) (earlier.length + position) =
      (referenceOf dialect base position).behind earlier := by
  cases dialect with
  | bigquery => exact congrArg Reference.named (known.freshName_eq rfl base)
  | mysql | postgres => rfl

/-- A scalar parameter of a fresh name behind others. -/
theorem scalarParameter_behind (known : Knows dialect used earlier) (base : String)
    (type : ParameterType) (value : Cell) :
    scalarParameter dialect (freshName used base) type value =
      (scalarParameter dialect base type value).behind earlier := by
  cases dialect with
  | bigquery =>
    exact congrArg (fun name => (⟨some name, type, .scalar value⟩ : Parameter))
      (known.freshName_eq rfl base)
  | mysql | postgres => rfl

/-- The predicate of a condition behind other parameters is its own predicate with the
references behind them. -/
theorem predicateOf_behind (known : Knows dialect used earlier) (condition : Condition) :
    predicateOf dialect earlier.length used condition =
      (predicateOf dialect 0 [] condition).map (Reference.behind earlier) := by
  have placed := @referenceOf_behind _ _ _ known
  obtain ⟨⟨column, type⟩, comparison⟩ := condition
  cases comparison with
  | never => rfl
  | membership mode values =>
    simp only [predicateOf, freshName_nil, Predicate.map]
    split
    · simp only [Operand.map, placed, Nat.zero_add]
    · simp only [Operand.map, List.map_map, Function.comp_def, Nat.zero_add, Nat.add_assoc, placed]
  | between mode minimum maximum =>
    simp only [predicateOf, freshName_maximum, freshName_nil, freshName_maximum_alone, Predicate.map,
      placed, Nat.zero_add]
  | minimum mode bound =>
    cases mode <;> simp only [predicateOf, freshName_nil, Predicate.map, placed, Nat.zero_add]
  | maximum mode bound =>
    cases mode <;> simp only [predicateOf, freshName_nil, Predicate.map, placed, Nat.zero_add]

/-- The parameters of a condition behind others are its own behind them. Only names and
numbers of parameters depend on what stands before, never values. A comparison with two
bounds asks for two names in turn, and the second one is searched for behind the first. -/
theorem parameters_behind (known : Knows dialect used earlier) (condition : Condition) :
    (render dialect earlier.length used condition).parameters =
      (render dialect 0 [] condition).parameters.map (Parameter.behind earlier) := by
  have placed := @scalarParameter_behind _ _ _ known
  obtain ⟨⟨column, type⟩, comparison⟩ := condition
  cases comparison with
  | never => rfl
  | membership mode values =>
    simp only [render, freshName_nil]
    split
    · rename_i arrays
      have named : dialect.namesParameters = true := by
        revert arrays
        cases dialect <;> decide
      simp only [List.map_cons, List.map_nil, Parameter.behind, Option.map_some,
        known.freshName_eq named]
    · rw [List.map_map]
      exact List.map_congr_left fun value _ => placed _ _ value
  | between mode minimum maximum =>
    simp only [render, freshName_maximum, freshName_nil, freshName_maximum_alone, List.map_cons,
      List.map_nil, placed]
  | minimum mode bound => simp only [render, freshName_nil, List.map_cons, List.map_nil, placed]
  | maximum mode bound => simp only [render, freshName_nil, List.map_cons, List.map_nil, placed]

/-- A condition that is rendered behind other parameters is its own clause behind them. -/
theorem clause_render (known : Knows dialect used earlier) (condition : Condition) :
    (render dialect earlier.length used condition).clause =
      (ofCondition dialect condition).behind dialect earlier := by
  have text : (render dialect earlier.length used condition).text =
      String.ofList (relabel dialect (Reference.behind earlier)
        (render dialect 0 [] condition).text.toList) := by
    rw [toList_text_render, relabel_predicate _ (isOf_predicateOf dialect 0 [] condition),
      ← predicateOf_behind known, ← toList_text_render, String.ofList_toList]
  rw [Rendered.clause, text, parameters_behind known]
  rfl

/-- The names in use behind a condition are those of all parameters up to it. -/
theorem Knows.render (known : Knows dialect used earlier) (condition : Condition) :
    Knows dialect ((render dialect earlier.length used condition).names ++ used)
      (earlier ++ (render dialect earlier.length used condition).parameters) := by
  intro named name
  cases dialect with
  | mysql | postgres => cases named
  | bigquery =>
    have fresh : namesOf (Clause.render .bigquery earlier.length used condition).parameters =
        (Clause.render .bigquery earlier.length used condition).names.reverse := by
      have own := congrArg (List.filterMap id)
        (render_parameters_bigquery earlier.length used condition)
      simpa [namesOf, List.filterMap_map, Function.comp_def] using own
    rw [namesOf, List.filterMap_append, List.mem_append, List.mem_append, known rfl name]
    have members : name ∈ (Clause.render .bigquery earlier.length used condition).names ↔
        name ∈ namesOf (Clause.render .bigquery earlier.length used condition).parameters := by
      rw [fresh, List.mem_reverse]
    rw [members]
    exact or_comm

/-- Conditions that are rendered one after the other are their clauses in sequence. -/
theorem map_clause_renderAll (known : Knows dialect used earlier) (conditions : List Condition) :
    (renderAll dialect earlier.length used conditions).map Rendered.clause =
      inSequence dialect earlier (conditions.map (ofCondition dialect)) := by
  induction conditions generalizing used earlier with
  | nil => rfl
  | cons condition rest inductionHypothesis =>
    have own := clause_render known condition
    have later := inductionHypothesis (known.render condition)
    rw [List.length_append] at later
    simp only [renderAll, List.map_cons, inSequence, own, later]
    rw [← own]
    rfl

end

/-- The clause of conditions joins their clauses. -/
theorem whereClause_eq_join (dialect : Dialect) (conditions : List Condition) :
    whereClause dialect conditions = join dialect (conditions.map (ofCondition dialect)) := by
  cases conditions with
  | nil => rfl
  | cons condition rest =>
    have known : Knows dialect [] [] := fun _ _ => Iff.rfl
    have placed := map_clause_renderAll known (condition :: rest)
    have texts := congrArg (List.map Clause.text) placed
    have parameters := congrArg (List.flatMap Clause.parameters) placed
    rw [List.map_map] at texts
    rw [List.flatMap_map] at parameters
    rw [whereClause, if_neg (by simp), join, if_neg (by simp), conjunction]
    simp only [← texts, ← parameters, List.flatMap_def]
    rfl

/-- The text of a condition is not empty. -/
theorem text_ofCondition_ne (dialect : Dialect) (condition : Condition) :
    (ofCondition dialect condition).text ≠ "" := by
  intro empty
  have chars : (predicateOf dialect 0 [] condition).chars dialect = [] := by
    rw [← toList_text_render]
    exact congrArg String.toList empty
  have quoted (name : String) : (dialect.identifier name).toList ≠ [] := by
    simp [Dialect.identifier, Clause.quoted]
  cases spelled : predicateOf dialect 0 [] condition with
  | equal left right => simp [spelled, Predicate.chars] at chars
  | among name negated operand | between name negated lower upper | less name bound
  | greater name bound =>
    rw [spelled] at chars
    exact quoted name (List.append_eq_nil_iff.mp chars).1

/-- The clause of conditions is empty when there are none. -/
theorem whereClause_eq_empty_iff {dialect : Dialect} {conditions : List Condition} :
    (whereClause dialect conditions).text = "" ↔ conditions = [] := by
  cases conditions with
  | nil => exact iff_of_true rfl rfl
  | cons condition rest =>
    apply iff_of_false _ (List.cons_ne_nil _ _)
    intro empty
    have chars := congrArg String.toList empty
    simp [whereClause] at chars

/-- A filter of a valid collection that has a condition has the clause of this condition on
its own as well. The way through a collection checks shapes and bounds of all fields at
first, and the way of a single filter checks its own on the way. For a valid collection both
checks pass, and the same condition is rendered. -/
theorem ofFilter_eq_ofCondition {dialect : Dialect} {bindings : Bindings} {field : Field}
    {filter : Filter field.domain} {condition : Condition}
    (valid : FilterCollection.checkField field filter = .ok ())
    (made : Condition.ofField bindings field filter = .ok (some condition)) :
    ofFilter dialect bindings field filter = .ok (ofCondition dialect condition) := by
  obtain ⟨⟨⟩, shaped, _⟩ := bind_eq_ok_iff.mp valid
  have single : conjunction dialect [condition] = ofCondition dialect condition := by
    simp [conjunction, renderAll, ofCondition, Rendered.clause]
  by_cases active : filter.isTrivial = true
  · rw [Condition.ofField, if_pos active] at made
    cases made
  · rw [Condition.ofField, if_neg active] at made
    obtain ⟨binding, resolved, found⟩ := bind_eq_ok_iff.mp made
    rw [ofFilter.eq_def, if_neg active]
    cases filter with
    | unrestricted => cases found
    | set filter =>
      have admitted : Condition.requireShape field .set = .ok () := shaped
      have own : Condition.ofSet binding filter = .ok (some condition) := found
      simp only [ofSetFilter, admitted, resolved, own, bind, Except.bind, pure, Except.pure,
        Option.toList_some, single]
    | range filter =>
      have bounded : ¬ filter.isUnbounded = true := active
      have admitted : Condition.requireShape field .range = .ok () := by
        simpa [FilterCollection.checkShape, Filter.shape?, bounded, Condition.requireShape]
          using shaped
      have own : Condition.ofRange binding filter = .ok (some condition) := found
      simp only [ofRangeFilter, if_neg bounded, admitted, resolved, own, bind, Except.bind, pure,
        Except.pure, Option.toList_some, single]

/-- A collection that has a clause has masks, and there are none exactly when no filter
restricts anything. -/
theorem exists_masks {bindings : Bindings} {collection : FilterCollection}
    {conditions : List Condition}
    (made : Condition.ofCollection bindings collection = .ok conditions) :
    ∃ masks, MaskClause.ofCollection bindings collection = .ok masks ∧
      (masks = [] ↔ collection.isEmpty = true) := by
  obtain ⟨masks, found, each, every⟩ := MaskClause.ofCollection_of_conditions made
  refine ⟨masks, found, ?_⟩
  rw [FilterCollection.isEmpty, List.isEmpty_iff, List.eq_nil_iff_forall_not_mem,
    List.eq_nil_iff_forall_not_mem]
  constructor
  · intro none field member
    have active := FilterCollection.mem_activeFields_iff.mp member
    obtain ⟨_, option⟩ := (Condition.ofCollection_eq_ok made).2.1 field
    obtain ⟨binding, _, target, _⟩ := Condition.ofField_eq_ok active option
    obtain ⟨mask, inside, _⟩ := every field binding ⟨active, target⟩
    exact none mask inside
  · intro none mask inside
    obtain ⟨field, _, ⟨active, _⟩, _⟩ := each mask inside
    exact none field (FilterCollection.mem_activeFields_iff.mpr active)

/-- A collection that has a clause has masks as well. The clause has no text, no parameters
and no masks beside it exactly when no filter restricts anything. Otherwise it joins the
clauses that the filters have on their own, one for each field whose filter restricts
something, in the order of the fields, and each behind the parameters of those before it:
there a name gets a number exactly when it is one of theirs.

Proof: the conditions of a collection belong one for one to the fields whose filters
restrict something, so there are none exactly when the collection is empty. Rendering a
condition behind others changes its parameters only by the names and places taken before,
which is what joining says; and a condition rendered with nothing before it is the clause
that its filter has on its own. -/
theorem collection_joins_filters {dialect : Dialect} {bindings : Bindings}
    {collection : FilterCollection} {clause : Clause}
    (compiled : ofCollection dialect bindings collection = .ok clause) :
    (clause = empty ↔ collection.isEmpty = true) ∧
    (clause.isEmpty = true ↔ collection.isEmpty = true) ∧
    (∃ masks, MaskClause.ofCollection bindings collection = .ok masks ∧
      (masks = [] ↔ collection.isEmpty = true)) ∧
    (∃ clauses, clause = join dialect clauses ∧
      List.Forall₂ (fun field single =>
          ofFilter dialect bindings field (collection.filter field) = .ok single ∧ single.text ≠ "")
        collection.activeFields clauses) ∧
    ∀ (used : List String) (name : String), (name ∉ used → freshName used name = name) ∧
      (name ∈ used → ∃ number, 2 ≤ number ∧ freshName used name = numbered name number ∧
        numbered name number ∉ used) := by
  obtain ⟨conditions, made, rfl⟩ := ofCollection_eq_ok_iff.mp compiled
  have steps := Condition.forall₂_activeFields made
  have valid := (Condition.ofCollection_eq_ok made).1
  have none : conditions = [] ↔ collection.isEmpty = true := by
    rw [FilterCollection.isEmpty, List.isEmpty_iff, ← List.length_eq_zero_iff, ← steps.length_eq,
      List.length_eq_zero_iff]
  have noText : (whereClause dialect conditions).text = "" ↔ collection.isEmpty = true :=
    whereClause_eq_empty_iff.trans none
  refine ⟨?_, ?_, exists_masks made, ⟨conditions.map (ofCondition dialect), ?_, ?_⟩, ?_⟩
  · constructor
    · intro nothing
      exact noText.mp (congrArg text nothing)
    · intro nothing
      rw [none.mpr nothing]
      rfl
  · rw [← noText, isEmpty, String.isEmpty_iff]
  · exact whereClause_eq_join dialect conditions
  · rw [List.forall₂_map_right_iff]
    apply steps.imp
    intro field condition own
    have checked := forM_eq_ok_iff.mp valid field field.mem_all
    exact ⟨ofFilter_eq_ofCondition checked own, text_ofCondition_ne dialect condition⟩
  · intro used name
    constructor
    · intro unused
      exact freshName_of_unused (by simpa using unused)
    · intro taken
      obtain ⟨number, low, found, free, _⟩ := freshName_of_used taken
      exact ⟨number, low, found, free⟩

/-- Filters on columns that share a stem have the clause that joins those of the filters. -/
theorem collection_joins_filters_shared :
    ∃ clause, ofCollection .bigquery sharedBindings sharedFilters = .ok clause ∧
      (clause = empty ↔ sharedFilters.isEmpty = true) ∧
      (clause.isEmpty = true ↔ sharedFilters.isEmpty = true) ∧
      (∃ masks, MaskClause.ofCollection sharedBindings sharedFilters = .ok masks ∧
        (masks = [] ↔ sharedFilters.isEmpty = true)) ∧
      (∃ clauses, clause = join .bigquery clauses ∧
        List.Forall₂ (fun field single =>
            ofFilter .bigquery sharedBindings field (sharedFilters.filter field) = .ok single ∧
              single.text ≠ "")
          sharedFilters.activeFields clauses) ∧
      ∀ (used : List String) (name : String), (name ∉ used → freshName used name = name) ∧
        (name ∈ used → ∃ number, 2 ≤ number ∧ freshName used name = numbered name number ∧
          numbered name number ∉ used) :=
  ⟨_, rfl, @collection_joins_filters .bigquery sharedBindings sharedFilters _ rfl⟩

end Clause

end EventSieve
